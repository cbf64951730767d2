/-
  TokenSpan.Proofs.Replay
  ───────────────────────
  A cache that keeps everything: what succeeded once is answered again in the same way.

  Such a cache only grows.  When a run succeeds, every key it looked under is bound, in the
  cache it leaves, to what the run used.  From any cache grown from that one the run
  therefore finds all it looks for, so it answers the same and stores nothing.

  Main results:
  * `StoredPart.settles` — a visit leaves its key bound to what it answered;
  * `Pass.settles` — runs of passes can be repeated from all grown caches;
  * `replays_are_stable` — whole sessions of runs over a cache that keeps everything.
-/
import Mathlib.Data.List.Chain
import TokenSpan.Proofs.Visits
import TokenSpan.Regex.Standard
import TokenSpan.Session

namespace TokenSpan

open Run
open ResultStore (find?)

/-! ## §1. Growing. -/

/-- The second cache holds whatever the first one holds. -/
def Cache.GrowsTo (c d : Cache) : Prop :=
  ∀ key tokens, find? c key = some tokens → find? d key = some tokens

namespace Cache.GrowsTo

theorem refl (c : Cache) : c.GrowsTo c := fun _ _ h => h

theorem trans {c d e : Cache} (h : c.GrowsTo d) (h' : d.GrowsTo e) : c.GrowsTo e :=
  fun key tokens hheld => h' key tokens (h key tokens hheld)

/-- Storing under a key that holds nothing only adds to a cache that keeps everything. -/
theorem insert {m : KeyMap (List Token)} {key : String} (h : find? (Cache.exact m) key = none)
    (tokens : List Token) : (Cache.exact m).GrowsTo (.exact (m.insert key tokens)) := by
  intro k found hfound
  rw [Cache.find?_exact] at hfound ⊢
  rw [KeyMap.get?_insert, if_neg, hfound]
  -- under the new key nothing was held
  rintro rfl
  rw [Cache.find?_exact] at h
  rw [h] at hfound
  cases hfound

end Cache.GrowsTo

/-! ## §2. Runs that can be repeated. -/

section Settling

variable {α β : Type}

/-- From the cache the run answers the result, changes nothing, and finds all it looks for. -/
structure Run.Replays (x : Run α) (recording : Bool) (m : KeyMap (List Token)) (a : α) : Prop where
  result : (x.exec recording (Cache.exact m)).result = .ok a
  cache : (x.exec recording (Cache.exact m)).cache = .exact m
  calls : ∀ call ∈ (x.exec recording (Cache.exact m)).calls, ∃ key, call = .get key true

/--
A cache that keeps everything only grows by the run; and if the run succeeds, it answers the same from
every cache grown from the one it leaves.
-/
def Run.Settles (x : Run α) : Prop :=
  ∀ recording (m : KeyMap (List Token)), ∃ left,
    (x.exec recording (Cache.exact m)).cache = .exact left ∧ (Cache.exact m).GrowsTo (.exact left) ∧
      ∀ a, (x.exec recording (Cache.exact m)).result = .ok a →
        ∀ n, (Cache.exact left).GrowsTo (.exact n) → x.Replays recording n a

/-- Runs that do not involve the cache can be repeated. -/
theorem settles_of_detached {x : Run α} (h : x.Detached) : x.Settles := by
  intro recording m
  refine ⟨m, by rw [h recording], .refl _, fun a ha n _ => ⟨?_, by rw [h recording], ?_⟩⟩
  · rw [h recording] at ha ⊢
    exact ha
  · rw [h recording]
    exact fun call hcall => absurd hcall List.not_mem_nil

/-- If both runs find all they look for, so does the composed one. -/
theorem Run.Replays.bind {x : Run α} {f : α → Run β} {recording : Bool} {m : KeyMap (List Token)}
    {a : α} {b : β} (hx : x.Replays recording m a) (hf : (f a).Replays recording m b) :
    (x >>= f).Replays recording m b := by
  have hexec := exec_bind_of_ok hx.result f
  rw [hx.cache] at hexec
  refine ⟨by rw [hexec]; exact hf.result, by rw [hexec]; exact hf.cache, ?_⟩
  rw [hexec]
  exact List.forall_mem_append.2 ⟨hx.calls, hf.calls⟩

/-- Composed runs can be repeated if their parts can. -/
theorem settles_bind {x : Run α} {f : α → Run β} (hx : x.Settles) (hf : ∀ a, (f a).Settles) :
    (x >>= f).Settles := by
  intro recording m
  obtain ⟨middle, hcache, hgrows, hreplay⟩ := hx recording m
  cases hr : (x.exec recording (Cache.exact m)).result with
  | error e =>
      refine ⟨middle, by rw [exec_bind_of_error hr, hcache], hgrows, fun a ha => ?_⟩
      rw [exec_bind_of_error hr] at ha
      cases ha
  | ok a =>
      obtain ⟨left, hcache', hgrows', hreplay'⟩ := hf a recording middle
      rw [← hcache] at hcache' hreplay'
      rw [exec_bind_of_ok hr]
      refine ⟨left, hcache', hgrows.trans hgrows', fun b hb n hn => ?_⟩
      -- what is grown from the last cache is grown from the one between the runs
      exact (hreplay a hr n (hgrows'.trans hn)).bind (hreplay' b hb n hn)

theorem settles_composes : Run.Composes fun _ x => x.Settles :=
  .of_detached settles_of_detached settles_bind

end Settling

/-! ## §3. Visits and passes. -/

section Passes

variable [Regex.Engine]

/-- Where tokens are held under its key, a visit is answered with them. -/
theorem Visit.replays_of_held {v : Visit} {m : KeyMap (List Token)} {out : List Token}
    (h : find? (Cache.exact m) v.key = some out) : v.run.Replays v.recording m out := by
  have hit : v.Hit (Cache.exact m) out := Visit.hit_of_held h
  refine ⟨hit.result, hit.cache, ?_⟩
  intro call hcall
  have hcalls : (v.run.exec v.recording (Cache.exact m)).calls = [.get v.key true] := hit.calls
  rw [hcalls] at hcall
  exact ⟨v.key, List.mem_singleton.1 hcall⟩

/-- A visit of a stored pass leaves its key bound to what it answered. -/
theorem StoredPart.settles (part : StoredPart) (tokens : List Token) :
    (part.pass.run tokens).Settles := by
  intro recording m
  let v : Visit := { recording, part, tokens }
  rcases v.step (Cache.exact m) with ⟨found, hit⟩ | ⟨e, fails⟩ | ⟨out, entry⟩
  -- answered or stored, the tokens stay under the key in every grown cache
  · refine ⟨m, hit.cache, .refl _, fun a ha n hn => ?_⟩
    have hfound : found = a := Except.ok.inj (hit.result.symm.trans ha)
    exact hfound ▸ Visit.replays_of_held (hn _ _ hit.held)
  · refine ⟨m, fails.cache, .refl _, fun a ha => ?_⟩
    cases fails.result.symm.trans ha
  · refine ⟨m.insert v.key out, entry.cache, .insert entry.missing out, fun a ha n hn => ?_⟩
    have hout : out = a := Except.ok.inj (entry.result.symm.trans ha)
    have hheld : find? (Cache.exact (m.insert v.key out)) v.key = some out := by
      rw [Cache.find?_exact, KeyMap.get?_insert, if_pos rfl]
    exact hout ▸ Visit.replays_of_held (hn _ _ hheld)

theorem Pass.settles (p : Pass) (tokens : List Token) : (p.run tokens).Settles :=
  settles_composes.pass p (fun part _ tokens => part.settles tokens) tokens

/-! ## §4. Sessions. -/

/-- A run in a session leads to a grown cache, and answers the same from all caches grown from that one. -/
theorem PassRun.settles (r : PassRun) : r.step.action.perform.Settles :=
  settles_composes.bind (r.pass.settles r.tokens) fun _ => settles_composes.pure _

theorem length_performAll {σ : Type} [ResultStore σ] (c : σ) (steps : List SessionStep) :
    (performAll c steps).length = steps.length := by
  induction steps generalizing c with
  | nil => rfl
  | cons step rest ih => exact congrArg (· + 1) (ih _)

end Passes

section Sessions

variable [Regex.Engine] {m : KeyMap (List Token)} {runs : List PassRun}

/-- The runs after the first one start from the cache that it leaves. -/
theorem performAll_map_step_cons {first : PassRun} {left : KeyMap (List Token)}
    (h : (first.step.exec (Cache.exact m)).cache = .exact left) :
    performAll (Cache.exact m) ((first :: runs).map PassRun.step)
      = first.step.exec (Cache.exact m) :: performAll (Cache.exact left) (runs.map PassRun.step) := by
  rw [← h]
  rfl

/-- Each run of a session starts from a cache grown from the first one. -/
theorem exists_start_of_mem {r : PassRun} {o : Outcome Cache Answer}
    (h : (r, o) ∈ runs.zip (performAll (Cache.exact m) (runs.map PassRun.step))) :
    ∃ start, (Cache.exact m).GrowsTo (.exact start) ∧ o = r.step.exec (Cache.exact start) := by
  induction runs generalizing m with
  | nil => cases h
  | cons first rest ih =>
      obtain ⟨left, hcache, hgrows, _⟩ := first.settles first.recording m
      rw [performAll_map_step_cons hcache, List.zip_cons_cons] at h
      rcases List.mem_cons.1 h with h | h
      · obtain ⟨rfl, rfl⟩ := Prod.mk.inj h
        exact ⟨m, .refl _, rfl⟩
      · obtain ⟨start, hstart, ho⟩ := ih h
        exact ⟨start, hgrows.trans hstart, ho⟩

/-- The later run, if it is the same one as the earlier, repeats its success and stores nothing. -/
def Repeats (earlier later : PassRun × Outcome Cache Answer) : Prop :=
  earlier.1 = later.1 → ∀ out, earlier.2.result = .ok (.tokens out) →
    later.2.result = .ok (.tokens out) ∧
      ∀ key count, CacheCall.set key count ∉ later.2.calls

theorem pairwise_repeats (m : KeyMap (List Token)) (runs : List PassRun) :
    (runs.zip (performAll (Cache.exact m) (runs.map PassRun.step))).Pairwise Repeats := by
  induction runs generalizing m with
  | nil => exact .nil
  | cons first rest ih =>
      obtain ⟨left, hcache, _, hreplay⟩ := first.settles first.recording m
      rw [performAll_map_step_cons hcache, List.zip_cons_cons]
      refine List.pairwise_cons.2 ⟨fun (r, o) hlater hsame out hout => ?_, ih left⟩
      -- the later run is the same one, from a cache grown from the one that the first run left
      obtain ⟨start, hstart, rfl⟩ := exists_start_of_mem hlater
      have hsame : first = r := hsame
      subst hsame
      have hreplays := hreplay _ hout start hstart
      refine ⟨hreplays.result, fun key count hcall => ?_⟩
      obtain ⟨_, hget⟩ := hreplays.calls _ hcall
      cases hget

theorem isChain_growsTo (m : KeyMap (List Token)) (runs : List PassRun) :
    (Cache.exact m :: (performAll (Cache.exact m) (runs.map PassRun.step)).map (·.cache)).IsChain
      Cache.GrowsTo := by
  induction runs generalizing m with
  | nil => exact .singleton _
  | cons first rest ih =>
      obtain ⟨left, hcache, hgrows, _⟩ := first.settles first.recording m
      have hcache : (first.step.exec (Cache.exact m)).cache = .exact left := hcache
      rw [performAll_map_step_cons hcache, List.map_cons, hcache]
      exact .cons_cons hgrows (ih left)

/--
In a session of runs over a cache that keeps everything, whatever it holds at first: once a run succeeded,
each later run of the same pass on the same tokens, with events recorded as before, answers the same and
stores nothing; and no run changes what is held under a key.
-/
theorem replays_are_stable (m : KeyMap (List Token)) (runs : List PassRun) :
    let outcomes := performAll (Cache.exact m) (runs.map PassRun.step)
    outcomes.length = runs.length ∧
      (runs.zip outcomes).Pairwise Repeats ∧
      (Cache.exact m :: outcomes.map (·.cache)).IsChain Cache.GrowsTo := by
  refine ⟨?_, pairwise_repeats m runs, isChain_growsTo m runs⟩
  rw [length_performAll, List.length_map]

end Sessions

/--
Words of a text that carries a value, and of the same text with another value: the second search and the
third one are answered with the tokens of the first.
-/
theorem words_are_repeated :
    let words : Pass := .stored true (.find Preset.words.regex .matches)
    let tagged (name : String) : Token := (Token.root "ein Wort").withProperty "kind" (.ofString name)
    let runs : List PassRun := [⟨true, words, [tagged "first"]⟩, ⟨true, words, [tagged "second"]⟩,
      ⟨true, words, [tagged "second"]⟩]
    let outcomes := performAll (Cache.exact .empty) (runs.map PassRun.step)
    outcomes.map (·.calls.length) = [2, 1, 1] ∧
      outcomes.length = runs.length ∧ (runs.zip outcomes).Pairwise Repeats ∧
      (Cache.exact .empty :: outcomes.map (·.cache)).IsChain Cache.GrowsTo :=
  ⟨by decide +kernel, replays_are_stable .empty _⟩

end TokenSpan
