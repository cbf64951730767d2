/-
  TokenSpan.Proofs.StoredResults
  ──────────────────────────────
  What is stored is right, throughout a session of runs.

  In a session that starts with an empty cache, of whatever kind, every entry was stored by an
  earlier visit of a stored pass, and is the whole result of its job.  A visit that is answered with it
  has tokens that agree with those of the earlier visit in text and place, because their
  keys are the same.  If it has the same salt it has the same job, so on its own it would
  make the same of them; the values that tokens carry are the only thing that may differ.

  Main results:
  * `exists_storedBy` — every entry was stored by an earlier visit;
  * `Visit.reproduces_of_key_eq` — visits of one salt and one key make the same tokens;
  * `stored_results_are_sound` — both, at every moment of a session.
-/
import Mathlib.Data.List.Induction
import TokenSpan.Proofs.AgreeingRuns
import TokenSpan.Proofs.KeySpans
import TokenSpan.Proofs.Visits
import TokenSpan.Session

namespace TokenSpan

open ResultStore (find?)
open LawfulResultStore (find?_get? find?_insert)

/-! ## §1. Where entries come from. -/

section Entries

variable [Regex.Engine] {σ : Type} [ResultStore σ]

/--
The visit is one of the past ones: it found nothing under its key, its job succeeded, and the tokens are all
that the job made, without the cuts.
-/
def Visit.StoredAmong (c : σ) (past : List Visit) (q : Visit) (out : List Token) : Prop :=
  ∃ before after, past = before ++ q :: after ∧ find? (cacheAfter c before) q.key = none ∧
    ∃ items, (q.drive.exec q.recording (cacheAfter c before)).result = .ok items ∧
      out = items.filterMap id

theorem Visit.StoredAmong.append {c : σ} {past : List Visit} {q : Visit} {out : List Token}
    (h : q.StoredAmong c past out) (more : List Visit) : q.StoredAmong c (past ++ more) out := by
  obtain ⟨before, after, rfl, hrest⟩ := h
  exact ⟨before, after ++ more, by rw [List.append_assoc, List.cons_append], hrest⟩

variable [LawfulResultStore σ]

/-- If the cache was empty at first, every entry was stored by an earlier visit under its key. -/
theorem exists_storedBy {c : σ} (hc : ResultStore.Empty c) (past : List Visit) {key : String}
    {out : List Token} (h : find? (cacheAfter c past) key = some out) :
    ∃ q : Visit, q.key = key ∧ q.StoredAmong c past out := by
  -- induction on the visits, the last one at the end: it stores one entry, or none
  induction past using List.reverseRecOn generalizing key out with
  | nil => rw [show find? (cacheAfter c []) key = none from hc key] at h; cases h
  | append_singleton past v ih =>
      have hlast : cacheAfter c (past ++ [v]) = (v.exec (cacheAfter c past)).cache :=
        cacheAfter_append ..
      have hearlier : find? (cacheAfter c past) key = some out →
          ∃ q : Visit, q.key = key ∧ q.StoredAmong c (past ++ [v]) out := by
        intro hheld
        obtain ⟨q, hkey, hstored⟩ := ih hheld
        exact ⟨q, hkey, hstored.append [v]⟩
      rw [hlast] at h
      rcases v.step (cacheAfter c past) with ⟨found, hit⟩ | ⟨e, fails⟩ | ⟨new, entry⟩
      · rw [hit.cache, find?_get?] at h
        exact hearlier h
      · rw [fails.cache, find?_get?] at h
        exact hearlier h
      · rw [entry.cache] at h
        rcases find?_insert h with ⟨rfl, rfl⟩ | hheld
        · exact ⟨v, rfl, past, [], rfl, entry.missing, (Visit.compute_eq_ok_iff _).1 entry.compute⟩
        · rw [find?_get?] at hheld
          exact hearlier hheld

end Entries

/-! ## §2. Answers from the cache. -/

/--
On its own, without a cache, the visit makes the same tokens: as many, with the same texts and places, and
for a search with the same captures.
-/
def Visit.Reproduces [Regex.Engine] (v : Visit) (out : List Token) : Prop :=
  ∃ fresh, (v.exec Cache.off).result = .ok fresh ∧
    List.Forall₂ Token.SameSpan out fresh ∧
    ∀ r mode, v.part.job = .find r mode → List.Forall₂ Token.Alike out fresh

namespace Visit

variable [Regex.Engine] {q v : Visit} {out : List Token}

/-- What a job answers does not depend on whether events are recorded. -/
theorem answer_compute_eq (v : Visit) (recording recording' : Bool) :
    v.compute.answer recording = v.compute.answer recording' := by
  have hjob : ∀ cx, (v.part.job.run cx).answer recording = (v.part.job.run cx).answer recording' := by
    intro cx
    unfold StoredJob.run
    cases v.part.job with
    | find r mode => rw [answer_runFind, answer_runFind]
    | matching r => rfl
  unfold compute
  simp only [answer_transformFlat (uncached_job v.part.job), hjob]

/-- On tokens that agree in text and place a job makes tokens that agree in all that its replies agree in. -/
theorem exists_compute_of_sameSpan {N : Option MatchInfo → Option MatchInfo → Prop}
    (hN : ∀ m, N m m) (hjob : q.part.job = v.part.job)
    (htokens : List.Forall₂ Token.SameSpan q.tokens v.tokens)
    (hreply : ∀ cx cy : Context, cx.Agrees (fun _ _ => True) cy →
      (v.part.job.run cx).Agrees (Reply.Agrees N) (v.part.job.run cy))
    (hq : q.compute.answer q.recording = .ok out) :
    ∃ fresh, v.compute.answer v.recording = .ok fresh ∧
      List.Forall₂ (Token.Agrees N) out fresh := by
  rw [answer_compute_eq q q.recording v.recording] at hq
  unfold compute at hq ⊢
  rw [hjob] at hq
  have hagree := agrees_transformFlat hN hreply htokens q.part.keepProperties v.part.keepProperties
  exact (hagree v.recording .off .off .off).result.exists_ok hq

/-- A visit makes the same tokens as another one of the same salt and key. -/
theorem reproduces_of_key_eq (hsalt : v.part.job.salt = q.part.job.salt) (hkey : v.key = q.key)
    (hq : q.compute.answer q.recording = .ok out) : v.Reproduces out := by
  -- the salt tells the job, and the rest of the key tells texts and places
  have hjob : q.part.job = v.part.job := (StoredJob.eq_of_salt_eq hsalt).symm
  have htokens : List.Forall₂ Token.SameSpan q.tokens v.tokens := by
    unfold key at hkey
    rw [hsalt] at hkey
    exact cacheKey_eq_iff.1 hkey.symm
  obtain ⟨fresh, hfresh, hspans⟩ := exists_compute_of_sameSpan (fun _ => trivial) hjob htokens
    (fun _ _ hcx => agrees_job (fun _ => trivial) v.part.job hcx) hq
  refine ⟨fresh, (v.answer_run v.recording).trans hfresh, hspans, fun r mode hsearch => ?_⟩
  -- a search sees the text alone, so it captures the same
  have hreply : ∀ cx cy : Context, cx.Agrees (fun _ _ => True) cy →
      (v.part.job.run cx).Agrees (Reply.Agrees Eq) (v.part.job.run cy) := by
    intro cx cy hcx
    rw [hsearch]
    exact agrees_runFind (fun _ => rfl) r mode hcx.token.value
  obtain ⟨fresh', hfresh', halike⟩ :=
    exists_compute_of_sameSpan (fun _ => rfl) hjob htokens hreply hq
  rw [hfresh] at hfresh'
  rw [Except.ok.inj hfresh']
  exact halike

/-- A visit whose job fails stores nothing, whether it is answered from the cache or not. -/
theorem stores_nothing_of_error {σ : Type} [ResultStore σ] [LawfulResultStore σ] {e : Fault} {c : σ}
    (h : (v.drive.exec v.recording c).result = .error e) :
    (∀ key, find? (v.exec c).cache key = find? c key) ∧
      ∀ key count, CacheCall.set key count ∉ (v.exec c).calls := by
  rcases v.step c with ⟨found, hit⟩ | ⟨e', fails⟩ | ⟨out, entry⟩
  · rw [hit.cache, hit.calls]
    exact ⟨find?_get? c v.key, by simp⟩
  · rw [fails.cache, fails.calls]
    exact ⟨find?_get? c v.key, by simp⟩
  · obtain ⟨items, hitems, _⟩ := (compute_eq_ok_iff c).1 entry.compute
    rw [h] at hitems
    cases hitems

end Visit

/-! ## §3. Sessions. -/

section Sessions

variable [Regex.Engine] {σ : Type} [ResultStore σ]

/-- For each run of a session, visits of stored passes inside its pass that account for all it did to the cache. -/
inductive SessionLog :
    σ → List PassRun → List (Outcome σ Answer) → List (List Visit) → Prop where
  /-- Nothing was run. -/
  | nil (c : σ) : SessionLog c [] [] []
  /-- The visits of the first run; the session goes on from the cache they lead to. -/
  | cons {c : σ} {r : PassRun} {o : Outcome σ Answer} {visits : List Visit} {runs : List PassRun}
      {outcomes : List (Outcome σ Answer)} {logs : List (List Visit)}
      (h : o.MadeBy r.recording c r.pass.storedParts visits)
      (rest : SessionLog o.cache runs outcomes logs) :
      SessionLog c (r :: runs) (o :: outcomes) (visits :: logs)

/-- Every session of runs has a log. -/
theorem exists_sessionLog (c : σ) (runs : List PassRun) :
    ∃ logs, SessionLog c runs (performAll c (runs.map PassRun.step)) logs := by
  induction runs generalizing c with
  | nil => exact ⟨[], .nil c⟩
  | cons r rest ih =>
      have hcomposes := follows_composes r.pass.storedParts
      obtain ⟨visits, hvisits⟩ := hcomposes.bind (r.pass.follows r.tokens)
        (fun out => hcomposes.pure (Answer.tokens out)) r.recording c
      obtain ⟨logs, hlogs⟩ := ih (r.step.exec c).cache
      exact ⟨visits :: logs, .cons hvisits hlogs⟩

/-- After the past visits everything in the cache is right. -/
structure SoundAfter (c : σ) (past : List Visit) : Prop where
  /--
  Each entry is the whole result of an earlier visit under its key; a visit of the same salt that looks
  there is answered with it, and would make the same tokens on its own.
  -/
  entries : ∀ key out, find? (cacheAfter c past) key = some out →
    ∃ q : Visit, q.key = key ∧ q.StoredAmong c past out ∧
      ∀ v : Visit, v.key = key → v.part.job.salt = q.part.job.salt →
        (v.exec (cacheAfter c past)).result = .ok out ∧ v.Reproduces out
  /-- A visit whose job fails stores nothing. -/
  failing : ∀ (v : Visit) (e : Fault),
    (v.drive.exec v.recording (cacheAfter c past)).result = .error e →
      (∀ key, find? (v.exec (cacheAfter c past)).cache key = find? (cacheAfter c past) key) ∧
        ∀ key count, CacheCall.set key count ∉ (v.exec (cacheAfter c past)).calls

variable [LawfulResultStore σ]

/-- If the cache was empty at first, everything in it is right after any visits. -/
theorem soundAfter {c : σ} (hc : ResultStore.Empty c) (past : List Visit) : SoundAfter c past where
  entries := by
    intro key out hheld
    obtain ⟨q, hkey, hstored⟩ := exists_storedBy hc past hheld
    refine ⟨q, hkey, hstored, fun v hv hsalt => ?_⟩
    obtain ⟨before, after, _, _, hitems⟩ := hstored
    have hcompute := (Visit.compute_eq_ok_iff _).2 hitems
    refine ⟨?_, Visit.reproduces_of_key_eq hsalt (hv.trans hkey.symm) hcompute⟩
    rw [← hv] at hheld
    exact (Visit.hit_of_held hheld).result
  failing := fun _ _ hfails => Visit.stores_nothing_of_error hfails

/--
In a session of runs that starts with an empty cache, visits of the stored passes inside the passes account
for all use of the cache, and at every moment between two visits everything in the cache is right.
-/
theorem stored_results_are_sound {c : σ} (hc : ResultStore.Empty c) (runs : List PassRun) :
    ∃ logs, SessionLog c runs (performAll c (runs.map PassRun.step)) logs ∧
      ∀ past rest, logs.flatten = past ++ rest → SoundAfter c past := by
  obtain ⟨logs, hlogs⟩ := exists_sessionLog c runs
  exact ⟨logs, hlogs, fun past _ _ => soundAfter hc past⟩

end Sessions

/--
Words of a text, found under one setting, looked for under another one after a run that failed midway: the
second search is answered from the cache.  Events are recorded in the last run only.
-/
theorem words_found_again_are_sound :
    let cache := Cache.recent (.ofCapacity 2)
    let tokens := [Token.root "ein Wort"]
    let words (keepProperties : Bool) : Pass := .stored keepProperties (.find Preset.words.regex .matches)
    let fails : Pass := .each true (.function fun _ => .error (.reported "no result"))
    let runs : List PassRun := [⟨false, words true, tokens⟩,
      ⟨false, Settings.chain {} [words true, fails], tokens⟩, ⟨true, words false, tokens⟩]
    let key := cacheKey (StoredJob.find Preset.words.regex .matches).salt tokens
    ResultStore.Empty cache ∧
      (performAll cache (runs.map PassRun.step)).map (·.calls)
        = [[.get key false, .set key 2], [.get key true], [.get key true]] ∧
      ∃ logs, SessionLog cache runs (performAll cache (runs.map PassRun.step)) logs ∧
        ∀ past rest, logs.flatten = past ++ rest → SoundAfter cache past :=
  ⟨Cache.empty_recent 2, by decide +kernel, stored_results_are_sound (Cache.empty_recent 2) _⟩

end TokenSpan
