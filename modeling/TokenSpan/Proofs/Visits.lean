/-
  TokenSpan.Proofs.Visits
  ───────────────────────
  How passes use the cache: one visit of a stored pass after the other.

  A visit is one use of a stored pass on tokens.  It looks under its key; if nothing is held
  there it drives its job over the tokens, which does not involve the cache, and stores the
  result unless the job failed.  That is all that ever happens to the cache: whatever a run
  of a pass does to it is what the visits of the stored passes inside do, one after the
  other.

  Main results:
  * `Visit.step` — all that a visit can do;
  * `Pass.follows` — a run of a pass does to the cache what its visits do.
-/
import TokenSpan.Proofs.CacheContents
import TokenSpan.Proofs.Uncached

namespace TokenSpan

open Run
open ResultStore (find?)

/-! ## §1. Runs that do not involve the cache. -/

/-- The run neither reads nor changes the cache: it does what it does without one. -/
def Run.Detached {α : Type} (x : Run α) : Prop :=
  ∀ {σ : Type} [ResultStore σ] (recording : Bool) (c : σ), x.exec recording c
    = { result := x.answer recording, cache := c, events := (x.exec recording Cache.off).events }

section Detached

variable {α β σ : Type} [ResultStore σ]

theorem Run.Detached.result {x : Run α} (hx : x.Detached) (recording : Bool) (c : σ) :
    (x.exec recording c).result = x.answer recording := by
  rw [hx recording c]

theorem detached_bind {x : Run α} {f : α → Run β} (hx : x.Detached) (hf : ∀ a, (f a).Detached) :
    (x >>= f).Detached := by
  intro σ store recording c
  unfold answer
  cases ha : x.answer recording with
  | error e =>
      have hfails : (x.exec recording c).result = .error e := (hx.result _ c).trans ha
      have hoff : (x.exec recording Cache.off).result = .error e := (hx.result _ Cache.off).trans ha
      rw [exec_bind_of_error hfails, exec_bind_of_error hoff, hx recording c]
  | ok a =>
      have hworks : (x.exec recording c).result = .ok a := (hx.result _ c).trans ha
      have hoff : (x.exec recording Cache.off).result = .ok a := (hx.result _ Cache.off).trans ha
      rw [exec_bind_of_ok hworks, exec_bind_of_ok hoff, hx recording c, hx recording Cache.off]
      dsimp only
      -- the second run starts from the same cache, and does not involve it either
      rw [hf a recording c]
      rfl

end Detached

/-- Basic runs do not involve the cache, and composed ones do not either. -/
theorem detached_composes : Run.Composes fun _ x => x.Detached where
  ofExcept := fun _ _ _ _ _ => rfl
  isRecording := fun _ _ => rfl
  record := fun _ _ _ _ _ => rfl
  recordAll := fun _ _ _ _ _ => rfl
  bind := detached_bind

/-- A property composes if composition keeps it and all runs that do not involve the cache have it. -/
theorem Run.Composes.of_detached {M : (α : Type) → Run α → Prop}
    (hM : ∀ {α : Type} {x : Run α}, x.Detached → M α x)
    (hbind : ∀ {α β : Type} {x : Run α} {f : α → Run β}, M α x → (∀ a, M β (f a)) → M β (x >>= f)) :
    Run.Composes M where
  ofExcept := fun r => hM (detached_composes.ofExcept r)
  isRecording := hM detached_composes.isRecording
  record := fun e => hM (detached_composes.record e)
  recordAll := fun es => hM (detached_composes.recordAll es)
  bind := hbind

/-! ## §2. Visits. -/

variable [Regex.Engine]

/-- One use of a stored pass. -/
structure Visit where
  /-- Whether events are recorded meanwhile. -/
  recording : Bool
  part : StoredPart
  tokens : List Token

namespace Visit

def run (v : Visit) : Run (List Token) := v.part.pass.run v.tokens

def key (v : Visit) : String := cacheKey v.part.job.salt v.tokens

/-- What the job makes of the tokens, cuts included. -/
def drive (v : Visit) : Run (List (Option Token)) :=
  transformEach v.part.keepProperties v.part.job.run v.tokens

/-- What the visit computes if nothing is held under its key: the result of its job without the cuts. -/
def compute (v : Visit) : Run (List Token) :=
  transformFlat v.part.keepProperties v.part.job.run v.tokens

/-- What a visit does once it has looked under its key. -/
def finish (v : Visit) : (found : Option (List Token)) → Run (List Token)
  | some found => do
      Run.record (.lookup true v.part.job.salt v.tokens.length)
      return found
  | none => do
      Run.record (.lookup false v.part.job.salt v.tokens.length)
      let out ← v.compute
      Run.store v.key out
      return out

/-- A visit looks under its key and then goes on with what it found. -/
theorem run_eq (v : Visit) : v.run = Run.lookup v.key >>= v.finish := by
  unfold run StoredPart.pass Pass.run remember
  congr

theorem detached_compute (v : Visit) : v.compute.Detached :=
  detached_composes.transformFlat (fun cx => detached_composes.job _ cx) _

theorem detached_drive (v : Visit) : v.drive.Detached :=
  detached_composes.transformContexts (fun cx => detached_composes.job _ cx) _

/-- Without a cache a visit answers what it computes. -/
theorem answer_run (v : Visit) (recording : Bool) :
    v.run.answer recording = v.compute.answer recording := by
  unfold run StoredPart.pass Pass.run
  exact answer_remember (uncached_transformFlat (uncached_job _) _) _ _ _

section Stores

variable {σ : Type} [ResultStore σ]

/-- What a visit leads to from a cache. -/
def exec (v : Visit) (c : σ) : Outcome σ (List Token) := v.run.exec v.recording c

/-- What a visit computes is what its job makes of the tokens, without the cuts. -/
theorem compute_eq_ok_iff {v : Visit} {out : List Token} (c : σ) :
    v.compute.answer v.recording = .ok out ↔
      ∃ items, (v.drive.exec v.recording c).result = .ok items ∧ out = items.filterMap id := by
  have hanswer : v.compute.answer v.recording
      = (v.drive.answer v.recording).bind fun items => .ok (items.filterMap id) :=
    answer_bind (uncached_transformContexts (uncached_job _) _) _ v.recording
  rw [hanswer, v.detached_drive v.recording c]
  show _ ↔ ∃ items, v.drive.answer v.recording = .ok items ∧ _
  cases v.drive.answer v.recording with
  | error e => simp [Except.bind]
  | ok items => simp [Except.bind, eq_comm]

/-! ## §3. What a visit can do. -/

/-- Something is held under the key: the visit answers it, and only the look-up touches the cache. -/
structure Hit (v : Visit) (c : σ) (found : List Token) : Prop where
  held : find? c v.key = some found
  result : (v.exec c).result = .ok found
  cache : (v.exec c).cache = (ResultStore.get? c v.key).2
  calls : (v.exec c).calls = [.get v.key true]

/-- Nothing is held under the key, and the job fails: the visit fails and stores nothing. -/
structure Failure (v : Visit) (c : σ) (e : Fault) : Prop where
  missing : find? c v.key = none
  compute : v.compute.answer v.recording = .error e
  result : (v.exec c).result = .error e
  cache : (v.exec c).cache = (ResultStore.get? c v.key).2
  calls : (v.exec c).calls = [.get v.key false]

/-- Nothing is held under the key, and the job succeeds: the visit answers its result and stores it. -/
structure Entry (v : Visit) (c : σ) (out : List Token) : Prop where
  missing : find? c v.key = none
  compute : v.compute.answer v.recording = .ok out
  result : (v.exec c).result = .ok out
  cache : (v.exec c).cache = ResultStore.insert (ResultStore.get? c v.key).2 v.key out
  calls : (v.exec c).calls = [.get v.key false, .set v.key out.length]

/-- From a cache the look-up comes first, and the rest goes on from the cache after it. -/
theorem exec_eq (v : Visit) (c : σ) :
    v.exec c
      = let rest := (v.finish (find? c v.key)).exec v.recording (ResultStore.get? c v.key).2
        { rest with calls := .get v.key (find? c v.key).isSome :: rest.calls } := by
  unfold exec
  rw [run_eq, exec_bind_of_ok rfl]
  rfl

theorem hit_of_held {v : Visit} {c : σ} {found : List Token} (h : find? c v.key = some found) :
    v.Hit c found := by
  have hexec := v.exec_eq c
  rw [h] at hexec
  exact ⟨h, by rw [hexec]; rfl, by rw [hexec]; rfl, by rw [hexec]; rfl⟩

/-- What a visit does that found nothing and whose job fails: nothing is stored. -/
theorem exec_finish_error {v : Visit} {e : Fault} (h : v.compute.answer v.recording = .error e)
    (c : σ) :
    ∃ events, (v.finish none).exec v.recording c = { result := .error e, cache := c, events } := by
  have hfails := (Run.Detached.result v.detached_compute v.recording c).trans h
  unfold finish
  rw [exec_bind_of_ok rfl]
  dsimp only [record]
  rw [exec_bind_of_error hfails, v.detached_compute v.recording c]
  exact ⟨_, rfl⟩

/-- What a visit does that found nothing and whose job succeeds: its result is stored. -/
theorem exec_finish_ok {v : Visit} {out : List Token} (h : v.compute.answer v.recording = .ok out)
    (c : σ) :
    ∃ events, (v.finish none).exec v.recording c
      = { result := .ok out, cache := ResultStore.insert c v.key out, events,
          calls := [.set v.key out.length] } := by
  have hworks := (Run.Detached.result v.detached_compute v.recording c).trans h
  unfold finish
  rw [exec_bind_of_ok rfl]
  dsimp only [record]
  rw [exec_bind_of_ok hworks, v.detached_compute v.recording c]
  exact ⟨_, rfl⟩

/-- All that a visit can do, whatever the cache is. -/
theorem step (v : Visit) (c : σ) :
    (∃ found, v.Hit c found) ∨ (∃ e, v.Failure c e) ∨ ∃ out, v.Entry c out := by
  cases hfind : find? c v.key with
  | some found => exact .inl ⟨found, hit_of_held hfind⟩
  | none =>
      -- whether anything is stored is up to the job alone
      have hexec := v.exec_eq c
      rw [hfind] at hexec
      cases hout : v.compute.answer v.recording with
      | error e =>
          obtain ⟨events, hfinish⟩ := exec_finish_error hout (ResultStore.get? c v.key).2
          rw [hfinish] at hexec
          exact .inr (.inl ⟨e, hfind, hout, by rw [hexec], by rw [hexec], by rw [hexec]; rfl⟩)
      | ok out =>
          obtain ⟨events, hfinish⟩ := exec_finish_ok hout (ResultStore.get? c v.key).2
          rw [hfinish] at hexec
          exact .inr (.inr ⟨out, hfind, hout, by rw [hexec], by rw [hexec], by rw [hexec]; rfl⟩)

end Stores

end Visit

/-! ## §4. Visits one after the other. -/

section Histories

variable {σ : Type} [ResultStore σ]

/-- The cache after visits one after the other. -/
def cacheAfter (c : σ) : List Visit → σ
  | [] => c
  | v :: rest => cacheAfter (v.exec c).cache rest

/-- The calls to the cache that visits make one after the other. -/
def callsOf (c : σ) : List Visit → List CacheCall
  | [] => []
  | v :: rest => (v.exec c).calls ++ callsOf (v.exec c).cache rest

theorem cacheAfter_append (c : σ) (vs ws : List Visit) :
    cacheAfter c (vs ++ ws) = cacheAfter (cacheAfter c vs) ws := by
  induction vs generalizing c with
  | nil => rfl
  | cons v rest ih => exact ih _

theorem callsOf_append (c : σ) (vs ws : List Visit) :
    callsOf c (vs ++ ws) = callsOf c vs ++ callsOf (cacheAfter c vs) ws := by
  induction vs generalizing c with
  | nil => rfl
  | cons v rest ih =>
      show (v.exec c).calls ++ callsOf (v.exec c).cache (rest ++ ws) = _
      rw [ih, ← List.append_assoc]
      rfl

/-- All that an outcome shows of the cache comes from visits of the given stored passes. -/
structure Outcome.MadeBy {α : Type} (recording : Bool) (c : σ) (parts : List StoredPart)
    (visits : List Visit) (o : Outcome σ α) : Prop where
  part_mem : ∀ v ∈ visits, v.part ∈ parts
  recording_eq : ∀ v ∈ visits, v.recording = recording
  cache : o.cache = cacheAfter c visits
  calls : o.calls = callsOf c visits

end Histories

/-- From every cache, the run does to the cache what visits of the given stored passes do. -/
def Run.Follows {α : Type} (parts : List StoredPart) (x : Run α) : Prop :=
  ∀ {σ : Type} [ResultStore σ] (recording : Bool) (c : σ),
    ∃ visits, (x.exec recording c).MadeBy recording c parts visits

theorem follows_of_detached {α : Type} {x : Run α} (h : x.Detached) (parts : List StoredPart) :
    x.Follows parts := by
  intro σ store recording c
  have hno : ∀ {P : Visit → Prop}, ∀ v ∈ [], P v := fun v hv => absurd hv List.not_mem_nil
  refine ⟨[], hno, hno, ?_, ?_⟩
  · rw [h recording c]
    rfl
  · rw [h recording c]
    rfl

theorem follows_bind {α β : Type} {parts : List StoredPart} {x : Run α} {f : α → Run β}
    (hx : x.Follows parts) (hf : ∀ a, (f a).Follows parts) : (x >>= f).Follows parts := by
  intro σ store recording c
  obtain ⟨visits, hpart, hrecording, hcache, hcalls⟩ := hx recording c
  cases hr : (x.exec recording c).result with
  | error e =>
      rw [exec_bind_of_error hr]
      exact ⟨visits, hpart, hrecording, hcache, hcalls⟩
  | ok a =>
      -- the second run starts from the cache that the visits of the first one lead to
      obtain ⟨more, hpart', hrecording', hcache', hcalls'⟩ := hf a recording (x.exec recording c).cache
      rw [hcache] at hcache' hcalls'
      rw [exec_bind_of_ok hr]
      refine ⟨visits ++ more, List.forall_mem_append.2 ⟨hpart, hpart'⟩,
        List.forall_mem_append.2 ⟨hrecording, hrecording'⟩, ?_, ?_⟩
      · rw [cacheAfter_append, ← hcache', hcache]
      · rw [callsOf_append, ← hcalls', ← hcalls, hcache]

theorem follows_composes (parts : List StoredPart) : Run.Composes fun _ x => x.Follows parts :=
  .of_detached (fun h => follows_of_detached h parts) follows_bind

/-- A run of a pass does to the cache what visits of the stored passes inside it do. -/
theorem Pass.follows (p : Pass) (tokens : List Token) : (p.run tokens).Follows p.storedParts := by
  refine (follows_composes p.storedParts).pass p (fun part hpart tokens σ store recording c => ?_) tokens
  -- a stored pass of the list is run by one visit
  refine ⟨[{ recording, part, tokens }], List.forall_mem_singleton.2 hpart,
    List.forall_mem_singleton.2 rfl, rfl, ?_⟩
  show _ = (Visit.exec { recording, part, tokens } c).calls ++ []
  rw [List.append_nil]
  rfl

end TokenSpan
