/-
  TokenSpan.Proofs.Uncached
  ─────────────────────────
  What passes answer when there is no cache.

  Without a cache nothing that a run does is seen by a later one, so a run is a plain
  computation that may fail.  `Run.answer` reads that computation off a run.  The equations
  of §3 follow the definitions of transforms and passes, one per constructor; with them
  later proofs meet neither the cache nor the events.

  Main results:
  * `Pass.uncached` — no pass puts a cache where there is none;
  * `answer_each`, `answer_stored`, `answer_mergeRuns` — passes, one token after the other.
-/
import TokenSpan.Proofs.Composition
import TokenSpan.Proofs.Placing

namespace TokenSpan

open TokenSpan.Regex (Flags)
open TokenSpan.Finding (Mode)

namespace Run

variable {α β : Type}

/-! ## §1. Runs without a cache. -/

/-- The result of a run that has no cache. -/
def answer (recording : Bool) (x : Run α) : Except Fault α := (x.exec recording Cache.off).result

/-- The run puts no cache where there is none. -/
def Uncached (x : Run α) : Prop := ∀ recording, (x.exec recording Cache.off).cache = .off

theorem uncached_ofExcept (r : Except Fault α) : (ofExcept r).Uncached := fun _ => rfl

theorem uncached_isRecording : isRecording.Uncached := fun _ => rfl

theorem uncached_record (e : Event) : (record e).Uncached := fun _ => rfl

theorem uncached_recordAll (es : List Event) : (recordAll es).Uncached := fun _ => rfl

theorem uncached_lookup (key : String) : (lookup key).Uncached := fun _ => rfl

theorem uncached_store (key : String) (tokens : List Token) : (store key tokens).Uncached :=
  fun _ => rfl

theorem uncached_bind {x : Run α} {f : α → Run β} (hx : x.Uncached) (hf : ∀ a, (f a).Uncached) :
    (x >>= f).Uncached := by
  intro recording
  cases hr : (x.exec recording Cache.off).result with
  | error e =>
      rw [exec_bind_of_error hr]
      exact hx recording
  | ok a =>
      rw [exec_bind_of_ok hr, hx recording]
      exact hf a recording

/-- Runs without a cache compose like computations that may fail. -/
theorem answer_bind {x : Run α} (hx : x.Uncached) (f : α → Run β) (recording : Bool) :
    (x >>= f).answer recording = (x.answer recording).bind fun a => (f a).answer recording := by
  unfold answer
  cases hr : (x.exec recording Cache.off).result with
  | error e => rw [exec_bind_of_error hr, Except.bind]
  | ok a =>
      -- the second run starts without a cache, too
      rw [exec_bind_of_ok hr, hx recording]
      rfl

@[simp] theorem answer_ofExcept (r : Except Fault α) (recording : Bool) :
    (ofExcept r).answer recording = r := rfl

@[simp] theorem answer_isRecording (recording : Bool) :
    isRecording.answer recording = .ok recording := rfl

@[simp] theorem answer_record (e : Event) (recording : Bool) :
    (record e).answer recording = .ok () := rfl

@[simp] theorem answer_store (key : String) (tokens : List Token) (recording : Bool) :
    (store key tokens).answer recording = .ok () := rfl

/-- A missing cache holds nothing. -/
@[simp] theorem answer_lookup (key : String) (recording : Bool) :
    (lookup key).answer recording = .ok none := rfl

end Run

open Run

/-! ## §2. No pass makes a cache. -/

/-- Basic runs put no cache where there is none, and composed ones do not either. -/
theorem uncached_composes : Run.Composes fun _ x => x.Uncached where
  ofExcept := uncached_ofExcept
  isRecording := uncached_isRecording
  record := uncached_record
  recordAll := uncached_recordAll
  bind := uncached_bind

theorem uncached_transformContexts {keepProperties : Bool} {f : Context → Run Reply}
    (hf : ∀ cx, (f cx).Uncached) (cxs : List Context) :
    (transformContexts keepProperties f cxs).Uncached :=
  uncached_composes.transformContexts hf cxs

theorem uncached_transformFlat {keepProperties : Bool} {f : Context → Run Reply}
    (hf : ∀ cx, (f cx).Uncached) (tokens : List Token) :
    (transformFlat keepProperties f tokens).Uncached :=
  uncached_composes.transformFlat hf tokens

theorem uncached_reportToken (label : String) (t : Token) : (reportToken label t).Uncached :=
  uncached_composes.reportToken label t

section Passes

variable [Regex.Engine]

theorem uncached_job (job : StoredJob) (cx : Context) : (job.run cx).Uncached :=
  uncached_composes.job job cx

/-- Where there is no cache, storing puts none there. -/
theorem uncached_storedParts (parts : List StoredPart) :
    Run.Composes.OfParts (fun _ x => x.Uncached) parts := by
  intro part _ tokens
  unfold StoredPart.pass Pass.run
  exact uncached_composes.remember uncached_lookup uncached_store
    (uncached_transformFlat (uncached_job part.job) tokens) _ _

/-- No transform puts a cache where there is none. -/
theorem Transform.uncached (f : Transform) (cx : Context) : (f.run cx).Uncached :=
  uncached_composes.transform f (uncached_storedParts _) cx

theorem uncached_runChain (passes : List Pass) (tokens : List Token) :
    (runChain passes tokens).Uncached :=
  uncached_composes.runChain passes (uncached_storedParts _) tokens

/-- No pass puts a cache where there is none. -/
theorem Pass.uncached (p : Pass) (tokens : List Token) : (p.run tokens).Uncached :=
  uncached_composes.pass p (uncached_storedParts _) tokens

end Passes

/-! ## §3. Answers, constructor by constructor. -/

/-- The replies of a computation for the tokens of the contexts, placed one after the other. -/
def expandAll (keepProperties : Bool) (f : Context → Except Fault Reply) :
    List Context → Except Fault (List (Option Token))
  | [] => .ok []
  | cx :: rest =>
      (f cx).bind fun reply =>
        (placeReply keepProperties cx.token reply).bind fun items =>
          (expandAll keepProperties f rest).map (items ++ ·)

theorem expandAll_cons_eq_ok_iff {keepProperties : Bool} {f : Context → Except Fault Reply}
    {cx : Context} {rest : List Context} {items : List (Option Token)} :
    expandAll keepProperties f (cx :: rest) = .ok items ↔
      ∃ reply first more, f cx = .ok reply ∧ placeReply keepProperties cx.token reply = .ok first ∧
        expandAll keepProperties f rest = .ok more ∧ items = first ++ more := by
  show (f cx).bind _ = _ ↔ _
  rw [bind_eq_ok_iff]
  constructor
  · rintro ⟨reply, hreply, hplaced⟩
    obtain ⟨first, hfirst, hrest⟩ := bind_eq_ok_iff.1 hplaced
    cases hmore : expandAll keepProperties f rest with
    | error e => rw [hmore] at hrest; cases hrest
    | ok more =>
        rw [hmore] at hrest
        exact ⟨reply, first, more, hreply, hfirst, rfl, (Except.ok.inj hrest).symm⟩
  · rintro ⟨reply, first, more, hreply, hfirst, hmore, rfl⟩
    refine ⟨reply, hreply, bind_eq_ok_iff.2 ⟨first, hfirst, ?_⟩⟩
    rw [hmore]
    rfl

theorem answer_transformContexts {f : Context → Run Reply} (hf : ∀ cx, (f cx).Uncached)
    (keepProperties recording : Bool) (cxs : List Context) :
    (transformContexts keepProperties f cxs).answer recording
      = expandAll keepProperties (fun cx => (f cx).answer recording) cxs := by
  induction cxs with
  | nil => rfl
  | cons cx rest ih =>
      have hrest : (transformContexts keepProperties f rest).Uncached :=
        uncached_transformContexts hf rest
      unfold transformContexts expandAll
      rw [answer_bind (hf cx)]
      congr 1
      funext reply
      rw [answer_bind (uncached_ofExcept _), answer_ofExcept]
      congr 1
      funext items
      rw [answer_bind hrest, ih]
      cases expandAll keepProperties (fun cx => (f cx).answer recording) rest <;> rfl

theorem answer_transformFlat {f : Context → Run Reply} (hf : ∀ cx, (f cx).Uncached)
    (keepProperties recording : Bool) (tokens : List Token) :
    (transformFlat keepProperties f tokens).answer recording
      = (expandAll keepProperties (fun cx => (f cx).answer recording) (contexts tokens)).map
          (·.filterMap id) := by
  unfold transformFlat transformEach
  rw [answer_bind (uncached_transformContexts hf _), answer_transformContexts hf]
  cases expandAll keepProperties (fun cx => (f cx).answer recording) (contexts tokens) <;> rfl

/-- Without a cache nothing is remembered. -/
theorem answer_remember {compute : Run (List Token)} (hc : compute.Uncached) (salt : String)
    (tokens : List Token) (recording : Bool) :
    (remember salt tokens compute).answer recording = compute.answer recording := by
  unfold remember
  rw [answer_bind (uncached_lookup _), answer_lookup]
  show Run.answer recording (_ >>= _) = _
  rw [answer_bind (uncached_record _), answer_record]
  show Run.answer recording (_ >>= _) = _
  rw [answer_bind hc]
  -- a fault stores nothing, and storing changes no result
  cases hr : compute.answer recording with
  | error e => rfl
  | ok out =>
      show Run.answer recording (_ >>= _) = _
      rw [answer_bind (uncached_store _ _), answer_store]
      rfl

variable [Regex.Engine]

theorem answer_runFind {flags : Flags} (r : Regex flags) (mode : Mode) (cx : Context)
    (recording : Bool) :
    (runFind r mode cx).answer recording
      = .ok (.sequence ((Finding.drafts r mode cx.value).map .draft)) := by
  unfold runFind
  rw [answer_bind (uncached_recordAll _)]
  rfl

theorem answer_function (f : Context → Except Fault Reply) (cx : Context) (recording : Bool) :
    ((Transform.function f).run cx).answer recording = f cx := by
  unfold Transform.run
  rfl

/-- The transform that keeps each token answers that token. -/
theorem answer_keep (cx : Context) (recording : Bool) :
    (Transform.keep.run cx).answer recording = .ok (.keep cx.token) := by
  unfold Transform.keep
  rw [answer_function]

theorem answer_find {flags : Flags} (r : Regex flags) (mode : Mode) (cx : Context)
    (recording : Bool) :
    ((Transform.find flags r mode).run cx).answer recording
      = .ok (.sequence ((Finding.drafts r mode cx.value).map .draft)) := by
  unfold Transform.run
  exact answer_runFind r mode cx recording

/-- A report keeps the token; it asks for the token's end only if events are recorded. -/
theorem answer_report (label : String) (cx : Context) (recording : Bool) :
    ((Transform.report label).run cx).answer recording
      = if recording then cx.token.stop.map fun _ => .keep cx.token else .ok (.keep cx.token) := by
  unfold Transform.run
  rw [answer_bind (uncached_reportToken label _)]
  unfold reportToken
  -- the end is asked for on the way to the event only
  rw [answer_bind uncached_isRecording, answer_isRecording]
  cases recording with
  | false => rfl
  | true =>
      show Except.bind (Run.answer true (_ >>= _)) _ = _
      rw [answer_bind (uncached_ofExcept _), answer_ofExcept]
      cases cx.token.stop <;> rfl

theorem answer_chain (passes : List Pass) (cx : Context) (recording : Bool) :
    ((Transform.chain passes).run cx).answer recording
      = ((runChain passes [Token.root cx.value]).answer recording).map fun tokens =>
          .sequence (tokens.map fun t => .draft (.atOwnIndex t)) := by
  unfold Transform.run
  rw [answer_bind (uncached_runChain passes _)]
  cases (runChain passes [Token.root cx.value]).answer recording <;> rfl

theorem answer_choose (condition : Context → Except Fault Bool) (yes no : Transform) (cx : Context)
    (recording : Bool) :
    ((Transform.choose condition yes no).run cx).answer recording
      = (condition cx).bind fun b =>
          if b then (yes.run cx).answer recording else (no.run cx).answer recording := by
  rw [Transform.run, answer_bind (uncached_ofExcept _), answer_ofExcept]
  congr 1
  funext b
  cases b <;> rfl

theorem answer_runItems_nil (cx : Context) (recording : Bool) :
    (runItems [] cx).answer recording = .ok [] := by
  unfold runItems
  rfl

theorem answer_runItems_cons (f : Transform) (rest : List Transform) (cx : Context)
    (recording : Bool) :
    (runItems (f :: rest) cx).answer recording
      = ((f.run cx).answer recording).bind fun reply =>
          ((runItems rest cx).answer recording).map (reply :: ·) := by
  have hrest : (runItems rest cx).Uncached :=
    uncached_composes.runItems rest (uncached_storedParts _) cx
  rw [runItems, answer_bind (f.uncached cx)]
  congr 1
  funext reply
  rw [answer_bind hrest]
  cases (runItems rest cx).answer recording <;> rfl

theorem answer_gather (items : List Transform) (cx : Context) (recording : Bool) :
    ((Transform.gather items).run cx).answer recording
      = ((runItems items cx).answer recording).map .sequence := by
  have hitems : (runItems items cx).Uncached :=
    uncached_composes.runItems items (uncached_storedParts _) cx
  rw [Transform.run, answer_bind hitems]
  cases (runItems items cx).answer recording <;> rfl

@[simp] theorem answer_runChain_nil (tokens : List Token) (recording : Bool) :
    (runChain [] tokens).answer recording = .ok tokens := by
  unfold runChain
  rfl

theorem answer_runChain_cons (p : Pass) (rest : List Pass) (tokens : List Token)
    (recording : Bool) :
    (runChain (p :: rest) tokens).answer recording
      = ((p.run tokens).answer recording).bind fun out => (runChain rest out).answer recording := by
  rw [runChain, answer_bind (p.uncached tokens)]

theorem answer_each (keepProperties : Bool) (f : Transform) (tokens : List Token)
    (recording : Bool) :
    ((Pass.each keepProperties f).run tokens).answer recording
      = (expandAll keepProperties (fun cx => (f.run cx).answer recording) (contexts tokens)).map
          (·.filterMap id) := by
  unfold Pass.run
  exact answer_transformFlat (fun cx => f.uncached cx) keepProperties recording tokens

theorem answer_stored (keepProperties : Bool) (job : StoredJob) (tokens : List Token)
    (recording : Bool) :
    ((Pass.stored keepProperties job).run tokens).answer recording
      = (expandAll keepProperties (fun cx => (job.run cx).answer recording) (contexts tokens)).map
          (·.filterMap id) := by
  unfold Pass.run
  rw [answer_remember (uncached_transformFlat (uncached_job job) tokens)]
  exact answer_transformFlat (uncached_job job) keepProperties recording tokens

theorem answer_mergeRuns (keepProperties : Bool) (f : Transform) (filler : String)
    (tokens : List Token) (recording : Bool) :
    ((Pass.mergeRuns keepProperties f filler).run tokens).answer recording
      = (expandAll keepProperties (fun cx => (f.run cx).answer recording) (contexts tokens)).bind
          (mergeSegments filler) := by
  unfold Pass.run transformEach
  rw [answer_bind (uncached_transformContexts (fun cx => f.uncached cx) _),
    answer_transformContexts fun cx => f.uncached cx]
  rfl

end TokenSpan
