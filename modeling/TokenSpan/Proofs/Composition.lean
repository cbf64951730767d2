/-
  TokenSpan.Proofs.Composition
  ────────────────────────────
  What is true of the parts of a run is true of the run.

  Passes are built from few basic runs.  So a property that those have, and that composition
  keeps, belongs to everything a pass does, as soon as the stored passes inside it have it.
  Each property of this kind is then proved by its basic cases alone.

  Main results:
  * `Run.Composes.pass` — such a property belongs to the runs of all passes;
  * `Run.Composes.transform`, `Run.Composes.runChain` — the same for transforms, and for passes
    one after the other.
-/
import TokenSpan.Pass.Settings

namespace TokenSpan

/-! ## §1. The stored passes inside a pass. -/

section StoredParts

variable [Regex.Engine]

/-- What a stored pass is made of. -/
structure StoredPart where
  /-- Whether results inherit the values of their token. -/
  keepProperties : Bool
  /-- What is done with each token. -/
  job : StoredJob

/-- The stored pass made of its parts. -/
def StoredPart.pass (part : StoredPart) : Pass := .stored part.keepProperties part.job

mutual

/-- The stored passes that occur in a pass, the pass itself included. -/
def Pass.storedParts : Pass → List StoredPart
  | .each _ f => f.storedParts
  | .stored keepProperties job => [{ keepProperties, job }]
  | .mergeRuns _ f _ => f.storedParts

def Transform.storedParts : Transform → List StoredPart
  | .function _ => []
  | .find _ _ _ => []
  | .report _ => []
  | .chain passes => storedPartsOfAll passes
  | .choose _ yes no => yes.storedParts ++ no.storedParts
  | .gather items => storedPartsOfItems items

def storedPartsOfAll : List Pass → List StoredPart
  | [] => []
  | p :: rest => p.storedParts ++ storedPartsOfAll rest

def storedPartsOfItems : List Transform → List StoredPart
  | [] => []
  | f :: rest => f.storedParts ++ storedPartsOfItems rest

end

end StoredParts

/-! ## §2. Properties that composition keeps. -/

/-- A property of runs that the basic runs have, those of the cache apart, and that composition keeps. -/
structure Run.Composes (M : (α : Type) → Run α → Prop) : Prop where
  ofExcept : ∀ {α : Type} (r : Except Fault α), M α (Run.ofExcept r)
  isRecording : M Bool Run.isRecording
  record : ∀ e : Event, M Unit (Run.record e)
  recordAll : ∀ es : List Event, M Unit (Run.recordAll es)
  bind : ∀ {α β : Type} {x : Run α} {f : α → Run β}, M α x → (∀ a, M β (f a)) → M β (x >>= f)

namespace Run.Composes

variable {M : (α : Type) → Run α → Prop} (hM : Run.Composes M)
include hM

theorem pure {α : Type} (a : α) : M α (Pure.pure a) := hM.ofExcept (.ok a)

theorem transformContexts {keepProperties : Bool} {f : Context → Run Reply}
    (hf : ∀ cx, M _ (f cx)) (cxs : List Context) :
    M _ (transformContexts keepProperties f cxs) := by
  induction cxs with
  | nil => exact hM.pure _
  | cons cx rest ih =>
      unfold TokenSpan.transformContexts
      refine hM.bind (hf cx) fun reply => ?_
      refine hM.bind (hM.ofExcept _) fun items => ?_
      exact hM.bind ih fun more => hM.pure _

theorem transformFlat {keepProperties : Bool} {f : Context → Run Reply}
    (hf : ∀ cx, M _ (f cx)) (tokens : List Token) :
    M _ (transformFlat keepProperties f tokens) :=
  hM.bind (hM.transformContexts hf _) fun _ => hM.pure _

theorem reportToken (label : String) (t : Token) : M _ (reportToken label t) := by
  unfold TokenSpan.reportToken
  refine hM.bind hM.isRecording fun recording => ?_
  cases recording with
  | false => exact hM.pure _
  | true => exact hM.bind (hM.ofExcept _) fun _ => hM.record _

/-- A stored pass has the property if looking, storing and its job have it. -/
theorem remember (hlookup : ∀ key, M _ (Run.lookup key))
    (hstore : ∀ key tokens, M _ (Run.store key tokens)) {compute : Run (List Token)}
    (hc : M _ compute) (salt : String) (tokens : List Token) :
    M _ (remember salt tokens compute) := by
  unfold TokenSpan.remember
  refine hM.bind (hlookup _) fun found => ?_
  -- found or not, what follows is composed of runs that have the property
  cases found with
  | some out => exact hM.bind (hM.record _) fun _ => hM.pure _
  | none =>
      refine hM.bind (hM.record _) fun _ => ?_
      refine hM.bind hc fun out => ?_
      exact hM.bind (hstore _ _) fun _ => hM.pure _

variable [Regex.Engine]

theorem runFind {flags : Regex.Flags} (r : Regex flags) (mode : Finding.Mode) (cx : Context) :
    M _ (runFind r mode cx) :=
  hM.bind (hM.recordAll _) fun _ => hM.pure _

/-- What a stored pass does with single tokens does not involve the cache. -/
theorem job (job : StoredJob) (cx : Context) : M _ (job.run cx) := by
  cases job with
  | find r mode => exact hM.runFind r mode cx
  | matching r => exact hM.pure _

/-! ## §3. All passes. -/

/-- The stored passes of a list have the property, whatever tokens they are run on. -/
def OfParts (M : (α : Type) → Run α → Prop) (parts : List StoredPart) : Prop :=
  ∀ part ∈ parts, ∀ tokens, M _ (part.pass.run tokens)

omit hM in
theorem ofParts_append {ps qs : List StoredPart} :
    OfParts M (ps ++ qs) ↔ OfParts M ps ∧ OfParts M qs :=
  List.forall_mem_append

mutual

/-- A transform has the property if the stored passes in it have. -/
theorem transform : (f : Transform) → OfParts M f.storedParts → ∀ cx, M _ (f.run cx)
  | .function f, _, cx => by
      unfold Transform.run
      exact hM.ofExcept _
  | .find _ r mode, _, cx => by
      unfold Transform.run
      exact hM.runFind r mode cx
  | .report label, _, cx => by
      unfold Transform.run
      exact hM.bind (hM.reportToken label _) fun _ => hM.pure _
  | .chain passes, h, cx => by
      unfold Transform.storedParts at h
      unfold Transform.run
      exact hM.bind (runChain passes h _) fun _ => hM.pure _
  | .choose condition yes no, h, cx => by
      unfold Transform.storedParts at h
      unfold Transform.run
      refine hM.bind (hM.ofExcept _) fun b => ?_
      cases b with
      | true => exact transform yes (ofParts_append.1 h).1 cx
      | false => exact transform no (ofParts_append.1 h).2 cx
  | .gather items, h, cx => by
      unfold Transform.storedParts at h
      unfold Transform.run
      exact hM.bind (runItems items h cx) fun _ => hM.pure _

theorem runItems : (items : List Transform) → OfParts M (storedPartsOfItems items) →
    ∀ cx, M _ (runItems items cx)
  | [], _, cx => by
      unfold TokenSpan.runItems
      exact hM.pure _
  | f :: rest, h, cx => by
      unfold storedPartsOfItems at h
      unfold TokenSpan.runItems
      refine hM.bind (transform f (ofParts_append.1 h).1 cx) fun reply => ?_
      exact hM.bind (runItems rest (ofParts_append.1 h).2 cx) fun _ => hM.pure _

theorem runChain : (passes : List Pass) → OfParts M (storedPartsOfAll passes) →
    ∀ tokens, M _ (runChain passes tokens)
  | [], _, tokens => by
      unfold TokenSpan.runChain
      exact hM.pure _
  | p :: rest, h, tokens => by
      unfold storedPartsOfAll at h
      unfold TokenSpan.runChain
      exact hM.bind (pass p (ofParts_append.1 h).1 tokens) fun out =>
        runChain rest (ofParts_append.1 h).2 out

/-- A pass has the property if the stored passes in it have. -/
theorem pass : (p : Pass) → OfParts M p.storedParts → ∀ tokens, M _ (p.run tokens)
  | .each keepProperties f, h, tokens => by
      unfold Pass.storedParts at h
      unfold Pass.run
      exact hM.transformFlat (fun cx => transform f h cx) tokens
  | .stored keepProperties job, h, tokens => by
      unfold Pass.storedParts at h
      exact h { keepProperties, job } List.mem_cons_self tokens
  | .mergeRuns keepProperties f filler, h, tokens => by
      unfold Pass.storedParts at h
      unfold Pass.run
      refine hM.bind (hM.transformContexts (fun cx => transform f h cx) _) fun items => ?_
      exact hM.ofExcept _

end

end Run.Composes

end TokenSpan
