/-
  TokenSpan.Proofs.PropertyIndependence
  ─────────────────────────────────────
  The values that tokens carry never influence anything else.

  Two passes are alike if they are built in the same way from functions that do not look at
  the values tokens carry, and differ in the values they hand out and in whether results
  inherit values.  On alike tokens and caches, alike passes fail alike or lead to alike
  tokens, and they use the cache alike.  So whole sessions go the same way, whatever values
  are carried through them.

  Main results:
  * `Transform.Alike.agrees`, `Pass.Alike.agrees` — alike passes have runs that agree;
  * `Action.Alike.agrees` — the same for the actions of sessions;
  * `sessions_agree_up_to_properties` — alike sessions agree in every outcome.
-/
import TokenSpan.Proofs.AgreeingRuns
import TokenSpan.Proofs.KeySpans
import TokenSpan.Session

namespace TokenSpan

open TokenSpan.Regex (Flags)
open TokenSpan.Finding (Mode)

/-! ## §1. Alike passes. -/

/-- The contexts differ in the values of their tokens, if at all. -/
abbrev Context.Alike : Context → Context → Prop := Context.Agrees Eq

/-- The replies differ in the values of their drafts, if at all. -/
abbrev Reply.Alike : Reply → Reply → Prop := Reply.Agrees Eq

section Passes

variable [Regex.Engine]

mutual

/--
Passes built in the same way from functions that do not look at the values tokens carry; what values they
hand out, and whether results inherit values, is left open.
-/
inductive Pass.Alike : Pass → Pass → Prop where
  | each (keepProperties keepProperties' : Bool) {f g : Transform} (h : f.Alike g) :
      Pass.Alike (.each keepProperties f) (.each keepProperties' g)
  | stored (keepProperties keepProperties' : Bool) (job : StoredJob) :
      Pass.Alike (.stored keepProperties job) (.stored keepProperties' job)
  | mergeRuns (keepProperties keepProperties' : Bool) {f g : Transform} (h : f.Alike g)
      (filler : String) :
      Pass.Alike (.mergeRuns keepProperties f filler) (.mergeRuns keepProperties' g filler)

inductive Transform.Alike : Transform → Transform → Prop where
  /-- Functions that in alike contexts fail alike or answer alike replies. -/
  | function {f g : Context → Except Fault Reply}
      (h : ∀ cx cy, cx.Alike cy → Agree Reply.Alike (f cx) (g cy)) :
      Transform.Alike (.function f) (.function g)
  | find (flags : Flags) (r : Regex flags) (mode : Mode) :
      Transform.Alike (.find flags r mode) (.find flags r mode)
  | report (label : String) : Transform.Alike (.report label) (.report label)
  | chain {ps qs : List Pass} (h : ChainsAlike ps qs) : Transform.Alike (.chain ps) (.chain qs)
  /-- Conditions that in alike contexts fail alike or hold alike, between alike transforms. -/
  | choose {condition condition' : Context → Except Fault Bool} {yes yes' no no' : Transform}
      (h : ∀ cx cy, cx.Alike cy → Agree Eq (condition cx) (condition' cy))
      (hyes : yes.Alike yes') (hno : no.Alike no') :
      Transform.Alike (.choose condition yes no) (.choose condition' yes' no')
  | gather {fs gs : List Transform} (h : ItemsAlike fs gs) :
      Transform.Alike (.gather fs) (.gather gs)

inductive ChainsAlike : List Pass → List Pass → Prop where
  | nil : ChainsAlike [] []
  | cons {p q : Pass} {ps qs : List Pass} (h : p.Alike q) (rest : ChainsAlike ps qs) :
      ChainsAlike (p :: ps) (q :: qs)

inductive ItemsAlike : List Transform → List Transform → Prop where
  | nil : ItemsAlike [] []
  | cons {f g : Transform} {fs gs : List Transform} (h : f.Alike g) (rest : ItemsAlike fs gs) :
      ItemsAlike (f :: fs) (g :: gs)

end

/-! ## §2. What is built alike. -/

theorem Transform.Alike.keep : Transform.keep.Alike .keep :=
  .function fun _ _ h => .ok (.keep h.token)

section Builders

variable (s s' : Settings)

/-- Filters are alike if their conditions do not look at the values tokens carry. -/
theorem Settings.filter_alike {condition condition' : Context → Except Fault Bool}
    (h : ∀ cx cy, cx.Alike cy → Agree Eq (condition cx) (condition' cy)) :
    (s.filter condition).Alike (s'.filter condition') := by
  refine .each _ _ (.function fun cx cy hcx => (h cx cy hcx).map fun a b hab => ?_)
  rw [hab]
  exact .keepIf hcx b

/-- Annotating is alike whatever values are handed out, if both sides fail alike. -/
theorem Settings.annotateWith_alike {values values' : Context → Except Fault Properties}
    (h : ∀ cx cy, cx.Alike cy → Agree (fun _ _ => True) (values cx) (values' cy)) :
    (s.annotateWith values).Alike (s'.annotateWith values') := by
  refine .each _ _ (.function fun cx cy hcx => (h cx cy hcx).map fun a b _ => ?_)
  exact .draft ((Draft.Agrees.ofToken hcx.token).annotate a b)

theorem Settings.annotate_alike (values values' : Properties) :
    (s.annotate values).Alike (s'.annotate values') :=
  s.annotateWith_alike s' fun _ _ _ => .ok trivial

theorem Settings.onlyWhere_alike {condition condition' : Context → Except Fault Bool}
    {f g : Transform} (h : ∀ cx cy, cx.Alike cy → Agree Eq (condition cx) (condition' cy))
    (hfg : f.Alike g) : (s.onlyWhere condition f).Alike (s'.onlyWhere condition' g) :=
  .each _ _ (.choose h hfg .keep)

end Builders

end Passes

/-! ## §3. Runs of alike passes. -/

/-- A report may fail at the end of the token, which is the same on both sides. -/
theorem reportToken_agrees (label : String) {t u : Token} (h : t.Alike u) :
    (reportToken label t).Agrees Eq (reportToken label u) := by
  unfold reportToken
  refine agrees_bind agrees_isRecording fun recording _ heq => ?_
  subst heq
  cases recording with
  | false => exact agrees_pure rfl
  | true =>
      refine agrees_bind (R := Eq) (agrees_ofExcept ?_) fun _ _ _ => agrees_record _ _
      rw [stop_eq_of_sameSpan h.sameSpan]
      exact .refl (fun _ => rfl) _

/-- Alike tokens have one key. -/
theorem cacheKey_eq_of_alike (salt : String) {ts us : List Token} (h : AllAlike ts us) :
    cacheKey salt ts = cacheKey salt us :=
  cacheKey_eq_iff.2 (h.imp fun _ _ htu => htu.sameSpan)

theorem remembered_agree (salt : String) {keepProperties keepProperties' : Bool}
    {f g : Context → Run Reply} (hfg : ∀ cx cy, cx.Alike cy → (f cx).Agrees Reply.Alike (g cy))
    {ts us : List Token} (h : AllAlike ts us) :
    (remember salt ts (transformFlat keepProperties f ts)).Agrees AllAlike
      (remember salt us (transformFlat keepProperties' g us)) :=
  agrees_remember salt (cacheKey_eq_of_alike salt h)
    (agrees_transformFlat (fun _ => rfl) hfg h _ _)

section Runs

variable [Regex.Engine]

mutual

/-- In alike contexts, alike transforms have runs that agree. -/
theorem Transform.Alike.agrees : {f g : Transform} → f.Alike g → ∀ {cx cy : Context},
    cx.Alike cy → (f.run cx).Agrees Reply.Alike (g.run cy)
  | _, _, .function h, cx, cy, hcx => by
      unfold Transform.run
      exact agrees_ofExcept (h cx cy hcx)
  | _, _, .find flags r mode, cx, cy, hcx => by
      unfold Transform.run
      exact agrees_runFind (fun _ => rfl) r mode hcx.token.value
  | _, _, .report label, cx, cy, hcx => by
      unfold Transform.run
      exact agrees_bind (reportToken_agrees label hcx.token) fun _ _ _ =>
        agrees_pure (.keep hcx.token)
  | _, _, .chain h, cx, cy, hcx => by
      -- the root of a text carries no values, so both chains start from the same token
      have hroot : cx.value = cy.value := hcx.token.value
      unfold Transform.run
      rw [hroot]
      refine agrees_bind (h.agrees (AllAlike.refl _)) fun ts us htu => agrees_pure (.sequence ?_)
      exact List.rel_map (fun _ _ htu => .draft (.atOwnIndex htu)) htu
  | _, _, .choose h hyes hno, cx, cy, hcx => by
      unfold Transform.run
      refine agrees_bind (agrees_ofExcept (h cx cy hcx)) fun b _ heq => ?_
      subst heq
      cases b with
      | true => exact hyes.agrees hcx
      | false => exact hno.agrees hcx
  | _, _, .gather h, cx, cy, hcx => by
      unfold Transform.run
      exact agrees_bind (h.agrees hcx) fun _ _ hreplies => agrees_pure (.sequence hreplies)

theorem ItemsAlike.agrees : {fs gs : List Transform} → ItemsAlike fs gs → ∀ {cx cy : Context},
    cx.Alike cy → (runItems fs cx).Agrees (List.Forall₂ Reply.Alike) (runItems gs cy)
  | _, _, .nil, cx, cy, _ => by
      unfold runItems
      exact agrees_pure .nil
  | _, _, .cons h rest, cx, cy, hcx => by
      unfold runItems
      refine agrees_bind (h.agrees hcx) fun reply reply' hreply => ?_
      refine agrees_bind (rest.agrees hcx) fun more more' hmore => ?_
      exact agrees_pure (.cons hreply hmore)

/-- On alike tokens, alike passes one after the other have runs that agree. -/
theorem ChainsAlike.agrees : {ps qs : List Pass} → ChainsAlike ps qs → ∀ {ts us : List Token},
    AllAlike ts us → (runChain ps ts).Agrees AllAlike (runChain qs us)
  | _, _, .nil, ts, us, htu => by
      unfold runChain
      exact agrees_pure htu
  | _, _, .cons h rest, ts, us, htu => by
      unfold runChain
      exact agrees_bind (h.agrees htu) fun _ _ hout => rest.agrees hout

/-- On alike tokens, alike passes have runs that agree. -/
theorem Pass.Alike.agrees : {p q : Pass} → p.Alike q → ∀ {ts us : List Token},
    AllAlike ts us → (p.run ts).Agrees AllAlike (q.run us)
  | _, _, .each keepProperties keepProperties' h, ts, us, htu => by
      unfold Pass.run
      exact agrees_transformFlat (fun _ => rfl) (fun _ _ hcx => h.agrees hcx) htu _ _
  | _, _, .stored keepProperties keepProperties' job, ts, us, htu => by
      unfold Pass.run
      -- keys show texts and places only, so both sides look for the same entry
      exact remembered_agree job.salt (fun _ _ hcx => agrees_job (fun _ => rfl) job hcx) htu
  | _, _, .mergeRuns keepProperties keepProperties' h filler, ts, us, htu => by
      unfold Pass.run
      have hitems := agrees_transformContexts (fun _ => rfl) (fun _ _ hcx => h.agrees hcx)
        (contexts_agree htu) keepProperties keepProperties'
      refine agrees_bind hitems fun items items' hitems => agrees_ofExcept ?_
      -- what is merged has the same texts and places, so the merged tokens are the same
      rw [mergeSegments_eq_of_sameSpan filler (hitems.imp fun _ _ hab => ?_)]
      · exact .refl AllAlike.refl _
      · cases hab with
        | none => exact .none
        | some hab => exact .some hab.sameSpan

end

/-! ## §4. Sessions. -/

/-- Actions that differ in the values carried and handed out, and in whether results inherit values. -/
inductive Action.Alike : Action → Action → Prop where
  | run {p q : Pass} (h : p.Alike q) {ts us : List Token} (htu : AllAlike ts us) :
      Action.Alike (.run p ts) (.run q us)
  /-- Running alike transforms on alike tokens, under the same salt or both without. -/
  | transform (keepProperties keepProperties' : Bool) {f g : Transform} (h : f.Alike g)
      (salt : Option String) {ts us : List Token} (htu : AllAlike ts us) :
      Action.Alike (.transform keepProperties f salt ts) (.transform keepProperties' g salt us)
  | lookup (key : String) : Action.Alike (.lookup key) (.lookup key)
  | store (key : String) {ts us : List Token} (htu : AllAlike ts us) :
      Action.Alike (.store key ts) (.store key us)
  | clear : Action.Alike .clear .clear

/-- Answers whose tokens differ in the values they carry, if at all. -/
inductive Answer.Alike : Answer → Answer → Prop where
  | done : Answer.Alike .done .done
  | tokens {ts us : List Token} (h : AllAlike ts us) : Answer.Alike (.tokens ts) (.tokens us)
  /-- Alike tokens were found, or none on both sides. -/
  | found {ts us : Option (List Token)} (h : Option.Rel AllAlike ts us) :
      Answer.Alike (.found ts) (.found us)

/-- Alike actions have runs that agree. -/
theorem Action.Alike.agrees {a b : Action} (h : a.Alike b) :
    a.perform.Agrees Answer.Alike b.perform := by
  cases h with
  | run h htu =>
      exact agrees_bind (h.agrees htu) fun _ _ hout => agrees_pure (.tokens hout)
  | transform keepProperties keepProperties' h salt htu =>
      have hfg : ∀ cx cy : Context, cx.Alike cy → _ := fun _ _ hcx => h.agrees hcx
      refine agrees_bind (R := AllAlike) ?_ fun _ _ hout => agrees_pure (.tokens hout)
      cases salt with
      | none => exact agrees_transformFlat (fun _ => rfl) hfg htu _ _
      | some salt => exact remembered_agree salt hfg htu
  | lookup key =>
      exact agrees_bind (agrees_lookup key) fun _ _ hfound => agrees_pure (.found hfound)
  | store key htu =>
      exact agrees_bind (agrees_store key htu) fun _ _ _ => agrees_pure .done
  | clear => exact fun _ _ _ hcd => ⟨.ok .done, hcd.clear, rfl⟩

/-- Steps with alike actions, both with events or both without. -/
structure SessionStep.Alike (a b : SessionStep) : Prop where
  recording : a.recording = b.recording
  action : a.action.Alike b.action

/-- From alike caches, alike steps have outcomes that agree. -/
theorem SessionStep.Alike.agrees {a b : SessionStep} (h : a.Alike b) {c d : Cache} (hcd : c.Alike d) :
    (a.exec c).Agrees Answer.Alike (b.exec d) := by
  unfold SessionStep.exec
  rw [h.recording]
  exact h.action.agrees b.recording c d hcd

/--
Sessions that differ in the values tokens carry, in the values handed out and in whether results inherit
values, agree in every outcome: the same fault, or the same answer up to the values carried, the same
calls to the cache, and caches that again differ in the values carried only.
-/
theorem sessions_agree_up_to_properties {c d : Cache} (hcd : c.Alike d) {as bs : List SessionStep}
    (h : List.Forall₂ SessionStep.Alike as bs) :
    List.Forall₂ (Outcome.Agrees Answer.Alike) (performAll c as) (performAll d bs) := by
  -- each step leaves alike caches, also where it fails, and the next one starts from those
  induction h generalizing c d with
  | nil => exact .nil
  | cons hab _ ih =>
      have hstep := hab.agrees hcd
      exact .cons hstep (ih hstep.cache)

end Runs

/--
Two sessions over small caches that hand out other values; only the second one inherits none.  Events are
recorded in some of the steps.
-/
theorem annotated_sessions_agree :
    let kind (name : String) : Properties := KeyMap.empty.insert "kind" (.ofString name)
    let tagged (text name : String) : Token := { Token.root text with properties := kind name }
    let early (cx : Context) : Except Fault Bool := .ok (decide (cx.position < 2))
    let parts (s : Settings) (name : String) : Pass :=
      s.chain [s.preset .words, s.annotate (kind name), s.filter early,
        s.onlyWhere early (.chain [s.preset .characters])]
    let session (s : Settings) (name : String) : List SessionStep :=
      [⟨true, .run (parts s name) [tagged "drei kurze Worte" name]⟩,
        ⟨true, .transform s.keepProperties .keep (some "kept") [tagged "kept" name]⟩,
        ⟨false, .store "direct" [tagged "stored" name]⟩,
        ⟨false, .run (s.preset .words) [tagged "drei kurze Worte" name]⟩,
        ⟨true, .lookup "direct"⟩,
        ⟨true, .clear⟩]
    let cache := Cache.recent (.ofCapacity 1)
    let first := session {} "first"
    let second := session { keepProperties := false } "second"
    cache.Alike cache ∧ List.Forall₂ SessionStep.Alike first second ∧
      List.Forall₂ (Outcome.Agrees Answer.Alike) (performAll cache first)
        (performAll cache second) := by
  intro kind tagged early parts session cache first second
  have htagged : ∀ text, AllAlike [tagged text "first"] [tagged text "second"] :=
    fun text => .cons ⟨rfl, rfl, rfl, rfl⟩ .nil
  have hearly : ∀ cx cy : Context, cx.Alike cy → Agree Eq (early cx) (early cy) := by
    intro cx cy hcx
    show Agree Eq (.ok (decide (cx.position < 2))) (.ok (decide (cy.position < 2)))
    rw [hcx.position]
    exact .ok rfl
  have hcharacters : (Transform.chain [({} : Settings).preset .characters]).Alike
      (.chain [({ keepProperties := false } : Settings).preset .characters]) :=
    .chain (.cons (.stored _ _ _) .nil)
  have hparts : (parts {} "first").Alike (parts { keepProperties := false } "second") :=
    .each _ _ (.chain (.cons (.stored _ _ _) (.cons (Settings.annotate_alike _ _ _ _)
      (.cons (Settings.filter_alike _ _ hearly)
        (.cons (Settings.onlyWhere_alike _ _ hearly hcharacters) .nil)))))
  have hsessions : List.Forall₂ SessionStep.Alike first second :=
    .cons ⟨rfl, .run hparts (htagged _)⟩ (.cons ⟨rfl, .transform _ _ .keep _ (htagged _)⟩
      (.cons ⟨rfl, .store _ (htagged _)⟩ (.cons ⟨rfl, .run (.stored _ _ _) (htagged _)⟩
        (.cons ⟨rfl, .lookup _⟩ (.cons ⟨rfl, .clear⟩ .nil)))))
  exact ⟨.refl _, hsessions, sessions_agree_up_to_properties (.refl _) hsessions⟩

end TokenSpan
