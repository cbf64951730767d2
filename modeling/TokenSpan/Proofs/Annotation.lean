/-
  TokenSpan.Proofs.Annotation
  ───────────────────────────
  Values given to tokens.

  A pass that gives values puts them over those that a token has; a pass that keeps properties
  then completes each token with the values of the one it was made from.  The first replaces,
  the second only adds, and the second comes last.  So given values win over older ones, at
  the token itself and again at the token around a chain.

  Main results:
  * `run_annotate` — the pass puts its values over those of each token and does nothing else;
  * `run_annotate_bind` — giving values twice is giving them once, the later ones over the earlier ones;
  * `run_chain_annotate` — inside a chain: the given values, completed with those of the token;
  * `annotations_override_and_compose` — all of this, value by value.
-/
import TokenSpan.Proofs.KeptTokens

namespace TokenSpan

/-! ## §1. Tokens with further values. -/

namespace Token

variable {t : Token}

theorem Fits.annotate (ht : t.Fits) (more : Properties) : (t.annotate more).Fits :=
  ⟨ht.index, ht.offset, ht.size⟩

/-- A given value counts, and an older one where none is given. -/
theorem property_annotate (t : Token) (more : Properties) (key : String) :
    (t.annotate more).property key = (more.get? key).or (t.property key) :=
  KeyMap.get?_override t.properties more key

/-- Giving values twice is giving the later ones over the earlier ones. -/
theorem annotate_annotate (t : Token) (a b : Properties) :
    (t.annotate a).annotate b = t.annotate (a.override b) :=
  congrArg (fun properties => { t with properties := properties })
    (KeyMap.override_override t.properties a b)

/-- A token with values put over its own, and nothing else changed. -/
structure AnnotatedBy (more : Properties) (t u : Token) : Prop where
  value : u.value = t.value
  index : u.index = t.index
  offset : u.offset = t.offset
  matched : u.matched = t.matched
  property : ∀ key, u.property key = (more.get? key).or (t.property key)

theorem annotatedBy_annotate (more : Properties) (t : Token) : t.AnnotatedBy more (t.annotate more) :=
  ⟨rfl, rfl, rfl, rfl, t.property_annotate more⟩

end Token

theorem property_adopt_annotate_root (keepProperties : Bool) (t : Token) (values : Properties)
    (key : String) :
    (t.adopt keepProperties ((Token.root t.value).annotate values)).property key
      = (values.get? key).or (if keepProperties then t.property key else none) := by
  -- the root of a text has no values of its own
  have hgiven : ((Token.root t.value).annotate values).property key = values.get? key :=
    (Token.property_annotate _ values key).trans Option.or_none
  rw [Token.property_adopt, hgiven]
  cases keepProperties with
  | false => exact Option.or_none.symm
  | true => rfl

/-! ## §2. The pass. -/

variable {ts : List Token}

section Passes

variable [Regex.Engine]

/-- The pass puts its values over those of each token and does nothing else. -/
theorem run_annotate (s : Settings) (values : Properties) (hts : ∀ t ∈ ts, t.Fits) :
    (s.annotate values).run ts = pure (ts.map (·.annotate values)) := by
  have hcontext : ∀ cx ∈ contexts ts,
      expandContext s.keepProperties
          (fun cx => .ok (.draft ((Draft.ofToken cx.token).annotate values))) cx
        = .ok [cx.token.annotate values] := by
    intro cx hcx
    unfold expandContext
    show (placeReply s.keepProperties cx.token _).map _ = _
    rw [placeReply_annotate (hts cx.token (Context.token_mem hcx))]
    rfl
  have hmap : (contexts ts).map (fun cx => cx.token.annotate values)
      = ts.map (·.annotate values) := by
    conv_rhs => rw [← map_token_contexts ts, List.map_map]
    rfl
  have hrun : collect (expandContext s.keepProperties fun cx =>
        .ok (.draft ((Draft.ofToken cx.token).annotate values))) (contexts ts)
      = .ok (ts.map (·.annotate values)) := by
    rw [collect_each hcontext, hmap]
  exact (run_each_function s.keepProperties _ ts).trans (congrArg Run.ofExcept hrun)

/-- Giving values twice is giving them once, the later ones over the earlier ones. -/
theorem run_annotate_bind (s : Settings) (a b : Properties) (hts : ∀ t ∈ ts, t.Fits) :
    ((s.annotate a).run ts >>= (s.annotate b).run) = (s.annotate (a.override b)).run ts := by
  have hannotated : ∀ u ∈ ts.map (·.annotate a), u.Fits := by
    intro u hu
    obtain ⟨t, ht, rfl⟩ := List.mem_map.1 hu
    exact (hts t ht).annotate a
  rw [run_annotate s a hts, pure_bind, run_annotate s b hannotated,
    run_annotate s (a.override b) hts, List.map_map]
  congr 1
  exact List.map_congr_left fun t _ => t.annotate_annotate a b

/-- Inside a chain the given values are completed with those of the token around it. -/
theorem run_chain_annotate (s inner : Settings) (values : Properties) (hts : ∀ t ∈ ts, t.Fits) :
    (s.chain [inner.annotate values]).run ts
      = pure (ts.map fun t => t.adopt s.keepProperties ((Token.root t.value).annotate values)) := by
  refine run_chain_eq_pure s hts (fun t ht => ?_) fun t ht => ⟨(hts t ht).root.annotate values, rfl⟩
  have hroot : ∀ u ∈ [Token.root t.value], u.Fits := by simpa using (hts t ht).root
  rw [runChain, run_annotate inner values hroot, pure_bind, runChain]
  rfl

/-! ## §3. Which value survives. -/

/--
A pass that gives values never fails, changes nothing but values, and puts the given ones over those of each
token; twice is once, with the later values over the earlier ones.  Inside a chain it still wins: each token
leads to one token that has the given values and, if values are kept, those of the token under all other keys.
-/
theorem annotations_override_and_compose {σ : Type} [ResultStore σ] (s inner : Settings)
    (a b : Properties) {ts : List Token} (hts : ∀ t ∈ ts, t.Fits) (recording : Bool) (cache : σ) :
    (∃ out, ((s.annotate a).run ts).exec recording cache = { result := .ok out, cache } ∧
      List.Forall₂ (Token.AnnotatedBy a) ts out) ∧
    (((s.annotate a).run ts >>= (s.annotate b).run) = (s.annotate (a.override b)).run ts ∧
      ∀ key, (a.override b).get? key = (b.get? key).or (a.get? key)) ∧
    ∃ out, ((s.chain [inner.annotate a]).run ts).exec recording cache = { result := .ok out, cache } ∧
      List.Forall₂
        (fun t u => ∀ key, u.property key
          = (a.get? key).or (if s.keepProperties then t.property key else none)) ts out := by
  refine ⟨⟨_, by rw [run_annotate s a hts]; rfl, ?_⟩,
    ⟨run_annotate_bind s a b hts, KeyMap.get?_override a b⟩,
    ⟨_, by rw [run_chain_annotate s inner a hts]; rfl, ?_⟩⟩
  · rw [List.forall₂_map_right_iff, List.forall₂_same]
    exact fun t _ => Token.annotatedBy_annotate a t
  · rw [List.forall₂_map_right_iff, List.forall₂_same]
    exact fun t _ => property_adopt_annotate_root s.keepProperties t a

end Passes

/--
A token at the last position there is, with a kind and a language: of two kinds given to it the later one
counts, and inside a chain a given kind wins over its own while its language stays.
-/
theorem kind_given_at_the_last_position :
    let s : Settings := {}
    let t : Token :=
      { value := "ab", index := positionBound - 1, offset := positionBound - 1
        properties := KeyMap.ofList [("kind", .ofString "x"), ("lang", .ofString "en")] }
    let kind := fun name : String => (KeyMap.empty.insert "kind" (.ofString name) : Properties)
    (∃ u, ((s.annotate (kind "y")).run [t]).exec false Cache.off = { result := .ok [u], cache := .off } ∧
      u.property "kind" = some (.ofString "y") ∧ u.index = positionBound - 1) ∧
    ((s.annotate (kind "y")).run [t] >>= (s.annotate (kind "z")).run)
      = (s.annotate (kind "z")).run [t] ∧
    ∃ u, ((s.chain [s.annotate (kind "y")]).run [t]).exec false Cache.off
        = { result := .ok [u], cache := .off } ∧
      u.property "kind" = some (.ofString "y") ∧ u.property "lang" = some (.ofString "en") := by
  intro s t kind
  have ht : ∀ u ∈ [t], u.Fits := by decide +kernel
  obtain ⟨⟨out, hout, hall⟩, ⟨htwice, -⟩, inside, hinside, hchain⟩ :=
    annotations_override_and_compose s s (kind "y") (kind "z") ht false Cache.off
  refine ⟨?_, ?_, ?_⟩
  · obtain ⟨u, _, hu, hnil, rfl⟩ := List.forall₂_cons_left_iff.1 hall
    cases hnil
    exact ⟨u, hout, (hu.property "kind").trans (by decide +kernel), hu.index⟩
  · have hkind : (kind "y").override (kind "z") = kind "z" := by decide +kernel
    exact htwice.trans (by rw [hkind])
  · obtain ⟨u, _, hu, hnil, rfl⟩ := List.forall₂_cons_left_iff.1 hchain
    cases hnil
    exact ⟨u, hinside, (hu "kind").trans (by decide +kernel), (hu "lang").trans (by decide +kernel)⟩

end TokenSpan
