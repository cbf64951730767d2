/-
  TokenSpan.Proofs.KeptTokens
  ───────────────────────────
  Tokens that a pass keeps.

  A kept token is drafted without its start, placed inside itself and completed with its own
  values.  Its start comes back because nothing stands before it in the reply; sums of
  positions fit because nothing but 0 is added to them; and a token lacks none of its own
  values.  So any token that the program can hold comes back as it was.

  Main results:
  * `run_each_function` — a function of the context, applied to each token: no cache, no events;
  * `placeReply_annotate`, `placeReply_keep` — a token drafted with further values, or with none;
  * `run_chain_eq_pure` — chains whose passes always succeed inside the tokens.
-/
import TokenSpan.Proofs.CacheKeys
import TokenSpan.Proofs.TokenByToken

namespace TokenSpan

/-! ## §1. Functions of the context. -/

theorem ofExcept_bind {α β : Type} (x : Except Fault α) (f : α → Except Fault β) :
    (Run.ofExcept x >>= fun a => Run.ofExcept (f a)) = Run.ofExcept (x.bind f) := by
  cases x <;> rfl

/-- Replies that are computed alone are placed without a cache and without events. -/
theorem transformContexts_ofExcept (keepProperties : Bool) (f : Context → Except Fault Reply)
    (cxs : List Context) :
    transformContexts keepProperties (fun cx => Run.ofExcept (f cx)) cxs
      = Run.ofExcept (expandAll keepProperties f cxs) := by
  induction cxs with
  | nil => rfl
  | cons cx rest ih =>
      unfold transformContexts expandAll
      rw [ih]
      simp only [ofExcept_bind_pure, ofExcept_bind]

/-- A function of the context, applied to each token, uses no cache and records no events. -/
theorem run_each_function [Regex.Engine] (keepProperties : Bool) (f : Context → Except Fault Reply)
    (ts : List Token) :
    (Pass.each keepProperties (.function f)).run ts
      = Run.ofExcept (collect (expandContext keepProperties f) (contexts ts)) := by
  have hf : (fun cx => (Transform.function f).run cx) = fun cx => Run.ofExcept (f cx) := by
    funext cx
    unfold Transform.run
    rfl
  unfold Pass.run transformFlat transformEach
  rw [hf, transformContexts_ofExcept, ofExcept_bind_pure, expandAll_eq_collect]

/-! ## §2. Placed inside themselves. -/

/-- The token carrying further values; where names are equal the further ones count. -/
def Token.annotate (t : Token) (more : Properties) : Token :=
  { t with properties := t.properties.override more }

/-- The token with further values, at the start of a text. -/
theorem Draft.atStart_annotate_ofToken (t : Token) (more : Properties) :
    ((Draft.ofToken t).annotate more).atStart = { t.annotate more with index := 0 } := rfl

/-- A token lacks none of its own values, whatever values were added to it. -/
theorem Token.adopt_annotate_self (keepProperties : Bool) (t : Token) (more : Properties) :
    t.adopt keepProperties { t.annotate more with index := 0 } = t.annotate more := by
  have hcomplete : (t.properties.override more).completeWith t.properties
      = t.properties.override more := by
    refine KeyMap.completeWith_eq_self fun key hkey => ?_
    rw [KeyMap.get?_override, Option.or_eq_none_iff] at hkey
    exact hkey.2
  cases keepProperties with
  | false => rfl
  | true => exact congrArg (fun properties => { t with properties := properties }) hcomplete

/-- A token drafted with further values is that token with those values. -/
theorem placeReply_annotate {keepProperties : Bool} {t : Token} (ht : t.Fits) (more : Properties) :
    placeReply keepProperties t (.draft ((Draft.ofToken t).annotate more))
      = .ok [some (t.annotate more)] := by
  have hroom : t.HasRoom ((Draft.ofToken t).annotate more).atStart := by
    constructor
    · show 0 + t.offset < positionBound
      rw [Nat.zero_add]
      exact ht.offset
    · exact ht.index
  rw [placeReply_open rfl hroom, Draft.atStart_annotate_ofToken, Token.adopt_annotate_self]

/-- A kept token is that token. -/
theorem placeReply_keep {keepProperties : Bool} {t : Token} (ht : t.Fits) :
    placeReply keepProperties t (.keep t) = .ok [some t] :=
  placeReply_annotate ht .empty

theorem placeReply_nothing (keepProperties : Bool) (t : Token) :
    placeReply keepProperties t .nothing = .ok [] := by
  cases keepProperties <;> rfl

/-- A condition keeps the token as it is, or leaves nothing of it. -/
theorem expandContext_keepIf {keepProperties : Bool} {cx : Context} (hcx : cx.token.Fits)
    (test : Context → Bool) :
    expandContext keepProperties (fun cx => .ok (keepIf (test cx) cx)) cx
      = .ok (if test cx then [cx.token] else []) := by
  unfold expandContext keepIf
  show (placeReply keepProperties cx.token _).map _ = _
  cases test cx with
  | true =>
      rw [if_pos rfl, placeReply_keep hcx]
      rfl
  | false =>
      rw [if_neg Bool.false_ne_true, placeReply_nothing]
      rfl

/-! ## §3. Chains that cannot fail. -/

/-- The text of a token that the program can hold, as a token of its own. -/
theorem Token.Fits.root {t : Token} (ht : t.Fits) : (Token.root t.value).Fits where
  index := (by decide : 0 < positionBound)
  offset := Nat.lt_trans ht.size textBound_lt_positionBound
  size := ht.size

theorem forEachToken_eq_pure {g : Token → Run (List Token)} {out : Token → List Token}
    {ts : List Token} (h : ∀ t ∈ ts, g t = pure (out t)) :
    forEachToken g ts = pure (ts.flatMap out) := by
  induction ts with
  | nil => rfl
  | cons t rest ih =>
      rw [forEachToken_cons, h t List.mem_cons_self, ih fun u hu => h u (List.mem_cons_of_mem _ hu)]
      rfl

/--
Passes that make one token of the text of each token, at its start, make a chain that keeps the places of
all tokens.
-/
theorem run_chain_eq_pure [Regex.Engine] (s : Settings) {passes : List Pass} {make : Token → Token}
    {ts : List Token} (hts : ∀ t ∈ ts, t.Fits)
    (hpasses : ∀ t ∈ ts, runChain passes [Token.root t.value] = pure [make t])
    (hmake : ∀ t ∈ ts, (make t).Fits ∧ (make t).index = 0) :
    (s.chain passes).run ts = pure (ts.map fun t => t.adopt s.keepProperties (make t)) := by
  have hinside : ∀ t ∈ ts, runInside s.keepProperties passes t
      = pure [t.adopt s.keepProperties (make t)] := by
    intro t ht
    have hroom : t.HasRoom (make t) := by
      obtain ⟨hfits, hindex⟩ := hmake t ht
      constructor
      · rw [hindex, Nat.zero_add]
        exact hfits.offset
      · rw [hindex, Nat.add_zero]
        exact (hts t ht).index
    unfold runInside
    rw [hpasses t ht, pure_bind, Token.adoptAll_eq_ok_iff.2 ⟨by simpa using hroom, rfl⟩]
    rfl
  rw [run_chain, forEachToken_eq_pure hinside, List.map_eq_flatMap]

end TokenSpan
