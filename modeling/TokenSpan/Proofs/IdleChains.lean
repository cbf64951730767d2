/-
  TokenSpan.Proofs.IdleChains
  ───────────────────────────
  Chains whose passes do nothing.

  A chain without passes, or one of filters that accept every token, still makes each token
  anew: its passes see a root made of the text alone, and what comes back is moved to the place
  of the token and completed with its values.  So text, place and values survive.  What the
  text does not tell, and nothing hands down, does not: the token covers its text again, even
  if it covered more or less before, and the captures are gone.

  Main results:
  * `runChain_acceptsAll` — filters that accept every token, one after the other;
  * `idle_chain_renews_tokens` — what a chain that does nothing leaves of its tokens.
-/
import TokenSpan.Proofs.Selection

namespace TokenSpan

section Filters

variable [Regex.Engine]

/-- A filter that accepts every token. -/
def Pass.AcceptsAll (p : Pass) : Prop :=
  ∃ (s : Settings) (condition : Context → Except Fault Bool),
    p = s.filter condition ∧ ∀ cx, condition cx = .ok true

/-- A filter that accepts every token leaves them all. -/
theorem Pass.AcceptsAll.run {p : Pass} (hp : p.AcceptsAll) {ts : List Token} (hts : ∀ t ∈ ts, t.Fits) :
    p.run ts = pure ts := by
  obtain ⟨s, condition, rfl, hcondition⟩ := hp
  have hall : condition = fun cx => .ok ((fun _ => true) cx) := funext hcondition
  rw [hall, run_filter s hts, List.filter_true, map_token_contexts]

/-- So do several of them, one after the other. -/
theorem runChain_acceptsAll {passes : List Pass} (hpasses : ∀ p ∈ passes, p.AcceptsAll)
    {ts : List Token} (hts : ∀ t ∈ ts, t.Fits) : runChain passes ts = pure ts := by
  induction passes with
  | nil =>
      unfold runChain
      rfl
  | cons p rest ih =>
      unfold runChain
      rw [(hpasses p List.mem_cons_self).run hts, pure_bind,
        ih fun q hq => hpasses q (List.mem_cons_of_mem _ hq)]

/--
A chain without passes, or of filters that accept every token, succeeds and makes each token anew: in order,
text, place and values stay, the token covers its text, and the captures are gone.
-/
theorem idle_chain_renews_tokens {σ : Type} [ResultStore σ] {s : Settings}
    (hs : s.keepProperties = true) {passes : List Pass} (hpasses : ∀ p ∈ passes, p.AcceptsAll)
    {ts : List Token} (hts : ∀ t ∈ ts, t.Fits) (recording : Bool) (cache : σ) :
    ((s.chain passes).run ts).exec recording cache =
      { result := .ok (ts.map fun t => { t with offset := t.value.utf8ByteSize, matched := none })
        cache } := by
  have hroot : ∀ t ∈ ts, runChain passes [Token.root t.value] = pure [Token.root t.value] :=
    fun t ht => runChain_acceptsAll hpasses (by simpa using (hts t ht).root)
  rw [run_chain_eq_pure s hts hroot fun t ht => ⟨(hts t ht).root, rfl⟩, hs]
  rfl

end Filters

/-- A token that covers a gap besides its text does not, once it went through a chain without passes. -/
theorem empty_chain_forgets_gap :
    let s : Settings := {}
    let t := (Token.ofText "ab" 0).withOffset 3
    ¬ ∃ out, (((s.chain []).run [t]).exec false Cache.off).result = .ok out ∧
      out.map (·.offset) = [t].map (·.offset) := by
  rintro s t ⟨out, hout, hoffset⟩
  have hresult : (((s.chain []).run [t]).exec false Cache.off).result = .ok [Token.ofText "ab" 0] := by
    decide +kernel
  obtain rfl := Except.ok.inj (hresult.symm.trans hout)
  exact absurd hoffset (by decide +kernel)

/--
Two filters that accept every token, inside tokens out of order: the first one stands at the last position there
is, covers more than its text and carries a value.
-/
theorem idle_chain_at_the_last_position :
    let s : Settings := {}
    let accept := s.filter fun _ => .ok true
    let far := (Token.ofText "ab" (positionBound - 1)).withProperty "kind" (.ofString "x")
    let near := Token.ofText "c" 0
    (((s.chain [accept, accept]).run [far.withOffset 7, near]).exec true Cache.off).result
      = .ok [far, near] := by
  intro s accept far near
  have haccept : accept.AcceptsAll := ⟨s, _, rfl, fun _ => rfl⟩
  have hpasses : ∀ p ∈ [accept, accept], p.AcceptsAll := by simpa using haccept
  have hts : ∀ t ∈ [far.withOffset 7, near], t.Fits := by decide +kernel
  rw [idle_chain_renews_tokens rfl hpasses hts true Cache.off]
  decide +kernel

end TokenSpan
