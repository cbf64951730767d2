/-
  TokenSpan.Proofs.LeadingChains
  ──────────────────────────────
  A chain at the start of a chain need not stand apart.

  The passes of a chain meet the text of each token as a root of its own.  A chain that comes
  first meets just these roots, so what its passes make is moved by nothing and completed
  with no values: only that the tokens end at positions that fit is asked for on the way.
  Where they do, its passes may as well stand in the outer chain themselves, and nobody sees
  a difference, the cache and the record of events included.

  Main results:
  * `runInside_leading` — one token, at one cache;
  * `exec_forEachToken_congr` — from single tokens to sequences, the cache handed on;
  * `leading_chain_flattens` — whole runs, whatever the cache is and does.
-/
import Mathlib.Data.List.Induction
import TokenSpan.Proofs.TokenByToken

namespace TokenSpan

variable {σ : Type} [ResultStore σ]

/-! ## §1. Roots and sequences. -/

/-- At a root, tokens whose ends fit stay as they are. -/
theorem Token.adoptAll_root {us : List Token} (h : ∀ u ∈ us, u.index + u.offset < positionBound)
    (text : String) (keepProperties : Bool) :
    (Token.root text).adoptAll keepProperties us = .ok us := by
  rw [Token.adoptAll_eq_ok_iff]
  constructor
  · intro u hu
    have hend := h u hu
    show _ ∧ 0 + u.index < positionBound
    omega
  · have hsame : (Token.root text).adopt keepProperties = id :=
      funext fun u => Token.adopt_root keepProperties u text
    rw [hsame, List.map_id]

/-- Runs that agree on each token, at the cache that is there when its turn comes, agree on the sequence. -/
theorem exec_forEachToken_congr {f g : Token → Run (List Token)} {recording : Bool} {cache : σ}
    {ts : List Token}
    (h : ∀ before t after done, ts = before ++ t :: after →
      ((forEachToken g before).exec recording cache).result = .ok done →
        (f t).exec recording ((forEachToken g before).exec recording cache).cache
          = (g t).exec recording ((forEachToken g before).exec recording cache).cache) :
    (forEachToken f ts).exec recording cache = (forEachToken g ts).exec recording cache := by
  -- by the last token: what comes before it agrees, so both reach it with the same cache
  induction ts using List.reverseRecOn with
  | nil => rfl
  | append_singleton ts t ih =>
      have hbefore : (forEachToken f ts).exec recording cache
          = (forEachToken g ts).exec recording cache := by
        refine ih fun before u after done hsplit hdone => ?_
        exact h before u (after ++ [t]) done (by rw [hsplit]; simp) hdone
      rw [forEachToken_append, forEachToken_append, forEachToken_singleton, forEachToken_singleton]
      refine Run.exec_bind_congr hbefore fun done hdone => ?_
      exact Run.exec_bind_congr (h ts t [] done rfl hdone) fun more _ => rfl

/-! ## §2. Leading chains. -/

section Leading

variable [Regex.Engine]

/-- Inside a token, a leading chain runs its passes on the root that the passes of the outer chain meet. -/
theorem runChain_leading (inner : Settings) (ps qs : List Pass) (text : String) :
    runChain (inner.chain ps :: qs) [Token.root text]
      = runChain ps [Token.root text] >>= fun us =>
          Run.ofExcept ((Token.root text).adoptAll inner.keepProperties us) >>= runChain qs := by
  rw [runChain, run_chain, forEachToken_singleton]
  unfold runInside
  rw [bind_assoc]
  rfl

/-- If what its passes make ends at positions that fit, a leading chain makes no difference for a token. -/
theorem runInside_leading (keepProperties : Bool) (inner : Settings) {ps : List Pass} (qs : List Pass)
    {t : Token} {recording : Bool} {cache : σ}
    (h : ∀ us, ((runChain ps [Token.root t.value]).exec recording cache).result = .ok us →
      ∀ u ∈ us, u.index + u.offset < positionBound) :
    (runInside keepProperties (inner.chain ps :: qs) t).exec recording cache
      = (runInside keepProperties (ps ++ qs) t).exec recording cache := by
  unfold runInside
  rw [runChain_leading, runChain_append, bind_assoc, bind_assoc]
  -- both sides begin with the same run, and go on with the same tokens
  refine Run.exec_bind_congr rfl fun us hus => ?_
  rw [Token.adoptAll_root (h us hus)]
  rfl

/--
In a run of the chain of `ps ++ qs`, the tokens that `ps` make of the text of a token when its turn comes end
at positions that fit.
-/
def LeadersFit (s : Settings) (ps qs : List Pass) (recording : Bool) (cache : σ) (ts : List Token) :
    Prop :=
  ∀ before t after done us, ts = before ++ t :: after →
    (((s.chain (ps ++ qs)).run before).exec recording cache).result = .ok done →
      ((runChain ps [Token.root t.value]).exec recording
          (((s.chain (ps ++ qs)).run before).exec recording cache).cache).result = .ok us →
        ∀ u ∈ us, u.index + u.offset < positionBound

/--
A chain that another chain starts with may be replaced by its passes: if what these make of the texts of the
tokens ends at positions that fit, both lead to the same result or fault, the same calls to the cache, the
same cache and the same events.  The cache may be any store in any state.
-/
theorem leading_chain_flattens (s inner : Settings) {ps qs : List Pass} {recording : Bool} {cache : σ}
    {ts : List Token} (h : LeadersFit s ps qs recording cache ts) :
    ((s.chain (inner.chain ps :: qs)).run ts).exec recording cache
      = ((s.chain (ps ++ qs)).run ts).exec recording cache := by
  unfold LeadersFit at h
  simp only [run_chain] at h ⊢
  refine exec_forEachToken_congr fun before t after done hsplit hdone => ?_
  exact runInside_leading _ inner qs fun us hus => h before t after done us hsplit hdone hus

end Leading

/--
Words of two texts are found and then merged, over a store to which all keys are one: the second text is
answered with the words of the first one, on both sides.
-/
theorem leading_words_with_cache :
    let s : Settings := {}
    let bare : Settings := { keepProperties := false }
    let ps := [s.preset .words]
    let qs := [s.mergeRuns .keep "-"]
    let ts := [(Token.ofText "ab cd" 7).withProperty "kind" (.ofString "x"), Token.ofText "ef" 20]
    let cache : Digested (fun _ => "") Cache := ⟨.exact .empty⟩
    let flat := ((s.chain (ps ++ qs)).run ts).exec true cache
    let key (text : String) := cacheKey (StoredJob.find Preset.words.regex .matches).salt [Token.root text]
    LeadersFit s ps qs true cache ts ∧
      ((s.chain (bare.chain ps :: qs)).run ts).exec true cache = flat ∧
        flat.result = .ok [(Token.ofText "ab-cd" 7).withProperty "kind" (.ofString "x"),
          Token.ofText "ab-cd" 20] ∧
        flat.calls = [.get (key "ab cd") false, .set (key "ab cd") 2, .get (key "ef") true] := by
  intro s bare ps qs ts cache flat key
  -- the words are made for the first token, and found for the second one
  have hfound : ∀ cut ∈ [([], "ab cd"), (ts.take 1, "ef")],
      ((runChain ps [Token.root cut.2]).exec true
        (((s.chain (ps ++ qs)).run cut.1).exec true cache).cache).result
          = .ok [{ Token.ofText "ab" 0 with matched := some ⟨0, [some "ab"], .empty⟩ },
            { Token.ofText "cd" 3 with matched := some ⟨3, [some "cd"], .empty⟩ }] := by
    decide +kernel
  have hfit : LeadersFit s ps qs true cache ts := by
    intro before t after done us hsplit _ hus
    have hcut : (before, t.value) ∈ [([], "ab cd"), (ts.take 1, "ef")] := by
      match before, hsplit with
      | [], hsplit =>
          obtain ⟨rfl, rfl⟩ := List.cons.inj hsplit
          exact List.mem_cons_self
      | [_], hsplit =>
          obtain ⟨rfl, hrest⟩ := List.cons.inj hsplit
          obtain ⟨rfl, rfl⟩ := List.cons.inj hrest
          exact List.mem_cons_of_mem _ List.mem_cons_self
      | _ :: _ :: before, hsplit =>
          have hlength := congrArg List.length hsplit
          simp [ts] at hlength
    rw [hfound _ hcut] at hus
    cases hus
    decide +kernel
  exact ⟨hfit, leading_chain_flattens s bare hfit, by decide +kernel, by decide +kernel⟩

end TokenSpan
