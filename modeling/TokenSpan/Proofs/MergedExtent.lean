/-
  TokenSpan.Proofs.MergedExtent
  ─────────────────────────────
  What a merge keeps, in whatever order the tokens come.

  Tokens may be merged that overlap, or that come before the ones in front of them.  Even then no
  text is lost: the merged text is the texts of the tokens, with the gap between two neighbours
  filled.  And no end is lost: the merged token reaches at least as far as each of the tokens and
  as its own text, and if no token starts before the one in front of it, no farther than that.

  A merge fails only if a token ends beyond all positions, or the filling of a gap would be
  of `textBound` bytes or more (`MergeFault`).

  Main results:
  * `textFrom_eq_join` — the merged text, put together from neighbouring tokens;
  * `reachFrom_le_iff`, `reachFrom_eq_max` — how far tokens reach;
  * `mergeFault_of_mergeOnto` — why joining tokens fails;
  * `merging_keeps_text_and_span` — all of it for merged sequences.
-/
import TokenSpan.Proofs.MergedText

namespace TokenSpan

/-! ## §1. The text. -/

/-- Repeating a text is joining copies of it; of an empty one there may be any number. -/
theorem repeatText_eq_join (s : String) (count : Nat) :
    repeatText s count = String.join (List.replicate count s) := by
  unfold repeatText
  by_cases hs : s.isEmpty
  · have hempty : s = "" := by simpa using hs
    subst hempty
    rw [if_pos hs]
    induction count with
    | zero => rfl
    | succ n ih => rw [List.replicate_succ, String.join_cons, ← ih, String.empty_append]
  · rw [if_neg hs]

/-- How many positions there are between the end of a token and the start of the next one. -/
def Token.gapTo (prev t : Token) : Nat := t.index - (prev.index + prev.offset)

/-- A token behind another one: the gap between them, filled, and the text of the token. -/
def Token.textBehind (filler : String) (prev t : Token) : String :=
  String.join (List.replicate (prev.gapTo t) filler) ++ t.value

/-- What is read behind a token is made of the tokens there, each read behind the one before it. -/
theorem textFrom_eq_join (filler : String) (prev : Token) (ts : List Token) :
    textFrom filler (prev.index + prev.offset) ts
      = String.join (List.zipWith (Token.textBehind filler) (prev :: ts) ts) := by
  induction ts generalizing prev with
  | nil => rfl
  | cons t rest ih =>
      rw [textFrom, ih t, List.zipWith_cons_cons, String.join_cons, repeatText_eq_join]
      rfl

/-! ## §2. The reach. -/

/-- Tokens reach no farther than a position if none of them does. -/
theorem reachFrom_le_iff {start bound : Nat} {ts : List Token} :
    reachFrom start ts ≤ bound ↔ ∀ t ∈ ts, t.index - start + t.offset ≤ bound := by
  induction ts with
  | nil => simp [reachFrom]
  | cons t rest ih => rw [reachFrom, Nat.max_le, ih, List.forall_mem_cons]

/-- Tokens that do not start before `start` reach from there to the farthest of their ends. -/
theorem reachFrom_eq_max {start stop : Nat} {ts : List Token} (hstart : ∀ t ∈ ts, start ≤ t.index)
    (hstop : (ts.map fun t => t.index + t.offset).max? = some stop) :
    reachFrom start ts = stop - start := by
  obtain ⟨hmem, hall⟩ := List.max?_eq_some_iff.1 hstop
  obtain ⟨last, hlast, hend⟩ := List.mem_map.1 hmem
  have hupper : reachFrom start ts ≤ stop - start := by
    apply reachFrom_le_iff.2
    intro t ht
    have hle := hall _ (List.mem_map_of_mem ht)
    have hfrom := hstart t ht
    omega
  have hlower := reachFrom_le_iff.1 (Nat.le_refl (reachFrom start ts)) last hlast
  have hfrom := hstart last hlast
  omega

/-- Where no token starts before the one in front of it, none starts before the first. -/
theorem first_le_of_isChain {first : Token} {rest : List Token}
    (h : (first :: rest).IsChain fun t u => t.index ≤ u.index) :
    ∀ t ∈ first :: rest, first.index ≤ t.index := by
  induction rest generalizing first with
  | nil => simp
  | cons u rest ih =>
      obtain ⟨hle, hmore⟩ := List.isChain_cons_cons.1 h
      intro t ht
      rcases List.mem_cons.1 ht with rfl | ht
      · exact Nat.le_refl _
      · exact Nat.le_trans hle (ih hmore t ht)

/-! ## §3. Faults. -/

/-- Why tokens do not merge. -/
inductive MergeFault (filler : String) (ts : List Token) : Fault → Prop where
  /-- A token ends beyond all positions. -/
  | overflow {t : Token} (ht : t ∈ ts) (hstop : positionBound ≤ t.index + t.offset) :
      MergeFault filler ts .overflow
  /-- The filling of the gap between two neighbours takes `textBound` bytes or more. -/
  | capacity {prev t : Token} (hnext : [prev, t] <:+: ts)
      (hlong : textBound ≤ (String.join (List.replicate (prev.gapTo t) filler)).utf8ByteSize) :
      MergeFault filler ts .capacity

/-- What is wrong with some of the tokens is wrong with all of them. -/
theorem MergeFault.of_isSuffix {filler : String} {ts us : List Token} {e : Fault}
    (h : MergeFault filler ts e) (hsuffix : ts <:+ us) : MergeFault filler us e := by
  cases h with
  | overflow ht hstop => exact .overflow (hsuffix.mem ht) hstop
  | capacity hnext hlong => exact .capacity (hnext.trans hsuffix.isInfix) hlong

theorem mergeFault_of_bridge {filler : String} {prev : Option Token} {t : Token} {e : Fault}
    (h : bridge filler prev t = .error e) (rest : List Token) :
    MergeFault filler (prev.toList ++ t :: rest) e := by
  cases prev with
  | none => cases h
  | some prev =>
      rcases bind_eq_error_iff.1 h with hstop | ⟨stop, hstop, hfill⟩
      · obtain ⟨rfl, hbound⟩ := addPositions_eq_error_iff.1 hstop
        exact .overflow List.mem_cons_self hbound
      · obtain ⟨rfl, -⟩ := addPositions_eq_ok_iff.1 hstop
        unfold fillGap at hfill
        split at hfill
        · cases hfill
        · rename_i hlong
          rw [← Except.error.inj hfill]
          refine .capacity ⟨[], rest, rfl⟩ ?_
          rw [← repeatText_eq_join, utf8ByteSize_repeatText]
          exact Nat.not_lt.1 hlong

/-- Joining tokens fails only for what is wrong with them and the token before them. -/
theorem mergeFault_of_mergeOnto {filler : String} {start : Nat} {prev : Option Token} {text : String}
    {span : Nat} {ts : List Token} {e : Fault}
    (h : mergeOnto filler start prev text span ts = .error e) :
    MergeFault filler (prev.toList ++ ts) e := by
  induction ts generalizing prev text span with
  | nil => cases h
  | cons t rest ih =>
      rcases bind_eq_error_iff.1 h with hbridge | ⟨gap, -, hjoined⟩
      · exact mergeFault_of_bridge hbridge rest
      rcases bind_eq_error_iff.1 hjoined with hreach | ⟨reach, -, hmore⟩
      · -- what is added is at most the end of the token
        obtain ⟨rfl, hbound⟩ := addPositions_eq_error_iff.1 hreach
        refine .overflow (List.mem_append_right _ List.mem_cons_self) ?_
        omega
      · exact (ih hmore).of_isSuffix (List.suffix_append _ _)

/-! ## §4. Merged sequences. -/

/--
A merge that succeeds keeps all texts, with the gaps between neighbours filled, and reaches at least as far
as each token and its own text; no farther than that if no token starts before the one in front of it.
A merge fails only for an end beyond all positions, or a filling of `textBound` bytes or more.
-/
theorem merging_keeps_text_and_span (filler : String) (first : Token) (rest : List Token) :
    (∀ merged, merge? filler (first :: rest) = .ok merged →
      ∃ t, merged = some t ∧ t.index = first.index ∧
        t.value = first.value
          ++ String.join (List.zipWith (Token.textBehind filler) (first :: rest) rest) ∧
        (∀ u ∈ first :: rest, u.index + u.offset ≤ t.index + t.offset) ∧
        t.value.utf8ByteSize ≤ t.offset ∧
        ((first :: rest).IsChain (fun u v => u.index ≤ v.index) →
          ∃ stop, ((first :: rest).map fun u => u.index + u.offset).max? = some stop ∧
            t.offset = max t.value.utf8ByteSize (stop - first.index))) ∧
    ∀ e, merge? filler (first :: rest) = .error e → MergeFault filler (first :: rest) e := by
  constructor
  · intro merged h
    obtain ⟨t, ht, -⟩ := merge?_stop_le h List.mem_cons_self
    refine ⟨t, ht, ?_⟩
    have hform := Option.some.inj (ht.symm.trans (merge?_eq_of_ok h))
    have hindex : t.index = first.index := by rw [hform]
    have hvalue : t.value = textFrom filler first.index (first :: rest) := by rw [hform]
    have hoffset : t.offset = max (reachFrom first.index (first :: rest)) t.value.utf8ByteSize := by
      rw [hvalue, hform]
    refine ⟨hindex, ?_, ?_, ?_, ?_⟩
    · rw [hvalue, textFrom_self, textFrom_eq_join]
    · intro u hu
      obtain ⟨t', ht', hstop⟩ := merge?_stop_le h hu
      rw [Option.some.inj (ht.symm.trans ht')]
      exact hstop
    · omega
    · intro hchain
      obtain ⟨stop, hstop⟩ : ∃ stop, ((first :: rest).map fun u => u.index + u.offset).max? = some stop :=
        ⟨_, List.max?_cons'⟩
      refine ⟨stop, hstop, ?_⟩
      rw [hoffset, reachFrom_eq_max (first_le_of_isChain hchain) hstop, Nat.max_comm]
  · intro e h
    rcases bind_eq_error_iff.1 h with hjoin | ⟨joined, -, hmade⟩
    · exact mergeFault_of_mergeOnto hjoin
    · cases hmade

/--
A token that covers the one behind it decides how far the merged token reaches; tokens in the wrong order
keep their texts and ends; and a gap of 2^62 positions is too long for two bytes each.
-/
theorem covered_reversed_and_distant_tokens :
    (let outer := (Token.ofText "abcd" 0).withOffset 12
      let inner := Token.ofText "cd" 2
      let last := Token.ofText "e" 6
      let merged := (Token.ofText "abcdcd--e" 0).withOffset 12
      merge? "-" [outer, inner, last] = .ok (some merged) ∧
        ([outer, inner, last].IsChain fun u v => u.index ≤ v.index) ∧
        ∃ stop, ([outer, inner, last].map fun u => u.index + u.offset).max? = some stop ∧
          merged.offset = max merged.value.utf8ByteSize (stop - outer.index)) ∧
    (let right := Token.ofText "ß" 7
      let left := (Token.ofText "a" 1).withOffset 9
      let merged := (Token.ofText "ßa" 7).withOffset 9
      merge? "-" [right, left] = .ok (some merged) ∧
        ∀ u ∈ [right, left], u.index + u.offset ≤ merged.index + merged.offset) ∧
    (let near := Token.ofText "a" 0
      let far := Token.ofText "b" 4611686018427387905
      merge? "--" [near, far] = .error .capacity ∧ MergeFault "--" [near, far] .capacity) := by
  refine ⟨?_, ?_, ?_⟩
  · intro outer inner last merged
    have hmerge : merge? "-" [outer, inner, last] = .ok (some merged) := by decide +kernel
    have hchain : [outer, inner, last].IsChain fun u v => u.index ≤ v.index := by
      simp [outer, inner, last, Token.ofText, Token.withOffset]
    obtain ⟨t, ht, -, -, -, -, hreach⟩ := (merging_keeps_text_and_span "-" outer _).1 _ hmerge
    rw [Option.some.inj ht]
    exact ⟨Option.some.inj ht ▸ hmerge, hchain, hreach hchain⟩
  · intro right left merged
    have hmerge : merge? "-" [right, left] = .ok (some merged) := by decide +kernel
    obtain ⟨t, ht, -, -, hends, -, -⟩ := (merging_keeps_text_and_span "-" right _).1 _ hmerge
    rw [Option.some.inj ht]
    exact ⟨Option.some.inj ht ▸ hmerge, hends⟩
  · intro near far
    have hfails : merge? "--" [near, far] = .error .capacity := by decide +kernel
    exact ⟨hfails, (merging_keeps_text_and_span "--" near _).2 _ hfails⟩

end TokenSpan
