/-
  TokenSpan.Proofs.MergedText
  ───────────────────────────
  What merging makes of tokens, said without the loop that makes it.

  The merged text is the texts of the tokens, each behind the filling of the gap before it
  (`textFrom`), and the merged token reaches as far as the farthest of them (`reachFrom`).  Both
  read a sequence from a position on, and both go through a sequence in parts: what follows a
  part is read from where that part ends (`stopFrom`).  In a sequence in order a run therefore
  counts for as much as the token it merges into, and it does not matter how a sequence was
  cut into runs that were merged before.

  Main results:
  * `merge?_eq_of_ok` — what a merge that succeeds answers, whatever the order of the tokens;
  * `merge?_eq_of_ordered` — in order, with a small filler, it covers its tokens and no more;
  * `textFrom_of_standsFor` — merged runs read like the tokens they came from;
  * `merging_in_groups_eq_merging_at_once` — the grouping does not matter.
-/
import Mathlib.Data.List.Forall2
import TokenSpan.Proofs.Merging

namespace TokenSpan

/-! ## §1. Reading a sequence from a position on. -/

/-- The texts of tokens behind a position, with every gap before a token filled. -/
def textFrom (filler : String) : (stop : Nat) → List Token → String
  | _, [] => ""
  | stop, t :: rest =>
      repeatText filler (t.index - stop) ++ t.value ++ textFrom filler (t.index + t.offset) rest

/-- Where the last of the tokens behind a position ends. -/
def stopFrom : (stop : Nat) → List Token → Nat
  | stop, [] => stop
  | _, t :: rest => stopFrom (t.index + t.offset) rest

/-- How many positions there are from `start` to the farthest end of a token. -/
def reachFrom (start : Nat) : List Token → Nat
  | [] => 0
  | t :: rest => max (t.index - start + t.offset) (reachFrom start rest)

@[simp] theorem repeatText_zero (s : String) : repeatText s 0 = "" := by
  simp [repeatText]

/-- At the start of its first token a sequence has no gap to fill. -/
theorem textFrom_self (filler : String) (t : Token) (rest : List Token) :
    textFrom filler t.index (t :: rest) = t.value ++ textFrom filler (t.index + t.offset) rest := by
  rw [textFrom, Nat.sub_self, repeatText_zero, String.empty_append]

/-- The gap before the first token is all that depends on the position. -/
theorem textFrom_cons_eq (filler : String) (stop : Nat) (t : Token) (rest : List Token) :
    textFrom filler stop (t :: rest)
      = repeatText filler (t.index - stop) ++ textFrom filler t.index (t :: rest) := by
  rw [textFrom_self, textFrom, String.append_assoc]

theorem textFrom_append (filler : String) (stop : Nat) (ts us : List Token) :
    textFrom filler stop (ts ++ us)
      = textFrom filler stop ts ++ textFrom filler (stopFrom stop ts) us := by
  induction ts generalizing stop with
  | nil => rw [textFrom, String.empty_append]; rfl
  | cons t rest ih =>
      rw [List.cons_append, textFrom, ih, textFrom, stopFrom]
      simp only [String.append_assoc]

theorem stopFrom_append (stop : Nat) (ts us : List Token) :
    stopFrom stop (ts ++ us) = stopFrom (stopFrom stop ts) us := by
  induction ts generalizing stop with
  | nil => rfl
  | cons t rest ih =>
      rw [List.cons_append, stopFrom, ih, stopFrom]

/-- The last token decides where a sequence ends. -/
theorem stopFrom_eq_of_getLast? {ts : List Token} {last : Token} (h : ts.getLast? = some last)
    (stop : Nat) : stopFrom stop ts = last.index + last.offset := by
  obtain ⟨before, rfl⟩ := List.getLast?_eq_some_iff.1 h
  rw [stopFrom_append]
  rfl

/-! ## §2. What a merge answers. -/

theorem bridge_some_eq_ok {filler : String} {prev t : Token} {filling : String}
    (h : bridge filler (some prev) t = .ok filling) :
    filling = repeatText filler (t.index - (prev.index + prev.offset)) := by
  obtain ⟨stop, hstop, hfill⟩ := bind_eq_ok_iff.1 h
  obtain ⟨rfl, -⟩ := addPositions_eq_ok_iff.1 hstop
  unfold fillGap at hfill
  split at hfill
  · exact (Except.ok.inj hfill).symm
  · cases hfill

/-- Joining tokens behind another one that ends where they are read from. -/
theorem mergeOnto_eq_of_ok {filler : String} {start : Nat} {prev : Token} {text : String}
    {span : Nat} {ts : List Token} {value : String} {reach : Nat}
    (h : mergeOnto filler start (some prev) text span ts = .ok (value, reach)) :
    value = text ++ textFrom filler (prev.index + prev.offset) ts ∧
      reach = max span (reachFrom start ts) := by
  induction ts generalizing prev text span with
  | nil =>
      cases h
      exact ⟨(String.append_empty ..).symm, (Nat.max_zero _).symm⟩
  | cons t rest ih =>
      obtain ⟨filling, hbridge, -, hmore⟩ := mergeOnto_cons_eq_ok_iff.1 h
      obtain ⟨hvalue, hreach⟩ := ih hmore
      constructor
      · rw [hvalue, bridge_some_eq_ok hbridge, textFrom]
        simp only [String.append_assoc]
      · rw [hreach, reachFrom, Nat.max_assoc]

/-- A merge that succeeds answers the read text; the token reaches as far as each of them and its text. -/
theorem merge?_eq_of_ok {filler : String} {first : Token} {rest : List Token}
    {merged : Option Token} (h : merge? filler (first :: rest) = .ok merged) :
    merged = some
      { value := textFrom filler first.index (first :: rest), index := first.index
        offset := max (reachFrom first.index (first :: rest))
          (textFrom filler first.index (first :: rest)).utf8ByteSize } := by
  obtain ⟨value, span, hmerge, rfl⟩ := merge?_cons_eq_ok_iff.1 h
  -- nothing stands before the first token, so the loop is joined after one step
  obtain ⟨filling, hbridge, -, hmore⟩ := mergeOnto_cons_eq_ok_iff.1 hmerge
  have hfilling : "" = filling := Except.ok.inj hbridge
  obtain ⟨hvalue, hspan⟩ := mergeOnto_eq_of_ok hmore
  have htext : value = textFrom filler first.index (first :: rest) := by
    rw [hvalue, ← hfilling, textFrom_self, String.empty_append, String.empty_append]
  have hreach : span = reachFrom first.index (first :: rest) := by
    rw [hspan, Nat.zero_max, reachFrom]
  rw [htext, hreach]

/-! ## §3. Tokens in order. -/

/-- Tokens in order end at their last end. -/
theorem Ordered.upTo_stopFrom {lo hi : Nat} {ts : List Token} (h : Ordered lo ts hi) :
    Ordered lo ts (stopFrom lo ts) ∧ stopFrom lo ts ≤ hi := by
  induction ts generalizing lo with
  | nil => exact ⟨Nat.le_refl lo, h⟩
  | cons t rest ih =>
      obtain ⟨hlo, hvalue, hrest⟩ := h
      exact ⟨⟨hlo, hvalue, (ih hrest).1⟩, (ih hrest).2⟩

/-- Tokens in order reach as far as their last end. -/
theorem reachFrom_of_ordered {start stop hi : Nat} {ts : List Token} (h : Ordered stop ts hi)
    (hstart : start ≤ stop) :
    max (stop - start) (reachFrom start ts) = stopFrom stop ts - start := by
  induction ts generalizing stop with
  | nil => exact Nat.max_zero _
  | cons t rest ih =>
      obtain ⟨hlo, -, hrest⟩ := h
      have hnext := ih hrest (by omega)
      have hend : t.index - start + t.offset = t.index + t.offset - start := by omega
      rw [reachFrom, stopFrom, hend, ← hnext]
      omega

/--
Consecutive tokens that do not overlap, none with more text than it covers, are in order from the start
of the first one on.
-/
theorem ordered_of_isChain {first : Token} {rest : List Token}
    (hsize : ∀ t ∈ first :: rest, t.value.utf8ByteSize ≤ t.offset)
    (hdisjoint : (first :: rest).IsChain fun t u => t.index + t.offset ≤ u.index) :
    Ordered first.index (first :: rest) (stopFrom first.index (first :: rest)) := by
  induction rest generalizing first with
  | nil => exact ⟨Nat.le_refl _, hsize first List.mem_cons_self, Nat.le_refl _⟩
  | cons u rest ih =>
      obtain ⟨hle, hmore⟩ := List.isChain_cons_cons.1 hdisjoint
      have hrest := ih (fun t ht => hsize t (List.mem_cons_of_mem _ ht)) hmore
      exact ⟨Nat.le_refl _, hsize first List.mem_cons_self, hrest.of_le hle⟩

/--
Consecutive tokens that do not overlap, none with more text than it covers and none beyond all texts, are
in order between some positions.
-/
theorem exists_ordered {ts : List Token} (hsize : ∀ t ∈ ts, t.value.utf8ByteSize ≤ t.offset)
    (hdisjoint : ts.IsChain fun t u => t.index + t.offset ≤ u.index)
    (hends : ∀ t ∈ ts, t.index + t.offset < textBound) :
    ∃ lo hi, hi < textBound ∧ Ordered lo ts hi := by
  cases ts with
  | nil => exact ⟨0, 0, by decide, Nat.le_refl 0⟩
  | cons first rest =>
      have hlast := List.getLast?_eq_some_getLast (List.cons_ne_nil first rest)
      refine ⟨first.index, _, ?_, ordered_of_isChain hsize hdisjoint⟩
      rw [stopFrom_eq_of_getLast? hlast]
      exact hends _ (List.getLast_mem _)

section Small

variable {filler : String} (hfiller : filler.utf8ByteSize ≤ 1)

include hfiller

/-- With a filler of at most one byte a run in order merges into a token that covers it and no more. -/
theorem merge?_eq_of_ordered {hi : Nat} {first : Token} {rest : List Token} (hhi : hi < textBound)
    (h : Ordered first.index (first :: rest) hi) :
    merge? filler (first :: rest) = .ok (some
      { value := textFrom filler first.index (first :: rest), index := first.index
        offset := stopFrom first.index (first :: rest) - first.index }) := by
  obtain ⟨hstop, hle⟩ := h.upTo_stopFrom
  obtain ⟨t, hmerge, ht⟩ :=
    merge?_ordered hfiller (Nat.lt_of_le_of_lt hle hhi) (List.cons_ne_nil first rest) hstop
  have hform := Option.some.inj (merge?_eq_of_ok hmerge)
  have hreach := reachFrom_of_ordered h (Nat.le_refl first.index)
  -- the text is no longer than the positions between the first start and the last end
  have hfits : first.index + t.offset ≤ stopFrom first.index (first :: rest) := by
    have hend : t.index + t.offset ≤ _ := ht.2.2
    rwa [hform] at hend ⊢
  have hoffset : t.offset = stopFrom first.index (first :: rest) - first.index := by
    rw [hform] at hfits ⊢
    simp only at hfits ⊢
    omega
  rw [hmerge, ← hoffset, hform]

/-! ## §4. Merged runs instead of tokens. -/

/-- A token stands for a run: it starts with the run, and read from any position it gives what the run gives. -/
structure Token.StandsFor (filler : String) (m : Token) (run : List Token) : Prop where
  /-- Both start at the same place. -/
  start : run.head?.map (·.index) = some m.index
  /-- Both give the same text. -/
  text : ∀ stop, textFrom filler stop [m] = textFrom filler stop run
  /-- Both end at the same place. -/
  stop : ∀ stop, stopFrom stop [m] = stopFrom stop run

/-- The token that a run in order merges into stands for the run, and merging it again changes nothing. -/
theorem merge?_standsFor {lo hi : Nat} {run : List Token} (hhi : hi < textBound) (hrun : run ≠ [])
    (h : Ordered lo run hi) :
    ∃ m, merge? filler run = .ok (some m) ∧ merge? filler [m] = .ok (some m) ∧
      m.StandsFor filler run ∧ Ordered lo [m] hi := by
  cases run with
  | nil => exact absurd rfl hrun
  | cons first rest =>
      have hfrom : Ordered first.index (first :: rest) hi := ⟨Nat.le_refl _, h.2⟩
      have hmerge := merge?_eq_of_ordered hfiller hhi hfrom
      obtain ⟨m, hm, hordered⟩ := merge?_ordered hfiller hhi hrun h
      have hform := Option.some.inj (Except.ok.inj (hm.symm.trans hmerge))
      have hindex : m.index = first.index := by rw [hform]
      have hvalue : textFrom filler m.index [m] = textFrom filler first.index (first :: rest) := by
        rw [textFrom_self, textFrom, String.append_empty, hform]
      have hstop : m.index + m.offset = stopFrom first.index (first :: rest) := by
        have hle := hfrom.upTo_stopFrom.1.le
        rw [hform]
        show first.index + (_ - first.index) = _
        omega
      refine ⟨m, hm, ?_, ⟨congrArg some hindex.symm, fun stop => ?_, fun _ => hstop⟩, hordered⟩
      · -- a merged token has a text and a place, and merging gives it both again
        rw [merge?_eq_of_ordered hfiller hhi ⟨Nat.le_refl _, hordered.2⟩, hvalue, hform]
        show Except.ok (some ({ offset := first.index + _ - first.index, .. } : Token)) = _
        rw [Nat.add_sub_cancel_left]
      · rw [textFrom_cons_eq, textFrom_cons_eq filler stop first, hvalue, hindex]

/-- Runs in order that stand one after the other merge into tokens that stand for them. -/
theorem exists_standsFor {lo hi : Nat} {runs : List (List Token)} (hhi : hi < textBound)
    (hruns : ∀ run ∈ runs, run ≠ []) (h : Ordered lo runs.flatten hi) :
    ∃ ms, List.Forall₂ (fun run m => merge? filler run = .ok (some m)) runs ms ∧
      (∀ m ∈ ms, merge? filler [m] = .ok (some m)) ∧
      List.Forall₂ (Token.StandsFor filler) ms runs ∧ Ordered lo ms hi := by
  induction runs generalizing lo with
  | nil => exact ⟨[], .nil, by simp, .nil, h⟩
  | cons run rest ih =>
      obtain ⟨mid, hleft, hright⟩ := ordered_append.1 (List.flatten_cons ▸ h)
      have hmid : mid < textBound := Nat.lt_of_le_of_lt hright.le hhi
      obtain ⟨m, hm, hagain, hstands, hone⟩ :=
        merge?_standsFor hfiller hmid (hruns run List.mem_cons_self) hleft
      obtain ⟨ms, hms, hmore, hall, hrest⟩ := ih (fun r hr => hruns r (List.mem_cons_of_mem _ hr)) hright
      exact ⟨m :: ms, .cons hm hms, List.forall_mem_cons.2 ⟨hagain, hmore⟩, .cons hstands hall,
        ordered_append.2 ⟨mid, hone, hrest⟩⟩

omit hfiller in
/-- Tokens that stand for runs read like the tokens of the runs. -/
theorem textFrom_of_standsFor {ms : List Token} {runs : List (List Token)}
    (h : List.Forall₂ (Token.StandsFor filler) ms runs) (stop : Nat) :
    textFrom filler stop ms = textFrom filler stop runs.flatten ∧
      stopFrom stop ms = stopFrom stop runs.flatten := by
  induction h generalizing stop with
  | nil => exact ⟨rfl, rfl⟩
  | @cons m run ms runs hm _ ih =>
      obtain ⟨htext, hstop⟩ := ih (stopFrom stop run)
      rw [← List.singleton_append, List.flatten_cons, textFrom_append, textFrom_append, stopFrom_append,
        stopFrom_append, hm.text, hm.stop, htext, hstop]
      exact ⟨rfl, rfl⟩

/-- Merging tokens that stand for runs gives what merging the tokens of the runs gives. -/
theorem merge?_flatten_of_standsFor {lo hi : Nat} {ms : List Token} {runs : List (List Token)}
    (hhi : hi < textBound) (h : List.Forall₂ (Token.StandsFor filler) ms runs)
    (hms : Ordered lo ms hi) (hruns : Ordered lo runs.flatten hi) :
    ∃ whole, merge? filler runs.flatten = .ok whole ∧ merge? filler ms = .ok whole := by
  cases h with
  | nil => exact ⟨none, rfl, rfl⟩
  | @cons m run ms runs hm hall =>
      cases run with
      | nil => cases hm.start
      | cons t more =>
          have hindex : t.index = m.index := Option.some.inj hm.start
          -- both sequences start at the same place, and from there they read alike
          obtain ⟨htext, hstop⟩ := textFrom_of_standsFor (.cons hm hall) t.index
          have hleft := merge?_eq_of_ordered hfiller hhi ⟨Nat.le_refl t.index, hruns.2⟩
          have hright := merge?_eq_of_ordered hfiller hhi ⟨Nat.le_refl m.index, hms.2⟩
          rw [← hindex, htext, hstop] at hright
          exact ⟨_, hleft, hright⟩

end Small

/--
Tokens in order, cut into groups in any way: merging each group and then the merged tokens gives the same
token as merging all at once, and a merged token merges into itself.
-/
theorem merging_in_groups_eq_merging_at_once {filler : String} (hfiller : filler.utf8ByteSize ≤ 1)
    {groups : List (List Token)} (hgroups : ∀ group ∈ groups, group ≠ [])
    (hsize : ∀ t ∈ groups.flatten, t.value.utf8ByteSize ≤ t.offset)
    (hdisjoint : groups.flatten.IsChain fun t u => t.index + t.offset ≤ u.index)
    (hends : ∀ t ∈ groups.flatten, t.index + t.offset < textBound) :
    ∃ merged, List.Forall₂ (fun group m => merge? filler group = .ok (some m)) groups merged ∧
      (∃ whole, merge? filler groups.flatten = .ok whole ∧ merge? filler merged = .ok whole) ∧
      ∀ m ∈ merged, merge? filler [m] = .ok (some m) := by
  obtain ⟨lo, hi, hhi, hordered⟩ := exists_ordered hsize hdisjoint hends
  obtain ⟨merged, hmerged, hagain, hstands, hms⟩ := exists_standsFor hfiller hhi hgroups hordered
  exact ⟨merged, hmerged, merge?_flatten_of_standsFor hfiller hhi hstands hms hordered, hagain⟩

/-- Two groups of three tokens; the gaps, also the one between the groups, are closed. -/
theorem two_groups_of_three_tokens :
    let groups : List (List Token) :=
      [[{ value := "ß", index := 2, offset := 2 }, { value := "ab", index := 7, offset := 3 }],
        [{ value := "", index := 12, offset := 4 }]]
    "".utf8ByteSize ≤ 1 ∧ (∀ group ∈ groups, group ≠ []) ∧
      (∀ t ∈ groups.flatten, t.value.utf8ByteSize ≤ t.offset) ∧
      (groups.flatten.IsChain fun t u => t.index + t.offset ≤ u.index) ∧
      (∀ t ∈ groups.flatten, t.index + t.offset < textBound) ∧
      ∃ merged, List.Forall₂ (fun group m => merge? "" group = .ok (some m)) groups merged ∧
        (∃ whole, merge? "" groups.flatten = .ok whole ∧ merge? "" merged = .ok whole) ∧
        ∀ m ∈ merged, merge? "" [m] = .ok (some m) := by
  intro groups
  have hfiller : "".utf8ByteSize ≤ 1 := by decide
  have hgroups : ∀ group ∈ groups, group ≠ [] := by decide
  have hsize : ∀ t ∈ groups.flatten, t.value.utf8ByteSize ≤ t.offset := by decide +kernel
  have hdisjoint : groups.flatten.IsChain fun t u => t.index + t.offset ≤ u.index := by
    simp [groups]
  have hends : ∀ t ∈ groups.flatten, t.index + t.offset < textBound := by decide +kernel
  exact ⟨hfiller, hgroups, hsize, hdisjoint, hends,
    merging_in_groups_eq_merging_at_once hfiller hgroups hsize hdisjoint hends⟩

end TokenSpan
