/-
  TokenSpan.Proofs.MergedSlices
  ─────────────────────────────
  Merging slices of a text gives the slice from the first to the last of them.

  A filler of one byte stands for each byte between two slices.  Where the text has just that
  byte in every such place, the merged text is the text itself: merging undoes cutting.  The
  comparison of filling and text is about bytes, so texts are seen as lists of them (`bytes`).

  Main results:
  * `eq_repeatText` — a text of one and the same byte is that byte repeated;
  * `exists_append_textFrom` — the merged text stands in the text;
  * `merging_slices_gives_slice` — the merged token is exact again.
-/
import TokenSpan.Proofs.Exact
import TokenSpan.Proofs.MergedText

namespace TokenSpan

/-! ## §1. Texts as bytes. -/

/-- The bytes of a text. -/
def bytes (s : String) : List UInt8 := s.toByteArray.data.toList

theorem bytes_append (s t : String) : bytes (s ++ t) = bytes s ++ bytes t := by
  unfold bytes
  rw [String.toByteArray_append, ByteArray.data_append, Array.toList_append]

theorem length_bytes (s : String) : (bytes s).length = s.utf8ByteSize := by
  rw [← String.size_toByteArray]
  rfl

/-- Texts of the same bytes are the same. -/
theorem eq_of_bytes_eq {s t : String} (h : bytes s = bytes t) : s = t :=
  String.toByteArray_inj.1 (ByteArray.ext (Array.toList_inj.1 h))

theorem bytes_join_replicate (s : String) (count : Nat) :
    bytes (String.join (List.replicate count s)) = (List.replicate count (bytes s)).flatten := by
  induction count with
  | zero => rfl
  | succ n ih =>
      rw [List.replicate_succ, String.join_cons, bytes_append, ih, List.replicate_succ,
        List.flatten_cons]

/-- A text in which the byte of a filler of one byte stands everywhere is the filler repeated. -/
theorem eq_repeatText {filler gap : String} (hfiller : filler.utf8ByteSize = 1)
    (h : ∀ b ∈ bytes gap, some b = (bytes filler).head?) :
    gap = repeatText filler gap.utf8ByteSize := by
  obtain ⟨b, hb⟩ := List.length_eq_one_iff.1 ((length_bytes filler).trans hfiller)
  have hsolid : ¬ filler.isEmpty := by
    intro hempty
    rw [String.isEmpty_iff.1 hempty] at hfiller
    cases hfiller
  have hgap : bytes gap = List.replicate gap.utf8ByteSize b := by
    refine List.eq_replicate_iff.2 ⟨length_bytes gap, fun c hc => ?_⟩
    have hcb := h c hc
    rw [hb] at hcb
    exact Option.some.inj hcb
  apply eq_of_bytes_eq
  rw [hgap, repeatText, if_neg hsolid, bytes_join_replicate, hb, List.flatten_replicate_singleton]

/-! ## §2. Slices and what stands between them. -/

/-- Every byte of the text from one position up to another one is that of the filler. -/
def FilledFrom (text filler : String) (start stop : Nat) : Prop :=
  ∀ i, start ≤ i → i < stop → (bytes text)[i]? = (bytes filler).head?

/-- Where a text is filled between two of its parts, the filler stands there, once for each byte. -/
theorem gap_eq_repeatText {text filler before gap after : String} {start stop : Nat}
    (hfiller : filler.utf8ByteSize = 1) (htext : text = before ++ gap ++ after)
    (hstart : before.utf8ByteSize = start) (hstop : (before ++ gap).utf8ByteSize = stop)
    (h : FilledFrom text filler start stop) : gap = repeatText filler (stop - start) := by
  have hsize : gap.utf8ByteSize = stop - start := by
    rw [String.utf8ByteSize_append] at hstop
    omega
  rw [← hsize]
  refine eq_repeatText hfiller fun b hb => ?_
  -- each byte of the gap is a byte of the text in the filled part
  obtain ⟨k, hk⟩ := List.mem_iff_getElem?.1 hb
  have hlt : k < gap.utf8ByteSize := by
    rw [← length_bytes]
    exact (List.getElem?_eq_some_iff.1 hk).1
  have hbyte : (bytes text)[start + k]? = some b := by
    rw [htext, bytes_append, bytes_append, List.append_assoc,
      List.getElem?_append_right (by rw [length_bytes]; omega), length_bytes, hstart,
      Nat.add_sub_cancel_left, List.getElem?_append_left (by rwa [length_bytes]), hk]
  rw [← hbyte]
  exact h (start + k) (by omega) (by omega)

/-- Behind a first part, another cut of the same text that is not before it leaves a gap between the two. -/
theorem exists_gap {a b c d : String} (h : a ++ b = c ++ d) (hle : a.utf8ByteSize ≤ c.utf8ByteSize) :
    ∃ gap, c = a ++ gap ∧ b = gap ++ d := by
  rcases split_of_append_eq h with ⟨gap, hc, hb⟩ | ⟨gap, ha, hd⟩
  · exact ⟨gap, hc, hb⟩
  · -- the other cut would be in front of the first one, so both are the same
    have hempty : gap = "" := by
      rw [ha, String.utf8ByteSize_append] at hle
      exact String.utf8ByteSize_eq_zero_iff.1 (by omega)
    refine ⟨"", ?_, ?_⟩
    · rw [ha, hempty, String.append_empty, String.append_empty]
    · rw [hd, hempty, String.empty_append, String.empty_append]

/-- Slices of a text that is filled between them merge into a part of the text, from the first one on. -/
theorem exists_append_textFrom {text filler : String} (hfiller : filler.utf8ByteSize = 1)
    {first : Token} {rest : List Token} (hexact : ∀ t ∈ first :: rest, t.Exact text)
    (hdisjoint : (first :: rest).IsChain fun t u => t.index + t.offset ≤ u.index)
    (hfilled : (first :: rest).IsChain fun t u => FilledFrom text filler (t.index + t.offset) u.index) :
    ∃ before after, text = before ++ textFrom filler first.index (first :: rest) ++ after ∧
      before.utf8ByteSize = first.index := by
  induction rest generalizing first with
  | nil =>
      obtain ⟨-, before, after, htext, hindex⟩ := Token.exact_iff.1 (hexact first List.mem_cons_self)
      refine ⟨before, after, ?_, hindex.symm⟩
      rw [textFrom_self, textFrom, String.append_empty]
      exact htext
  | cons u rest ih =>
      obtain ⟨hle, hmore⟩ := List.isChain_cons_cons.1 hdisjoint
      obtain ⟨hfill, hfills⟩ := List.isChain_cons_cons.1 hfilled
      obtain ⟨hcovers, before, after, htext, hindex⟩ :=
        Token.exact_iff.1 (hexact first List.mem_cons_self)
      obtain ⟨front, last, hfront, hu⟩ :=
        ih (fun t ht => hexact t (List.mem_cons_of_mem _ ht)) hmore hfills
      have hstop : (before ++ first.value).utf8ByteSize = first.index + first.offset := by
        rw [String.utf8ByteSize_append, hindex, hcovers]
      -- between the end of the first slice and the start of the next one stands the filler
      rw [String.append_assoc] at hfront
      obtain ⟨gap, hgap, -⟩ := exists_gap (htext.symm.trans hfront) (by omega)
      have hfilling : gap = repeatText filler (u.index - (first.index + first.offset)) :=
        gap_eq_repeatText hfiller (hgap ▸ hfront) hstop (hgap ▸ hu) hfill
      refine ⟨before, last, ?_, hindex.symm⟩
      rw [textFrom_self, textFrom_cons_eq, ← hfilling, hfront, hgap]
      simp only [String.append_assoc]

/-! ## §3. The merged slice. -/

/-- Filled byte by byte, tokens that cover their texts merge into a text as long as the positions they cover. -/
theorem utf8ByteSize_textFrom {filler : String} (hfiller : filler.utf8ByteSize = 1) {stop hi : Nat}
    {ts : List Token} (h : Ordered stop ts hi) (hcovers : ∀ t ∈ ts, t.offset = t.value.utf8ByteSize) :
    (textFrom filler stop ts).utf8ByteSize = stopFrom stop ts - stop := by
  induction ts generalizing stop with
  | nil => exact (Nat.sub_self stop).symm
  | cons t rest ih =>
      obtain ⟨hlo, -, hrest⟩ := h
      have hmore := ih hrest fun u hu => hcovers u (List.mem_cons_of_mem _ hu)
      have ht := hcovers t List.mem_cons_self
      have hle := hrest.upTo_stopFrom.1.le
      rw [textFrom, stopFrom, String.utf8ByteSize_append, String.utf8ByteSize_append, hmore,
        utf8ByteSize_repeatText, hfiller]
      omega

/--
Slices of a text that stand one after the other, with the one byte of the filler in every place between
them, merge into the slice of the text from the start of the first one to the end of the last one.
-/
theorem merging_slices_gives_slice {text filler : String} (htext : text.utf8ByteSize < textBound)
    (hfiller : filler.utf8ByteSize = 1) {ts : List Token} {first last : Token}
    (hfirst : ts.head? = some first) (hlast : ts.getLast? = some last)
    (hexact : ∀ t ∈ ts, t.Exact text)
    (hdisjoint : ts.IsChain fun t u => t.index + t.offset ≤ u.index)
    (hfilled : ts.IsChain fun t u => FilledFrom text filler (t.index + t.offset) u.index) :
    ∃ merged : Token, merge? filler ts = .ok (some merged) ∧ merged.Exact text ∧
      merged.index = first.index ∧ merged.offset = last.index + last.offset - first.index ∧
      merged.properties = .empty ∧ merged.matched = none := by
  obtain ⟨rest, rfl⟩ := List.head?_eq_some_iff.1 hfirst
  have hcovers : ∀ t ∈ first :: rest, t.offset = t.value.utf8ByteSize := fun t ht => (hexact t ht).covers
  have hordered := ordered_of_isChain (fun t ht => Nat.le_of_eq (hcovers t ht).symm) hdisjoint
  have hstop : stopFrom first.index (first :: rest) = last.index + last.offset :=
    stopFrom_eq_of_getLast? hlast first.index
  have hend : last.index + last.offset ≤ text.utf8ByteSize :=
    (hexact last (List.mem_of_getLast? hlast)).stop_le
  have hmerge := merge?_eq_of_ordered (Nat.le_of_eq hfiller) (by omega) hordered
  obtain ⟨before, after, hbefore, hindex⟩ := exists_append_textFrom hfiller hexact hdisjoint hfilled
  refine ⟨_, hmerge, Token.exact_iff.2 ⟨?_, before, after, hbefore, hindex.symm⟩, rfl, ?_, rfl, rfl⟩
  · exact (utf8ByteSize_textFrom hfiller hordered hcovers).symm
  · show stopFrom first.index (first :: rest) - first.index = _
    rw [hstop]

/-- Letters in a text of hyphens; the last slice is empty and ends the text. -/
theorem letters_among_hyphens_give_slice :
    let text := "-ab--ß-"
    let ts : List Token := [.ofText "ab" 1, .ofText "ß" 5, .ofText "" 8]
    text.utf8ByteSize < textBound ∧ "-".utf8ByteSize = 1 ∧ ts.head? = some (.ofText "ab" 1) ∧
      ts.getLast? = some (.ofText "" 8) ∧ (∀ t ∈ ts, t.Exact text) ∧
      (ts.IsChain fun t u => t.index + t.offset ≤ u.index) ∧
      (ts.IsChain fun t u => FilledFrom text "-" (t.index + t.offset) u.index) ∧
      ∃ merged : Token, merge? "-" ts = .ok (some merged) ∧ merged.Exact text ∧ merged.index = 1 ∧
        merged.offset = 8 + 0 - 1 ∧ merged.properties = .empty ∧ merged.matched = none := by
  intro text ts
  have htext : text.utf8ByteSize < textBound := by decide +kernel
  have hfiller : "-".utf8ByteSize = 1 := by decide
  have hexact : ∀ t ∈ ts, t.Exact text := by
    simp only [ts, List.forall_mem_cons, List.not_mem_nil, false_implies, implies_true, and_true]
    exact ⟨Token.exact_iff.2 ⟨rfl, "-", "--ß-", by decide, by decide⟩,
      Token.exact_iff.2 ⟨rfl, "-ab--", "-", by decide, by decide⟩,
      Token.exact_iff.2 ⟨rfl, "-ab--ß-", "", by decide, by decide⟩⟩
  have hdisjoint : ts.IsChain fun t u => t.index + t.offset ≤ u.index :=
    .cons_cons (by decide) (.cons_cons (by decide) (.singleton _))
  have hfilled : ts.IsChain fun t u => FilledFrom text "-" (t.index + t.offset) u.index := by
    refine .cons_cons (fun i hlo hhi => ?_) (.cons_cons (fun i hlo hhi => ?_) (.singleton _))
    · have hi : i = 3 ∨ i = 4 := by
        have hstart : 3 ≤ i := hlo
        have hstop : i < 5 := hhi
        omega
      rcases hi with rfl | rfl <;> decide +kernel
    · have hi : i = 7 := by
        have hstart : 7 ≤ i := hlo
        have hstop : i < 8 := hhi
        omega
      subst hi
      decide +kernel
  exact ⟨htext, hfiller, rfl, rfl, hexact, hdisjoint, hfilled,
    merging_slices_gives_slice htext hfiller rfl rfl hexact hdisjoint hfilled⟩

end TokenSpan
