/-
  TokenSpan.Text
  ──────────────
  Sizes and positions in text.

  Positions count bytes of UTF-8, so a text has as many positions as its characters have
  bytes.  A position fits 64 bits; a sum that does not is a fault of its own
  (see `TokenSpan.Fault`).

  Main results:
  * `utf8ByteSize_ofList` — the size of a text is the sum of the sizes of its characters;
  * `byteLength_append` — sizes add up;
  * `span_append` — where the characters of a kind end that a text starts with;
  * `split_of_append_eq` — two cuts of one text, and what stands between them.
-/

namespace TokenSpan

/-- Positions are below 2^64. -/
def positionBound : Nat := 18446744073709551616

/-- 2^63 bytes: a text that is handed in, or made by one repetition, has less. -/
def textBound : Nat := 9223372036854775808

/-- The number of bytes that characters take in UTF-8. -/
def byteLength : List Char → Nat
  | [] => 0
  | c :: rest => c.utf8Size + byteLength rest

@[simp] theorem byteLength_nil : byteLength [] = 0 := rfl

@[simp] theorem byteLength_cons (c : Char) (rest : List Char) :
    byteLength (c :: rest) = c.utf8Size + byteLength rest := rfl

@[simp] theorem byteLength_append (a b : List Char) :
    byteLength (a ++ b) = byteLength a + byteLength b := by
  induction a with
  | nil => simp
  | cons c rest ih => simp [ih, Nat.add_assoc]

/-- The size of a text is the sum of the sizes of its characters. -/
theorem utf8ByteSize_ofList (cs : List Char) : (String.ofList cs).utf8ByteSize = byteLength cs := by
  induction cs with
  | nil => rfl
  | cons c rest ih =>
      rw [String.ofList_cons, String.utf8ByteSize_append, String.utf8ByteSize_singleton, ih]
      rfl

/-- The size of a text, seen on its characters. -/
theorem byteLength_toList (s : String) : byteLength s.toList = s.utf8ByteSize := by
  rw [← utf8ByteSize_ofList, String.ofList_toList]

/-- What a text starts with ends at the first character that does not belong to it. -/
theorem span_append {p : Char → Bool} {first rest : List Char} (hfirst : ∀ c ∈ first, p c)
    (hrest : ∀ c ∈ rest.head?, p c = false) :
    (first ++ rest).takeWhile p = first ∧ (first ++ rest).dropWhile p = rest := by
  rw [List.takeWhile_append_of_pos hfirst, List.dropWhile_append_of_pos hfirst]
  cases rest with
  | nil => simp
  | cons c more =>
      have hc : p c = false := hrest c rfl
      rw [List.takeWhile_cons_of_neg (by simp [hc]), List.dropWhile_cons_of_neg (by simp [hc])]
      simp

/-- Only the empty text takes no bytes. -/
theorem byteLength_eq_zero {cs : List Char} : byteLength cs = 0 ↔ cs = [] := by
  cases cs with
  | nil => simp
  | cons c rest => have := c.utf8Size_pos; simp; omega

/-- Two ways to split a text: one of the cuts stands at the other one or behind it. -/
theorem split_of_append_eq {a b c d : String} (h : a ++ b = c ++ d) :
    (∃ w, c = a ++ w ∧ b = w ++ d) ∨ ∃ w, a = c ++ w ∧ d = w ++ b := by
  have hlist : a.toList ++ b.toList = c.toList ++ d.toList := by
    rw [← String.toList_append, h, String.toList_append]
  rcases List.append_eq_append_iff.1 hlist with ⟨w, hc, hb⟩ | ⟨w, ha, hd⟩
  · exact .inl ⟨String.ofList w, String.toList_inj.1 (by simpa using hc),
      String.toList_inj.1 (by simpa using hb)⟩
  · exact .inr ⟨String.ofList w, String.toList_inj.1 (by simpa using ha),
      String.toList_inj.1 (by simpa using hd)⟩

end TokenSpan
