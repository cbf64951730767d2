/-
  TokenSpan.Proofs.JsonText
  ─────────────────────────
  Reading a document back from its compact text.

  The reader takes from the front of a text what it can use and leaves the rest.  So each part
  of the printer is undone in front of anything that may stand behind it: a character behind
  its escape, a text behind its quotes, a number in front of a comma or a bracket, and by
  induction whole documents.  Doubles are left out: their text is the shortest that reads back,
  which is a matter of its own.

  Main results:
  * `Number.read?_print` — integers of 64 bits;
  * `readText?_quoted` — texts, control characters and quotes included;
  * `parse?_text` — documents whose numbers are integers.
-/
import TokenSpan.Json.Printer
import TokenSpan.Json.Reader
import TokenSpan.Text

namespace TokenSpan

/-! ## §1. Documents of integers. -/

/-- Whether a number is an integer of 64 bits. -/
def Number.isIntegral : Number → Bool
  | .natural _ | .negSucc _ => true
  | .double _ => false

namespace Json

mutual

/-- Whether all numbers of a document are integers. -/
def isIntegral : Json → Bool
  | .number n => n.isIntegral
  | .array items => areIntegral items
  | .object members => membersIntegral members
  | .null | .bool _ | .string _ => true

def areIntegral : List Json → Bool
  | [] => true
  | j :: rest => isIntegral j && areIntegral rest

def membersIntegral : List (String × Json) → Bool
  | [] => true
  | (_, j) :: rest => isIntegral j && membersIntegral rest

end

theorem areIntegral_cons {j : Json} {rest : List Json} :
    areIntegral (j :: rest) = true ↔ j.isIntegral = true ∧ areIntegral rest = true := by
  simp [areIntegral]

theorem membersIntegral_cons {key : String} {j : Json} {rest : List (String × Json)} :
    membersIntegral ((key, j) :: rest) = true ↔
      j.isIntegral = true ∧ membersIntegral rest = true := by
  simp [membersIntegral]

theorem membersIntegral_iff :
    (members : List (String × Json)) →
      (membersIntegral members = true ↔ ∀ e ∈ members, isIntegral e.2 = true)
  | [] => by simp [membersIntegral]
  | (k, j) :: rest => by simp [membersIntegral, membersIntegral_iff rest]

end Json

/-- What may stand behind a document inside another one, or at the end of the text. -/
def Follows (rest : List Char) : Prop := ∀ c ∈ rest.head?, c = ',' ∨ c = ']' ∨ c = '}'

theorem follows_nil : Follows [] := by
  intro c hc
  cases hc

theorem follows_comma (rest : List Char) : Follows (',' :: rest) := by
  intro c hc
  exact .inl (Option.some.inj hc).symm

theorem follows_bracket (rest : List Char) : Follows (']' :: rest) := by
  intro c hc
  exact .inr (.inl (Option.some.inj hc).symm)

theorem follows_brace (rest : List Char) : Follows ('}' :: rest) := by
  intro c hc
  exact .inr (.inr (Option.some.inj hc).symm)

/-! ## §2. Numbers. -/

namespace Number

theorem le_ofDigitChars (cs : List Char) (start : Nat) : start ≤ Nat.ofDigitChars 10 cs start := by
  induction cs generalizing start with
  | nil => exact Nat.le_refl _
  | cons c rest ih =>
      rw [Nat.ofDigitChars_cons]
      have h := ih (10 * start + (c.toNat - '0'.toNat))
      omega

/-- Digits of a number below 2^64 are all taken. -/
theorem gather_eq {cs : List Char} {start : Nat} (h : Nat.ofDigitChars 10 cs start < UInt64.size) :
    gather start cs = (Nat.ofDigitChars 10 cs start, []) := by
  induction cs generalizing start with
  | nil => rfl
  | cons c rest ih =>
      rw [Nat.ofDigitChars_cons, Nat.mul_comm] at h
      have hle := le_ofDigitChars rest (start * 10 + (c.toNat - '0'.toNat))
      have hnext : start * 10 + (c.toNat - '0'.toNat) < UInt64.size := by omega
      unfold gather
      simp only [hnext, if_true]
      rw [ih h, Nat.ofDigitChars_cons, Nat.mul_comm 10 start]

/-- Only zero is written with a zero in front. -/
theorem eq_zero_of_head?_toDigits {n : Nat} (h : (Nat.toDigits 10 n).head? = some '0') : n = 0 := by
  induction n using Nat.strongRecOn with
  | ind n ih =>
      by_cases hn : n < 10
      · rw [Nat.toDigits_of_lt_base hn] at h
        have hchar : ∀ m < 10, Nat.digitChar m = '0' → m = 0 := by decide
        exact hchar n hn (Option.some.inj h)
      · rw [Nat.toDigits_of_base_le (by decide) (by omega)] at h
        have hhead : (Nat.toDigits 10 (n / 10)).head? = some '0' := by
          cases hdigits : Nat.toDigits 10 (n / 10) with
          | nil => exact absurd hdigits Nat.toDigits_ne_nil
          | cons c more =>
              rw [hdigits] at h
              exact h
        have hzero := ih (n / 10) (by omega) hhead
        omega

theorem readFraction?_follows {rest : List Char} (h : Follows rest) :
    readFraction? rest = some ([], rest) := by
  cases rest with
  | nil => rfl
  | cons c more => rcases h c rfl with rfl | rfl | rfl <;> rfl

theorem readExponent?_follows {rest : List Char} (h : Follows rest) :
    readExponent? rest = some (none, rest) := by
  cases rest with
  | nil => rfl
  | cons c more => rcases h c rfl with rfl | rfl | rfl <;> rfl

theorem span_toDigits (n : Nat) {rest : List Char} (h : Follows rest) :
    (Nat.toDigits 10 n ++ rest).takeWhile Char.isDigit = Nat.toDigits 10 n ∧
      (Nat.toDigits 10 n ++ rest).dropWhile Char.isDigit = rest := by
  have hdigits : ∀ c ∈ Nat.toDigits 10 n, c.isDigit = true :=
    fun c hc => Nat.isDigit_of_mem_toDigits (by decide) (by decide) hc
  refine span_append hdigits fun c hc => ?_
  rcases h c hc with rfl | rfl | rfl <;> rfl

/-- The form of a number of digits only. -/
theorem readMagnitude?_toDigits (negative : Bool) (n : Nat) {rest : List Char} (h : Follows rest) :
    Numeral.readMagnitude? negative (Nat.toDigits 10 n ++ rest)
      = some ({ negative, whole := Nat.toDigits 10 n, fraction := [], exponent := none }, rest) := by
  obtain ⟨htake, hdrop⟩ := span_toDigits n h
  unfold Numeral.readMagnitude?
  rw [htake, hdrop, readFraction?_follows h]
  split
  · rename_i hnil
    exact absurd hnil Nat.toDigits_ne_nil
  · -- a number with a zero in front has no other digit
    rename_i d more hzero
    have hn := eq_zero_of_head?_toDigits (by rw [hzero]; rfl)
    rw [hn] at hzero
    cases hzero
  · show (readExponent? rest).bind _ = _
    rw [readExponent?_follows h]
    rfl

theorem number?_toDigits (negative : Bool) {n : Nat} (hn : n < UInt64.size) :
    Numeral.number? { negative, whole := Nat.toDigits 10 n, fraction := [], exponent := none }
      = ofMagnitude? negative n := by
  unfold Numeral.number?
  dsimp only
  rw [gather_eq (by rw [Nat.ofDigitChars_ten_toDigits]; exact hn), Nat.ofDigitChars_ten_toDigits]
  simp only [List.isEmpty_nil, Option.isNone_none, and_self, if_true]

theorem exists_toDigits_cons (n : Nat) :
    ∃ c more, Nat.toDigits 10 n = c :: more ∧ c.isDigit = true := by
  obtain ⟨c, more, hdigits⟩ :=
    List.exists_cons_of_ne_nil (Nat.toDigits_ne_nil : Nat.toDigits 10 n ≠ [])
  have hmem : c ∈ Nat.toDigits 10 n := by
    rw [hdigits]
    exact List.mem_cons_self
  exact ⟨c, more, hdigits, Nat.isDigit_of_mem_toDigits (by decide) (by decide) hmem⟩

theorem exists_print_cons {n : Number} (hn : n.isIntegral) :
    ∃ c more, n.print = c :: more ∧ (c.isDigit ∨ c = '-') := by
  cases n with
  | double d => cases hn
  | negSucc n => exact ⟨_, _, rfl, .inr rfl⟩
  | natural n =>
      obtain ⟨c, more, hdigits, hc⟩ := exists_toDigits_cons n.toNat
      exact ⟨c, more, hdigits, .inl hc⟩

/-- Integers are read back from their digits. -/
theorem read?_print {n : Number} (hn : n.isIntegral) {rest : List Char} (h : Follows rest) :
    read? (n.print ++ rest) = some (n, rest) := by
  cases n with
  | double d => cases hn
  | natural n =>
      have hlt : n.toNat < UInt64.size := n.toNat_lt
      have hread : Numeral.read? (Nat.toDigits 10 n.toNat ++ rest)
          = Numeral.readMagnitude? false (Nat.toDigits 10 n.toNat ++ rest) := by
        obtain ⟨c, more, hdigits, hc⟩ := exists_toDigits_cons n.toNat
        rw [hdigits, List.cons_append]
        unfold Numeral.read?
        split
        · rename_i heq
          rw [(List.cons.inj heq).1] at hc
          cases hc
        · rfl
      show (Numeral.read? (Nat.toDigits 10 n.toNat ++ rest)).bind _ = _
      rw [hread, readMagnitude?_toDigits false n.toNat h, Option.bind_some]
      dsimp only
      rw [number?_toDigits false hlt]
      unfold ofMagnitude?
      simp [hlt]
  | negSucc n =>
      have hlt : n.val + 1 < UInt64.size := by
        have hval := n.isLt
        have hsize : UInt64.size = 18446744073709551616 := rfl
        omega
      have hmagnitude : 0 < n.val + 1 ∧ n.val + 1 ≤ 9223372036854775808 := by
        have hval := n.isLt
        omega
      show (Numeral.readMagnitude? true (Nat.toDigits 10 (n.val + 1) ++ rest)).bind _ = _
      rw [readMagnitude?_toDigits true (n.val + 1) h, Option.bind_some]
      dsimp only
      rw [number?_toDigits true hlt]
      unfold ofMagnitude?
      simp [hmagnitude]

end Number

/-! ## §3. Texts. -/

namespace Json

/-- The escape of a control character holds its number in four digits. -/
theorem hexUnit?_control {n : Nat} (h : n < 0x20) :
    hexUnit? '0' '0' (Nat.digitChar (n / 16)) (Nat.digitChar (n % 16)) = some n := by
  have hall : ∀ m < 0x20,
      hexUnit? '0' '0' (Nat.digitChar (m / 16)) (Nat.digitChar (m % 16)) = some m := by decide
  exact hall n h

theorem readText?_escape (c : Char) (rest : List Char) :
    readText? (escape c ++ rest) = (readText? rest).map fun p => (c :: p.1, p.2) := by
  unfold escape
  split
  case h_8 hquote hslash hn hr ht hb hf =>
    by_cases hcontrol : c.toNat < 0x20
    · rw [if_pos hcontrol]
      show readText? ('\\' :: 'u' :: '0' :: '0' :: Nat.digitChar (c.toNat / 16) ::
        Nat.digitChar (c.toNat % 16) :: rest) = _
      rw [readText?.eq_def]
      have hsurrogate : ¬ (0xd800 ≤ c.toNat ∧ c.toNat < 0xdc00) := by omega
      have hsurrogate' : ¬ (0xdc00 ≤ c.toNat ∧ c.toNat < 0xe000) := by omega
      simp only [hexUnit?_control hcontrol, hsurrogate, hsurrogate', if_false, Char.ofNat_toNat]
    · rw [if_neg hcontrol]
      show readText? (c :: rest) = _
      rw [readText?.eq_def]
      -- no other form of the reader starts with this character
      split
      · rename_i heq
        cases heq
      · rename_i heq
        exact (hquote (List.cons.inj heq).1).elim
      · rename_i heq
        exact (hslash (List.cons.inj heq).1).elim
      · rename_i heq
        exact (hslash (List.cons.inj heq).1).elim
      · rename_i heq
        obtain ⟨rfl, rfl⟩ := List.cons.inj heq
        have hplain : ¬ (c.toNat < 0x20 ∨ c = '\\') := by
          rintro (hlt | hback)
          · exact hcontrol hlt
          · exact hslash hback
        rw [if_neg hplain]
  all_goals rfl

/-- A text is read back from between its quotes. -/
theorem readText?_quoted (s : List Char) (rest : List Char) :
    readText? (s.flatMap escape ++ '"' :: rest) = some (s, rest) := by
  induction s with
  | nil => rfl
  | cons c more ih =>
      rw [List.flatMap_cons, List.append_assoc, readText?_escape, ih]
      rfl

/-! ## §4. One step of the reader. -/

theorem skipBlanks_cons {c : Char} (hc : isBlank c = false) (rest : List Char) :
    skipBlanks (c :: rest) = c :: rest := by
  unfold skipBlanks
  rw [List.dropWhile_cons_of_neg (by simp [hc])]

/-- A document starts with a character that is neither blank nor a bracket that closes. -/
theorem exists_print_cons {j : Json} (hj : j.isIntegral) :
    ∃ c more, print j = c :: more ∧ isBlank c = false ∧ c ≠ ']' := by
  cases j with
  | null => exact ⟨_, _, rfl, by decide, by decide⟩
  | bool b => cases b <;> exact ⟨_, _, rfl, by decide, by decide⟩
  | string s => exact ⟨_, _, rfl, by decide, by decide⟩
  | array items => exact ⟨_, _, rfl, by decide, by decide⟩
  | object members => exact ⟨_, _, rfl, by decide, by decide⟩
  | number n =>
      have hn : n.isIntegral = true := by simpa [isIntegral] using hj
      obtain ⟨c, more, hprint, hc⟩ := Number.exists_print_cons hn
      refine ⟨c, more, hprint, ?_, ?_⟩
      · refine Bool.eq_false_iff.2 fun hblank => ?_
        simp only [isBlank, Bool.or_eq_true, beq_iff_eq] at hblank
        rcases hblank with ((rfl | rfl) | rfl) | rfl <;> rcases hc with hc | hc <;> cases hc
      · rintro rfl
        rcases hc with hc | hc <;> cases hc

theorem exists_printItems_cons {j : Json} (hj : j.isIntegral) (items : List Json) :
    ∃ c more, printItems (j :: items) = c :: more ∧ isBlank c = false ∧ c ≠ ']' := by
  obtain ⟨c, more, hprint, hc⟩ := exists_print_cons hj
  cases items with
  | nil => exact ⟨c, more, hprint, hc⟩
  | cons k rest =>
      refine ⟨c, more ++ ',' :: printItems (k :: rest), ?_, hc⟩
      rw [printItems, hprint]
      · rfl
      · simp

theorem exists_printMembers_cons (e : String × Json) (members : List (String × Json)) :
    ∃ more, printMembers (e :: members) = '"' :: more := by
  cases members with
  | nil => exact ⟨_, rfl⟩
  | cons f rest => exact ⟨_, rfl⟩

/-- There are no blanks in front of what was printed. -/
theorem skipBlanks_print {j : Json} (hj : j.isIntegral) (rest : List Char) :
    skipBlanks (print j ++ rest) = print j ++ rest := by
  obtain ⟨c, more, hprint, hblank, -⟩ := exists_print_cons hj
  rw [hprint, List.cons_append]
  exact skipBlanks_cons hblank _

theorem skipBlanks_printItems {j : Json} (hj : j.isIntegral) (items : List Json)
    (rest : List Char) :
    skipBlanks (printItems (j :: items) ++ rest) = printItems (j :: items) ++ rest := by
  obtain ⟨c, more, hprint, hblank, -⟩ := exists_printItems_cons hj items
  rw [hprint, List.cons_append]
  exact skipBlanks_cons hblank _

theorem skipBlanks_printMembers (e : String × Json) (members : List (String × Json))
    (rest : List Char) :
    skipBlanks (printMembers (e :: members) ++ rest) = printMembers (e :: members) ++ rest := by
  obtain ⟨more, hprint⟩ := exists_printMembers_cons e members
  rw [hprint, List.cons_append]
  exact skipBlanks_cons (by decide) _

/-- What starts with a digit or a minus sign is read as a number. -/
theorem read?_number {c : Char} (hc : c.isDigit ∨ c = '-') (fuel : Nat) (rest : List Char) :
    read? .all (fuel + 1) (c :: rest)
      = (Number.read? (c :: rest)).map fun p => (.number p.1, p.2) := by
  have hne : ∀ d : Char, d.isDigit = false → d ≠ '-' → c ≠ d := by
    rintro d hdigit hminus rfl
    rcases hc with hc | hc
    · rw [hdigit] at hc
      cases hc
    · exact hminus hc
  unfold read?
  split
  case h_7 => rfl
  all_goals
    rename_i heq
    exact (hne _ (by decide) (by decide) (List.cons.inj heq).1).elim

theorem readItems?_last {fuel : Nat} {cs rest : List Char} {j : Json}
    (hread : read? .all fuel cs = some (j, ']' :: rest)) :
    readItems? (fuel + 1) cs = some ([j], rest) := by
  unfold readItems?
  rw [hread]
  rfl

theorem readItems?_more {fuel : Nat} {cs more rest : List Char} {j : Json} {items : List Json}
    (hread : read? .all fuel cs = some (j, ',' :: more))
    (hitems : readItems? fuel (skipBlanks more) = some (items, rest)) :
    readItems? (fuel + 1) cs = some (j :: items, rest) := by
  unfold readItems?
  rw [hread]
  show (readItems? fuel (skipBlanks more)).map _ = _
  rw [hitems]
  rfl

theorem readMembers?_last {fuel : Nat} {cs body rest key : List Char} {j : Json}
    (hkey : readText? cs = some (key, ':' :: body))
    (hread : read? .all fuel (skipBlanks body) = some (j, '}' :: rest)) :
    readMembers? .all (fuel + 1) ('"' :: cs) = some ([(String.ofList key, j)], rest) := by
  have hcolon : skipBlanks (':' :: body) = ':' :: body := skipBlanks_cons (by decide) body
  have hclose : skipBlanks ('}' :: rest) = '}' :: rest := skipBlanks_cons (by decide) rest
  unfold readMembers?
  simp only [hkey, hcolon, Interest.of, readWanted?, hread, hclose]

theorem readMembers?_more {fuel : Nat} {cs body more rest key : List Char} {j : Json}
    {members : List (String × Json)} (hkey : readText? cs = some (key, ':' :: body))
    (hread : read? .all fuel (skipBlanks body) = some (j, ',' :: more))
    (hmembers : readMembers? .all fuel (skipBlanks more) = some (members, rest)) :
    readMembers? .all (fuel + 1) ('"' :: cs) = some ((String.ofList key, j) :: members, rest) := by
  have hcolon : skipBlanks (':' :: body) = ':' :: body := skipBlanks_cons (by decide) body
  have hcomma : skipBlanks (',' :: more) = ',' :: more := skipBlanks_cons (by decide) more
  unfold readMembers?
  simp only [hkey, hcolon, Interest.of, readWanted?, hread, hcomma, hmembers, Option.map_some]

theorem read?_array {fuel : Nat} {c : Char} {more rest : List Char} {items : List Json}
    (hblank : isBlank c = false) (hclose : c ≠ ']')
    (hitems : readItems? fuel (c :: more) = some (items, rest)) :
    read? .all (fuel + 1) ('[' :: c :: more) = some (.array items, rest) := by
  unfold read?
  simp only [skipBlanks_cons hblank]
  split
  · rename_i heq
    exact (hclose (List.cons.inj heq).1).elim
  · rw [hitems]
    rfl

theorem read?_object {fuel : Nat} {more rest : List Char} {members : List (String × Json)}
    (hmembers : readMembers? .all fuel ('"' :: more) = some (members, rest)) :
    read? .all (fuel + 1) ('{' :: '"' :: more) = some (.object members, rest) := by
  unfold read?
  show (readMembers? .all fuel ('"' :: more)).map _ = _
  rw [hmembers]
  rfl

/-! ## §5. Whole documents. -/

theorem printItems_cons_cons (j k : Json) (rest : List Json) :
    printItems (j :: k :: rest) = print j ++ ',' :: printItems (k :: rest) := by
  rw [printItems]
  simp

theorem printMembers_cons_cons (key : String) (j : Json) (f : String × Json)
    (rest : List (String × Json)) :
    printMembers ((key, j) :: f :: rest)
      = quote key ++ ':' :: print j ++ ',' :: printMembers (f :: rest) := by
  rw [printMembers]
  simp

/-- A name and what stands behind it, as the reader of members sees them. -/
theorem quote_append (key : String) (body : List Char) :
    quote key ++ body = '"' :: (key.toList.flatMap escape ++ '"' :: body) := by
  unfold quote
  simp only [List.cons_append, List.append_assoc, List.nil_append]

mutual

/-- A document is read back in front of anything that may stand behind it. -/
theorem read?_print : (j : Json) → j.isIntegral = true → (fuel : Nat) → (print j).length ≤ fuel →
    (rest : List Char) → Follows rest → read? .all fuel (print j ++ rest) = some (j, rest)
  | j, hj, 0, hfuel, _, _ => by
      obtain ⟨c, more, hprint, -, -⟩ := exists_print_cons hj
      rw [hprint] at hfuel
      simp at hfuel
  | .null, _, fuel + 1, _, _, _ => rfl
  | .bool true, _, fuel + 1, _, _, _ => rfl
  | .bool false, _, fuel + 1, _, _, _ => rfl
  | .number n, hj, fuel + 1, _, rest, hrest => by
      have hn : n.isIntegral = true := by simpa [isIntegral] using hj
      obtain ⟨c, more, hprint, hc⟩ : ∃ c more, n.print = c :: more ∧ (c.isDigit ∨ c = '-') :=
        Number.exists_print_cons hn
      have hread := Number.read?_print hn hrest
      show read? .all (fuel + 1) (n.print ++ rest) = _
      rw [hprint, List.cons_append] at hread ⊢
      rw [read?_number hc, hread]
      rfl
  | .string s, _, fuel + 1, _, rest, _ => by
      show read? .all (fuel + 1) (quote s ++ rest) = _
      rw [quote_append]
      show (readText? _).map _ = _
      rw [readText?_quoted]
      simp
  | .array [], _, fuel + 1, _, _, _ => rfl
  | .array (j :: items), hj, fuel + 1, hfuel, rest, _ => by
      have hitems : areIntegral (j :: items) = true := by simpa [isIntegral] using hj
      have hlength : (printItems (j :: items)).length < fuel := by
        simp only [print, List.length_cons, List.length_append, List.length_nil] at hfuel
        omega
      have hread := readItems?_print j items hitems fuel hlength rest
      obtain ⟨c, more, hprint, hblank, hclose⟩ :=
        exists_printItems_cons (areIntegral_cons.1 hitems).1 items
      show read? .all (fuel + 1) ('[' :: printItems (j :: items) ++ [']'] ++ rest) = _
      rw [List.append_assoc, List.cons_append, List.singleton_append]
      rw [hprint] at hread ⊢
      exact read?_array hblank hclose hread
  | .object [], _, fuel + 1, _, _, _ => rfl
  | .object (e :: members), hj, fuel + 1, hfuel, rest, _ => by
      have hmembers : membersIntegral (e :: members) = true := by simpa [isIntegral] using hj
      have hlength : (printMembers (e :: members)).length < fuel := by
        simp only [print, List.length_cons, List.length_append, List.length_nil] at hfuel
        omega
      have hread := readMembers?_print e members hmembers fuel hlength rest
      obtain ⟨more, hprint⟩ : ∃ more, printMembers (e :: members) = '"' :: more :=
        exists_printMembers_cons e members
      show read? .all (fuel + 1) ('{' :: printMembers (e :: members) ++ ['}'] ++ rest) = _
      rw [List.append_assoc, List.cons_append, List.singleton_append]
      rw [hprint] at hread ⊢
      exact read?_object hread

theorem readItems?_print : (j : Json) → (items : List Json) → areIntegral (j :: items) = true →
    (fuel : Nat) → (printItems (j :: items)).length < fuel → (rest : List Char) →
    readItems? fuel (printItems (j :: items) ++ ']' :: rest) = some (j :: items, rest)
  | _, _, _, 0, hfuel, _ => absurd hfuel (Nat.not_lt_zero _)
  | j, [], hitems, fuel + 1, hfuel, rest => by
      obtain ⟨hj, -⟩ := areIntegral_cons.1 hitems
      have hlength : (print j).length ≤ fuel := Nat.le_of_lt_succ hfuel
      exact readItems?_last (read?_print j hj fuel hlength _ (follows_bracket rest))
  | j, k :: items, hitems, fuel + 1, hfuel, rest => by
      obtain ⟨hj, hmore⟩ := areIntegral_cons.1 hitems
      obtain ⟨hk, -⟩ := areIntegral_cons.1 hmore
      rw [printItems_cons_cons, List.length_append, List.length_cons] at hfuel
      rw [printItems_cons_cons, List.append_assoc, List.cons_append]
      refine readItems?_more (read?_print j hj fuel (by omega) _ (follows_comma _)) ?_
      rw [skipBlanks_printItems hk]
      exact readItems?_print k items hmore fuel (by omega) rest

theorem readMembers?_print : (e : String × Json) → (members : List (String × Json)) →
    membersIntegral (e :: members) = true → (fuel : Nat) →
    (printMembers (e :: members)).length < fuel → (rest : List Char) →
    readMembers? .all fuel (printMembers (e :: members) ++ '}' :: rest) = some (e :: members, rest)
  | _, _, _, 0, hfuel, _ => absurd hfuel (Nat.not_lt_zero _)
  | (key, j), [], hmembers, fuel + 1, hfuel, rest => by
      obtain ⟨hj, -⟩ := membersIntegral_cons.1 hmembers
      have hlength : (print j).length ≤ fuel := by
        simp only [printMembers, List.length_append, List.length_cons] at hfuel
        omega
      show readMembers? .all (fuel + 1) (quote key ++ ':' :: print j ++ '}' :: rest) = _
      rw [List.append_assoc, quote_append, List.cons_append,
        readMembers?_last (readText?_quoted key.toList _), String.ofList_toList]
      rw [skipBlanks_print hj]
      exact read?_print j hj fuel hlength _ (follows_brace rest)
  | (key, j), f :: members, hmembers, fuel + 1, hfuel, rest => by
      obtain ⟨hj, hmore⟩ := membersIntegral_cons.1 hmembers
      rw [printMembers_cons_cons, List.length_append, List.length_append, List.length_cons,
        List.length_cons] at hfuel
      have hread := read?_print j hj fuel (by omega)
        (',' :: (printMembers (f :: members) ++ '}' :: rest)) (follows_comma _)
      have hrest := readMembers?_print f members hmore fuel (by omega) rest
      rw [← skipBlanks_print hj] at hread
      rw [← skipBlanks_printMembers] at hrest
      rw [printMembers_cons_cons, List.append_assoc, List.append_assoc, quote_append,
        List.cons_append, List.cons_append,
        readMembers?_more (readText?_quoted key.toList _) hread hrest, String.ofList_toList]

end

/-- The compact text of a document of integers stands for that document. -/
theorem parse?_text {j : Json} (hj : j.isIntegral) : parse? j.text = some j := by
  have hread := read?_print j hj ((print j).length + 1) (Nat.le_succ _) [] follows_nil
  have hskip := skipBlanks_print hj []
  rw [List.append_nil] at hread hskip
  unfold parse? parseFor? text
  simp only [String.toList_ofList]
  rw [hskip, hread]
  rfl

end Json

end TokenSpan
