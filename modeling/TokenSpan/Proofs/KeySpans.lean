/-
  TokenSpan.Proofs.KeySpans
  ─────────────────────────
  What can be read off a key.

  In an entry each number ends at the first dash, and the last one tells where the text
  ends.  So behind the salt a key shows the texts and places of its tokens, and nothing
  else.  What a stored pass does can be read off its salt.

  Main results:
  * `keyBody_eq_iff` — two bodies are equal exactly if the tokens agree in text and place;
  * `keys_identify_spans` — the same for the keys under one salt, token by token;
  * `StoredJob.eq_of_salt_eq` — a salt belongs to one job only.
-/
import TokenSpan.Proofs.Agreement
import TokenSpan.Proofs.CacheKeys

namespace TokenSpan

/-! ## §1. Entries. -/

/-- No digit of a number is a dash. -/
theorem dash_not_mem_toString (n : Nat) : '-' ∉ (toString n).toList := by
  intro h
  rw [Nat.toString_eq_repr, Nat.toList_repr] at h
  have hdigit : '-'.isDigit := Nat.isDigit_of_mem_toDigits (by decide) (by decide) h
  exact absurd hdigit (by decide)

/-- A text without dashes that stands before a dash ends there. -/
theorem eq_empty_of_dash {w x b d : String} (hw : '-' ∉ (x ++ w).toList) (h : "-" ++ b = w ++ d) :
    w = "" := by
  cases hchars : w.toList with
  | nil => exact String.toList_eq_nil_iff.1 hchars
  | cons c rest =>
      -- the text would start with the dash
      have hlist := congrArg String.toList h
      rw [String.toList_append, String.toList_append, hchars] at hlist
      have hc : '-' = c := (List.cons.inj hlist).1
      rw [String.toList_append, hchars, ← hc] at hw
      exact absurd (List.mem_append_right _ List.mem_cons_self) hw

/-- A number before a dash can be read off. -/
theorem number_of_append_eq {n k : Nat} {b d : String}
    (h : toString n ++ ("-" ++ b) = toString k ++ ("-" ++ d)) : n = k ∧ b = d := by
  have hsame : toString n = toString k := by
    rcases split_of_append_eq h with ⟨w, hk, hb⟩ | ⟨w, hn, hd⟩
    · have hw := eq_empty_of_dash (hk ▸ dash_not_mem_toString k) hb
      rw [hk, hw, String.append_empty]
    · have hw := eq_empty_of_dash (hn ▸ dash_not_mem_toString n) hd
      rw [hn, hw, String.append_empty]
  refine ⟨?_, ?_⟩
  · have hdigits := congrArg (fun s => Nat.ofDigitChars 10 (String.toList s) 0) hsame
    simpa only [Nat.toString_eq_repr, Nat.toList_repr, Nat.ofDigitChars_ten_toDigits] using hdigits
  · rw [hsame] at h
    exact (String.append_right_inj _).1 ((String.append_right_inj _).1 h)

/-- The place and the size that a header shows. -/
theorem place_of_keyHeader {t u : Token} {b d : String} (h : t.keyHeader ++ b = u.keyHeader ++ d) :
    t.index = u.index ∧ t.offset = u.offset ∧ t.value.utf8ByteSize = u.value.utf8ByteSize ∧
      b = d := by
  unfold Token.keyHeader at h
  simp only [String.append_assoc] at h
  obtain ⟨hindex, h⟩ := number_of_append_eq ((String.append_right_inj _).1 h)
  obtain ⟨hoffset, h⟩ := number_of_append_eq h
  obtain ⟨hsize, h⟩ := number_of_append_eq h
  exact ⟨hindex, hoffset, hsize, h⟩

/-- Two texts of the same size that start the same text are equal. -/
theorem text_of_append_eq {a b c d : String} (hsize : a.utf8ByteSize = c.utf8ByteSize)
    (h : a ++ b = c ++ d) : a = c ∧ b = d := by
  have hempty : ∀ {x w : String}, (x ++ w).utf8ByteSize = x.utf8ByteSize → w = "" := by
    intro x w hw
    rw [String.utf8ByteSize_append] at hw
    exact String.utf8ByteSize_eq_zero_iff.1 (by omega)
  rcases split_of_append_eq h with ⟨w, rfl, rfl⟩ | ⟨w, rfl, rfl⟩
  · have hw := hempty hsize.symm
    simp [hw]
  · have hw := hempty hsize
    simp [hw]

/-! ## §2. Keys. -/

/-- Behind the salt a key shows the texts and places of its tokens, and nothing else. -/
theorem keyBody_eq_iff {ts us : List Token} :
    keyBody ts = keyBody us ↔ List.Forall₂ Token.SameSpan ts us := by
  constructor
  · intro h
    -- induction on the entries: a header is read number by number, the size tells the text
    induction ts generalizing us with
    | nil =>
        cases us with
        | nil => exact .nil
        | cons u rest =>
            rw [keyBody_cons, String.append_assoc] at h
            have hheader := (String.append_eq_empty_iff.1 h.symm).1
            exact absurd (seven_le_keyHeader u) (by rw [hheader]; decide)
    | cons t rest ih =>
        cases us with
        | nil =>
            rw [keyBody_cons, String.append_assoc] at h
            have hheader := (String.append_eq_empty_iff.1 h).1
            exact absurd (seven_le_keyHeader t) (by rw [hheader]; decide)
        | cons u rest' =>
            rw [keyBody_cons, keyBody_cons, String.append_assoc, String.append_assoc] at h
            obtain ⟨hindex, hoffset, hsize, h⟩ := place_of_keyHeader h
            obtain ⟨hvalue, h⟩ := text_of_append_eq hsize h
            exact .cons ⟨hvalue, hindex, hoffset, trivial⟩ (ih h)
  · intro h
    induction h with
    | nil => rfl
    | @cons t u rest rest' htu _ ih =>
        have hheader : t.keyHeader = u.keyHeader := by
          unfold Token.keyHeader
          rw [htu.index, htu.offset, htu.value]
        rw [keyBody_cons, keyBody_cons, hheader, htu.value, ih]

/-- Under one salt, keys are equal exactly if the tokens agree in text and place. -/
theorem cacheKey_eq_iff {salt : String} {ts us : List Token} :
    cacheKey salt ts = cacheKey salt us ↔ List.Forall₂ Token.SameSpan ts us := by
  rw [cacheKey_eq, cacheKey_eq, String.append_right_inj]
  exact keyBody_eq_iff

/--
Under one salt, keys are equal exactly if the sequences have the same length and agree token by token in
place and text; values and captures enter no key.
-/
theorem keys_identify_spans (salt : String) (ts us : List Token) :
    (cacheKey salt ts = cacheKey salt us ↔
      ts.length = us.length ∧
        ∀ i (ht : i < ts.length) (hu : i < us.length),
          ts[i].index = us[i].index ∧ ts[i].offset = us[i].offset ∧ ts[i].value = us[i].value) ∧
      ∀ (values : Token → Properties) (captures : Token → Option MatchInfo),
        cacheKey salt (ts.map fun t => { t with properties := values t, matched := captures t })
          = cacheKey salt ts := by
  refine ⟨?_, fun values captures => ?_⟩
  · rw [cacheKey_eq_iff, List.forall₂_iff_get]
    refine and_congr_right fun _ => ?_
    constructor
    · intro h i ht hu
      have hspan := h i ht hu
      exact ⟨hspan.index, hspan.offset, hspan.value⟩
    · intro h i ht hu
      obtain ⟨hindex, hoffset, hvalue⟩ := h i ht hu
      exact ⟨hvalue, hindex, hoffset, trivial⟩
  · rw [cacheKey_eq_iff, List.forall₂_map_left_iff]
    exact List.forall₂_same.2 fun t _ => ⟨rfl, rfl, rfl, trivial⟩

/--
A text that reads like the entries of two tokens, and those two tokens: the keys differ, while other values
lead to the same key.
-/
theorem key_of_imitating_text :
    let one := [Token.ofText "x:5-1-1-y" 0]
    let two := [(Token.ofText "x" 0).withOffset 9, Token.ofText "y" 5]
    let tagged := one.map fun t => { t with properties := .ofList [("kind", .ofString "é")] }
    cacheKey "s" one ≠ cacheKey "s" two ∧ cacheKey "s" tagged = cacheKey "s" one := by
  intro one two tagged
  constructor
  · intro h
    have hlength : one.length = two.length := ((keys_identify_spans "s" one two).1.1 h).1
    exact absurd hlength (by decide)
  · exact (keys_identify_spans "s" one []).2 (fun _ => .ofList [("kind", .ofString "é")]) fun _ => none

/-! ## §3. Salts. -/

variable [Regex.Engine]

/-- Salts of searches show the pattern and the mode. -/
theorem search_of_salt_eq {r q : Regex {}} {mode mode' : Finding.Mode}
    (h : (StoredJob.find r mode).salt = (StoredJob.find q mode').salt) : r = q ∧ mode = mode' := by
  have hsalt : "re:" ++ r.pattern ++ ":" ++ mode.tag = "re:" ++ q.pattern ++ ":" ++ mode'.tag := h
  -- the tags of the modes have one size, so the patterns have one size
  have htag : ∀ m : Finding.Mode, m.tag.utf8ByteSize = 5 := by
    intro m
    cases m <;> decide
  have hsize : ("re:" ++ r.pattern ++ ":").utf8ByteSize = ("re:" ++ q.pattern ++ ":").utf8ByteSize := by
    have hwhole := congrArg String.utf8ByteSize hsalt
    simp only [String.utf8ByteSize_append, htag] at hwhole ⊢
    omega
  obtain ⟨hfront, hmode⟩ := text_of_append_eq hsize hsalt
  refine ⟨Regex.ext_pattern ?_, ?_⟩
  · rw [String.append_assoc, String.append_assoc] at hfront
    exact (String.append_left_inj _).1 ((String.append_right_inj _).1 hfront)
  · cases mode <;> cases mode' <;> first | rfl | exact absurd hmode (by decide)

/-- A salt belongs to one job only. -/
theorem StoredJob.eq_of_salt_eq {a b : StoredJob} (h : a.salt = b.salt) : a = b := by
  have hmixed : ∀ (r q : Regex {}) (mode : Finding.Mode),
      (StoredJob.find r mode).salt ≠ (StoredJob.matching q).salt := by
    intro r q mode hsalt
    refine search_key_ne_test_key r q mode [] [] ?_
    rw [cacheKey_eq, cacheKey_eq, hsalt]
  cases a with
  | find r mode =>
      cases b with
      | find q mode' =>
          obtain ⟨rfl, rfl⟩ := search_of_salt_eq h
          rfl
      | matching q => exact absurd h (hmixed r q mode)
  | matching r =>
      cases b with
      | find q mode => exact absurd h.symm (hmixed q r mode)
      | matching q =>
          have hpattern : r.pattern = q.pattern := (String.append_right_inj _).1 h
          rw [Regex.ext_pattern hpattern]

end TokenSpan
