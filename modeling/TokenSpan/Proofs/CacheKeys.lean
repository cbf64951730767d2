/-
  TokenSpan.Proofs.CacheKeys
  ──────────────────────────
  When the keys of two stored passes are the same text.

  In a key each token is an entry: a header with its place and size, then its text.  The
  size tells where a text ends, so inside the entries nothing can be taken for anything
  else.  Nothing tells where the salt ends, though, and a pattern may contain what reads
  like the entries of further tokens.  Keys of two passes can be the same exactly if one
  salt goes on with such entries where the other one ends (`Spill`).

  Main results:
  * `cut_header` — the entries of a key start at no place inside a header;
  * `exists_entry` — every size from seven bytes on is that of an entry;
  * `spill_of_keyBody`, `exists_keyBody_of_spill` — spills are what one body has before another one;
  * `stored_keys_meet_iff` — when keys of two stored passes can be the same.
-/
import TokenSpan.Pass.Settings
import TokenSpan.Proofs.Merging
import TokenSpan.Regex.Standard

namespace TokenSpan

/-! ## §1. Headers. -/

/-- What stands before the text of a token in a key. -/
def Token.keyHeader (t : Token) : String :=
  ":" ++ toString t.index ++ "-" ++ toString t.offset ++ "-" ++ toString t.value.utf8ByteSize ++ "-"

/-- The entry of a token is its header and its text. -/
theorem keyPart_eq (t : Token) : t.keyPart = t.keyHeader ++ t.value := rfl

/-- The digits of a number are no colons, and each takes one byte. -/
theorem digit_of_mem_toString {n : Nat} {c : Char} (h : c ∈ (toString n).toList) :
    c ≠ ':' ∧ c.utf8Size = 1 := by
  have hdigit : c.isDigit := by
    rw [Nat.toString_eq_repr, Nat.toList_repr] at h
    exact Nat.isDigit_of_mem_toDigits (by decide) (by decide) h
  constructor
  · rintro rfl
    exact absurd hdigit (by decide)
  · rw [Char.utf8Size_eq_one_iff]
    have hbounds : 48 ≤ c.val ∧ c.val ≤ 57 := by simpa [Char.isDigit] using hdigit
    exact UInt32.le_trans hbounds.2 (by decide)

/-- A number takes as many bytes as it has digits. -/
theorem utf8ByteSize_toString (n : Nat) : (toString n).utf8ByteSize = (Nat.toDigits 10 n).length := by
  have hsize : ∀ cs : List Char, (∀ c ∈ cs, c.utf8Size = 1) → byteLength cs = cs.length := by
    intro cs hcs
    induction cs with
    | nil => rfl
    | cons c rest ih =>
        rw [byteLength_cons, hcs c List.mem_cons_self, ih fun d hd => hcs d (List.mem_cons_of_mem _ hd),
          List.length_cons]
        omega
  rw [← byteLength_toList, hsize _ fun c hc => (digit_of_mem_toString hc).2, Nat.toString_eq_repr,
    Nat.toList_repr]

/-- A header takes at least seven bytes. -/
theorem seven_le_keyHeader (t : Token) : 7 ≤ t.keyHeader.utf8ByteSize := by
  have hindex := utf8ByteSize_toString t.index
  have hoffset := utf8ByteSize_toString t.offset
  have hsize := utf8ByteSize_toString t.value.utf8ByteSize
  have hpos : ∀ n, 0 < (Nat.toDigits 10 n).length := fun n => Nat.length_toDigits_pos
  have hpos₁ := hpos t.index
  have hpos₂ := hpos t.offset
  have hpos₃ := hpos t.value.utf8ByteSize
  have hmark : ":".utf8ByteSize = 1 ∧ "-".utf8ByteSize = 1 := by decide
  unfold Token.keyHeader
  simp only [String.utf8ByteSize_append]
  omega

/-- A header starts with a colon, and holds no other one. -/
theorem keyHeader_toList (t : Token) :
    ∃ tail, t.keyHeader.toList = ':' :: tail ∧ ':' ∉ tail := by
  refine ⟨(toString t.index ++ "-" ++ toString t.offset ++ "-" ++ toString t.value.utf8ByteSize
    ++ "-").toList, ?_, ?_⟩
  · unfold Token.keyHeader
    simp [String.toList_append]
  · intro h
    simp only [String.toList_append, List.mem_append] at h
    have hdash : ':' ∉ "-".toList := by decide
    have hdigits : ∀ n : Nat, ':' ∉ (toString n).toList := by
      intro n hn
      exact (digit_of_mem_toString hn).1 rfl
    rcases h with ((((h | h) | h) | h) | h) | h
    · exact hdigits _ h
    · exact hdash h
    · exact hdigits _ h
    · exact hdash h
    · exact hdigits _ h
    · exact hdash h

/-! ## §2. Bodies. -/

/-- What stands behind the salt in the key of tokens. -/
def keyBody (tokens : List Token) : String := String.join (tokens.map Token.keyPart)

theorem cacheKey_eq (salt : String) (tokens : List Token) :
    cacheKey salt tokens = salt ++ keyBody tokens := rfl

theorem keyBody_cons (t : Token) (rest : List Token) :
    keyBody (t :: rest) = t.keyHeader ++ t.value ++ keyBody rest := by
  unfold keyBody
  rw [List.map_cons, String.join_cons, keyPart_eq]

theorem keyBody_nil : keyBody [] = "" := rfl

theorem keyBody_singleton (t : Token) : keyBody [t] = t.keyPart := by
  rw [keyBody_cons, keyBody_nil, String.append_empty, keyPart_eq]

theorem keyBody_append (ts us : List Token) : keyBody (ts ++ us) = keyBody ts ++ keyBody us := by
  unfold keyBody
  rw [List.map_append, String.join_append]

/-- A body that is not empty starts with a colon. -/
theorem head_of_keyBody {ts : List Token} {c : Char} {rest : List Char}
    (h : (keyBody ts).toList = c :: rest) : c = ':' := by
  cases ts with
  | nil => exact absurd h (List.cons_ne_nil _ _).symm
  | cons t more =>
      obtain ⟨tail, htail, _⟩ := keyHeader_toList t
      rw [keyBody_cons, String.toList_append, String.toList_append, htail] at h
      exact (List.cons.inj h).1.symm

/-- The entries of a body start at no place inside a header. -/
theorem cut_header {t : Token} {x y z : String} {ts : List Token} (ht : t.keyHeader = x ++ y)
    (hx : x ≠ "") (hbody : y ++ z = keyBody ts) : y = "" := by
  obtain ⟨tail, htail, hcolon⟩ := keyHeader_toList t
  rw [ht, String.toList_append] at htail
  cases hxs : x.toList with
  | nil => exact absurd (String.toList_eq_nil_iff.1 hxs) hx
  | cons c front =>
      rw [hxs] at htail
      have hrest : front ++ y.toList = tail := (List.cons.inj htail).2
      cases hys : y.toList with
      | nil => exact String.toList_eq_nil_iff.1 hys
      | cons d back =>
          -- the body would start with the colon that the header holds once only
          have hd : d = ':' := by
            have hlist := congrArg String.toList hbody
            rw [String.toList_append, hys, List.cons_append] at hlist
            exact head_of_keyBody hlist.symm
          rw [← hrest, hys, hd] at hcolon
          exact absurd (List.mem_append_right _ List.mem_cons_self) hcolon

/-- Text before the entries of a body that makes a body with them is at least one entry long. -/
theorem seven_le_of_append {x : String} {ts us : List Token} (hx : x ≠ "")
    (h : x ++ keyBody ts = keyBody us) : 7 ≤ x.utf8ByteSize := by
  cases us with
  | nil => exact absurd (String.append_eq_empty_iff.1 h).1 hx
  | cons u rest =>
      rw [keyBody_cons, String.append_assoc] at h
      have hseven := seven_le_keyHeader u
      rcases split_of_append_eq h with ⟨w, hu, hw⟩ | ⟨w, hxu, _⟩
      · -- the text ends inside the header, so it is the whole header
        have hempty := cut_header hu hx hw.symm
        rw [hempty, String.append_empty] at hu
        rw [← hu]
        exact hseven
      · rw [hxu, String.utf8ByteSize_append]
        omega

/-! ## §3. Entries of every size. -/

/-- The next number has as many digits, or one more. -/
theorem digits_succ (n : Nat) :
    (Nat.toDigits 10 n).length ≤ (Nat.toDigits 10 (n + 1)).length ∧
      (Nat.toDigits 10 (n + 1)).length ≤ (Nat.toDigits 10 n).length + 1 := by
  have hle : ∀ {m k : Nat}, 0 < k → ((Nat.toDigits 10 m).length ≤ k ↔ m < 10 ^ k) :=
    fun hk => Nat.length_toDigits_le_iff (by decide) hk
  constructor
  · have hnext := (hle Nat.length_toDigits_pos).1 (Nat.le_refl (Nat.toDigits 10 (n + 1)).length)
    exact (hle Nat.length_toDigits_pos).2 (by omega)
  · have hn := (hle Nat.length_toDigits_pos).1 (Nat.le_refl (Nat.toDigits 10 n).length)
    refine (hle (Nat.succ_pos _)).2 ?_
    rw [Nat.pow_succ]
    omega

/-- A token whose fields the program can hold. -/
structure Token.Fits (t : Token) : Prop where
  /-- The start fits 64 bits. -/
  index : t.index < positionBound
  /-- The stretch fits 64 bits. -/
  offset : t.offset < positionBound
  /-- The text is no longer than texts can be. -/
  size : t.value.utf8ByteSize < textBound

instance (t : Token) : Decidable t.Fits :=
  decidable_of_iff
    (t.index < positionBound ∧ t.offset < positionBound ∧ t.value.utf8ByteSize < textBound)
    ⟨fun h => ⟨h.1, h.2.1, h.2.2⟩, fun h => ⟨h.index, h.offset, h.size⟩⟩

/-- A token of a text of one letter several times, at the given place. -/
def letters (index count : Nat) : Token := { value := repeatText "a" count, index, offset := 0 }

theorem utf8ByteSize_letters (index count : Nat) : (letters index count).value.utf8ByteSize = count := by
  have hletter : "a".utf8ByteSize = 1 := by decide
  show (repeatText "a" count).utf8ByteSize = count
  rw [utf8ByteSize_repeatText, hletter, Nat.one_mul]

/-- The size of the entry of such a token. -/
theorem utf8ByteSize_keyPart_letters (index count : Nat) :
    (letters index count).keyPart.utf8ByteSize
      = (Nat.toDigits 10 index).length + (Nat.toDigits 10 count).length + count + 5 := by
  have hmark : ":".utf8ByteSize = 1 ∧ "-".utf8ByteSize = 1 := by decide
  have hindex := utf8ByteSize_toString index
  have hoffset := utf8ByteSize_toString 0
  have hcount := utf8ByteSize_toString count
  have hzero : (Nat.toDigits 10 0).length = 1 := by decide
  have hsize := utf8ByteSize_letters index count
  rw [keyPart_eq, String.utf8ByteSize_append]
  unfold Token.keyHeader
  rw [hsize]
  show (":" ++ toString index ++ "-" ++ toString 0 ++ "-" ++ toString count ++ "-").utf8ByteSize + count
    = _
  simp only [String.utf8ByteSize_append]
  omega

/-- Every size from seven bytes on is the size of an entry. -/
theorem exists_entry {size : Nat} (h : 7 ≤ size) :
    ∃ index count, (index = 0 ∨ index = 10) ∧ count ≤ size ∧
      (letters index count).keyPart.utf8ByteSize = size := by
  have hzero : (Nat.toDigits 10 0).length = 1 := by decide
  have hten : (Nat.toDigits 10 10).length = 2 := by decide
  obtain ⟨more, rfl⟩ := Nat.exists_eq_add_of_le h
  clear h
  -- one more letter may take two more bytes, where its number gets one more digit
  simp only [utf8ByteSize_keyPart_letters]
  induction more with
  | zero => exact ⟨0, 0, .inl rfl, by omega, by omega⟩
  | succ more ih =>
      obtain ⟨index, count, hindex, hcount, hsize⟩ := ih
      have hnext := digits_succ count
      rcases hindex with rfl | rfl
      · -- one more digit in the place
        exact ⟨10, count, .inr rfl, by omega, by omega⟩
      · -- one more letter; the place has two digits unless the size got one more
        by_cases hdigit : (Nat.toDigits 10 (count + 1)).length = (Nat.toDigits 10 count).length
        · exact ⟨10, count + 1, .inr rfl, by omega, by omega⟩
        · exact ⟨0, count + 1, .inl rfl, by omega, by omega⟩

/-! ## §4. Spills. -/

/--
A text that reads like the entries of tokens, the text of the last one complete or ending at least one
entry too early.
-/
def Spill (w : String) : Prop :=
  ∃ (before : List Token) (last : Token) (shown hidden : String),
    (∀ t ∈ before, t.Fits) ∧ last.Fits ∧ last.value = shown ++ hidden ∧
      (hidden = "" ∨ 7 ≤ hidden.utf8ByteSize) ∧ w = keyBody before ++ last.keyHeader ++ shown

/-- What the body of some tokens has before the body of others is a spill. -/
theorem spill_of_keyBody {w : String} {ts us : List Token} (hts : ∀ t ∈ ts, t.Fits) (hw : w ≠ "")
    (h : keyBody ts = w ++ keyBody us) : Spill w := by
  induction ts generalizing w with
  | nil => exact absurd (String.append_eq_empty_iff.1 h.symm).1 hw
  | cons t rest ih =>
      have ht : t.Fits := hts t List.mem_cons_self
      have hrest : ∀ u ∈ rest, u.Fits := fun u hu => hts u (List.mem_cons_of_mem _ hu)
      rw [keyBody_cons] at h
      -- the text ends behind the first entry, or in it
      rcases split_of_append_eq h with ⟨v, hv, hbody⟩ | ⟨x, hx, hbody⟩
      · by_cases hempty : v = ""
        · -- the spill ends with the entry
          subst hempty
          exact ⟨[], t, t.value, "", fun _ hu => absurd hu List.not_mem_nil, ht, by simp, .inl rfl,
            by rw [hv]; simp [keyBody]⟩
        · -- the spill goes on in the entries of the other tokens
          obtain ⟨before, last, shown, hidden, hbefore, hlast, hvalue, hhidden, rfl⟩ :=
            ih hrest hempty hbody
          refine ⟨t :: before, last, shown, hidden, ?_, hlast, hvalue, hhidden, ?_⟩
          · exact List.forall_mem_cons.2 ⟨ht, hbefore⟩
          · rw [hv, keyBody_cons]
            simp only [String.append_assoc]
      · -- no entry starts inside the header, so the spill ends in the text of the token
        have hcut : ∃ shown, w = t.keyHeader ++ shown ∧ t.value = shown ++ x := by
          rcases split_of_append_eq hx with ⟨shown, hshown, hvalue⟩ | ⟨y, hheader, rfl⟩
          · exact ⟨shown, hshown, hvalue⟩
          · rw [String.append_assoc] at hbody
            have hempty := cut_header hheader hw hbody.symm
            subst hempty
            exact ⟨"", by simpa using hheader.symm, by simp⟩
        obtain ⟨shown, rfl, hvalue⟩ := hcut
        refine ⟨[], t, shown, x, fun _ hu => absurd hu List.not_mem_nil, ht, hvalue, ?_,
          by simp [keyBody]⟩
        by_cases hempty : x = ""
        · exact .inl hempty
        · exact .inr (seven_le_of_append hempty hbody.symm)

/-- Each spill is what the body of some tokens has before the body of others. -/
theorem exists_keyBody_of_spill {w : String} (h : Spill w) :
    ∃ ts us : List Token, (∀ t ∈ ts, t.Fits) ∧ (∀ u ∈ us, u.Fits) ∧
      keyBody ts = w ++ keyBody us := by
  obtain ⟨before, last, shown, hidden, hbefore, hlast, hvalue, hhidden, rfl⟩ := h
  rcases hhidden with rfl | hseven
  · refine ⟨before ++ [last], [], ?_, fun _ hu => absurd hu List.not_mem_nil, ?_⟩
    · exact List.forall_mem_append.2 ⟨hbefore, List.forall_mem_singleton.2 hlast⟩
    · rw [String.append_empty] at hvalue
      rw [keyBody_append, keyBody_singleton, keyPart_eq, hvalue, keyBody_nil, String.append_empty,
        String.append_assoc]
  · -- an entry of the size of the missing text takes its place
    obtain ⟨index, count, hindex, hcount, hsize⟩ := exists_entry hseven
    have hlong : last.value.utf8ByteSize = shown.utf8ByteSize + hidden.utf8ByteSize := by
      rw [hvalue, String.utf8ByteSize_append]
    -- the size of the last text is the same, so its header is
    have hsame : (shown ++ (letters index count).keyPart).utf8ByteSize = last.value.utf8ByteSize := by
      rw [String.utf8ByteSize_append, hsize, hlong]
    have hlimits := hlast.size
    have hlarge := textBound_lt_positionBound
    have hletters : (letters index count).Fits := by
      refine ⟨?_, ?_, ?_⟩
      · show index < positionBound
        rcases hindex with rfl | rfl <;> decide
      · show 0 < positionBound
        decide
      · rw [utf8ByteSize_letters]
        omega
    refine ⟨before ++ [{ last with value := shown ++ (letters index count).keyPart }],
      [letters index count], ?_, List.forall_mem_singleton.2 hletters, ?_⟩
    · refine List.forall_mem_append.2 ⟨hbefore, List.forall_mem_singleton.2 ?_⟩
      exact ⟨hlast.index, hlast.offset, by rw [hsame]; exact hlimits⟩
    · have hheader : Token.keyHeader { last with value := shown ++ (letters index count).keyPart }
          = last.keyHeader := by
        unfold Token.keyHeader
        rw [hsame]
      rw [keyBody_append, keyBody_singleton, keyBody_singleton, keyPart_eq, hheader]
      simp only [String.append_assoc]

/-- Two salts lead to a common key exactly if one goes on with a spill where the other one ends. -/
theorem keys_meet_iff {a b : String} (h : a ≠ b) :
    (∃ ts us : List Token, (∀ t ∈ ts, t.Fits) ∧ (∀ u ∈ us, u.Fits) ∧
        cacheKey a ts = cacheKey b us) ↔
      ∃ w, Spill w ∧ (a ++ w = b ∨ b ++ w = a) := by
  constructor
  · rintro ⟨ts, us, hts, hus, hkey⟩
    rw [cacheKey_eq, cacheKey_eq] at hkey
    have hlonger : ∀ {c d w : String}, c ≠ d → d = c ++ w → w ≠ "" := by
      rintro c d w hne rfl rfl
      exact hne String.append_empty.symm
    -- the salt that ends first is followed by a spill
    rcases split_of_append_eq hkey with ⟨w, hb, hbody⟩ | ⟨w, ha, hbody⟩
    · exact ⟨w, spill_of_keyBody hts (hlonger h hb) hbody, .inl hb.symm⟩
    · exact ⟨w, spill_of_keyBody hus (hlonger h.symm ha) hbody, .inr ha.symm⟩
  · rintro ⟨w, hw, hsalt⟩
    obtain ⟨ts, us, hts, hus, hbody⟩ := exists_keyBody_of_spill hw
    rcases hsalt with rfl | rfl
    · exact ⟨ts, us, hts, hus, by rw [cacheKey_eq, cacheKey_eq, hbody, String.append_assoc]⟩
    · exact ⟨us, ts, hus, hts, by rw [cacheKey_eq, cacheKey_eq, hbody, String.append_assoc]⟩

/-! ## §5. Stored passes. -/

section StoredPasses

variable [Regex.Engine]

/-- A search and a test never have a key in common. -/
theorem search_key_ne_test_key (r q : Regex {}) (mode : Finding.Mode) (ts us : List Token) :
    cacheKey (StoredJob.find r mode).salt ts ≠ cacheKey (StoredJob.matching q).salt us := by
  intro h
  have hlist := congrArg String.toList h
  have hfind : "re:".toList = ['r', 'e', ':'] := by decide
  have htest : "test:".toList = ['t', 'e', 's', 't', ':'] := by decide
  simp only [cacheKey_eq, StoredJob.salt, String.toList_append, hfind, htest, List.cons_append] at hlist
  exact absurd (List.cons.inj hlist).1 (by decide)

/--
Two stored passes of different salts have keys in common exactly if one of the salts goes on, where the
other one ends, with what reads like the entries of tokens.
-/
theorem stored_keys_meet_iff {a b : StoredJob} (h : a.salt ≠ b.salt) :
    (∃ ts us : List Token, (∀ t ∈ ts, t.Fits) ∧ (∀ u ∈ us, u.Fits) ∧
        cacheKey a.salt ts = cacheKey b.salt us) ↔
      ∃ w, Spill w ∧ (a.salt ++ w = b.salt ∨ b.salt ++ w = a.salt) :=
  keys_meet_iff h

end StoredPasses

/-- The test for a letter, and the test for that letter before the entry of a word. -/
theorem tests_of_letter_and_entry_meet :
    let short := StoredJob.matching (.ofValid "a" (by decide +kernel))
    let long := StoredJob.matching (.ofValid "a:0-5-5-hello" (by decide +kernel))
    short.salt ≠ long.salt ∧
      ∃ ts us : List Token, (∀ t ∈ ts, t.Fits) ∧ (∀ u ∈ us, u.Fits) ∧
        cacheKey short.salt ts = cacheKey long.salt us := by
  intro short long
  have hshort : short.salt = "test:a" := by simp [short, StoredJob.salt]
  have hlong : long.salt = "test:a:0-5-5-hello" := by simp [long, StoredJob.salt]
  have hne : short.salt ≠ long.salt := by rw [hshort, hlong]; decide
  have hspill : Spill ":0-5-5-hello" := by
    refine ⟨[], .ofText "hello" 0, "hello", "", fun _ ht => absurd ht List.not_mem_nil, ?_,
      by simp [Token.ofText], .inl rfl, by decide +kernel⟩
    exact ⟨by decide, by decide +kernel, by decide +kernel⟩
  refine ⟨hne, (stored_keys_meet_iff hne).2 ⟨":0-5-5-hello", hspill, .inl ?_⟩⟩
  rw [hshort, hlong]
  decide

/--
The test for a longer pattern is answered with what the test for a letter stored: both have the same key,
and alone the longer pattern matches nothing.
-/
theorem test_answered_by_another :
    let short := StoredJob.matching (.ofValid "a" (by decide +kernel))
    let long := StoredJob.matching (.ofValid "a:0-5-5-hello" (by decide +kernel))
    let stored := ((Pass.stored true short).run [.ofText "hello" 0, .ofText "a" 6]).exec false
      (Cache.exact .empty)
    short.salt ≠ long.salt ∧
      cacheKey short.salt [.ofText "hello" 0, .ofText "a" 6] = cacheKey long.salt [.ofText "a" 6] ∧
      (((Pass.stored true long).run [.ofText "a" 6]).exec false stored.cache).result
        = .ok [.ofText "a" 6] ∧
      (((Pass.stored true long).run [.ofText "a" 6]).exec false (Cache.exact .empty)).result = .ok [] := by
  intro short long stored
  have hshort : short.salt = "test:a" := by simp [short, StoredJob.salt]
  have hlong : long.salt = "test:a:0-5-5-hello" := by simp [long, StoredJob.salt]
  refine ⟨by rw [hshort, hlong]; decide, ?_, rfl, rfl⟩
  rw [hshort, hlong]
  decide +kernel

end TokenSpan
