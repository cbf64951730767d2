/-
  TokenSpan.Proofs.WantedParts
  ────────────────────────────
  Reading only what is wanted of a document.

  Parts of which nothing is wanted are passed over by their form alone.  Whatever can be read can
  be passed over, up to the same place.  So a text that stands for a document can also be read
  with less interest, and then stands for the same document without the unwanted values.

  Main results:
  * `skip?_of_read?` — what can be read can be passed over;
  * `parseFor?_of_parse?` — reading with less interest leaves out what is not wanted.
-/
import TokenSpan.Proofs.JsonText

namespace TokenSpan

namespace Json

/-! ## §1. The document without the unwanted values. -/

mutual

/-- The document with null in the place of each value that is not wanted. -/
def trim : Interest → Json → Json
  | i, .object members => .object (trimMembers i members)
  | _, j => j
termination_by structural _ j => j

/-- The members with null in the place of each value that is not wanted. -/
def trimMembers : Interest → List (String × Json) → List (String × Json)
  | _, [] => []
  | i, (key, j) :: rest =>
      let value := match i.of key with
        | some wanted => trim wanted j
        | none => .null
      (key, value) :: trimMembers i rest
termination_by structural _ members => members

end

/-- The value of a member, as far as it is wanted. -/
def trimValue : Option Interest → Json → Json
  | some i, j => trim i j
  | none, _ => .null

theorem trimMembers_cons (i : Interest) (key : String) (j : Json) (rest : List (String × Json)) :
    trimMembers i ((key, j) :: rest) = (key, trimValue (i.of key) j) :: trimMembers i rest := by
  show (key, _) :: trimMembers i rest = _
  cases i.of key <;> rfl

mutual

/-- Where all is wanted nothing is left out. -/
theorem trim_all : (j : Json) → trim .all j = j
  | .object members => by rw [trim, trimMembers_all members]
  | .null | .bool _ | .number _ | .string _ | .array _ => rfl

theorem trimMembers_all : (members : List (String × Json)) → trimMembers .all members = members
  | [] => rfl
  | (key, j) :: rest => by
      have hvalue : trimValue (Interest.of .all key) j = j := trim_all j
      rw [trimMembers_cons, hvalue, trimMembers_all rest]

end

/-! ## §2. What the reader went through. -/

variable {i : Interest} {fuel : Nat} {cs rest : List Char}

/-- Items that were read: the first one, and what stands behind it. -/
theorem readItems?_eq_some {items : List Json} (h : readItems? (fuel + 1) cs = some (items, rest)) :
    ∃ j after, read? .all fuel cs = some (j, after) ∧
      ((skipBlanks after = ']' :: rest ∧ items = [j]) ∨
        ∃ more js, skipBlanks after = ',' :: more ∧
          readItems? fuel (skipBlanks more) = some (js, rest) ∧ items = j :: js) := by
  unfold readItems? at h
  split at h
  · cases h
  · rename_i j after hread
    refine ⟨j, after, hread, ?_⟩
    split at h
    · rename_i hclose
      cases h
      exact .inl ⟨hclose, rfl⟩
    · rename_i more hcomma
      obtain ⟨⟨js, _⟩, hitems, heq⟩ := Option.map_eq_some_iff.1 h
      cases heq
      exact .inr ⟨more, js, hcomma, hitems, rfl⟩
    · cases h

/-- Members that were read: the first name, its value, and what stands behind it. -/
theorem readMembers?_eq_some {members : List (String × Json)}
    (h : readMembers? i (fuel + 1) cs = some (members, rest)) :
    ∃ quoted key after body j last, cs = '"' :: quoted ∧ readText? quoted = some (key, after) ∧
      skipBlanks after = ':' :: body ∧
      readWanted? (fun i => read? i fuel (skipBlanks body)) (fun _ => skip? fuel (skipBlanks body))
        (i.of (String.ofList key)) = some (j, last) ∧
      ((skipBlanks last = '}' :: rest ∧ members = [(String.ofList key, j)]) ∨
        ∃ more ms, skipBlanks last = ',' :: more ∧
          readMembers? i fuel (skipBlanks more) = some (ms, rest) ∧
          members = (String.ofList key, j) :: ms) := by
  unfold readMembers? at h
  split at h
  case h_2 => cases h
  rename_i quoted
  split at h
  · cases h
  rename_i key after htext
  split at h
  case h_2 => cases h
  rename_i body hcolon
  split at h
  · cases h
  rename_i j last hvalue
  refine ⟨quoted, key, after, body, j, last, rfl, htext, hcolon, hvalue, ?_⟩
  split at h
  · rename_i hclose
    cases h
    exact .inl ⟨hclose, rfl⟩
  · rename_i more hcomma
    obtain ⟨⟨ms, _⟩, hmembers, heq⟩ := Option.map_eq_some_iff.1 h
    cases heq
    exact .inr ⟨more, ms, hcomma, hmembers, rfl⟩
  · cases h

/-! ## §3. What can be read can be passed over. -/

theorem skipText?_of_readText? {cs s rest : List Char} (h : readText? cs = some (s, rest)) :
    skipText? cs = some rest := by
  -- a fault of the text is none of its form, and otherwise the rest of the text is passed over
  fun_induction readText? cs generalizing s with
  | case1 | case3 | case4 | case6 | case7 | case8 | case10 | case12 => cases h
  | case2 => cases h; rfl
  | case5 a b c d _ hhigh _ e f g l more _ hlow =>
      rename_i ih
      obtain ⟨⟨t, _⟩, htext, heq⟩ := Option.map_eq_some_iff.1 h
      cases heq
      simp only [skipText?, hhigh, hlow, Option.isSome_some, if_true]
      exact ih htext
  | case9 a b c d more _ hunit _ _ ih =>
      obtain ⟨⟨t, _⟩, htext, heq⟩ := Option.map_eq_some_iff.1 h
      cases heq
      simp only [skipText?, hunit, Option.isSome_some, if_true]
      exact ih htext
  | case11 c more hnot _ hescape ih =>
      obtain ⟨⟨t, _⟩, htext, heq⟩ := Option.map_eq_some_iff.1 h
      cases heq
      rw [skipText?, hescape, Option.isSome_some, if_pos rfl]
      · exact ih htext
      · exact hnot
  | case13 c more hquote hunit hescape hplain ih =>
      obtain ⟨⟨t, _⟩, htext, heq⟩ := Option.map_eq_some_iff.1 h
      cases heq
      rw [skipText?, if_neg hplain]
      · exact ih htext
      · exact hquote
      · exact hunit
      · exact hescape

mutual

/-- What can be read can be passed over, up to the same place. -/
theorem skip?_of_read? : {fuel : Nat} → {cs rest : List Char} → {j : Json} →
    read? .all fuel cs = some (j, rest) → skip? fuel cs = some rest
  | 0, _, _, _, h => by cases h
  | fuel + 1, cs, rest, j, h => by
      unfold read? at h
      unfold skip?
      split at h
      · cases h; rfl
      · cases h; rfl
      · cases h; rfl
      · obtain ⟨⟨s, _⟩, htext, heq⟩ := Option.map_eq_some_iff.1 h
        cases heq
        exact skipText?_of_readText? htext
      · split at h
        · cases h; rfl
        · obtain ⟨⟨items, _⟩, hitems, heq⟩ := Option.map_eq_some_iff.1 h
          cases heq
          exact skipItems?_of_readItems? hitems
      · split at h
        · cases h; rfl
        · obtain ⟨⟨members, _⟩, hmembers, heq⟩ := Option.map_eq_some_iff.1 h
          cases heq
          exact skipMembers?_of_readMembers? hmembers
      · obtain ⟨⟨n, _⟩, hnumber, heq⟩ := Option.map_eq_some_iff.1 h
        cases heq
        obtain ⟨⟨form, _⟩, hform, hvalue⟩ := Option.bind_eq_some_iff.1 hnumber
        obtain ⟨_, _, heq⟩ := Option.map_eq_some_iff.1 hvalue
        cases heq
        rw [hform]
        rfl

theorem skipItems?_of_readItems? : {fuel : Nat} → {cs rest : List Char} → {items : List Json} →
    readItems? fuel cs = some (items, rest) → skipItems? fuel cs = some rest
  | 0, _, _, _, h => by cases h
  | fuel + 1, cs, rest, items, h => by
      obtain ⟨j, after, hread, hnext⟩ := readItems?_eq_some h
      unfold skipItems?
      rw [skip?_of_read? hread]
      rcases hnext with ⟨hclose, -⟩ | ⟨more, js, hcomma, hitems, -⟩
      · simp only [hclose]
      · simp only [hcomma]
        exact skipItems?_of_readItems? hitems

theorem skipMembers?_of_readMembers? : {fuel : Nat} → {cs rest : List Char} →
    {members : List (String × Json)} →
    readMembers? .all fuel cs = some (members, rest) → skipMembers? fuel cs = some rest
  | 0, _, _, _, h => by cases h
  | fuel + 1, cs, rest, members, h => by
      obtain ⟨quoted, key, after, body, j, last, rfl, htext, hcolon, hvalue, hnext⟩ :=
        readMembers?_eq_some h
      have hskip := skip?_of_read? hvalue
      unfold skipMembers?
      simp only [skipText?_of_readText? htext, hcolon, hskip]
      rcases hnext with ⟨hclose, -⟩ | ⟨more, ms, hcomma, hmembers, -⟩
      · simp only [hclose]
      · simp only [hcomma]
        exact skipMembers?_of_readMembers? hmembers

end

/-! ## §4. Reading with less interest. -/

mutual

/-- What can be read is read with less interest, too, up to the same place. -/
theorem read?_of_read? (i : Interest) : {fuel : Nat} → {cs rest : List Char} → {j : Json} →
    read? .all fuel cs = some (j, rest) → read? i fuel cs = some (j.trim i, rest)
  | 0, _, _, _, h => by cases h
  | fuel + 1, cs, rest, j, h => by
      unfold read? at h ⊢
      split at h
      · cases h; rfl
      · cases h; rfl
      · cases h; rfl
      · obtain ⟨⟨s, _⟩, htext, heq⟩ := Option.map_eq_some_iff.1 h
        cases heq
        rw [htext]
        rfl
      · split at h
        · cases h; rfl
        · obtain ⟨⟨items, _⟩, hitems, heq⟩ := Option.map_eq_some_iff.1 h
          cases heq
          rw [hitems]
          rfl
      · split at h
        · cases h; rfl
        · obtain ⟨⟨members, _⟩, hmembers, heq⟩ := Option.map_eq_some_iff.1 h
          cases heq
          rw [readMembers?_of_readMembers? i hmembers]
          rfl
      · obtain ⟨⟨n, _⟩, hnumber, heq⟩ := Option.map_eq_some_iff.1 h
        cases heq
        rw [hnumber]
        rfl

theorem readMembers?_of_readMembers? (i : Interest) : {fuel : Nat} → {cs rest : List Char} →
    {members : List (String × Json)} → readMembers? .all fuel cs = some (members, rest) →
    readMembers? i fuel cs = some (trimMembers i members, rest)
  | 0, _, _, _, h => by cases h
  | fuel + 1, cs, rest, members, h => by
      obtain ⟨quoted, key, after, body, j, last, rfl, htext, hcolon, hvalue, hnext⟩ :=
        readMembers?_eq_some h
      have hread : read? .all fuel (skipBlanks body) = some (j, last) := hvalue
      -- a value of which nothing is wanted is passed over, to where its reader would have ended
      have hmember : readWanted? (fun i => read? i fuel (skipBlanks body))
          (fun _ => skip? fuel (skipBlanks body)) (i.of (String.ofList key))
            = some (trimValue (i.of (String.ofList key)) j, last) := by
        cases i.of (String.ofList key) with
        | none =>
            rw [readWanted?, skip?_of_read? hread, trimValue]
            rfl
        | some k => rw [readWanted?, read?_of_read? k hread, trimValue]
      unfold readMembers?
      simp only [htext, hcolon, hmember]
      rcases hnext with ⟨hclose, rfl⟩ | ⟨more, ms, hcomma, hmembers, rfl⟩
      · simp only [hclose, trimMembers_cons]
        rfl
      · simp only [hcomma, readMembers?_of_readMembers? i hmembers, Option.map_some, trimMembers_cons]

end

/-- A text that stands for a document stands for it without the unwanted values if those are not wanted. -/
theorem parseFor?_of_parse? (i : Interest) {text : String} {j : Json} (h : parse? text = some j) :
    parseFor? i text = some (j.trim i) := by
  unfold parse? parseFor? at h
  unfold parseFor?
  dsimp only at h ⊢
  split at h
  · rename_i k rest hread
    rw [read?_of_read? i hread]
    dsimp only
    split at h
    · rename_i hend
      cases h
      rw [if_pos hend]
    · cases h
  · cases h

end Json

end TokenSpan
