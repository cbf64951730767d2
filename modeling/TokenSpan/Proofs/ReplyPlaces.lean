/-
  TokenSpan.Proofs.ReplyPlaces
  ────────────────────────────
  The place of each piece of a reply, and the first piece that has none.

  Placing goes through a reply from left to right and hands on where the last piece ended.  Here
  the place of a piece is told by looking back from it: a draft without a place of its own
  starts where the nearest draft in front of it ends (`stopBehind`), whatever cuts stand between
  them.  A reply has a place exactly if each of its pieces has one, and otherwise the first
  piece without a place decides the fault.

  Main results:
  * `placeAll_cons_of_hasPlace`, `placeAll_cons_of_not_hasPlace` — one piece in front of others;
  * `placeAll_eq_ok_iff`, `placeAll_eq_error_iff` — all pieces;
  * `placeAll_filter_cuts` — cuts play no role for the other pieces;
  * `replies_are_placed_piece_by_piece` — the same for whole replies.
-/
import TokenSpan.Proofs.Placing

namespace TokenSpan

/-! ## §1. The place of a piece. -/

/--
Where the nearest draft in front of a place ends, at the start if there is none; the pieces in front are
listed from the nearest one on.
-/
def stopBehind : List Piece → Nat
  | [] => 0
  | .draft d :: before => d.startAt (stopBehind before) + d.span
  | .cut :: before => stopBehind before
  | .nested _ :: before => stopBehind before

namespace Piece

variable (base : Token) (before : List Piece)

/--
The piece may stand behind others inside a token: it is no sequence, and if it is a draft its relative end
and its absolute start fit.
-/
def HasPlace : Piece → Prop
  | .cut => True
  | .draft d =>
      d.startAt (stopBehind before) + d.span < positionBound ∧
        base.index + d.startAt (stopBehind before) < positionBound
  | .nested _ => False

/-- What becomes of a piece that stands behind others inside a token: a token, or a cut. -/
def placed : Piece → Option Token
  | .cut => none
  | .draft d =>
      some
        { value := d.value, index := base.index + d.startAt (stopBehind before), offset := d.span
          properties := d.properties, matched := d.matched }
  | .nested _ => none

/-- What is wrong with a piece that has no place. -/
def fault : Piece → Fault
  | .cut => .overflow
  | .draft _ => .overflow
  | .nested count => .nestedResult count base.index

/-- Whether the piece is a cut. -/
def isCut : Piece → Bool
  | .cut => true
  | .draft _ => false
  | .nested _ => false

end Piece

/-! ## §2. One piece in front of others. -/

section Cons

variable {base : Token} {before : List Piece} {p : Piece}

/-- A piece that has a place is placed, and the others go on behind it. -/
theorem placeAll_cons_of_hasPlace (h : p.HasPlace base before) (rest : List Piece) :
    placeAll base (stopBehind before) (p :: rest)
      = (placeAll base (stopBehind (p :: before)) rest).map (p.placed base before :: ·) := by
  cases p with
  | cut =>
      show (placeAll base (stopBehind before) rest).bind _
        = (placeAll base (stopBehind before) rest).map _
      cases placeAll base (stopBehind before) rest <;> rfl
  | draft d =>
      rw [placeAll_cons_draft, Draft.place_eq_ok_iff.2 ⟨rfl, h.1, h.2, rfl⟩]
      rfl
  | nested count => exact absurd h id

/-- A piece that has no place fails, whatever comes behind it. -/
theorem placeAll_cons_of_not_hasPlace (h : ¬ p.HasPlace base before) (rest : List Piece) :
    placeAll base (stopBehind before) (p :: rest) = .error (p.fault base) := by
  cases p with
  | cut => exact absurd trivial h
  | draft d =>
      rw [placeAll_cons_draft, Draft.place_eq_error h]
      rfl
  | nested count => rfl

end Cons

/-! ## §3. All pieces. -/

section All

variable {base : Token} {before pieces : List Piece}

/-- Pieces behind others are placed exactly if each of them has a place, and then they stand there. -/
theorem placeAll_eq_ok_iff {items : List (Option Token)} :
    placeAll base (stopBehind before) pieces = .ok items ↔
      items.length = pieces.length ∧
        ∀ (i : Nat) (p : Piece), pieces[i]? = some p →
          p.HasPlace base ((pieces.take i).reverse ++ before) ∧
            items[i]? = some (p.placed base ((pieces.take i).reverse ++ before)) := by
  -- each piece that is placed joins those in front of the others
  induction pieces generalizing before items with
  | nil =>
      constructor
      · intro h
        cases h
        exact ⟨rfl, fun i p hp => absurd hp (by simp)⟩
      · intro h
        rw [List.eq_nil_of_length_eq_zero h.1]
        rfl
  | cons q rest ih =>
      by_cases hq : q.HasPlace base before
      · rw [placeAll_cons_of_hasPlace hq, map_eq_ok_iff]
        simp only [ih]
        constructor
        · rintro ⟨more, ⟨hlength, hmore⟩, rfl⟩
          refine ⟨by simp [hlength], fun i p hp => ?_⟩
          cases i with
          | zero =>
              cases hp
              exact ⟨hq, rfl⟩
          | succ i => simpa using hmore i p hp
        · intro h
          obtain ⟨hlength, hall⟩ := h
          cases items with
          | nil => cases hlength
          | cons item more =>
              have hitem : some item = some (q.placed base before) := (hall 0 q rfl).2
              refine ⟨more, ⟨Nat.succ.inj hlength, fun i p hp => ?_⟩, ?_⟩
              · simpa using hall (i + 1) p hp
              · rw [Option.some.inj hitem]
      · rw [placeAll_cons_of_not_hasPlace hq]
        constructor
        · intro h
          cases h
        · intro h
          exact absurd (h.2 0 q rfl).1 hq

/-- Where pieces fail, the first of them without a place decides why. -/
theorem placeAll_eq_error_iff {e : Fault} :
    placeAll base (stopBehind before) pieces = .error e ↔
      ∃ (i : Nat) (p : Piece), pieces[i]? = some p ∧
        (∀ (j : Nat) (q : Piece), j < i → pieces[j]? = some q →
          q.HasPlace base ((pieces.take j).reverse ++ before)) ∧
        ¬ p.HasPlace base ((pieces.take i).reverse ++ before) ∧ e = p.fault base := by
  induction pieces generalizing before with
  | nil =>
      constructor
      · intro h
        cases h
      · rintro ⟨i, p, hp, _⟩
        exact absurd hp (by simp)
  | cons q rest ih =>
      by_cases hq : q.HasPlace base before
      · rw [placeAll_cons_of_hasPlace hq, map_eq_error_iff, ih]
        constructor
        · rintro ⟨i, p, hp, hearlier, hnot, rfl⟩
          refine ⟨i + 1, p, hp, fun j o hj ho => ?_, by simpa using hnot, rfl⟩
          cases j with
          | zero =>
              cases ho
              exact hq
          | succ j => simpa using hearlier j o (Nat.lt_of_succ_lt_succ hj) ho
        · rintro ⟨i, p, hp, hearlier, hnot, rfl⟩
          cases i with
          | zero =>
              cases hp
              exact absurd hq hnot
          | succ i =>
              refine ⟨i, p, hp, fun j o hj ho => ?_, by simpa using hnot, rfl⟩
              simpa using hearlier (j + 1) o (Nat.succ_lt_succ hj) ho
      · rw [placeAll_cons_of_not_hasPlace hq]
        constructor
        · intro h
          exact ⟨0, q, rfl, fun j o hj => absurd hj (Nat.not_lt_zero j), hq, (Except.error.inj h).symm⟩
        · rintro ⟨i, p, hp, hearlier, -, rfl⟩
          cases i with
          | zero =>
              cases hp
              rfl
          | succ i => exact absurd (hearlier 0 q (Nat.succ_pos i) rfl) hq

end All

/-! ## §4. Cuts. -/

/-- Without its cuts a reply leads to the same tokens, and fails alike. -/
theorem placeAll_filter_cuts (base : Token) (cursor : Nat) (pieces : List Piece) :
    placeAll base cursor (pieces.filter fun p => !p.isCut)
      = (placeAll base cursor pieces).map (·.filter (·.isSome)) := by
  induction pieces generalizing cursor with
  | nil => rfl
  | cons p rest ih =>
      cases p with
      | cut =>
          show placeAll base cursor (rest.filter _) = ((placeAll base cursor rest).bind _).map _
          rw [ih]
          cases placeAll base cursor rest <;> rfl
      | draft d =>
          show placeAll base cursor (.draft d :: rest.filter _) = _
          rw [placeAll_cons_draft, placeAll_cons_draft]
          cases d.place base cursor with
          | error e => rfl
          | ok placed =>
              show (placeAll base placed.1 (rest.filter _)).map _
                = ((placeAll base placed.1 rest).map _).map _
              rw [ih]
              cases placeAll base placed.1 rest <;> rfl
      | nested count => rfl

/-- Whether the reply is a cut. -/
def Reply.isCut : Reply → Bool
  | .cut => true
  | _ => false

/-- The reply without its cuts. -/
def Reply.withoutCuts : Reply → Reply
  | .sequence items => .sequence (items.filter fun r => !r.isCut)
  | .cut => .nothing
  | r => r

theorem isCut_element (r : Reply) : (Reply.pieces.element r).isCut = r.isCut := by
  cases r <;> rfl

theorem pieces_withoutCuts (r : Reply) :
    r.withoutCuts.pieces = r.pieces.filter fun p => !p.isCut := by
  cases r with
  | text value => rfl
  | draft d => rfl
  | cut => rfl
  | sequence items =>
      show (items.filter _).map Reply.pieces.element = (items.map Reply.pieces.element).filter _
      rw [List.filter_map]
      congr 2
      funext r
      show (!r.isCut) = !(Reply.pieces.element r).isCut
      rw [isCut_element]

/-! ## §5. Replies. -/

namespace Reply

/-- The pieces of a reply in front of the one at a position, from the nearest one on. -/
def before (r : Reply) (i : Nat) : List Piece := (r.pieces.take i).reverse

variable {base : Token} {r : Reply}

theorem place_eq_ok_iff {items : List (Option Token)} :
    r.place base = .ok items ↔
      items.length = r.pieces.length ∧
        ∀ (i : Nat) (p : Piece), r.pieces[i]? = some p →
          p.HasPlace base (r.before i) ∧ items[i]? = some (p.placed base (r.before i)) := by
  have hall : placeAll base (stopBehind []) r.pieces = .ok items ↔ _ := placeAll_eq_ok_iff
  simp only [List.append_nil] at hall
  exact hall

theorem place_eq_error_iff {e : Fault} :
    r.place base = .error e ↔
      ∃ (i : Nat) (p : Piece), r.pieces[i]? = some p ∧
        (∀ (j : Nat) (q : Piece), j < i → r.pieces[j]? = some q → q.HasPlace base (r.before j)) ∧
        ¬ p.HasPlace base (r.before i) ∧ e = p.fault base := by
  have hall : placeAll base (stopBehind []) r.pieces = .error e ↔ _ := placeAll_eq_error_iff
  simp only [List.append_nil] at hall
  exact hall

/-- A reply has a place exactly if all of its pieces have one. -/
theorem exists_place_iff :
    (∃ items, r.place base = .ok items) ↔
      ∀ (i : Nat) (p : Piece), r.pieces[i]? = some p → p.HasPlace base (r.before i) := by
  constructor
  · intro h i p hp
    obtain ⟨items, hitems⟩ := h
    exact ((place_eq_ok_iff.1 hitems).2 i p hp).1
  · intro h
    cases hplace : r.place base with
    | ok items => exact ⟨items, rfl⟩
    | error e =>
        obtain ⟨i, p, hp, -, hnot, -⟩ := place_eq_error_iff.1 hplace
        exact absurd (h i p hp) hnot

end Reply

/--
A reply has a place in a token exactly if each of its pieces has one behind the pieces in front of it.  Then
each piece stands at its place, cuts as cuts, and without its cuts the reply gives the same tokens.
Otherwise the fault is that of the first piece without a place.
-/
theorem replies_are_placed_piece_by_piece (base : Token) (r : Reply) :
    ((∃ items, r.place base = .ok items) ↔
      ∀ (i : Nat) (p : Piece), r.pieces[i]? = some p → p.HasPlace base (r.before i)) ∧
    (∀ items, r.place base = .ok items →
      items.length = r.pieces.length ∧
        ∀ (i : Nat) (p : Piece), r.pieces[i]? = some p →
          items[i]? = some (p.placed base (r.before i))) ∧
    r.withoutCuts.place base = (r.place base).map (·.filter (·.isSome)) ∧
    ∀ e, r.place base = .error e ↔
      ∃ (i : Nat) (p : Piece), r.pieces[i]? = some p ∧
        (∀ (j : Nat) (q : Piece), j < i → r.pieces[j]? = some q → q.HasPlace base (r.before j)) ∧
        ¬ p.HasPlace base (r.before i) ∧ e = p.fault base := by
  refine ⟨Reply.exists_place_iff, ?_, ?_, fun e => Reply.place_eq_error_iff⟩
  · intro items hitems
    obtain ⟨hlength, hall⟩ := Reply.place_eq_ok_iff.1 hitems
    exact ⟨hlength, fun i p hp => (hall i p hp).2⟩
  · unfold Reply.place
    rw [pieces_withoutCuts, placeAll_filter_cuts]

/--
A jump back, a cut and an open place behind it; and a reply that fails for a draft beyond all positions, not
for the sequence behind it.
-/
theorem jump_and_fault_inside_token :
    (let base := Token.ofText "aa bb cc" 10
      let ahead : Draft := { value := "cc", index := some 6, offset := some 4 }
      let back : Draft := { value := "aa", index := some 0 }
      let r : Reply := .sequence [.draft ahead, .draft back, .cut, .text "é", .text "-"]
      let items := [some ((Token.ofText "cc" 16).withOffset 4), some (Token.ofText "aa" 10), none,
        some (Token.ofText "é" 12), some (Token.ofText "-" 14)]
      r.place base = .ok items ∧ items.length = r.pieces.length ∧
        (∀ (i : Nat) (p : Piece), r.pieces[i]? = some p →
          items[i]? = some (p.placed base (r.before i))) ∧
        r.withoutCuts.place base = .ok (items.filter (·.isSome))) ∧
    (let base := Token.ofText "ab" 1
      let far : Draft := { value := "b", index := some 18446744073709551615, offset := some 0 }
      let r : Reply := .sequence [.text "a", .draft far, .sequence []]
      ¬ Piece.HasPlace base (r.before 1) (.draft far) ∧ r.place base = .error .overflow) := by
  constructor
  · intro base ahead back r items
    have hplace : r.place base = .ok items := rfl
    obtain ⟨-, hplaced, hcuts, -⟩ := replies_are_placed_piece_by_piece base r
    obtain ⟨hlength, hall⟩ := hplaced items hplace
    refine ⟨hplace, hlength, hall, ?_⟩
    rw [hcuts, hplace]
    rfl
  · intro base far r
    have hnot : ¬ Piece.HasPlace base (r.before 1) (.draft far) := by
      show ¬ (_ < positionBound ∧ _ < positionBound)
      decide +kernel
    have hfirst : Piece.HasPlace base (r.before 0) (.draft (.ofText "a")) := by
      show _ < positionBound ∧ _ < positionBound
      decide +kernel
    obtain ⟨-, -, -, herror⟩ := replies_are_placed_piece_by_piece base r
    refine ⟨hnot, (herror _).2 ⟨1, .draft far, rfl, ?_, hnot, rfl⟩⟩
    intro j q hj hq
    rw [Nat.lt_one_iff.1 hj] at hq ⊢
    rw [← Option.some.inj hq]
    exact hfirst

end TokenSpan
