/-
  TokenSpan.Token.Placing
  ───────────────────────
  Placing a reply inside the token it was made for.

  The pieces of a reply stand one after the other: a piece whose place is open starts
  where the piece before it ends, the first one at the start of the token.  All places are
  then moved by the place of the token.  Cuts stay where they are, as `none`.

  Main results:
  * `Draft.place_eq_ok_iff` — when a draft has a place, and which;
  * `placeAll_cons_draft` — placing goes piece by piece.
-/
import TokenSpan.Token.Reply

namespace TokenSpan

/-! ## §1. Single pieces. -/

/-- One element of a reply, as placing sees it. -/
inductive Piece where
  /-- A cut. -/
  | cut
  /-- A draft of a token. -/
  | draft (d : Draft)
  /-- A sequence of `count` replies, which may not stand inside a reply. -/
  | nested (count : Nat)

/-- The pieces of a reply: its elements, or the reply itself if it is not a sequence. -/
def Reply.pieces : Reply → List Piece
  | .sequence items => items.map element
  | r => [element r]
where
  /-- A reply as an element of another one; a text is a draft with open place. -/
  element : Reply → Piece
    | .cut => .cut
    | .text value => .draft (.ofText value)
    | .draft d => .draft d
    | .sequence items => .nested items.length

namespace Draft

/-- Where the draft starts in the other token if the piece before it ends at `cursor`. -/
def startAt (d : Draft) (cursor : Nat) : Nat := d.index.getD cursor

/-- How many positions the draft covers. -/
def span (d : Draft) : Nat := d.offset.getD d.value.utf8ByteSize

/-- The token of the draft inside a token, with the relative position after it. -/
def place (base : Token) (cursor : Nat) (d : Draft) : Except Fault (Nat × Token) := do
  let start := d.startAt cursor
  let stop ← addPositions start d.span
  let index ← addPositions base.index start
  return (stop, { value := d.value, index, offset := d.span,
                  properties := d.properties, matched := d.matched })

end Draft

/-! ## §2. Whole replies. -/

/-- Places pieces inside a token; the piece before the first one ends at `cursor`. -/
def placeAll (base : Token) (cursor : Nat) : List Piece → Except Fault (List (Option Token))
  | [] => .ok []
  | .cut :: rest => do
      let more ← placeAll base cursor rest
      return none :: more
  | .nested count :: _ => .error (.nestedResult count base.index)
  | .draft d :: rest => do
      let (stop, token) ← d.place base cursor
      let more ← placeAll base stop rest
      return some token :: more

/-- The tokens and cuts of a reply inside the token it was made for. -/
def Reply.place (base : Token) (r : Reply) : Except Fault (List (Option Token)) :=
  placeAll base 0 r.pieces

/-! ## §3. Laws. -/

/-- A draft has a place exactly if its relative end and its absolute start fit. -/
theorem Draft.place_eq_ok_iff {base : Token} {cursor stop : Nat} {d : Draft} {t : Token} :
    d.place base cursor = .ok (stop, t) ↔
      stop = d.startAt cursor + d.span ∧ stop < positionBound ∧
      base.index + d.startAt cursor < positionBound ∧
      t = { value := d.value, index := base.index + d.startAt cursor, offset := d.span,
            properties := d.properties, matched := d.matched } := by
  unfold Draft.place addPositions
  by_cases h₁ : d.startAt cursor + d.span < positionBound
  · by_cases h₂ : base.index + d.startAt cursor < positionBound
    · simp only [h₁, h₂, ↓reduceIte, bind, Except.bind, pure, Except.pure, Except.ok.injEq,
        Prod.mk.injEq, true_and]
      constructor
      · rintro ⟨rfl, rfl⟩; exact ⟨rfl, h₁, rfl⟩
      · rintro ⟨rfl, _, rfl⟩; exact ⟨rfl, rfl⟩
    · simp [h₁, h₂, bind, Except.bind]
  · simp only [h₁, ↓reduceIte, bind, Except.bind, reduceCtorEq, false_iff]
    rintro ⟨rfl, h, _⟩
    exact h₁ h

/-- Placing goes piece by piece. -/
theorem placeAll_cons_draft (base : Token) (cursor : Nat) (d : Draft) (rest : List Piece) :
    placeAll base cursor (.draft d :: rest) =
      (d.place base cursor).bind fun p => (placeAll base p.1 rest).map (some p.2 :: ·) := by
  rw [placeAll]
  cases d.place base cursor with
  | error e => rfl
  | ok p => cases h : placeAll base p.1 rest <;> simp [bind, Except.bind, h, Except.map, pure, Except.pure]

end TokenSpan
