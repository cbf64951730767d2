/-
  TokenSpan.Proofs.PlacingInSteps
  ───────────────────────────────
  Placing a reply in two steps.

  A reply can be placed inside a token at once.  Or it is placed in the text of the token alone,
  and the tokens found there are then placed inside the token.  When the second step begins, open
  places have been settled, cuts are gone, and all ends have been checked against a root.  This
  is how a chain hands tokens on, and nothing is lost by it: both ways lead to the same tokens,
  and where one of them fails, so does the other.

  Main results:
  * `place_locals` — tokens of the text of a token, placed inside that token;
  * `placeAll_eq_adoptAll` — pieces placed at once are pieces placed in the text and then moved;
  * `placing_in_two_steps_eq_placing_at_once` — the same for whole replies.
-/
import TokenSpan.Proofs.TokenByToken

namespace TokenSpan

/-! ## §1. The two steps. -/

/-- The reply made of tokens of a text: a draft for each of them, at its own place in that text. -/
def Reply.locals (us : List Token) : Reply := .sequence (us.map fun u => .draft (.atOwnIndex u))

/-- The reply is a text, a draft or a cut, or a sequence of such replies. -/
def Reply.Flat (r : Reply) : Prop := ∀ count, Piece.nested count ∉ r.pieces

/--
The tokens of a reply inside the token it was made for, by way of the text of that token: placed there first,
and then, the cuts left out, inside the token.
-/
def Reply.placeInSteps (base : Token) (r : Reply) : Except Fault (List (Option Token)) := do
  let items ← r.place (Token.root base.value)
  (Reply.locals (items.filterMap id)).place base

/-! ## §2. One draft. -/

namespace Draft

/-- A draft as a token of the text it is for, if the piece before it ends at `cursor`. -/
def localAt (cursor : Nat) (d : Draft) : Token := { d.atStart with index := d.startAt cursor }

variable {base : Token} {cursor : Nat} {d : Draft}

theorem place_of_hasRoom (h : base.HasRoom (d.localAt cursor)) :
    d.place base cursor
      = .ok (d.startAt cursor + d.span, base.adopt false (d.localAt cursor)) :=
  place_eq_ok_iff.2 ⟨rfl, h.1, h.2, rfl⟩

theorem place_of_not_hasRoom (h : ¬ base.HasRoom (d.localAt cursor)) :
    d.place base cursor = .error .overflow :=
  place_eq_error h

/-- In the text alone a draft stands where its token does, as long as its end fits. -/
theorem place_root (text : String) (h : d.startAt cursor + d.span < positionBound) :
    d.place (Token.root text) cursor = .ok (d.startAt cursor + d.span, d.localAt cursor) := by
  have hroom : (Token.root text).HasRoom (d.localAt cursor) := by
    constructor
    · exact h
    · show 0 + d.startAt cursor < positionBound
      omega
  rw [place_of_hasRoom hroom, Token.adopt_root]

/-- The only fault of a draft is an overflow. -/
theorem eq_overflow_of_place {e : Fault} (h : d.place base cursor = .error e) : e = .overflow := by
  by_cases hroom : base.HasRoom (d.localAt cursor)
  · rw [place_of_hasRoom hroom] at h
    cases h
  · rw [place_of_not_hasRoom hroom] at h
    exact (Except.error.inj h).symm

end Draft

/-! ## §3. Tokens of the text of a token. -/

section Adopt

variable (base : Token) (us : List Token)

/-- The first token needs room, and so do the others. -/
theorem Token.adoptAll_cons (keepProperties : Bool) (u : Token) :
    base.adoptAll keepProperties (u :: us)
      = if base.HasRoom u then
          (base.adoptAll keepProperties us).map (base.adopt keepProperties u :: ·)
        else .error .overflow := by
  by_cases hu : base.HasRoom u
  · rw [if_pos hu]
    by_cases hus : ∀ v ∈ us, base.HasRoom v
    · have hall : ∀ v ∈ u :: us, base.HasRoom v := List.forall_mem_cons.2 ⟨hu, hus⟩
      rw [Token.adoptAll_eq_ok_iff.2 ⟨hall, rfl⟩, Token.adoptAll_eq_ok_iff.2 ⟨hus, rfl⟩]
      rfl
    · have hnot : ∃ v ∈ us, ¬ base.HasRoom v := by simpa using hus
      have hsome : ∃ v ∈ u :: us, ¬ base.HasRoom v := List.exists_mem_cons_of_exists hnot
      rw [Token.adoptAll_eq_error_iff.2 ⟨rfl, hsome⟩, Token.adoptAll_eq_error_iff.2 ⟨rfl, hnot⟩]
      rfl
  · rw [if_neg hu]
    exact Token.adoptAll_eq_error_iff.2 ⟨rfl, u, List.mem_cons_self, hu⟩

/-- Tokens of the text of a token, placed inside that token: moved, if all have room there. -/
theorem place_locals :
    (Reply.locals us).place base = (base.adoptAll false us).map (·.map some) := by
  have hpieces : (Reply.locals us).pieces = us.map fun u => Piece.draft (.atOwnIndex u) := by
    show (us.map _).map Reply.pieces.element = _
    rw [List.map_map]
    rfl
  unfold Reply.place
  rw [hpieces]
  by_cases h : ∀ u ∈ us, base.HasRoom u
  · rw [placeAll_locals h, Token.adoptAll_eq_ok_iff.2 ⟨h, rfl⟩]
    show _ = Except.ok ((us.map _).map some)
    rw [List.map_map]
    rfl
  · have hnot : ∃ u ∈ us, ¬ base.HasRoom u := by simpa using h
    rw [placeAll_locals_of_not_hasRoom hnot, Token.adoptAll_eq_error_iff.2 ⟨rfl, hnot⟩]
    rfl

end Adopt

/-! ## §4. Pieces. -/

section Pieces

variable {base : Token} {pieces : List Piece}

/-- Without sequences among the pieces, the only fault is an overflow. -/
theorem eq_overflow_of_placeAll (hflat : ∀ count, Piece.nested count ∉ pieces) {cursor : Nat}
    {e : Fault} (h : placeAll base cursor pieces = .error e) : e = .overflow := by
  induction pieces generalizing cursor with
  | nil => cases h
  | cons p rest ih =>
      have hrest : ∀ count, Piece.nested count ∉ rest :=
        fun count hmem => hflat count (List.mem_cons_of_mem p hmem)
      cases p with
      | nested count => exact absurd List.mem_cons_self (hflat count)
      | cut =>
          apply ih hrest
          apply (bind_eq_error_iff.1 h).resolve_right
          intro hmore
          obtain ⟨more, -, hmore⟩ := hmore
          cases hmore
      | draft d =>
          rw [placeAll_cons_draft] at h
          apply (bind_eq_error_iff.1 h).elim Draft.eq_overflow_of_place
          intro hmore
          obtain ⟨placed, -, hmore⟩ := hmore
          exact ih hrest (map_eq_error_iff.1 hmore)

/-- A token in front of others needs room for itself, once the others have a place in the text. -/
theorem map_cons_bind_adoptAll (base u : Token) (x : Except Fault (List (Option Token))) :
    ((x.map (some u :: ·)).bind fun items => base.adoptAll false (items.filterMap id))
      = if base.HasRoom u then
          (x.bind fun items => base.adoptAll false (items.filterMap id)).map (base.adopt false u :: ·)
        else x.bind fun _ => .error .overflow := by
  cases x with
  | error e =>
      show Except.error e = if _ then Except.error e else Except.error e
      rw [ite_self]
  | ok items => exact Token.adoptAll_cons base (items.filterMap id) false u

/-- Placed inside a token, pieces give the tokens that they give in its text, moved by its place. -/
theorem placeAll_eq_adoptAll (text : String) (hflat : ∀ count, Piece.nested count ∉ pieces)
    (cursor : Nat) :
    (placeAll base cursor pieces).map (·.filterMap id)
      = (placeAll (Token.root text) cursor pieces).bind fun items =>
          base.adoptAll false (items.filterMap id) := by
  -- a draft ends at the same relative position in both, so what is behind it meets the same cursor
  induction pieces generalizing cursor with
  | nil => exact (Token.adoptAll_eq_ok_iff.2 ⟨List.forall_mem_nil _, rfl⟩).symm
  | cons p rest ih =>
      have hrest : ∀ count, Piece.nested count ∉ rest :=
        fun count hmem => hflat count (List.mem_cons_of_mem p hmem)
      cases p with
      | nested count => exact absurd List.mem_cons_self (hflat count)
      | cut =>
          have hmore := ih hrest cursor
          show ((placeAll base cursor rest).bind _).map _
            = ((placeAll (Token.root text) cursor rest).bind _).bind _
          cases hroot : placeAll (Token.root text) cursor rest <;>
            cases hbase : placeAll base cursor rest <;> rw [hroot, hbase] at hmore <;> exact hmore
      | draft d =>
          rw [placeAll_cons_draft, placeAll_cons_draft]
          by_cases hstop : d.startAt cursor + d.span < positionBound
          · have hmore := ih hrest (d.startAt cursor + d.span)
            rw [Draft.place_root text hstop]
            show _ = ((placeAll (Token.root text) (d.startAt cursor + d.span) rest).map _).bind _
            rw [map_cons_bind_adoptAll]
            by_cases hroom : base.HasRoom (d.localAt cursor)
            · rw [Draft.place_of_hasRoom hroom, if_pos hroom, ← hmore]
              show ((placeAll base (d.startAt cursor + d.span) rest).map _).map _ = _
              cases placeAll base (d.startAt cursor + d.span) rest <;> rfl
            · -- at once the draft fails where it stands; in two steps only after those behind it
              rw [Draft.place_of_not_hasRoom hroom, if_neg hroom]
              cases hroot : placeAll (Token.root text) (d.startAt cursor + d.span) rest with
              | error e => rw [eq_overflow_of_placeAll hrest hroot]; rfl
              | ok items => rfl
          · have hno : ∀ t : Token, ¬ t.HasRoom (d.localAt cursor) := fun t h => hstop h.1
            rw [Draft.place_of_not_hasRoom (hno base),
              Draft.place_of_not_hasRoom (hno (Token.root text))]
            rfl

end Pieces

/-! ## §5. Replies. -/

/--
Placing a reply without sequences inside it in two steps, first in the text of the token and then inside the
token, is placing it at once and leaving out the cuts: the same tokens or the same fault.
-/
theorem placing_in_two_steps_eq_placing_at_once (base : Token) {r : Reply} (hr : r.Flat) :
    r.placeInSteps base = (r.place base).map (·.filter (·.isSome)) := by
  have hcuts : ∀ items : List (Option Token),
      items.filter (·.isSome) = (items.filterMap id).map some := by
    intro items
    rw [List.map_filterMap_some_eq_filter_map_isSome, List.map_id]
  calc r.placeInSteps base
    _ = (r.place (Token.root base.value)).bind fun items =>
          (base.adoptAll false (items.filterMap id)).map (·.map some) := by
        show (r.place _).bind _ = _
        simp only [place_locals]
    _ = ((r.place (Token.root base.value)).bind fun items =>
          base.adoptAll false (items.filterMap id)).map (·.map some) := by
        cases r.place (Token.root base.value) <;> rfl
    _ = ((r.place base).map (·.filterMap id)).map (·.map some) := by
        unfold Reply.place
        rw [placeAll_eq_adoptAll base.value hr 0]
    _ = (r.place base).map (·.filter (·.isSome)) := by
        cases r.place base with
        | error e => rfl
        | ok items => exact congrArg Except.ok (hcuts items).symm

/--
A reply that jumps ahead and back, with cuts and open places, in a token in the middle of a text; and one that has
a place in the text of a token, but not in the token, which stands at the last position there is.
-/
theorem jumps_and_cuts_in_two_steps :
    (let base := Token.ofText "aa bb cc" 10
      let ahead : Draft := { value := "cc", index := some 6, offset := some 4 }
      let back : Draft := { value := "aa", index := some 0 }
      let r : Reply := .sequence [.draft ahead, .cut, .draft back, .cut, .text "é", .text "-"]
      r.Flat ∧ r.placeInSteps base = .ok [some ((Token.ofText "cc" 16).withOffset 4),
        some (Token.ofText "aa" 10), some (Token.ofText "é" 12), some (Token.ofText "-" 14)]) ∧
    (let base := Token.ofText "ab" (positionBound - 1)
      let r : Reply := .sequence [.text "a", .cut, .text "b"]
      r.Flat ∧ (∃ items, r.place (Token.root base.value) = .ok items) ∧
        r.placeInSteps base = .error .overflow) := by
  constructor
  · intro base ahead back r
    have hflat : r.Flat := by
      intro count h
      simp [r, Reply.pieces, Reply.pieces.element] at h
    refine ⟨hflat, ?_⟩
    rw [placing_in_two_steps_eq_placing_at_once base hflat]
    rfl
  · intro base r
    have hflat : r.Flat := by
      intro count h
      simp [r, Reply.pieces, Reply.pieces.element] at h
    refine ⟨hflat, ⟨_, rfl⟩, ?_⟩
    rw [placing_in_two_steps_eq_placing_at_once base hflat]
    rfl

end TokenSpan
