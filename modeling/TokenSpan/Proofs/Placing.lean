/-
  TokenSpan.Proofs.Placing
  ────────────────────────
  Tokens inside tokens.

  A search, and passes applied to the text of a token, find tokens at places in that text.
  `Token.adopt` is such a token as the whole text sees it.  A reply made of them has a
  place exactly where one expects it, as long as the positions fit.

  Main results:
  * `Draft.place_open` — a draft whose place is left open stands where the piece before it ends;
  * `placeReply_locals` — the tokens found in a text, placed inside its token;
  * `placeReply_open` — as the only reply, it starts where the token starts.
-/
import TokenSpan.Pass.Run
import TokenSpan.Proofs.KeyMaps

namespace TokenSpan

/-- Positions inside texts fit. -/
theorem textBound_lt_positionBound : textBound < positionBound := by decide

/-- A sum of positions that fits. -/
theorem addPositions_eq_ok {a b : Nat} (h : a + b < positionBound) :
    addPositions a b = .ok (a + b) :=
  addPositions_eq_ok_iff.2 ⟨rfl, h⟩

/-- A computation of two steps succeeds if the first step does and then the second. -/
theorem bind_eq_ok_iff {α β : Type} {x : Except Fault α} {f : α → Except Fault β} {b : β} :
    x.bind f = .ok b ↔ ∃ a, x = .ok a ∧ f a = .ok b := by
  cases x with
  | error e => simp [Except.bind]
  | ok a => simp [Except.bind]

/-- It fails if the first step does, or else the second. -/
theorem bind_eq_error_iff {α β : Type} {x : Except Fault α} {f : α → Except Fault β} {e : Fault} :
    x.bind f = .error e ↔ x = .error e ∨ ∃ a, x = .ok a ∧ f a = .error e := by
  cases x with
  | error e' => simp [Except.bind]
  | ok a => simp [Except.bind]

theorem map_eq_ok_iff {α β : Type} {x : Except Fault α} {f : α → β} {b : β} :
    x.map f = .ok b ↔ ∃ a, x = .ok a ∧ f a = b := by
  cases x with
  | error e => simp [Except.map]
  | ok a => simp [Except.map]

theorem map_eq_error_iff {α β : Type} {x : Except Fault α} {f : α → β} {e : Fault} :
    x.map f = .error e ↔ x = .error e := by
  cases x with
  | error e' => simp [Except.map]
  | ok a => simp [Except.map]

/-! ## §1. Seen from outside. -/

/--
A token found in the text of another one: moved to its place there and, if that is asked for, completed
with the values of the other one.
-/
def Token.adopt (keepProperties : Bool) (base u : Token) : Token :=
  let moved := { u with index := base.index + u.index }
  if keepProperties then moved.inherit base else moved

section Adopt

variable (keepProperties : Bool) (base u : Token)

@[simp] theorem Token.value_adopt : (base.adopt keepProperties u).value = u.value := by
  cases keepProperties <;> rfl

@[simp] theorem Token.index_adopt :
    (base.adopt keepProperties u).index = base.index + u.index := by
  cases keepProperties <;> rfl

@[simp] theorem Token.offset_adopt : (base.adopt keepProperties u).offset = u.offset := by
  cases keepProperties <;> rfl

@[simp] theorem Token.matched_adopt : (base.adopt keepProperties u).matched = u.matched := by
  cases keepProperties <;> rfl

/-- Its own values come first, then those handed down. -/
theorem Token.property_adopt (key : String) :
    (base.adopt keepProperties u).property key
      = if keepProperties then (u.property key).or (base.property key) else u.property key := by
  cases keepProperties with
  | false => rfl
  | true => exact KeyMap.get?_completeWith u.properties base.properties key

/-- Seen from the root of its text a token is what it is. -/
theorem Token.adopt_root (text : String) : (Token.root text).adopt keepProperties u = u := by
  cases keepProperties with
  | false => simp [Token.adopt, Token.root, Token.ofText]
  | true =>
      -- a root has no values to hand down
      have hproperties : u.properties.completeWith (Token.root text).properties = u.properties :=
        KeyMap.completeWith_empty u.properties
      simp only [Token.adopt, Token.inherit, if_true, hproperties]
      simp [Token.root, Token.ofText]

end Adopt

/-! ## §2. Replies made of local tokens. -/

theorem placeAll_cut_eq_ok_iff {base : Token} {cursor : Nat} {rest : List Piece}
    {items : List (Option Token)} :
    placeAll base cursor (.cut :: rest) = .ok items ↔
      ∃ more, placeAll base cursor rest = .ok more ∧ items = none :: more := by
  show (placeAll base cursor rest).bind _ = _ ↔ _
  rw [bind_eq_ok_iff]
  refine exists_congr fun more => and_congr_right fun _ => ?_
  exact ⟨fun h => (Except.ok.inj h).symm, fun h => h ▸ rfl⟩

theorem placeAll_draft_eq_ok_iff {base : Token} {cursor : Nat} {d : Draft} {rest : List Piece}
    {items : List (Option Token)} :
    placeAll base cursor (.draft d :: rest) = .ok items ↔
      ∃ stop t more, d.place base cursor = .ok (stop, t) ∧ placeAll base stop rest = .ok more ∧
        items = some t :: more := by
  show (d.place base cursor).bind _ = _ ↔ _
  rw [bind_eq_ok_iff]
  constructor
  · rintro ⟨⟨stop, t⟩, hplace, hrest⟩
    obtain ⟨more, hmore, hitems⟩ := bind_eq_ok_iff.1 hrest
    exact ⟨stop, t, more, hplace, hmore, (Except.ok.inj hitems).symm⟩
  · rintro ⟨stop, t, more, hplace, hmore, rfl⟩
    exact ⟨(stop, t), hplace, bind_eq_ok_iff.2 ⟨more, hmore, rfl⟩⟩

/-- A draft whose relative end or absolute start does not fit has no place. -/
theorem Draft.place_eq_error {base : Token} {cursor : Nat} {d : Draft}
    (h : ¬ (d.startAt cursor + d.span < positionBound ∧
      base.index + d.startAt cursor < positionBound)) :
    d.place base cursor = .error .overflow := by
  show (addPositions (d.startAt cursor) d.span).bind _ = _
  by_cases hstop : d.startAt cursor + d.span < positionBound
  · have hstart : positionBound ≤ base.index + d.startAt cursor := by omega
    rw [addPositions_eq_ok hstop]
    show (addPositions base.index (d.startAt cursor)).bind _ = _
    rw [addPositions_eq_error_iff.2 ⟨rfl, hstart⟩]
    rfl
  · rw [addPositions_eq_error_iff.2 ⟨rfl, Nat.not_lt.1 hstop⟩]
    rfl

/-- A token has room inside another one: its own end fits, and so does its start once it is moved. -/
def Token.HasRoom (base u : Token) : Prop :=
  u.index + u.offset < positionBound ∧ base.index + u.index < positionBound

theorem place_atOwnIndex {base u : Token} (h : base.HasRoom u) (cursor : Nat) :
    (Draft.atOwnIndex u).place base cursor
      = .ok (u.index + u.offset, { u with index := base.index + u.index }) :=
  Draft.place_eq_ok_iff.2 ⟨rfl, h.1, h.2, rfl⟩

theorem placeAll_locals {base : Token} {us : List Token} (h : ∀ u ∈ us, base.HasRoom u)
    (cursor : Nat) :
    placeAll base cursor (us.map fun u => .draft (.atOwnIndex u))
      = .ok (us.map fun u => some { u with index := base.index + u.index }) := by
  induction us generalizing cursor with
  | nil => rfl
  | cons u rest ih =>
      have hrest := ih fun v hv => h v (List.mem_cons_of_mem _ hv)
      rw [List.map_cons, placeAll_cons_draft, place_atOwnIndex (h u List.mem_cons_self)]
      show (placeAll base (u.index + u.offset) _).map _ = _
      rw [hrest]
      rfl

/-- Tokens found in the text of a token, placed inside that token. -/
theorem placeReply_locals {keepProperties : Bool} {base : Token} {us : List Token}
    (h : ∀ u ∈ us, base.HasRoom u) :
    placeReply keepProperties base (.sequence (us.map fun u => .draft (.atOwnIndex u)))
      = .ok (us.map fun u => some (base.adopt keepProperties u)) := by
  have hpieces : (Reply.sequence (us.map fun u => .draft (.atOwnIndex u))).pieces
      = us.map fun u => Piece.draft (.atOwnIndex u) := by
    simp only [Reply.pieces, List.map_map]
    rfl
  unfold placeReply Reply.place
  rw [hpieces, placeAll_locals h]
  cases keepProperties <;> simp [Except.map, Token.adopt]

/-! ## §3. Drafts with an open place. -/

/-- A draft as a token at the start of another one. -/
def Draft.atStart (d : Draft) : Token :=
  { value := d.value, index := 0, offset := d.span, properties := d.properties, matched := d.matched }

/-- A draft whose place is left open stands where the piece before it ends. -/
theorem Draft.place_open (base : Token) {d : Draft} (hd : d.index = none) (cursor : Nat)
    (hstop : cursor + d.span < positionBound) (hstart : base.index + cursor < positionBound) :
    d.place base cursor
      = .ok (cursor + d.span, { d.atStart with index := base.index + cursor }) := by
  have hcursor : d.startAt cursor = cursor := by rw [Draft.startAt, hd]; rfl
  rw [Draft.place_eq_ok_iff, hcursor]
  exact ⟨rfl, hstop, hstart, rfl⟩

/-- A draft whose place is left open starts where the token starts. -/
theorem placeReply_open {keepProperties : Bool} {base : Token} {d : Draft} (hd : d.index = none)
    (h : base.HasRoom d.atStart) :
    placeReply keepProperties base (.draft d) = .ok [some (base.adopt keepProperties d.atStart)] := by
  have hplace := Draft.place_open base hd 0 h.1 h.2
  unfold placeReply Reply.place
  show ((placeAll base 0 [.draft d]).map _) = _
  rw [placeAll_cons_draft, hplace]
  cases keepProperties <;> rfl

end TokenSpan
