/-
  TokenSpan.Proofs.Agreement
  ──────────────────────────
  Tokens that agree in text and place, and what is made of them.

  Two tokens may differ in the values they carry and still have the same text and place; what
  was captured for them may be the same or not.  `Token.Agrees` is this relation, with a
  relation for the captures as a parameter: `Token.SameSpan` leaves the captures open,
  `Token.Alike` asks that they are the same.  Everything that places or merges tokens reads
  text and place alone, so from agreeing inputs it leads to agreeing results, and where one
  side fails the other fails alike.

  Main results:
  * `placeReply_agrees` — agreeing replies have agreeing places;
  * `mergeSegments_eq_of_sameSpan` — merging sees texts and places only;
  * `contexts_agree` — agreeing sequences show their tokens in agreeing contexts.
-/
import Mathlib.Data.List.Forall2
import TokenSpan.Pass.Run

namespace TokenSpan

/-! ## §1. Results. -/

/-- The same fault on both sides, or results that are related. -/
inductive Agree {α β : Type} (R : α → β → Prop) : Except Fault α → Except Fault β → Prop where
  | ok {a : α} {b : β} (h : R a b) : Agree R (.ok a) (.ok b)
  | error (e : Fault) : Agree R (.error e) (.error e)

namespace Agree

variable {α β γ δ : Type} {R : α → β → Prop} {S : γ → δ → Prop}
  {x : Except Fault α} {y : Except Fault β}

theorem bind {f : α → Except Fault γ} {g : β → Except Fault δ} (h : Agree R x y)
    (hfg : ∀ a b, R a b → Agree S (f a) (g b)) : Agree S (x.bind f) (y.bind g) := by
  cases h with
  | ok h => exact hfg _ _ h
  | error e => exact .error e

theorem map {f : α → γ} {g : β → δ} (h : Agree R x y) (hfg : ∀ a b, R a b → S (f a) (g b)) :
    Agree S (x.map f) (y.map g) := by
  cases h with
  | ok h => exact .ok (hfg _ _ h)
  | error e => exact .error e

/-- A result agrees with itself if related results are compared by a reflexive relation. -/
theorem refl {R : α → α → Prop} (hR : ∀ a, R a a) (x : Except Fault α) : Agree R x x := by
  cases x with
  | ok a => exact .ok (hR a)
  | error e => exact .error e

/-- Where one side succeeds the other one does, with a related result. -/
theorem exists_ok (h : Agree R x y) {a : α} (hx : x = .ok a) : ∃ b, y = .ok b ∧ R a b := by
  cases h with
  | ok h => exact ⟨_, rfl, Except.ok.inj hx ▸ h⟩
  | error e => cases hx

/-- Where one side fails the other one does, with the same fault. -/
theorem eq_error (h : Agree R x y) {e : Fault} (hx : x = .error e) : y = .error e := by
  cases h with
  | ok h => cases hx
  | error e' => rw [Except.error.inj hx]

end Agree

theorem isSome_eq_of_rel {α β : Type} {R : α → β → Prop} {x : Option α} {y : Option β}
    (h : Option.Rel R x y) : x.isSome = y.isSome := by
  cases h <;> rfl

/-! ## §2. Tokens, drafts, replies. -/

section Relations

variable (M : Option MatchInfo → Option MatchInfo → Prop)

/--
The tokens have the same text and place, and what was captured for them is related by `M`; the values
they carry do not matter.
-/
structure Token.Agrees (t u : Token) : Prop where
  /-- The text is the same. -/
  value : t.value = u.value
  /-- They start at the same place. -/
  index : t.index = u.index
  /-- They cover the same number of positions. -/
  offset : t.offset = u.offset
  /-- The captures are related. -/
  matched : M t.matched u.matched

/-- The drafts have the same text and leave the same places open; the values do not matter. -/
structure Draft.Agrees (d e : Draft) : Prop where
  value : d.value = e.value
  /-- They start at the same place, or both leave it open. -/
  index : d.index = e.index
  /-- They cover the same number of positions, or both leave it open. -/
  offset : d.offset = e.offset
  matched : M d.matched e.matched

/-- The replies are made of the same texts, cuts and sequences, and of agreeing drafts. -/
inductive Reply.Agrees : Reply → Reply → Prop where
  | text (value : String) : Reply.Agrees (.text value) (.text value)
  | draft {d e : Draft} (h : d.Agrees M e) : Reply.Agrees (.draft d) (.draft e)
  | cut : Reply.Agrees .cut .cut
  | sequence {rs ss : List Reply} (h : List.Forall₂ Reply.Agrees rs ss) :
      Reply.Agrees (.sequence rs) (.sequence ss)

/-- The pieces are both cuts, agreeing drafts, or sequences of one length. -/
inductive Piece.Agrees : Piece → Piece → Prop where
  | cut : Piece.Agrees .cut .cut
  | draft {d e : Draft} (h : d.Agrees M e) : Piece.Agrees (.draft d) (.draft e)
  | nested (count : Nat) : Piece.Agrees (.nested count) (.nested count)

/-- The contexts show agreeing tokens among agreeing neighbours. -/
structure Context.Agrees (cx cy : Context) : Prop where
  tokens : List.Forall₂ (Token.Agrees M) cx.tokens cy.tokens
  position : cx.position = cy.position
  token : cx.token.Agrees M cy.token
  prev : Option.Rel (Token.Agrees M) cx.prev cy.prev
  next : Option.Rel (Token.Agrees M) cx.next cy.next

end Relations

/-- The tokens have the same text and place. -/
abbrev Token.SameSpan : Token → Token → Prop := Token.Agrees fun _ _ => True

/-- The tokens differ in the values they carry, if at all. -/
abbrev Token.Alike : Token → Token → Prop := Token.Agrees Eq

variable {M : Option MatchInfo → Option MatchInfo → Prop}

theorem Token.Agrees.sameSpan {t u : Token} (h : t.Agrees M u) : t.SameSpan u :=
  ⟨h.value, h.index, h.offset, trivial⟩

theorem Token.Alike.refl (t : Token) : t.Alike t := ⟨rfl, rfl, rfl, rfl⟩

theorem Draft.Agrees.of_eq (hM : ∀ m, M m m) (d : Draft) : d.Agrees M d := ⟨rfl, rfl, rfl, hM _⟩

theorem Draft.Agrees.ofToken {t u : Token} (h : t.Agrees M u) :
    (Draft.ofToken t).Agrees M (.ofToken u) :=
  ⟨h.value, rfl, congrArg some h.offset, h.matched⟩

theorem Draft.Agrees.atOwnIndex {t u : Token} (h : t.Agrees M u) :
    (Draft.atOwnIndex t).Agrees M (.atOwnIndex u) :=
  ⟨h.value, congrArg some h.index, congrArg some h.offset, h.matched⟩

theorem Draft.Agrees.annotate {d e : Draft} (h : d.Agrees M e) (more more' : Properties) :
    (d.annotate more).Agrees M (e.annotate more') :=
  ⟨h.value, h.index, h.offset, h.matched⟩

theorem Reply.Agrees.keep {t u : Token} (h : t.Agrees M u) : (Reply.keep t).Agrees M (.keep u) :=
  .draft (.ofToken h)

theorem Reply.Agrees.keepIf {cx cy : Context} (h : cx.Agrees M cy) (test : Bool) :
    (keepIf test cx).Agrees M (TokenSpan.keepIf test cy) := by
  cases test with
  | true => exact .keep h.token
  | false => exact .sequence .nil

/-! ## §3. Places. -/

theorem Draft.Agrees.place {d e : Draft} (h : d.Agrees M e) {base base' : Token}
    (hbase : base.index = base'.index) (cursor : Nat) :
    Agree (fun p q => p.1 = q.1 ∧ p.2.Agrees M q.2) (d.place base cursor)
      (e.place base' cursor) := by
  have hstart : d.startAt cursor = e.startAt cursor := by rw [startAt, startAt, h.index]
  have hspan : d.span = e.span := by rw [span, span, h.offset, h.value]
  unfold Draft.place
  dsimp only
  rw [hstart, hspan, hbase]
  -- the same sums are formed on both sides
  cases addPositions (e.startAt cursor) e.span with
  | error fault => exact .error fault
  | ok stop =>
      cases addPositions base'.index (e.startAt cursor) with
      | error fault => exact .error fault
      | ok index => exact .ok ⟨rfl, h.value, rfl, rfl, h.matched⟩

theorem placeAll_agrees {ps qs : List Piece} (h : List.Forall₂ (Piece.Agrees M) ps qs)
    {base base' : Token} (hbase : base.index = base'.index) (cursor : Nat) :
    Agree (List.Forall₂ (Option.Rel (Token.Agrees M))) (placeAll base cursor ps)
      (placeAll base' cursor qs) := by
  induction h generalizing cursor with
  | nil => exact .ok .nil
  | @cons p q ps qs hpq _ ih =>
      cases hpq with
      | cut =>
          exact (ih cursor).bind fun _ _ hmore => .ok (.cons .none hmore)
      | nested count =>
          unfold placeAll
          rw [hbase]
          exact .error _
      | draft hd =>
          rw [placeAll_cons_draft, placeAll_cons_draft]
          refine (hd.place hbase cursor).bind fun a b hab => ?_
          -- both drafts end at the same place, so the other pieces start alike
          rw [hab.1]
          exact (ih b.1).map fun _ _ hmore => .cons (.some hab.2) hmore

/-- As elements of a sequence, agreeing replies are agreeing pieces. -/
theorem Reply.Agrees.element {r s : Reply} (h : r.Agrees M s) (hM : ∀ m, M m m) :
    (Reply.pieces.element r).Agrees M (Reply.pieces.element s) := by
  cases h with
  | text value => exact .draft (.of_eq hM _)
  | draft hd => exact .draft hd
  | cut => exact .cut
  | @sequence rs ss hrs =>
      show Piece.Agrees M (.nested rs.length) (.nested ss.length)
      rw [hrs.length_eq]
      exact .nested _

theorem Reply.Agrees.pieces {r s : Reply} (h : r.Agrees M s) (hM : ∀ m, M m m) :
    List.Forall₂ (Piece.Agrees M) r.pieces s.pieces := by
  cases h with
  | text value => exact .cons (.draft (.of_eq hM _)) .nil
  | draft hd => exact .cons (.draft hd) .nil
  | cut => exact .cons .cut .nil
  | sequence hrs => exact List.rel_map (fun _ _ hpq => hpq.element hM) hrs

/-- Agreeing replies have agreeing places, whatever values the results inherit. -/
theorem placeReply_agrees (hM : ∀ m, M m m) {r s : Reply} (h : r.Agrees M s) {t u : Token}
    (htu : t.index = u.index) (keepProperties keepProperties' : Bool) :
    Agree (List.Forall₂ (Option.Rel (Token.Agrees M))) (placeReply keepProperties t r)
      (placeReply keepProperties' u s) := by
  -- whether values are inherited or not, text, place and captures stay
  have hinherit : ∀ (keep : Bool) (base : Token) (items : List (Option Token)),
      (if keep then items.map (·.map (·.inherit base)) else items)
        = items.map (·.map fun t => if keep then t.inherit base else t) := by
    intro keep base items
    cases keep with
    | true => rfl
    | false => simp
  have hsame : ∀ (keep keep' : Bool) {a b : Token}, a.Agrees M b →
      (if keep then a.inherit t else a).Agrees M (if keep' then b.inherit u else b) := by
    intro keep keep' a b hab
    cases keep <;> cases keep' <;> exact ⟨hab.value, hab.index, hab.offset, hab.matched⟩
  unfold placeReply Reply.place
  refine (placeAll_agrees (h.pieces hM) htu 0).map fun items items' hitems => ?_
  rw [hinherit, hinherit]
  refine List.rel_map (fun a b hab => ?_) hitems
  cases hab with
  | none => exact .none
  | some hab => exact .some (hsame _ _ hab)

theorem filterMap_agrees {items items' : List (Option Token)}
    (h : List.Forall₂ (Option.Rel (Token.Agrees M)) items items') :
    List.Forall₂ (Token.Agrees M) (items.filterMap id) (items'.filterMap id) :=
  List.rel_filterMap (fun _ _ hab => hab) h

/-! ## §4. Contexts. -/

theorem head?_agrees {ts us : List Token} (h : List.Forall₂ (Token.Agrees M) ts us) :
    Option.Rel (Token.Agrees M) ts.head? us.head? := by
  cases h with
  | nil => exact .none
  | cons h _ => exact .some h

theorem contextsFrom_agree {ts us : List Token} (h : List.Forall₂ (Token.Agrees M) ts us)
    {rest rest' : List Token} (hrest : List.Forall₂ (Token.Agrees M) rest rest')
    {prev prev' : Option Token} (hprev : Option.Rel (Token.Agrees M) prev prev') (position : Nat) :
    List.Forall₂ (Context.Agrees M) (contextsFrom ts position prev rest)
      (contextsFrom us position prev' rest') := by
  induction hrest generalizing prev prev' position with
  | nil => exact .nil
  | cons htu hrest ih =>
      exact .cons ⟨h, rfl, htu, hprev, head?_agrees hrest⟩ (ih (.some htu) (position + 1))

/-- Agreeing sequences show their tokens in agreeing contexts. -/
theorem contexts_agree {ts us : List Token} (h : List.Forall₂ (Token.Agrees M) ts us) :
    List.Forall₂ (Context.Agrees M) (contexts ts) (contexts us) :=
  contextsFrom_agree h h .none 0

/-! ## §5. Merging. -/

theorem stop_eq_of_sameSpan {t u : Token} (h : t.SameSpan u) : t.stop = u.stop := by
  unfold Token.stop
  rw [h.index, h.offset]

theorem bridge_eq_of_sameSpan (filler : String) {prev prev' : Option Token}
    (hprev : Option.Rel Token.SameSpan prev prev') {t u : Token} (h : t.SameSpan u) :
    bridge filler prev t = bridge filler prev' u := by
  cases hprev with
  | none => rfl
  | some hprev =>
      unfold bridge
      dsimp only
      rw [stop_eq_of_sameSpan hprev, h.index]

theorem mergeOnto_eq_of_sameSpan (filler : String) (start : Nat) {prev prev' : Option Token}
    (hprev : Option.Rel Token.SameSpan prev prev') (text : String) (span : Nat) {ts us : List Token}
    (h : List.Forall₂ Token.SameSpan ts us) :
    mergeOnto filler start prev text span ts = mergeOnto filler start prev' text span us := by
  induction h generalizing prev prev' text span with
  | nil => rfl
  | cons htu _ ih =>
      unfold mergeOnto
      rw [bridge_eq_of_sameSpan filler hprev htu, htu.value, htu.index, htu.offset]
      -- the joined text and span are the same, and the last tokens agree again
      simp only [ih (.some htu)]

theorem merge?_eq_of_sameSpan (filler : String) {ts us : List Token}
    (h : List.Forall₂ Token.SameSpan ts us) : merge? filler ts = merge? filler us := by
  cases h with
  | nil => rfl
  | cons htu hrest =>
      unfold merge?
      dsimp only
      rw [htu.index, mergeOnto_eq_of_sameSpan filler _ .none "" 0 (.cons htu hrest)]

theorem mergeAll_eq_of_sameSpan (filler : String) {runs runs' : List (List Token)}
    (h : List.Forall₂ (List.Forall₂ Token.SameSpan) runs runs') :
    mergeAll filler runs = mergeAll filler runs' := by
  induction h with
  | nil => rfl
  | cons hrun _ ih =>
      unfold mergeAll
      rw [merge?_eq_of_sameSpan filler hrun, ih]

/-- Agreeing sequences are cut alike. -/
theorem runsBetweenCuts_agree {items items' : List (Option Token)}
    (h : List.Forall₂ (Option.Rel Token.SameSpan) items items') {current current' : List Token}
    (hcurrent : List.Forall₂ Token.SameSpan current current') :
    List.Forall₂ (List.Forall₂ Token.SameSpan) (runsBetweenCuts current items)
      (runsBetweenCuts current' items') := by
  have hempty : ∀ {ts us : List Token}, List.Forall₂ Token.SameSpan ts us → ts.isEmpty = us.isEmpty := by
    intro ts us htu
    cases htu <;> rfl
  induction h generalizing current current' with
  | nil =>
      unfold runsBetweenCuts
      rw [hempty hcurrent]
      split
      · exact .nil
      · exact .cons hcurrent .nil
  | cons hitem _ ih =>
      cases hitem with
      | none =>
          unfold runsBetweenCuts
          rw [hempty hcurrent]
          split
          · exact ih .nil
          · exact .cons hcurrent (ih .nil)
      | some htu => exact ih (List.rel_append hcurrent (.cons htu .nil))

/-- Merging sees texts and places only. -/
theorem mergeSegments_eq_of_sameSpan (filler : String) {items items' : List (Option Token)}
    (h : List.Forall₂ (Option.Rel Token.SameSpan) items items') :
    mergeSegments filler items = mergeSegments filler items' :=
  mergeAll_eq_of_sameSpan filler (runsBetweenCuts_agree h .nil)

end TokenSpan
