/-
  TokenSpan.Proofs.Extraction
  ───────────────────────────
  The search of a text by byte positions.

  The steps of a search (`Finding.steps`) go through the characters of a text.  Here the same
  search is a loop over byte positions: it asks for the first match at or behind a position, cuts
  the match and the gap in front of it out of the text, and goes on behind the match; an empty
  match is passed over together with the character behind it.  Positions can be wrong: a slice
  whose ends are out of order, or inside a character, stops the loop with a fault, and a loop
  that does not get ahead never stops.

  What answers the searches is left open, but for one thing: from a boundary of the text, a match
  is at or behind that boundary, and stands between boundaries itself.  Then there is at most one
  search for each boundary of the text, and each slice can be taken.

  Main results:
  * `exists_passOver`, `exists_report` — what follows from one match;
  * `Progress.Ready.step` — one round: the next search starts further behind;
  * `exists_loop` — all rounds;
  * `exists_extract` — whole extractions.
-/
import Mathlib.Data.List.Perm.Subperm
import TokenSpan.Proofs.Exact

namespace TokenSpan.Extraction

open TokenSpan.Finding (Mode draftAt)

/-! ## §1. Boundaries and slices. -/

/-- The byte position is an end of the text, or stands between two of its characters. -/
def IsBoundary (text : String) (p : Nat) : Prop := (String.Pos.Raw.mk p).IsValid text

instance (text : String) (p : Nat) : Decidable (IsBoundary text p) :=
  inferInstanceAs (Decidable ((String.Pos.Raw.mk p).IsValid text))

section Boundaries

variable {text : String} {p start stop : Nat}

/-- A boundary is the size of what stands in front of it. -/
theorem isBoundary_iff :
    IsBoundary text p ↔ ∃ before after, text.toList = before ++ after ∧ p = byteLength before := by
  unfold IsBoundary
  rw [String.Pos.Raw.isValid_iff_exists_append]
  constructor
  · intro h
    obtain ⟨before, after, htext, hp⟩ := h
    refine ⟨before.toList, after.toList, by rw [htext, String.toList_append], ?_⟩
    rw [byteLength_toList]
    exact congrArg String.Pos.Raw.byteIdx hp
  · intro h
    obtain ⟨before, after, htext, rfl⟩ := h
    refine ⟨String.ofList before, String.ofList after, ?_, ?_⟩
    · rw [← String.ofList_append, ← htext, String.ofList_toList]
    · rw [← utf8ByteSize_ofList]
      rfl

theorem IsBoundary.le (h : IsBoundary text p) : p ≤ text.utf8ByteSize := by
  obtain ⟨before, after, htext, rfl⟩ := isBoundary_iff.1 h
  rw [← byteLength_toList, htext, byteLength_append]
  omega

theorem isBoundary_zero (text : String) : IsBoundary text 0 :=
  isBoundary_iff.2 ⟨[], text.toList, rfl, rfl⟩

theorem isBoundary_end (text : String) : IsBoundary text text.utf8ByteSize :=
  isBoundary_iff.2 ⟨text.toList, [], (List.append_nil _).symm, (byteLength_toList text).symm⟩

/-- The ends of a slice that cannot be taken: they are out of order, or no boundaries of the text. -/
structure BadSlice where
  start : Nat
  stop : Nat
  deriving DecidableEq

/-- The part of a text between two byte positions. -/
def slice (text : String) (start stop : Nat) : Except BadSlice String :=
  if h : start ≤ stop ∧ IsBoundary text start ∧ IsBoundary text stop then
    .ok (text.extract ⟨⟨start⟩, h.2.1⟩ ⟨⟨stop⟩, h.2.2⟩)
  else .error ⟨start, stop⟩

/-- Where it is known what stands in front of a slice, and what behind it, so is the slice. -/
theorem slice_eq_ok {before middle after : List Char} (h : text.toList = before ++ middle ++ after) :
    slice text (byteLength before) (byteLength (before ++ middle)) = .ok (String.ofList middle) := by
  have hproper : byteLength before ≤ byteLength (before ++ middle) ∧
      IsBoundary text (byteLength before) ∧ IsBoundary text (byteLength (before ++ middle)) := by
    refine ⟨by simp, isBoundary_iff.2 ⟨before, middle ++ after, ?_, rfl⟩,
      isBoundary_iff.2 ⟨before ++ middle, after, h, rfl⟩⟩
    rw [h, List.append_assoc]
  have hexact : (Token.ofText (String.ofList middle) (byteLength before)).Exact text := by
    refine Token.exact_iff.2 ⟨rfl, String.ofList before, String.ofList after, ?_,
      (utf8ByteSize_ofList before).symm⟩
    show text = String.ofList before ++ String.ofList middle ++ String.ofList after
    rw [← String.ofList_append, ← String.ofList_append, ← h, String.ofList_toList]
  obtain ⟨-, start, stop, hstart, hstop, hvalue⟩ := hexact
  have hend : stop.offset.byteIdx = byteLength (before ++ middle) := by
    rw [hstop, byteLength_append, ← utf8ByteSize_ofList middle]
    rfl
  have hfirst : start = ⟨⟨byteLength before⟩, hproper.2.1⟩ :=
    String.Pos.ext (String.Pos.Raw.ext hstart)
  have hlast : stop = ⟨⟨byteLength (before ++ middle)⟩, hproper.2.2⟩ :=
    String.Pos.ext (String.Pos.Raw.ext hend)
  unfold slice
  rw [dif_pos hproper, ← hfirst, ← hlast, hvalue]
  rfl

/-- What is behind a boundary can be taken. -/
theorem slice_rest {before rest : List Char} (h : text.toList = before ++ rest) :
    slice text (byteLength before) text.utf8ByteSize = .ok (String.ofList rest) := by
  have hwhole : text.toList = before ++ rest ++ [] := by rw [h, List.append_nil]
  rw [← byteLength_toList, h]
  exact slice_eq_ok hwhole

/-- Two boundaries in order cut a text into three parts. -/
theorem exists_parts (hle : start ≤ stop) (hstart : IsBoundary text start)
    (hstop : IsBoundary text stop) :
    ∃ before middle after, text.toList = before ++ middle ++ after ∧ start = byteLength before ∧
      stop = byteLength (before ++ middle) := by
  obtain ⟨before, rest, htext, rfl⟩ := isBoundary_iff.1 hstart
  obtain ⟨front, after, hsame, rfl⟩ := isBoundary_iff.1 hstop
  have hfront : ∃ middle, front = before ++ middle := by
    rcases List.append_eq_append_iff.1 (htext.symm.trans hsame) with ⟨w, hw, -⟩ | ⟨w, hw, -⟩
    · exact ⟨w, hw⟩
    · -- the second part is not in front of the first, so nothing is between them
      have hzero : byteLength w = 0 := by
        rw [hw, byteLength_append] at hle
        omega
      exact ⟨[], by rw [hw, byteLength_eq_zero.1 hzero]; simp⟩
  obtain ⟨middle, rfl⟩ := hfront
  exact ⟨before, middle, after, hsame, rfl, rfl⟩

end Boundaries

/-! ## §2. The loop. -/

/-- A match in a text: where it starts and stops there, and what was captured. -/
structure Match where
  start : Nat
  stop : Nat
  info : MatchInfo
  deriving DecidableEq

/-- How far an extraction has come, and how it used the text. -/
structure Progress where
  /-- Where the last reported match ends. -/
  start : Nat := 0
  /-- Where the next search starts. -/
  position : Nat := 0
  /-- What was found, in order. -/
  drafts : List Draft := []
  /-- Where empty matches were passed over, in order. -/
  blanks : List Nat := []
  /-- Where searches started, in order. -/
  searches : List Nat := []
  /-- The ends of the slices that were taken, in order. -/
  slices : List (Nat × Nat) := []
  deriving DecidableEq

namespace Progress

variable (text : String) (mode : Mode) (e : Progress)

/-- The next search starts. -/
def searched : Progress := { e with searches := e.searches ++ [e.position] }

/-- Cuts a draft out of the text. -/
def cut (start stop : Nat) (info : Option MatchInfo) : Except BadSlice Progress := do
  let value ← slice text start stop
  return { e with
    drafts := e.drafts ++ [{ value, index := some start, offset := some (stop - start), matched := info }]
    slices := e.slices ++ [(start, stop)] }

/-- Cuts out what stands between the last match and a position, if gaps count and there is one. -/
def closeGap (stop : Nat) : Except BadSlice Progress :=
  if mode = .split ∧ e.start < stop then e.cut text e.start stop none else .ok e

/-- Reports a match and the gap in front of it; the next search starts behind the match. -/
def report (m : Match) : Except BadSlice Progress := do
  let e ← e.closeGap text mode m.start
  let e ← e.cut text m.start m.stop (some m.info)
  return { e with start := m.stop, position := m.stop }

/--
Passes over an empty match: the next search starts behind the character that follows it, or, if none does,
behind the end of the text.
-/
def passOver (m : Match) : Except BadSlice Progress := do
  let rest ← slice text m.stop text.utf8ByteSize
  return { e with
    position := m.stop + rest.toList.head?.elim 1 Char.utf8Size
    blanks := e.blanks ++ [m.start]
    slices := e.slices ++ [(m.stop, text.utf8ByteSize)] }

/-- Goes on behind a match. -/
def advance (m : Match) : Except BadSlice Progress :=
  if m.start = m.stop then e.passOver text m else e.report text mode m

end Progress

section Loop

variable (search : Nat → Option Match) (mode : Mode) (text : String)

/-- Searches until nothing more is found; answers nothing if that takes more than so many searches. -/
def loop : (limit : Nat) → Progress → Except BadSlice (Option Progress)
  | 0, e => .ok (if text.utf8ByteSize < e.position then some e else none)
  | limit + 1, e =>
      if text.utf8ByteSize < e.position then .ok (some e)
      else
        match search e.position with
        | none => .ok (some e.searched)
        | some m => (e.searched.advance text mode m).bind (loop limit)

/-- Cuts out the gap behind the last match, if nothing more is found. -/
def finish : Option Progress → Except BadSlice (Option Progress)
  | none => .ok none
  | some e => (e.closeGap text mode text.utf8ByteSize).map some

/-- The extraction of all matches of a text, and of the gaps if they count, with so many searches at most. -/
def extract (limit : Nat) : Except BadSlice (Option Progress) :=
  (loop search mode text limit {}).bind (finish mode text)

end Loop

/-! ## §3. What is in order. -/

/--
Searches of a text from its boundaries are answered, if at all, by matches at or behind the boundary that
stand between boundaries; what is answered from other positions does not matter.
-/
def StaysIn (text : String) (search : Nat → Option Match) : Prop :=
  ∀ p, IsBoundary text p → ∀ m, search p = some m →
    p ≤ m.start ∧ m.start ≤ m.stop ∧ IsBoundary text m.start ∧ IsBoundary text m.stop

namespace Progress

/-- The text was used in order. -/
structure Orderly (text : String) (e : Progress) : Prop where
  /-- Each search started further behind than the one before. -/
  increasing : e.searches.Pairwise (· < ·)
  /-- Searches started at boundaries, none behind the end. -/
  boundaries : ∀ p ∈ e.searches, IsBoundary text p
  /-- Slices were taken between boundaries in order. -/
  slices : ∀ s ∈ e.slices, s.1 ≤ s.2 ∧ IsBoundary text s.1 ∧ IsBoundary text s.2

/-- The next search may start: at a boundary behind all searches so far, or not at all. -/
structure Ready (text : String) (e : Progress) : Prop where
  orderly : e.Orderly text
  /-- The searches so far started in front of the next one. -/
  behind : ∀ p ∈ e.searches, p < e.position
  /-- The next search starts at a boundary, or there is none. -/
  position : IsBoundary text e.position ∨ e.position = text.utf8ByteSize + 1
  /-- The last match ends at a boundary. -/
  start : IsBoundary text e.start
  /-- The next search starts behind the last match. -/
  start_le : e.start ≤ e.position

end Progress

/-! ## §4. One match. -/

namespace Progress

variable {text : String} {mode : Mode} {e e' : Progress} {m : Match} {start stop : Nat}

/-- The progress with one more draft, cut out of the text at a position. -/
def withDraft (e : Progress) (start : Nat) (middle : List Char) (info : Option MatchInfo) : Progress :=
  { e with
    drafts := e.drafts ++ [{ draftAt start middle with matched := info }]
    slices := e.slices ++ [(start, start + byteLength middle)] }

/-- Where it is known what stands between two boundaries, so is the draft that is cut out. -/
theorem cut_eq_ok {before middle after : List Char} (h : text.toList = before ++ middle ++ after)
    (info : Option MatchInfo) :
    e.cut text (byteLength before) (byteLength (before ++ middle)) info
      = .ok (e.withDraft (byteLength before) middle info) := by
  unfold cut
  rw [slice_eq_ok h, byteLength_append, Nat.add_sub_cancel_left]
  rfl

/-- The gap behind the last match becomes a draft if gaps count and it is not empty. -/
theorem closeGap_eq_ok {front gap after : List Char} (h : text.toList = front ++ gap ++ after)
    (hstart : e.start = byteLength front) :
    e.closeGap text mode (byteLength (front ++ gap))
      = .ok (if mode = .split ∧ gap ≠ [] then e.withDraft e.start gap none else e) := by
  have hempty : e.start < byteLength (front ++ gap) ↔ gap ≠ [] := by
    rw [hstart, byteLength_append, Ne, ← byteLength_eq_zero]
    omega
  unfold closeGap
  by_cases hgap : mode = .split ∧ gap ≠ []
  · rw [if_pos hgap, if_pos ⟨hgap.1, hempty.2 hgap.2⟩, hstart]
    exact cut_eq_ok h none
  · rw [if_neg hgap, if_neg fun hlt => hgap ⟨hlt.1, hempty.1 hlt.2⟩]

/-- What stands behind an empty match decides how far the search moves. -/
theorem passOver_eq_ok {before rest : List Char} (h : text.toList = before ++ rest)
    (hstop : m.stop = byteLength before) :
    e.passOver text m = .ok
      { e with
        position := m.stop + rest.head?.elim 1 Char.utf8Size
        blanks := e.blanks ++ [m.start]
        slices := e.slices ++ [(m.stop, text.utf8ByteSize)] } := by
  unfold passOver
  rw [hstop, slice_rest h]
  show Except.ok _ = _
  rw [String.toList_ofList]

theorem Orderly.sliced (he : e.Orderly text) (hsearches : e'.searches = e.searches)
    (hslices : e'.slices = e.slices ++ [(start, stop)])
    (h : start ≤ stop ∧ IsBoundary text start ∧ IsBoundary text stop) : e'.Orderly text where
  increasing := hsearches ▸ he.increasing
  boundaries := hsearches ▸ he.boundaries
  slices := by
    intro s hs
    rw [hslices] at hs
    rcases List.mem_append.1 hs with hs | hs
    · exact he.slices s hs
    · rw [List.mem_singleton.1 hs]
      exact h

/-- Between boundaries in order a draft can be cut out. -/
theorem exists_cut (he : e.Orderly text) (info : Option MatchInfo)
    (h : start ≤ stop ∧ IsBoundary text start ∧ IsBoundary text stop) :
    ∃ e', e.cut text start stop info = .ok e' ∧ e'.Orderly text ∧ e'.searches = e.searches ∧
      e'.position = e.position := by
  obtain ⟨before, middle, after, htext, rfl, rfl⟩ := exists_parts h.1 h.2.1 h.2.2
  refine ⟨_, cut_eq_ok htext info, he.sliced rfl ?_ h, rfl, rfl⟩
  rw [byteLength_append]
  rfl

/-- So can the gap between the last match and a boundary behind it. -/
theorem exists_closeGap (mode : Mode) (he : e.Orderly text) (hstart : IsBoundary text e.start)
    (hle : e.start ≤ stop) (hstop : IsBoundary text stop) :
    ∃ e', e.closeGap text mode stop = .ok e' ∧ e'.Orderly text ∧ e'.searches = e.searches ∧
      e'.position = e.position := by
  unfold closeGap
  by_cases hgap : mode = .split ∧ e.start < stop
  · rw [if_pos hgap]
    exact exists_cut he none ⟨hle, hstart, hstop⟩
  · rw [if_neg hgap]
    exact ⟨e, rfl, he, rfl, rfl⟩

/-- Behind an empty match the next search starts at a boundary further behind, or not at all. -/
theorem exists_passOver (he : e.Orderly text) (hstop : IsBoundary text m.stop) :
    ∃ e', e.passOver text m = .ok e' ∧ e'.Orderly text ∧ e'.searches = e.searches ∧
      e'.start = e.start ∧ m.stop < e'.position ∧
      (IsBoundary text e'.position ∨ e'.position = text.utf8ByteSize + 1) := by
  obtain ⟨before, rest, htext, hsize⟩ := isBoundary_iff.1 hstop
  refine ⟨_, passOver_eq_ok htext hsize,
    he.sliced rfl rfl ⟨hstop.le, hstop, isBoundary_end text⟩, rfl, rfl, ?_⟩
  cases rest with
  | nil =>
      -- the match is at the end of the text, and the next position is behind it
      show m.stop < m.stop + 1 ∧ (IsBoundary text (m.stop + 1) ∨ m.stop + 1 = text.utf8ByteSize + 1)
      rw [← byteLength_toList, htext, List.append_nil, hsize]
      exact ⟨by omega, .inr rfl⟩
  | cons c more =>
      show m.stop < m.stop + c.utf8Size ∧ (IsBoundary text (m.stop + c.utf8Size) ∨ _)
      have hpos := c.utf8Size_pos
      refine ⟨by omega, .inl (isBoundary_iff.2 ⟨before ++ [c], more, by simp [htext], ?_⟩)⟩
      rw [hsize]
      simp

/-- Behind a match that is reported, the next search starts at its end. -/
theorem exists_report (mode : Mode) (he : e.Orderly text) (hstart : IsBoundary text e.start)
    (hle : e.start ≤ m.start)
    (hm : m.start ≤ m.stop ∧ IsBoundary text m.start ∧ IsBoundary text m.stop) :
    ∃ e', e.report text mode m = .ok e' ∧ e'.Orderly text ∧ e'.searches = e.searches ∧
      e'.start = m.stop ∧ e'.position = m.stop := by
  obtain ⟨e₁, hgap, he₁, hsame₁, -⟩ := exists_closeGap mode he hstart hle hm.2.1
  obtain ⟨e₂, hcut, he₂, hsame₂, -⟩ := exists_cut he₁ (some m.info) hm
  unfold report
  rw [hgap]
  show ∃ e', (e₁.cut text m.start m.stop (some m.info)).bind _ = .ok e' ∧ _
  rw [hcut]
  exact ⟨_, rfl, ⟨he₂.increasing, he₂.boundaries, he₂.slices⟩, hsame₂.trans hsame₁, rfl, rfl⟩

/-! ## §5. One round. -/

/-- A search may start where the next one is to start, unless that is behind the end. -/
theorem Ready.searched (he : e.Ready text) (hin : e.position ≤ text.utf8ByteSize) :
    IsBoundary text e.position ∧ e.searched.Orderly text := by
  have hposition : IsBoundary text e.position := he.position.resolve_right (by omega)
  refine ⟨hposition, ?_, ?_, he.orderly.slices⟩
  · refine List.pairwise_append.2 ⟨he.orderly.increasing, List.pairwise_singleton _ _, ?_⟩
    intro p hp q hq
    rw [List.mem_singleton.1 hq]
    exact he.behind p hp
  · intro p hp
    rcases List.mem_append.1 hp with hp | hp
    · exact he.orderly.boundaries p hp
    · rw [List.mem_singleton.1 hp]
      exact hposition

/-- After one round the next search starts further behind. -/
theorem Ready.step {search : Nat → Option Match} (hsearch : StaysIn text search) (mode : Mode)
    (he : e.Ready text) (hin : e.position ≤ text.utf8ByteSize) (hm : search e.position = some m) :
    ∃ e', e.searched.advance text mode m = .ok e' ∧ e'.Ready text ∧ e.position < e'.position := by
  obtain ⟨hposition, horderly⟩ := he.searched hin
  obtain ⟨hahead, hle, hfirst, hlast⟩ := hsearch e.position hposition m hm
  have hstart : e.start ≤ m.start := Nat.le_trans he.start_le hahead
  have hbehind : ∀ e' : Progress, e'.searches = e.searched.searches → e.position < e'.position →
      ∀ p ∈ e'.searches, p < e'.position := by
    intro e' hsame hfurther p hp
    rw [hsame] at hp
    rcases List.mem_append.1 hp with hp | hp
    · exact Nat.lt_trans (he.behind p hp) hfurther
    · rw [List.mem_singleton.1 hp]
      exact hfurther
  unfold advance
  by_cases hempty : m.start = m.stop
  · -- progress comes from the character that is passed over
    rw [if_pos hempty]
    obtain ⟨e', hrun, he', hsame, hkept, hfurther, hnext⟩ := exists_passOver horderly hlast
    have hpast : e.position < e'.position := by omega
    refine ⟨e', hrun, ⟨he', hbehind e' hsame hpast, hnext, ?_, ?_⟩, hpast⟩
    · rw [hkept]
      exact he.start
    · rw [hkept]
      show e.start ≤ e'.position
      omega
  · -- progress comes from the match
    rw [if_neg hempty]
    obtain ⟨e', hrun, he', hsame, hstop, hnext⟩ :=
      exists_report mode horderly he.start hstart ⟨hle, hfirst, hlast⟩
    have hpast : e.position < e'.position := by omega
    refine ⟨e', hrun, ⟨he', hbehind e' hsame hpast, .inl ?_, ?_, by omega⟩, hpast⟩
    · rw [hnext]
      exact hlast
    · rw [hstop]
      exact hlast

end Progress

/-! ## §6. All rounds. -/

section Rounds

variable {search : Nat → Option Match} {mode : Mode} {text : String} {e : Progress} {limit : Nat}

theorem loop_of_over (h : text.utf8ByteSize < e.position) :
    loop search mode text limit e = .ok (some e) := by
  cases limit with
  | zero =>
      unfold loop
      rw [if_pos h]
  | succ limit =>
      unfold loop
      rw [if_pos h]

theorem loop_of_none (h : e.position ≤ text.utf8ByteSize) (hm : search e.position = none) :
    loop search mode text (limit + 1) e = .ok (some e.searched) := by
  unfold loop
  rw [if_neg (Nat.not_lt.2 h), hm]

theorem loop_of_some {m : Match} (h : e.position ≤ text.utf8ByteSize)
    (hm : search e.position = some m) :
    loop search mode text (limit + 1) e
      = (e.searched.advance text mode m).bind (loop search mode text limit) := by
  rw [loop, if_neg (Nat.not_lt.2 h), hm]

/-- There are no more rounds than positions from the next search on to the end of the text. -/
theorem exists_loop (hsearch : StaysIn text search) (mode : Mode) (he : e.Ready text) :
    ∃ e', (∀ limit, text.utf8ByteSize + 1 - e.position ≤ limit →
        loop search mode text limit e = .ok (some e')) ∧
      e'.Orderly text ∧ IsBoundary text e'.start ∧
      (e'.position = text.utf8ByteSize + 1 ∨ e'.searches.getLast? = some e'.position) := by
  -- by the number of positions that are left
  induction hleft : text.utf8ByteSize + 1 - e.position using Nat.strongRecOn generalizing e with
  | ind left ih =>
    by_cases hover : text.utf8ByteSize < e.position
    · have hposition : e.position = text.utf8ByteSize + 1 := by
        apply he.position.resolve_left
        intro hboundary
        have hle := hboundary.le
        omega
      exact ⟨e, fun limit _ => loop_of_over hover, he.orderly, he.start, .inl hposition⟩
    · have hin : e.position ≤ text.utf8ByteSize := Nat.not_lt.1 hover
      cases hm : search e.position with
      | none =>
          refine ⟨e.searched, ?_, (he.searched hin).2, he.start, .inr (by simp [Progress.searched])⟩
          intro limit hlimit
          obtain ⟨n, rfl⟩ : ∃ n, limit = n + 1 := ⟨limit - 1, by omega⟩
          exact loop_of_none hin hm
      | some m =>
          obtain ⟨next, hnext, hready, hfurther⟩ := he.step hsearch mode hin hm
          obtain ⟨e', hrun, hend⟩ :=
            ih (text.utf8ByteSize + 1 - next.position) (by omega) hready rfl
          refine ⟨e', ?_, hend⟩
          intro limit hlimit
          obtain ⟨n, rfl⟩ : ∃ n, limit = n + 1 := ⟨limit - 1, by omega⟩
          rw [loop_of_some hin hm, hnext]
          exact hrun n (by omega)

/-- No search is made twice, so there are no more of them than positions. -/
theorem Progress.Orderly.length_searches_le (he : e.Orderly text) :
    e.searches.length ≤ text.utf8ByteSize + 1 := by
  have hnodup : List.Nodup e.searches := he.increasing.imp Nat.ne_of_lt
  have hsubset : e.searches ⊆ List.range (text.utf8ByteSize + 1) := by
    intro p hp
    have hle := (he.boundaries p hp).le
    exact List.mem_range.2 (by omega)
  have hlength := (List.Nodup.subperm hnodup hsubset).length_le
  rw [List.length_range] at hlength
  exact hlength

/-- The extraction ends, with the text used in order, and one search for each position at most. -/
theorem exists_extract (hsearch : StaysIn text search) (mode : Mode) :
    ∃ e, (∀ limit, text.utf8ByteSize < limit → extract search mode text limit = .ok (some e)) ∧
      e.Orderly text ∧
      (e.position = text.utf8ByteSize + 1 ∨ e.searches.getLast? = some e.position) := by
  have hready : ({} : Progress).Ready text :=
    { orderly := ⟨.nil, List.forall_mem_nil _, List.forall_mem_nil _⟩
      behind := List.forall_mem_nil _
      position := .inl (isBoundary_zero text)
      start := isBoundary_zero text
      start_le := Nat.le_refl 0 }
  obtain ⟨e, hloop, horderly, hstart, hend⟩ := exists_loop hsearch mode hready
  obtain ⟨e', hgap, horderly', hsame, hkept⟩ :=
    Progress.exists_closeGap mode horderly hstart hstart.le (isBoundary_end text)
  refine ⟨e', ?_, horderly', ?_⟩
  · intro limit hlimit
    unfold extract
    rw [hloop limit hlimit]
    show (e.closeGap text mode text.utf8ByteSize).map some = _
    rw [hgap]
    rfl
  · rw [hkept, hsame]
    exact hend

-- a match that ends inside a character
example : extract (fun _ => some ⟨0, 2, ⟨0, [], .empty⟩⟩) .matches "aé" 4 = .error ⟨0, 2⟩ := by
  decide +kernel

-- the same match from every position: the search does not get behind it
example : extract (fun _ => some ⟨0, 1, ⟨0, [], .empty⟩⟩) .matches "aé" 4 = .ok none := by
  decide +kernel

end Rounds

end TokenSpan.Extraction
