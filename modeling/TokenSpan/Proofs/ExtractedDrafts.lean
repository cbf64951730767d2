/-
  TokenSpan.Proofs.ExtractedDrafts
  ────────────────────────────────
  Extraction with a regular expression.

  `Extraction.extract` addresses the text by byte positions and leaves open what answers its
  searches; `Finding.drafts` goes through the characters of the text.  Where a regular
  expression answers, from each boundary in view of the character in front of it, both search
  the same rests of the text in the same order, pass over the same empty matches, and find the
  same drafts.

  Main results:
  * `staysIn_searchFor` — a regular expression finds matches between boundaries;
  * `exists_loop_searchFor` — the loop over positions follows the steps through the characters;
  * `extraction_ends_between_characters` — extractions end and take no slice that is none.
-/
import TokenSpan.Proofs.Extraction

namespace TokenSpan.Extraction

open TokenSpan.Regex (Flags Captures)
open TokenSpan.Finding (Mode Segment Step draftAt drafts events layout matchInfo steps)

/-! ## §1. What answers the searches. -/

section Search

variable [Regex.Engine] {flags : Flags} (r : Regex flags)

/-- What an expression finds behind a position, as a match of the whole text. -/
def matchBehind (p : Nat) (c : Captures) : Match where
  start := p + byteLength c.skipped
  stop := p + byteLength c.skipped + byteLength c.matched
  info := matchInfo r (p + byteLength c.skipped) c

/-- The search for an expression in a text from a byte position on; assertions see what is in front of it. -/
def searchFor (text : String) (p : Nat) : Option Match := do
  let before ← (slice text 0 p).toOption
  let rest ← (slice text p text.utf8ByteSize).toOption
  (r.capturesFrom? before.toList.getLast? rest.toList).map (matchBehind r p)

/-- From a boundary, what stands behind it is searched. -/
theorem searchFor_eq {text : String} {before rest : List Char} (h : text.toList = before ++ rest) :
    searchFor r text (byteLength before)
      = (r.capturesFrom? before.getLast? rest).map (matchBehind r (byteLength before)) := by
  have hwhole : text.toList = [] ++ before ++ rest := h
  have hbefore : slice text 0 (byteLength before) = .ok (String.ofList before) := slice_eq_ok hwhole
  unfold searchFor
  rw [hbefore, slice_rest h]
  show (r.capturesFrom? (String.ofList before).toList.getLast? (String.ofList rest).toList).map _ = _
  rw [String.toList_ofList, String.toList_ofList]

/-- An expression finds matches between boundaries, at or behind the one where the search starts. -/
theorem staysIn_searchFor (text : String) : StaysIn text (searchFor r text) := by
  intro p hp m hm
  obtain ⟨before, rest, htext, rfl⟩ := isBoundary_iff.1 hp
  rw [searchFor_eq r htext] at hm
  obtain ⟨c, hc, rfl⟩ := Option.map_eq_some_iff.1 hm
  have hparts := Regex.capturesFrom?_append hc
  have hstart : text.toList = (before ++ c.skipped) ++ (c.matched ++ c.after) := by
    rw [htext, ← hparts]
    simp
  have hstop : text.toList = (before ++ c.skipped ++ c.matched) ++ c.after := by
    rw [htext, ← hparts]
    simp
  refine ⟨Nat.le_add_right _ _, Nat.le_add_right _ _, isBoundary_iff.2 ⟨_, _, hstart, ?_⟩,
    isBoundary_iff.2 ⟨_, _, hstop, ?_⟩⟩
  · rw [byteLength_append]
    rfl
  · rw [byteLength_append, byteLength_append]
    rfl

end Search

/-! ## §2. What a step adds. -/

/-- Where the search of a step starts. -/
def stepPosition : Step → Nat
  | .miss position _ => position
  | .blank position _ _ => position
  | .hit position _ => position

/-- The segments of the rest of a text, the text between it and the last match counted in. -/
def segmentsLeft (start : Nat) (lag : List Char) (ss : List Step) : List Segment :=
  .gap start (lag ++ (layout ss).1) :: (layout ss).2

theorem segmentsLeft_miss (start : Nat) (lag rest : List Char) (position : Nat) :
    segmentsLeft start lag [.miss position rest] = [.gap start (lag ++ rest)] := by
  simp [segmentsLeft, layout]

theorem segmentsLeft_blank (start : Nat) (lag : List Char) (position : Nat) (skipped : List Char)
    (passed : Option Char) (ss : List Step) :
    segmentsLeft start lag (.blank position skipped passed :: ss)
      = segmentsLeft start (lag ++ skipped ++ passed.toList) ss := by
  simp [segmentsLeft, layout]

theorem segmentsLeft_hit (start : Nat) (lag : List Char) (position : Nat) (c : Captures)
    (ss : List Step) :
    segmentsLeft start lag (.hit position c :: ss)
      = [.gap start (lag ++ c.skipped), .hit (position + byteLength c.skipped) c] ++
          segmentsLeft (position + byteLength c.skipped + byteLength c.matched) [] ss :=
  rfl

section Steps

variable [Regex.Engine] {flags : Flags} (r : Regex flags) (mode : Mode)

/-- From one progress to another one, the drafts of segments and the records of steps were added. -/
structure Adds (segments : List Segment) (ss : List Step) (e e' : Progress) : Prop where
  drafts : e'.drafts = e.drafts ++ segments.filterMap (Segment.draft? r mode)
  searches : e'.searches = e.searches ++ ss.map stepPosition
  events : e'.blanks.map (.emptyMatch · r.pattern)
    = e.blanks.map (.emptyMatch · r.pattern) ++ ss.filterMap (Step.event? r.pattern)

variable {r mode} in
theorem Adds.trans {segments more : List Segment} {ss later : List Step} {e e₁ e₂ : Progress}
    (h₁ : Adds r mode segments ss e e₁) (h₂ : Adds r mode more later e₁ e₂) :
    Adds r mode (segments ++ more) (ss ++ later) e e₂ where
  drafts := by rw [h₂.drafts, h₁.drafts, List.append_assoc, List.filterMap_append]
  searches := by rw [h₂.searches, h₁.searches, List.append_assoc, List.map_append]
  events := by rw [h₂.events, h₁.events, List.append_assoc, List.filterMap_append]

variable {text : String} {e : Progress} {front lag rest after : List Char} {position : Nat}
  {c : Captures}

/-- A search is recorded with its step; that is all, unless an empty match was passed over. -/
theorem adds_searched {s : Step} (hposition : stepPosition s = e.position)
    (hevent : s.event? r.pattern = none) : Adds r mode [] [s] e e.searched := by
  refine ⟨(List.append_nil _).symm, ?_, ?_⟩
  · show e.searches ++ [e.position] = e.searches ++ [stepPosition s]
    rw [hposition]
  · rw [List.filterMap_cons_none hevent]
    exact (List.append_nil _).symm

/-- A gap becomes a draft if gaps count and it is not empty. -/
theorem adds_gap (e : Progress) (start : Nat) (gap : List Char) :
    Adds r mode [.gap start gap] []
      e (if mode = .split ∧ gap ≠ [] then e.withDraft start gap none else e) := by
  by_cases hgap : mode = .split ∧ gap ≠ []
  · have hdraft : Segment.draft? r mode (.gap start gap) = some (draftAt start gap) := if_pos hgap
    rw [if_pos hgap]
    refine ⟨?_, (List.append_nil _).symm, (List.append_nil _).symm⟩
    rw [List.filterMap_cons_some hdraft]
    rfl
  · have hdraft : Segment.draft? r mode (.gap start gap) = none := if_neg hgap
    rw [if_neg hgap]
    refine ⟨?_, (List.append_nil _).symm, (List.append_nil _).symm⟩
    rw [List.filterMap_cons_none hdraft]
    exact (List.append_nil _).symm

/-- A match becomes a draft with what was captured. -/
theorem adds_hit (e : Progress) (start : Nat) (c : Captures) :
    Adds r mode [.hit start c] [] e (e.withDraft start c.matched (some (matchInfo r start c))) :=
  ⟨rfl, (List.append_nil _).symm, (List.append_nil _).symm⟩

/-- What is left behind the last match is cut out at the end. -/
theorem exists_finish {gap : List Char} (htext : text.toList = front ++ gap)
    (hstart : e.start = byteLength front) :
    ∃ e', finish mode text (some e) = .ok (some e') ∧ Adds r mode [.gap e.start gap] [] e e' := by
  have hwhole : text.toList = front ++ gap ++ [] := by rw [htext, List.append_nil]
  refine ⟨_, ?_, adds_gap r mode e e.start gap⟩
  show (e.closeGap text mode text.utf8ByteSize).map some = _
  rw [← byteLength_toList, htext, Progress.closeGap_eq_ok hwhole hstart]
  rfl

/-- After an empty match the search moves over it and the character behind it. -/
theorem exists_advance_blank (htext : text.toList = front ++ (c.skipped ++ after))
    (hposition : position = byteLength front) (he : e.position = position) (hm : c.matched = []) :
    ∃ e', e.searched.advance text mode (matchBehind r position c) = .ok e' ∧
      Adds r mode [] [.blank position c.skipped after.head?] e e' ∧ e'.start = e.start ∧
      e'.position = position + byteLength c.skipped + after.head?.elim 1 Char.utf8Size := by
  have hempty : (matchBehind r position c).start = (matchBehind r position c).stop := by
    show position + byteLength c.skipped = position + byteLength c.skipped + byteLength c.matched
    rw [hm]
    rfl
  have hparts : text.toList = (front ++ c.skipped) ++ after := by rw [htext, List.append_assoc]
  have hstop : (matchBehind r position c).stop = byteLength (front ++ c.skipped) := by
    rw [← hempty, byteLength_append, ← hposition]
    rfl
  unfold Progress.advance
  rw [if_pos hempty, Progress.passOver_eq_ok hparts hstop]
  refine ⟨_, rfl, ⟨(List.append_nil _).symm, ?_, ?_⟩, rfl, ?_⟩
  · show e.searches ++ [e.position] = e.searches ++ [position]
    rw [he]
  · show (e.blanks ++ [position + byteLength c.skipped]).map _ = _
    rw [List.map_append]
    rfl
  · rw [← hempty]
    rfl

/-- After a match that is reported, with the gap in front of it, the search moves behind it. -/
theorem exists_advance_hit (htext : text.toList = front ++ lag ++ (c.skipped ++ c.matched ++ after))
    (hstart : e.start = byteLength front) (hposition : position = byteLength (front ++ lag))
    (he : e.position = position) (hm : c.matched ≠ []) :
    ∃ e', e.searched.advance text mode (matchBehind r position c) = .ok e' ∧
      Adds r mode [.gap e.start (lag ++ c.skipped), .hit (position + byteLength c.skipped) c]
        [.hit position c] e e' ∧
      e'.start = position + byteLength c.skipped + byteLength c.matched ∧
      e'.position = position + byteLength c.skipped + byteLength c.matched := by
  have hsolid : (matchBehind r position c).start ≠ (matchBehind r position c).stop := by
    have hpositive : byteLength c.matched ≠ 0 := fun hzero => hm (byteLength_eq_zero.1 hzero)
    show position + byteLength c.skipped ≠ position + byteLength c.skipped + byteLength c.matched
    omega
  have hgap : text.toList = front ++ (lag ++ c.skipped) ++ (c.matched ++ after) := by
    rw [htext]
    simp
  have hparts : text.toList = (front ++ (lag ++ c.skipped)) ++ c.matched ++ after := by
    rw [htext]
    simp
  have hfirst : (matchBehind r position c).start = byteLength (front ++ (lag ++ c.skipped)) := by
    show position + byteLength c.skipped = _
    rw [hposition, ← List.append_assoc, ← byteLength_append]
  have hlast : (matchBehind r position c).stop
      = byteLength (front ++ (lag ++ c.skipped) ++ c.matched) := by
    rw [byteLength_append, ← hfirst]
    rfl
  let closed : Progress := if mode = .split ∧ lag ++ c.skipped ≠ [] then
    e.searched.withDraft e.start (lag ++ c.skipped) none else e.searched
  have hclose : e.searched.closeGap text mode (matchBehind r position c).start = .ok closed := by
    rw [hfirst]
    exact Progress.closeGap_eq_ok hgap hstart
  have hcut := Progress.cut_eq_ok (e := closed) hparts (some (matchBehind r position c).info)
  rw [← hfirst, ← hlast] at hcut
  have hadds := (adds_searched r mode (s := .hit position c) he.symm rfl).trans
    ((adds_gap r mode e.searched e.start (lag ++ c.skipped)).trans
      (adds_hit r mode closed (position + byteLength c.skipped) c))
  unfold Progress.advance
  rw [if_neg hsolid]
  unfold Progress.report
  rw [hclose]
  show ∃ e', (closed.cut text _ _ _).bind _ = .ok e' ∧ _
  rw [hcut]
  exact ⟨_, rfl, ⟨hadds.drafts, hadds.searches, hadds.events⟩, rfl, rfl⟩

/-! ## §3. The loop and the steps. -/

section Round

variable {prev : Option Char} {limit : Nat} (htext : text.toList = front ++ rest)
  (hprev : prev = front.getLast?) (hposition : position = byteLength front) (he : e.position = position)

include htext hprev hposition he

/-- From the boundary where it stands, a search finds what the expression finds in the rest. -/
theorem searchFor_here :
    e.position ≤ text.utf8ByteSize ∧
      searchFor r text e.position = (r.capturesFrom? prev rest).map (matchBehind r position) := by
  constructor
  · rw [he, ← byteLength_toList, htext, hposition, byteLength_append]
    omega
  · rw [he, hprev, hposition]
    exact searchFor_eq r htext

theorem loop_of_miss (h : r.capturesFrom? prev rest = none) :
    loop (searchFor r text) mode text (limit + 1) e = .ok (some e.searched) := by
  obtain ⟨hin, hsearch⟩ := searchFor_here r htext hprev hposition he
  rw [h] at hsearch
  exact loop_of_none hin hsearch

theorem loop_of_captures (h : r.capturesFrom? prev rest = some c) :
    loop (searchFor r text) mode text (limit + 1) e
      = (e.searched.advance text mode (matchBehind r position c)).bind
          (loop (searchFor r text) mode text limit) := by
  obtain ⟨hin, hsearch⟩ := searchFor_here r htext hprev hposition he
  rw [h] at hsearch
  exact loop_of_some hin hsearch

/-- One round over an empty match. -/
theorem exists_round_blank (h : r.capturesFrom? prev rest = some c) (hm : c.matched = []) :
    ∃ e', loop (searchFor r text) mode text (limit + 1) e = loop (searchFor r text) mode text limit e' ∧
      Adds r mode [] [.blank position c.skipped c.after.head?] e e' ∧ e'.start = e.start ∧
      e'.position = position + byteLength c.skipped + c.after.head?.elim 1 Char.utf8Size := by
  have hparts := Regex.capturesFrom?_append h
  rw [hm, List.append_nil] at hparts
  have hrest : text.toList = front ++ (c.skipped ++ c.after) := by rw [hparts, htext]
  obtain ⟨e', hround, hadds⟩ := exists_advance_blank r mode hrest hposition he hm
  refine ⟨e', ?_, hadds⟩
  rw [loop_of_captures r mode htext hprev hposition he h, hround]
  rfl

end Round

/-- One round with a match that is reported. -/
theorem exists_round_hit {prev : Option Char} {limit : Nat}
    (htext : text.toList = front ++ lag ++ rest) (hprev : prev = (front ++ lag).getLast?)
    (hposition : position = byteLength (front ++ lag)) (hstart : e.start = byteLength front)
    (he : e.position = position) (h : r.capturesFrom? prev rest = some c) (hm : c.matched ≠ []) :
    ∃ e', loop (searchFor r text) mode text (limit + 1) e = loop (searchFor r text) mode text limit e' ∧
      Adds r mode [.gap e.start (lag ++ c.skipped), .hit (position + byteLength c.skipped) c]
        [.hit position c] e e' ∧
      e'.start = position + byteLength c.skipped + byteLength c.matched ∧
      e'.position = position + byteLength c.skipped + byteLength c.matched := by
  have hrest : text.toList = front ++ lag ++ (c.skipped ++ c.matched ++ c.after) := by
    rw [Regex.capturesFrom?_append h, htext]
  obtain ⟨e', hround, hadds⟩ := exists_advance_hit r mode hrest hstart hposition he hm
  refine ⟨e', ?_, hadds⟩
  rw [loop_of_captures r mode htext hprev hposition he h, hround]
  rfl

/-- The loop over positions follows the steps of the search from the same position. -/
theorem exists_loop_searchFor {prev : Option Char} {limit : Nat}
    (htext : text.toList = front ++ lag ++ rest) (hprev : prev = (front ++ lag).getLast?)
    (hposition : position = byteLength (front ++ lag)) (hstart : e.start = byteLength front)
    (he : e.position = position) (hlimit : (steps r prev position rest).length ≤ limit) :
    ∃ e', (loop (searchFor r text) mode text limit e).bind (finish mode text) = .ok (some e') ∧
      Adds r mode (segmentsLeft e.start lag (steps r prev position rest))
        (steps r prev position rest) e e' := by
  -- `lag` is what the search has moved over since the last match; it goes into the next gap
  fun_induction steps r prev position rest generalizing front lag e limit with
  | case1 prev position rest h =>
      obtain ⟨n, rfl⟩ := Nat.exists_eq_add_of_le' hlimit
      have hgap : text.toList = front ++ (lag ++ rest) := by rw [htext, List.append_assoc]
      have hrecorded : e.searched.start = byteLength front := hstart
      obtain ⟨e', hfinish, hadds⟩ := exists_finish r mode hgap hrecorded
      have hmiss := adds_searched r mode (s := .miss position rest) he.symm rfl
      rw [List.length_singleton, loop_of_miss r mode htext hprev hposition he h, segmentsLeft_miss]
      exact ⟨e', hfinish, hmiss.trans hadds⟩
  | case2 prev position rest c h hm ha =>
      obtain ⟨n, rfl⟩ := Nat.exists_eq_add_of_le' hlimit
      have hparts := Regex.capturesFrom?_append h
      rw [hm, ha, List.append_nil, List.append_nil] at hparts
      have hgap : text.toList = front ++ (lag ++ c.skipped) := by
        rw [hparts, htext, List.append_assoc]
      obtain ⟨e₁, hround, hadds, hkept, hnext⟩ :=
        exists_round_blank r mode htext hprev hposition he h hm
      rw [ha] at hadds hnext
      have hover : text.utf8ByteSize < e₁.position := by
        rw [hnext, ← byteLength_toList, htext, ← hparts, byteLength_append, ← hposition]
        exact Nat.lt_succ_self _
      obtain ⟨e₂, hfinish, hlast⟩ := exists_finish r mode hgap (hkept.trans hstart)
      rw [List.length_singleton, hround, loop_of_over hover]
      refine ⟨e₂, hfinish, ?_⟩
      rw [segmentsLeft_blank, ← hkept]
      simpa [segmentsLeft, layout] using hadds.trans hlast
  | case3 prev position rest c h d after hm ha _ ih =>
      obtain ⟨n, rfl⟩ := Nat.exists_eq_add_of_le' hlimit
      have hparts := Regex.capturesFrom?_append h
      rw [hm, ha, List.append_nil] at hparts
      obtain ⟨e₁, hround, hadds, hkept, hnext⟩ :=
        exists_round_blank r mode htext hprev hposition he h hm
      rw [ha] at hadds hnext
      have hfurther : text.toList = front ++ (lag ++ c.skipped ++ [d]) ++ after := by
        rw [htext, ← hparts]
        simp
      have hsize : position + byteLength c.skipped + d.utf8Size
          = byteLength (front ++ (lag ++ c.skipped ++ [d])) := by
        rw [hposition]
        simp
        omega
      obtain ⟨e₂, hrun, hmore⟩ := ih hfurther (by simp) hsize (hkept.trans hstart) hnext
        (Nat.le_add_left _ n)
      rw [List.length_cons, ← Nat.add_assoc, hround]
      refine ⟨e₂, hrun, ?_⟩
      rw [segmentsLeft_blank, ← hkept]
      exact hadds.trans hmore
  | case4 prev position rest c h m more hm _ ih =>
      obtain ⟨n, rfl⟩ := Nat.exists_eq_add_of_le' hlimit
      have hsolid : c.matched ≠ [] := by
        rw [hm]
        exact List.cons_ne_nil m more
      obtain ⟨e₁, hround, hadds, hstop, hnext⟩ :=
        exists_round_hit r mode htext hprev hposition hstart he h hsolid
      -- the next gap starts behind the match
      have hfurther : text.toList = (front ++ lag ++ c.skipped ++ c.matched) ++ [] ++ c.after := by
        rw [htext, ← Regex.capturesFrom?_append h]
        simp
      have hlast : (m :: more).getLast? = (front ++ lag ++ c.skipped ++ c.matched ++ []).getLast? := by
        rw [List.append_nil, hm, List.getLast?_append_of_ne_nil _ (List.cons_ne_nil m more)]
      have hsize : position + byteLength c.skipped + byteLength c.matched
          = byteLength (front ++ lag ++ c.skipped ++ c.matched) := by
        rw [byteLength_append, byteLength_append, ← hposition]
      have hwhole : position + byteLength c.skipped + byteLength c.matched
          = byteLength (front ++ lag ++ c.skipped ++ c.matched ++ []) := by
        rw [List.append_nil, hsize]
      obtain ⟨e₂, hrun, hmore⟩ := ih hfurther hlast hwhole (hstop.trans hsize) hnext
        (Nat.le_add_left _ n)
      rw [List.length_cons, ← Nat.add_assoc, hround]
      refine ⟨e₂, hrun, ?_⟩
      rw [hstop] at hmore
      rw [segmentsLeft_hit]
      exact hadds.trans hmore

end Steps

/-! ## §4. Extractions. -/

section Extractions

variable [Regex.Engine]

/-- With an expression, the extraction finds its drafts, in as many searches as it takes steps. -/
theorem exists_extract_searchFor {flags : Flags} (r : Regex flags) (mode : Mode) (text : String) :
    ∃ e, (∀ limit, text.utf8ByteSize < limit →
        extract (searchFor r text) mode text limit = .ok (some e)) ∧
      e.drafts = drafts r mode text ∧
      e.searches = (steps r none 0 text.toList).map stepPosition ∧
      e.blanks.map (.emptyMatch · r.pattern) = events r text := by
  obtain ⟨e, hextract, -, -⟩ := exists_extract (staysIn_searchFor r text) mode
  have htext : text.toList = [] ++ [] ++ text.toList := rfl
  have hprev : none = ([] ++ [] : List Char).getLast? := rfl
  have hposition : 0 = byteLength ([] ++ []) := rfl
  have hstart : ({} : Progress).start = byteLength [] := rfl
  -- with enough searches for both, the loop does what the steps do
  let limit := max (text.utf8ByteSize + 1) (steps r none 0 text.toList).length
  obtain ⟨e', hrun, hadds⟩ := exists_loop_searchFor r mode htext hprev hposition hstart rfl
    (Nat.le_max_right (text.utf8ByteSize + 1) _)
  have hsame : some e = some e' := Except.ok.inj ((hextract limit (Nat.le_max_left _ _)).symm.trans hrun)
  rw [Option.some.inj hsame] at hextract
  exact ⟨e', hextract, hadds.drafts, hadds.searches, hadds.events⟩

/--
The extraction of matches from a text ends, after one search for each position of the text at most, whatever
answers the searches, as long as matches are at or behind the boundary where the search started and stand
between boundaries.  The searches start at boundaries, each one further behind; the last one finds nothing, or
the extraction has come to the position behind the end.  All slices are taken between boundaries in order.
A regular expression answers so, and the extraction then finds its drafts and records its events.
-/
theorem extraction_ends_between_characters (text : String) (mode : Mode) :
    (∀ search : Nat → Option Match, StaysIn text search →
      ∃ e, (∀ limit, text.utf8ByteSize + 1 ≤ limit →
          extract search mode text limit = .ok (some e)) ∧
        e.searches.length ≤ text.utf8ByteSize + 1 ∧ e.Orderly text ∧
        (e.position = text.utf8ByteSize + 1 ∨ e.searches.getLast? = some e.position)) ∧
    ∀ (flags : Flags) (r : Regex flags), StaysIn text (searchFor r text) ∧
      ∃ e, (∀ limit, text.utf8ByteSize + 1 ≤ limit →
          extract (searchFor r text) mode text limit = .ok (some e)) ∧
        e.drafts = drafts r mode text ∧ e.blanks.map (.emptyMatch · r.pattern) = events r text ∧
        e.searches = (steps r none 0 text.toList).map stepPosition := by
  constructor
  · intro search hsearch
    obtain ⟨e, hextract, horderly, hend⟩ := exists_extract hsearch mode
    exact ⟨e, hextract, horderly.length_searches_le, horderly, hend⟩
  · intro flags r
    obtain ⟨e, hextract, hdrafts, hsearches, hevents⟩ := exists_extract_searchFor r mode text
    exact ⟨staysIn_searchFor r text, e, hextract, hdrafts, hevents, hsearches⟩

end Extractions

/-- Empty matches at all positions: three searches come to the position behind the end. -/
theorem extraction_of_empty_matches :
    let search : Nat → Option Match := fun p => some ⟨p, p, ⟨p, [some ""], .empty⟩⟩
    StaysIn "aé" search ∧ extract search .split "aé" 2 = .ok none ∧
      ∃ e, (∀ limit, 4 ≤ limit → extract search .split "aé" limit = .ok (some e)) ∧
        e.drafts = [draftAt 0 ['a', 'é']] ∧ e.searches = [0, 1, 3] ∧ e.position = 4 ∧
        e.slices = [(0, 3), (1, 3), (3, 3), (0, 3)] := by
  intro search
  have hsearch : StaysIn "aé" search := by
    intro p hp m hm
    obtain rfl := Option.some.inj hm
    exact ⟨Nat.le_refl p, Nat.le_refl p, hp, hp⟩
  obtain ⟨e, hextract, -⟩ := (extraction_ends_between_characters "aé" .split).1 search hsearch
  have hrun : extract search .split "aé" 4 = .ok (some
      { start := 0
        position := 4
        drafts := [draftAt 0 ['a', 'é']]
        blanks := [0, 1, 3]
        searches := [0, 1, 3]
        slices := [(0, 3), (1, 3), (3, 3), (0, 3)] }) := by
    decide +kernel
  have hsame := Option.some.inj (Except.ok.inj ((hextract 4 (Nat.le_refl 4)).symm.trans hrun))
  refine ⟨hsearch, by decide +kernel, e, hextract, ?_⟩
  rw [hsame]
  exact ⟨rfl, rfl, rfl, rfl⟩

end TokenSpan.Extraction
