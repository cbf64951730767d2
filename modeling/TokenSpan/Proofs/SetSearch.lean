/-
  TokenSpan.Proofs.SetSearch
  ──────────────────────────
  Searching for the characters of a set.

  A node that asks for one or more characters of a set has one thread that waits for the
  next of them, so the match that starts at a place ends where the characters of the set
  do.  A node that asks for one character of a set is done behind it.  Both take a character
  that may begin a stretch and then all that may follow, and the search for such a
  node finds the stretches of a text.

  Main results:
  * `plus_takes`, `set_takes` — the match of a set at a place, repeated or not;
  * `Node.Takes.find` — the leftmost match starts at the first character that may begin one;
  * `Program.findsStretches` — a program that is such a node searches for stretches;
  * `found_eq_stretches` — all that such a search finds in a text are its stretches, in order.
-/
import TokenSpan.Proofs.Stretches
import TokenSpan.Regex.Standard

namespace TokenSpan

open TokenSpan.Regex (Flags)

/-! ## §1. Matches at a place. -/

namespace Regex

/-- At each place the node matches a character that begins a stretch and all that follow it, and no group. -/
def Node.Takes (n : Node) (begins follows : Char → Bool) : Prop :=
  (∀ prev, n.matchHere prev [] = none) ∧
    ∀ prev c rest, n.matchHere prev (c :: rest)
      = if begins c then some ((rest.takeWhile follows).length + 1, []) else none

/-- The thread that takes one more character of a repeated set. -/
def againOf (s : CharSet) : Waiting := ⟨s, [.again true (.set s)], []⟩

/-- After a round the thread waits for another character, and without one it is done. -/
theorem resume_again (here : Place) (s : CharSet) :
    (resume here [.again true (.set s)] [] {}).waiting = [againOf s] ∧
      (resume here [.again true (.set s)] [] {}).done = some [] := by
  simp [resume, Frontier.enter, Frontier.wait, Frontier.finish, Node.explore, againOf]

theorem advance_nil (position : Nat) (best : Option (Nat × Marks)) (text : List Char) :
    advance [] position best text = best := by
  cases text <;> rfl

/-- A thread that waits for a character of the set is dropped if another one comes. -/
theorem advance_of_neg {s : CharSet} {c : Char} (hc : s.has c = false) (rest : List Task)
    (position : Nat) (best : Option (Nat × Marks)) (text : List Char) :
    advance [⟨s, rest, []⟩] position best (c :: text) = best := by
  simp only [advance, step, List.isEmpty_cons, List.foldl_cons, List.foldl_nil, hc,
    Bool.false_eq_true, if_false, List.reverse_nil]
  exact advance_nil _ _ _

theorem advance_again_of_pos {s : CharSet} {c : Char} (hc : s.has c) (position : Nat)
    (best : Option (Nat × Marks)) (text : List Char) :
    advance [againOf s] position best (c :: text)
      = advance [againOf s] (position + 1) (some (position + 1, [])) text := by
  have hresume := resume_again ⟨some c, text.head?, position + 1⟩ s
  have hset : (againOf s).set = s := rfl
  have hrest : (againOf s).rest = [.again true (.set s)] := rfl
  have hmarks : (againOf s).marks = [] := rfl
  simp only [advance, step, List.isEmpty_cons, List.foldl_cons, List.foldl_nil, hset, hrest, hmarks,
    hc, Bool.false_eq_true, if_false, if_true, hresume.1, hresume.2, List.reverse_singleton]

/-- Behind a character of the set the thread takes all that come after it. -/
theorem advance_again (s : CharSet) (position : Nat) (text : List Char) :
    advance [againOf s] position (some (position, [])) text
      = some (position + (text.takeWhile s.has).length, []) := by
  induction text generalizing position with
  | nil => rfl
  | cons c rest ih =>
      by_cases hc : s.has c
      · rw [advance_again_of_pos hc, ih, List.takeWhile_cons_of_pos hc, List.length_cons]
        congr 2
        omega
      · have hno : s.has c = false := by simpa using hc
        rw [List.takeWhile_cons_of_neg hc]
        exact advance_of_neg hno _ _ _ _

theorem plus_takes (s : CharSet) : (Node.plus true (.set s)).Takes s.has s.has := by
  have hstart : ∀ here : Place,
      (resume here [.run (.plus true (.set s))] [] {}).waiting = [againOf s] ∧
        (resume here [.run (.plus true (.set s))] [] {}).done = none := by
    intro here
    simp [resume, Frontier.enter, Frontier.wait, Node.explore, againOf]
  have hmatch : ∀ prev text, (Node.plus true (.set s)).matchHere prev text
      = advance [againOf s] 0 none text := by
    intro prev text
    unfold Node.matchHere
    simp only [(hstart _).1, (hstart _).2, List.reverse_singleton, Option.map_none]
  refine ⟨fun prev => by rw [hmatch]; rfl, fun prev c rest => ?_⟩
  rw [hmatch]
  by_cases hc : s.has c
  · rw [if_pos hc, advance_again_of_pos hc, advance_again, Nat.zero_add, Nat.add_comm]
  · have hno : s.has c = false := by simpa using hc
    rw [if_neg hc]
    exact advance_of_neg hno _ _ _ _

theorem set_takes (s : CharSet) : (Node.set s).Takes s.has fun _ => false := by
  have hstart : ∀ here : Place, (resume here [.run (.set s)] [] {}).waiting = [⟨s, [], []⟩] ∧
      (resume here [.run (.set s)] [] {}).done = none := by
    intro here
    simp [resume, Frontier.enter, Frontier.wait, Node.explore]
  have hmatch : ∀ prev text, (Node.set s).matchHere prev text = advance [⟨s, [], []⟩] 0 none text := by
    intro prev text
    unfold Node.matchHere
    simp only [(hstart _).1, (hstart _).2, List.reverse_singleton, Option.map_none]
  refine ⟨fun prev => by rw [hmatch]; rfl, fun prev c rest => ?_⟩
  rw [hmatch]
  by_cases hc : s.has c
  · -- nothing is left to do behind the character
    have hnone : rest.takeWhile (fun _ => false) = [] := by
      rw [List.takeWhile_eq_nil_iff]
      intro _ h
      cases h
    rw [if_pos hc, hnone]
    simp only [advance, step, List.isEmpty_cons, List.foldl_cons, List.foldl_nil, hc,
      Bool.false_eq_true, if_false, if_true, resume, Frontier.finish, Option.isSome_none,
      List.reverse_nil]
    exact advance_nil _ _ _
  · have hno : s.has c = false := by simpa using hc
    rw [if_neg hc]
    exact advance_of_neg hno _ _ _ _

/-! ## §2. The leftmost match. -/

variable {begins follows : Char → Bool}

/-- The search stops at the first character that may begin a stretch. -/
theorem Node.Takes.find {n : Node} (h : n.Takes begins follows) (prev : Option Char)
    (text : List Char) :
    (n.find prev text = none ∧ ∀ c ∈ text, begins c = false) ∨
      ∃ skipped c rest, text = skipped ++ c :: rest ∧ (∀ d ∈ skipped, begins d = false) ∧ begins c ∧
        n.find prev text = some ⟨skipped.length, (rest.takeWhile follows).length + 1, []⟩ := by
  induction text generalizing prev with
  | nil =>
      left
      refine ⟨?_, fun c hc => (List.not_mem_nil hc).elim⟩
      unfold Node.find
      rw [h.1]
  | cons c rest ih =>
      unfold Node.find
      rw [h.2]
      by_cases hc : begins c
      · right
        refine ⟨[], c, rest, rfl, fun d hd => (List.not_mem_nil hd).elim, hc, ?_⟩
        rw [if_pos hc]
        rfl
      · have hno : begins c = false := by simpa using hc
        rw [if_neg hc]
        rcases ih (some c) with ⟨hfind, hrest⟩ | ⟨skipped, d, more, rfl, hskipped, hd, hfind⟩
        · left
          refine ⟨by simp only [hfind, Option.map_none], ?_⟩
          intro e he
          rcases List.mem_cons.1 he with rfl | he
          · exact hno
          · exact hrest e he
        · right
          refine ⟨c :: skipped, d, more, rfl, ?_, hd, by simp only [hfind, Option.map_some]; rfl⟩
          intro e he
          rcases List.mem_cons.1 he with rfl | he
          · exact hno
          · exact hskipped e he

/-- A search finds the first stretch of a text, and no groups. -/
structure Search.FindsStretches (s : Search) (begins follows : Char → Bool) : Prop where
  /-- Nothing begins a stretch, or the match is the first stretch. -/
  first : ∀ prev text,
    (s.captures? prev text = none ∧ ∀ c ∈ text, begins c = false) ∨
      ∃ skipped c rest, text = skipped ++ c :: rest ∧ (∀ d ∈ skipped, begins d = false) ∧ begins c ∧
        s.captures? prev text
          = some ⟨skipped, c :: rest.takeWhile follows, rest.dropWhile follows, []⟩
  /-- There are no names. -/
  unnamed : s.names = []

/-- A program without groups searches for the stretches that its node takes. -/
theorem Program.findsStretches {flags : Flags} {pattern : List Char} {p : Program}
    (hp : Program.ofPattern? flags pattern = .ok p) (h : p.root.Takes begins follows)
    (hgroups : p.groups = 0) (hnames : p.names = []) :
    (p.search hp).FindsStretches begins follows := by
  refine ⟨fun prev text => ?_, hnames⟩
  show (p.captures? prev text = none ∧ _) ∨ ∃ skipped c rest, _ ∧ _ ∧ _ ∧ p.captures? prev text = _
  unfold Program.captures?
  rcases h.find prev text with ⟨hfind, hnone⟩ | ⟨skipped, c, rest, rfl, hskipped, hc, hfind⟩
  · left
    exact ⟨by rw [hfind]; rfl, hnone⟩
  · right
    refine ⟨skipped, c, rest, rfl, hskipped, hc, ?_⟩
    -- lengths count characters, so they cut the text where the stretch ends
    have htake : rest.take (rest.takeWhile follows).length = rest.takeWhile follows :=
      List.prefix_iff_eq_take.1 (List.takeWhile_prefix follows) |>.symm
    have hdrop : rest.drop (rest.takeWhile follows).length = rest.dropWhile follows := by
      conv_lhs => rw [← List.takeWhile_append_dropWhile (p := follows) (l := rest)]
      rw [List.drop_left' (by rw [List.takeWhile_append_dropWhile])]
    rw [hfind, hgroups]
    simp only [Option.map_some, List.take_left', List.drop_left', List.take_succ_cons,
      List.drop_succ_cons, htake, hdrop, List.range_zero, List.map_nil]

namespace Search.FindsStretches

variable {s : Search} {prev : Option Char} {text : List Char}

theorem skips_of_eq_none (h : s.FindsStretches begins follows) (hnone : s.captures? prev text = none) :
    ∀ c ∈ text, begins c = false := by
  rcases h.first prev text with ⟨-, hskip⟩ | ⟨_, _, _, _, _, _, hsome⟩
  · exact hskip
  · rw [hnone] at hsome
    cases hsome

theorem stretch_of_eq_some (h : s.FindsStretches begins follows) {found : Captures}
    (hsome : s.captures? prev text = some found) :
    ∃ skipped c rest, text = skipped ++ c :: rest ∧ (∀ d ∈ skipped, begins d = false) ∧ begins c ∧
      found = ⟨skipped, c :: rest.takeWhile follows, rest.dropWhile follows, []⟩ := by
  rcases h.first prev text with ⟨hnone, -⟩ | ⟨skipped, c, rest, htext, hskipped, hc, heq⟩
  · rw [hnone] at hsome
    cases hsome
  · exact ⟨skipped, c, rest, htext, hskipped, hc, Option.some.inj (hsome.symm.trans heq)⟩

end Search.FindsStretches

end Regex

/-! ## §3. All matches. -/

namespace Finding

variable [Regex.Engine] {flags : Flags} {begins follows : Char → Bool}

/-- The token of a step that found a match. -/
def Step.token? (r : Regex flags) : Step → Option Token
  | .hit position c => some (Segment.token r (.hit (position + byteLength c.skipped) c))
  | .miss _ _ | .blank _ _ _ => none

theorem layout_matches (r : Regex flags) (searched : List Step) :
    ((layout searched).2.filter (Segment.shown .matches)).map (Segment.token r)
      = searched.filterMap (Step.token? r) := by
  induction searched with
  | nil => rfl
  | cons s rest ih =>
      cases s with
      | miss position text => exact ih
      | blank position skipped passed => exact ih
      | hit position c =>
          -- the gap behind the match becomes no token
          show Segment.token r (.hit (position + byteLength c.skipped) c) ::
            ((layout rest).2.filter (Segment.shown .matches)).map (Segment.token r) = _
          rw [ih, List.filterMap_cons]
          rfl

theorem found_eq_steps (r : Regex flags) (text : String) :
    found r .matches text = (steps r none 0 text.toList).filterMap (Step.token? r) :=
  layout_matches r (steps r none 0 text.toList)

/-- The token of a stretch: all of it was matched, and there are no groups. -/
def stretchToken (x : Nat × List Char) : Token where
  value := String.ofList x.2
  index := x.1
  offset := byteLength x.2
  matched := some { index := x.1, groups := [some (String.ofList x.2)], named := .empty }

variable {r : Regex flags}

theorem steps_eq_stretches (h : r.search.FindsStretches begins follows) (prev : Option Char) (position : Nat) (text : List Char) :
    (steps r prev position text).filterMap (Step.token? r)
      = (stretchesFrom begins follows position text).map stretchToken := by
  -- along the steps of the search; no match is empty, so no step is blank
  fun_induction steps r prev position text with
  | case1 prev position text hnone =>
      have hskip := h.skips_of_eq_none hnone
      have hcut : stretchesFrom begins follows position (text ++ []) = [] := by
        rw [stretchesFrom_skip hskip, stretchesFrom_nil]
      rw [List.append_nil] at hcut
      rw [hcut]
      rfl
  | case2 prev position text c hsome hm ha =>
      obtain ⟨_, _, _, _, _, _, rfl⟩ := h.stretch_of_eq_some hsome
      cases hm
  | case3 prev position text c hsome d after hm ha _ ih =>
      obtain ⟨_, _, _, _, _, _, rfl⟩ := h.stretch_of_eq_some hsome
      cases hm
  | case4 prev position text c hsome m rest hm _ ih =>
      obtain ⟨skipped, d, more, rfl, hskipped, hd, rfl⟩ :=
        h.stretch_of_eq_some hsome
      rw [stretchesFrom_skip hskipped, stretchesFrom_cons_of_pos hd, List.map_cons, ← ih,
        List.filterMap_cons]
      simp only [Step.token?]
      congr 1
      unfold Segment.token matchInfo
      rw [h.unnamed]
      rfl

/-- A search for a set finds the stretches of the text. -/
theorem found_eq_stretches (h : r.search.FindsStretches begins follows) (text : String) :
    found r .matches text = (stretchesFrom begins follows 0 text.toList).map stretchToken := by
  rw [found_eq_steps, steps_eq_stretches h]

end Finding

end TokenSpan
