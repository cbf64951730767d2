/-
  TokenSpan.Regex.Matcher
  ───────────────────────
  Running a node over a text.

  A thread is a list of things still to do.  At a place between two characters every
  thread is followed through all that asks for no character (`Node.explore`), in order of
  preference, until it waits for a character or is done.  No list of things to do is
  followed twice at one place, so the work per character is bounded by the node.  A done
  thread is a match; threads that come after it in preference are dropped there.

  Repetition: after a round the thread may start another one, but a round that went
  through no character may not start one more.

  Main definitions: `Node.matchHere` (the preferred match that starts at a place) and
  `Node.find` (the leftmost one).
-/
import TokenSpan.Regex.Node

namespace TokenSpan.Regex

/-! ## §1. Threads. -/

/-- A place between two characters, `position` characters after the start of the match. -/
structure Place where
  /-- The character before, if the text does not start here. -/
  prev : Option Char
  /-- The character after, if the text does not end here. -/
  next : Option Char
  /-- How many characters of the match come before. -/
  position : Nat

/-- Something a thread still has to do. -/
inductive Task where
  /-- Match a node. -/
  | run (r : Node)
  /-- Decide about another round of a repetition. -/
  | again (greedy : Bool) (r : Node)
  /-- Note where a group ends. -/
  | close (index : Nat)
  deriving DecidableEq

/-- Where groups start (slot `2 i`) and end (slot `2 i + 1`), the latest notes first. -/
abbrev Marks := List (Nat × Nat)

/-- Notes a position under a slot, instead of the older note. -/
def Marks.note (marks : Marks) (slot position : Nat) : Marks :=
  (slot, position) :: marks.filter (·.1 != slot)

/-- A thread that waits for a character of a set. -/
structure Waiting where
  /-- The characters it takes. -/
  set : CharSet
  /-- What it does then. -/
  rest : List Task
  /-- The groups it went through. -/
  marks : Marks

/-- What is known about the threads at a place. -/
structure Frontier where
  /-- The threads that wait for the next character, the least preferred one first. -/
  waiting : List Waiting := []
  /-- The groups of the thread that is done, if one is. -/
  done : Option Marks := none
  /-- The lists of tasks that were followed at this place. -/
  seen : List (List Task) := []

namespace Frontier

/-- Follows a list of tasks unless a preferred thread is done or the list was followed before. -/
def enter (f : Frontier) (tasks : List Task) (follow : Frontier → Frontier) : Frontier :=
  if f.done.isSome || f.seen.contains tasks then f else follow { f with seen := tasks :: f.seen }

/-- Adds a thread that waits for a character. -/
def wait (f : Frontier) (thread : Waiting) : Frontier :=
  if f.done.isSome then f else { f with waiting := thread :: f.waiting }

/-- Notes that a thread is done. -/
def finish (f : Frontier) (marks : Marks) : Frontier :=
  if f.done.isSome then f else { f with done := some marks }

end Frontier

/-! ## §2. Following threads at a place. -/

/--
Follows a node at a place.  `rest` lists what comes after the node, and `next` follows that list from
the same place.
-/
def Node.explore (here : Place) :
    Node → (rest : List Task) → (next : Marks → Frontier → Frontier) → Marks → Frontier → Frontier
  | .empty, _, next, marks, f => next marks f
  | .set s, rest, _, marks, f => f.wait ⟨s, rest, marks⟩
  | .look l, _, next, marks, f => if l.holds here.prev here.next then next marks f else f
  | .seq a b, rest, next, marks, f =>
      a.explore here (.run b :: rest)
        (fun marks f => f.enter (.run b :: rest) (b.explore here rest next marks)) marks f
  | .alt a b, rest, next, marks, f =>
      b.explore here rest next marks (a.explore here rest next marks f)
  | .group index r, rest, next, marks, f =>
      r.explore here (.close index :: rest)
        (fun marks f => next (marks.note (2 * index + 1) here.position) f)
        (marks.note (2 * index) here.position) f
  | .plus greedy r, rest, next, marks, f =>
      let tasks := Task.again greedy r :: rest
      f.enter (.run r :: tasks)
        (r.explore here tasks (fun marks f => f.enter tasks (next marks)) marks)

/-- Follows a list of tasks at a place. -/
def resume (here : Place) : List Task → Marks → Frontier → Frontier
  | [], marks, f => f.finish marks
  | .run r :: rest, marks, f =>
      f.enter (.run r :: rest) (r.explore here rest (resume here rest) marks)
  | .close index :: rest, marks, f =>
      resume here rest (marks.note (2 * index + 1) here.position) f
  | .again greedy r :: rest, marks, f =>
      let tasks := Task.again greedy r :: rest
      let round (f : Frontier) :=
        f.enter (.run r :: tasks) (r.explore here tasks (fun _ f => f) marks)
      f.enter tasks fun f =>
        if greedy then resume here rest marks (round f) else round (resume here rest marks f)

/-! ## §3. Taking characters. -/

/-- Lets the threads take a character and follows them at the place after it. -/
def step (c : Char) (here : Place) (waiting : List Waiting) : Frontier :=
  waiting.foldl (fun f t => if t.set.has c then resume here t.rest t.marks f else f) {}

/-- Takes the characters of the rest of the text; the last match found wins. -/
def advance (waiting : List Waiting) (position : Nat) (best : Option (Nat × Marks)) :
    List Char → Option (Nat × Marks)
  | [] => best
  | c :: rest =>
      if waiting.isEmpty then best
      else
        let f := step c ⟨some c, rest.head?, position + 1⟩ waiting
        let best := match f.done with
          | some marks => some (position + 1, marks)
          | none => best
        advance f.waiting.reverse (position + 1) best rest

/-- The length and groups of the preferred match that starts between `prev` and the text. -/
def Node.matchHere (r : Node) (prev : Option Char) (text : List Char) : Option (Nat × Marks) :=
  let here : Place := ⟨prev, text.head?, 0⟩
  let f := resume here [.run r] [] {}
  advance f.waiting.reverse 0 (f.done.map (0, ·)) text

/-- A match: how many characters come before it, its length in characters and its groups. -/
structure Found where
  /-- The characters before the match. -/
  skipped : Nat
  /-- The characters of the match. -/
  length : Nat
  /-- Where its groups are, counted from its start. -/
  marks : Marks

/-- The leftmost match in a text, the preferred one of those. -/
def Node.find (r : Node) (prev : Option Char) (text : List Char) : Option Found :=
  match r.matchHere prev text with
  | some (length, marks) => some ⟨0, length, marks⟩
  | none =>
      match text with
      | [] => none
      | c :: rest => (r.find (some c) rest).map fun m => { m with skipped := m.skipped + 1 }

end TokenSpan.Regex
