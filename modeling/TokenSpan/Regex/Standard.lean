/-
  TokenSpan.Regex.Standard
  ────────────────────────
  The engine that reads patterns into programs and runs those.

  It knows the classes of bracket expressions and of the letters `d`, `s` and `w`, but no classes
  of other character properties.

  Main definition: the instance of `Engine`.
-/
import TokenSpan.Regex.Basic
import TokenSpan.Regex.Groups
import TokenSpan.Regex.Matcher

namespace TokenSpan.Regex

/-- The part of a text between two positions. -/
def slice (text : List Char) (start stop : Nat) : List Char := (text.drop start).take (stop - start)

/-- The text of a group, if it took part in the match. -/
def groupText (text : List Char) (marks : Marks) (index : Nat) : Option (List Char) :=
  match marks.lookup (2 * index), marks.lookup (2 * index + 1) with
  | some start, some stop => some (slice text start stop)
  | _, _ => none

namespace Program

/-- The leftmost match in a text behind the character `prev`. -/
def captures? (p : Program) (prev : Option Char) (text : List Char) : Option Captures :=
  (p.root.find prev text).map fun m =>
    let rest := text.drop m.skipped
    { skipped := text.take m.skipped
      matched := rest.take m.length
      after := rest.drop m.length
      groups := (List.range p.groups).map fun i => groupText rest m.marks (i + 1) }

/-- How a program that was read from a pattern is searched for. -/
def search {flags : Flags} {pattern : List Char} (p : Program)
    (h : Program.ofPattern? flags pattern = .ok p) : Search where
  captures? := p.captures?
  groups := p.groups
  hasGroup i := p.root.hasGroup i
  names := p.names
  append_of_captures? := by
    intro prev text c hc
    obtain ⟨m, _, rfl⟩ := Option.map_eq_some_iff.1 hc
    rw [List.append_assoc, List.take_append_drop, List.take_append_drop]
  length_of_captures? := by
    intro prev text c hc
    obtain ⟨m, _, rfl⟩ := Option.map_eq_some_iff.1 hc
    simp
  le_groups_iff i := by
    rw [groups_eq h]
    exact Node.le_groupCount_iff
  names_occur := (wellNamed h).occurs
  names_ordered := (wellNamed h).ordered
  names_distinct := (wellNamed h).distinct

end Program

/-- The search of a pattern. -/
def readSearch? (flags : Flags) (pattern : String) : Except PatternError Search :=
  match h : Program.ofPattern? flags pattern.toList with
  | .ok p => .ok (p.search h)
  | .error e => .error e

/-- A search that is read is that of a program. -/
theorem exists_program_of_readSearch? {flags : Flags} {pattern : String} {s : Search}
    (h : readSearch? flags pattern = .ok s) :
    ∃ p, ∃ hp : Program.ofPattern? flags pattern.toList = .ok p, s = p.search hp := by
  unfold readSearch? at h
  split at h
  · rename_i p hp
    exact ⟨p, hp, (Except.ok.inj h).symm⟩
  · cases h

instance standard : Engine where
  read? := readSearch?
  reads_presets p := by cases p <;> decide +kernel

end TokenSpan.Regex
