/-
  TokenSpan.Regex.Basic
  ─────────────────────
  Regular expressions: a pattern together with the search that an engine reads it as.

  Which patterns there are, and what they find, is up to the engine (`Regex.Engine`).  Nothing
  is asked of it but that it reads the patterns of the presets.  The type of expressions keeps
  the proof that the search is the one of the pattern, so two expressions of the same flags and
  pattern are the same (`Regex.ext_pattern`).

  Main definitions: `Regex.Engine`, `Regex.ofPattern?`, `Regex.capturesFrom?`, `Regex.isMatch`.
-/
import TokenSpan.Preset
import TokenSpan.Regex.Flags
import TokenSpan.Regex.Search

namespace TokenSpan

/-- What reads patterns. -/
class Regex.Engine where
  /-- The search of a pattern that is read under the flags. -/
  read? : Regex.Flags → (pattern : String) → Except Regex.PatternError Regex.Search
  /-- The patterns of the presets are valid. -/
  reads_presets : ∀ p : Preset, (read? {} p.pattern).isOk = true

variable [Regex.Engine]

open TokenSpan.Regex (Engine Flags PatternError Search)

/-- A regular expression whose pattern is read under the given flags. -/
structure Regex (flags : Flags) where
  /-- The pattern. -/
  pattern : String
  /-- How it is searched for. -/
  search : Search
  /-- The search is that of the pattern. -/
  compiled : Engine.read? flags pattern = .ok search

namespace Regex

variable {flags : Flags}

/-- The expression of a pattern. -/
def ofPattern? (flags : Flags) (pattern : String) : Except PatternError (Regex flags) :=
  match h : Engine.read? flags pattern with
  | .ok search => .ok ⟨pattern, search, h⟩
  | .error e => .error e

/-- The expression of a pattern that is known to be valid. -/
def ofValid (pattern : String) (valid : (Engine.read? flags pattern).isOk = true) : Regex flags :=
  match h : Engine.read? flags pattern with
  | .ok search => ⟨pattern, search, h⟩
  | .error e => absurd valid (by rw [h]; exact Bool.noConfusion)

/-- The expression of a valid pattern has that pattern. -/
@[simp] theorem pattern_ofValid (pattern : String)
    (valid : (Engine.read? flags pattern).isOk = true) : (ofValid pattern valid).pattern = pattern := by
  unfold ofValid
  split
  · rfl
  · rename_i e h
    rw [h] at valid
    cases valid

/-- Expressions of one pattern are the same. -/
theorem ext_pattern {r s : Regex flags} (h : r.pattern = s.pattern) : r = s := by
  obtain ⟨p, r, hr⟩ := r
  obtain ⟨q, s, hs⟩ := s
  cases h
  have : r = s := Except.ok.inj (hr.symm.trans hs)
  cases this
  rfl

/-- An expression is read back from its pattern. -/
theorem ofPattern?_pattern (r : Regex flags) : ofPattern? flags r.pattern = .ok r := by
  unfold ofPattern?
  split
  · exact congrArg Except.ok (ext_pattern rfl)
  · rename_i h
    cases r.compiled.symm.trans h

/-! ## §1. Searching. -/

/--
The leftmost match in a text; `prev` is the character before the text, which assertions at its start
can see.
-/
def capturesFrom? (r : Regex flags) (prev : Option Char) (text : List Char) : Option Captures :=
  r.search.captures? prev text

/-- Whether the expression matches somewhere in a text. -/
def isMatch (r : Regex flags) (text : List Char) : Bool := (r.capturesFrom? none text).isSome

/-- The parts of a match make up the text. -/
theorem capturesFrom?_append {r : Regex flags} {prev : Option Char} {text : List Char} {c : Captures}
    (h : r.capturesFrom? prev text = some c) : c.skipped ++ c.matched ++ c.after = text :=
  r.search.append_of_captures? h

/-- There is one entry for each group. -/
theorem length_groups_of_capturesFrom? {r : Regex flags} {prev : Option Char} {text : List Char}
    {c : Captures} (h : r.capturesFrom? prev text = some c) : c.groups.length = r.search.groups :=
  r.search.length_of_captures? h

end Regex

/-- The regular expression of a preset. -/
def Preset.regex (p : Preset) : Regex {} := .ofValid p.pattern (Engine.reads_presets p)

end TokenSpan
