/-
  TokenSpan.Regex.Search
  ──────────────────────
  What a compiled pattern does with texts.

  Whatever finds matches can be searched with: all that is asked of it is that the parts of a
  match make up the text, and that groups and their names are counted consistently (`Search`).
-/

namespace TokenSpan.Regex

/-- A match in a text. -/
structure Captures where
  /-- The text before the match. -/
  skipped : List Char
  /-- The text of the match. -/
  matched : List Char
  /-- The text after the match. -/
  after : List Char
  /-- The texts of the groups from 1 on; groups that took no part have none. -/
  groups : List (Option (List Char))

/-- A way to search in texts. -/
structure Search where
  /--
  The leftmost match in a text; `prev` is the character before the text, which assertions at its start
  can see.
  -/
  captures? : (prev : Option Char) → (text : List Char) → Option Captures
  /-- How many groups there are, besides the whole match. -/
  groups : Nat
  /-- Whether a group with an index occurs. -/
  hasGroup : Nat → Bool
  /-- The indices of named groups with their names, in increasing order. -/
  names : List (Nat × String)
  /-- The parts of a match make up the text. -/
  append_of_captures? : ∀ {prev text c}, captures? prev text = some c →
    c.skipped ++ c.matched ++ c.after = text
  /-- A match has one entry for each group. -/
  length_of_captures? : ∀ {prev text c}, captures? prev text = some c → c.groups.length = groups
  /-- Groups are counted up to the largest index. -/
  le_groups_iff : ∀ i, i ≤ groups ↔ i = 0 ∨ ∃ j, i ≤ j ∧ hasGroup j = true
  /-- A name stands at the index of a group that occurs. -/
  names_occur : ∀ n ∈ names, 1 ≤ n.1 ∧ hasGroup n.1 = true
  /-- No group has two names. -/
  names_ordered : names.Pairwise fun m n => m.1 < n.1
  /-- No two groups have one name. -/
  names_distinct : names.Pairwise fun m n => m.2 ≠ n.2

end TokenSpan.Regex
