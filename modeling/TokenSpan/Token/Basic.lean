/-
  TokenSpan.Token.Basic
  ─────────────────────
  Tokens: pieces of text that know where they stand.

  A token starts at byte position `index` and covers `offset` positions of the whole
  text.  For a token cut out of the text `offset` is the size of its value; a token merged
  over compressed gaps covers more than it holds.
-/
import TokenSpan.Fault
import TokenSpan.Json.Basic

namespace TokenSpan

/-- Named values that a token carries. -/
abbrev Properties := KeyMap Value

/-- What a regular expression captured for a token. -/
structure MatchInfo where
  /-- Where the match starts in the value of the token it was found in. -/
  index : Nat
  /-- The texts of the groups, the whole match first; groups that took no part have none. -/
  groups : List (Option String)
  /-- The texts of the named groups that took part. -/
  named : KeyMap String
  deriving DecidableEq

namespace MatchInfo

/-- The text of a group, if there is one of that index and it took part. -/
def group (m : MatchInfo) (i : Nat) : Option String := m.groups[i]?.join

/-- The text of a named group, if there is one of that name and it took part. -/
def name (m : MatchInfo) (name : String) : Option String := m.named.get? name

end MatchInfo

/-- A piece of text with its place in the whole text. -/
structure Token where
  /-- The text. -/
  value : String
  /-- Where the token starts. -/
  index : Nat
  /-- How many positions the token covers. -/
  offset : Nat
  /-- The values it carries. -/
  properties : Properties := .empty
  /-- What was captured when it was found by a regular expression. -/
  matched : Option MatchInfo := none
  deriving DecidableEq

namespace Token

/-- The token of a text at a position; it covers the text. -/
def ofText (value : String) (index : Nat) : Token := { value, index, offset := value.utf8ByteSize }

/-- The token of a whole text. -/
def root (text : String) : Token := ofText text 0

/-- The token covering another number of positions. -/
def withOffset (t : Token) (offset : Nat) : Token := { t with offset }

/-- The token carrying one more value, instead of an older one of that name. -/
def withProperty (t : Token) (key : String) (value : Value) : Token :=
  { t with properties := t.properties.insert key value }

/-- The position after the token. -/
def stop (t : Token) : Except Fault Nat := addPositions t.index t.offset

/-- A value that the token carries. -/
def property (t : Token) (key : String) : Option Value := t.properties.get? key

/-- The token completed with the values of another one for the names it lacks. -/
def inherit (t source : Token) : Token :=
  { t with properties := t.properties.completeWith source.properties }

end Token

end TokenSpan
