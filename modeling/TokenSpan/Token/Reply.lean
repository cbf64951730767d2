/-
  TokenSpan.Token.Reply
  ─────────────────────
  What a transform answers for a token, to be placed inside that token.

  A reply is a text, a draft of a token, a cut, or a sequence of replies.  A draft is a
  token whose place is relative to the transformed one, and may be left open.
-/
import TokenSpan.Token.Basic

namespace TokenSpan

/-- A token whose place is relative to another token, and may be left open. -/
structure Draft where
  /-- The text. -/
  value : String
  /-- Where it starts in the other token; left open, it starts where the piece before it ends. -/
  index : Option Nat := none
  /-- How many positions it covers; left open, those of its text. -/
  offset : Option Nat := none
  /-- The values it carries. -/
  properties : Properties := .empty
  /-- What was captured for it. -/
  matched : Option MatchInfo := none
  deriving DecidableEq

namespace Draft

/-- The draft of a text whose place is left open. -/
def ofText (value : String) : Draft := { value }

/-- A token as a draft that leaves open where it starts. -/
def ofToken (t : Token) : Draft :=
  { value := t.value, offset := some t.offset, properties := t.properties, matched := t.matched }

/-- A token as a draft that starts, relative to another token, where the token itself started. -/
def atOwnIndex (t : Token) : Draft := { ofToken t with index := some t.index }

/-- The draft carrying one more value, instead of an older one of that name. -/
def withProperty (d : Draft) (key : String) (value : Value) : Draft :=
  { d with properties := d.properties.insert key value }

/-- The draft carrying further values; where names are equal the further ones count. -/
def annotate (d : Draft) (more : Properties) : Draft :=
  { d with properties := d.properties.override more }

end Draft

/-- What a transform answers for a token. -/
inductive Reply where
  /-- A text. -/
  | text (value : String)
  /-- A draft of a token. -/
  | draft (d : Draft)
  /-- A cut: tokens before and after it are not merged. -/
  | cut
  /-- Several replies. -/
  | sequence (items : List Reply)

namespace Reply

instance : Inhabited Reply := ⟨.cut⟩

/-- No token at all. -/
def nothing : Reply := .sequence []

/-- A text, if there is one. -/
def ofText? : Option String → Reply
  | some value => .text value
  | none => nothing

/-- A draft, if there is one. -/
def ofDraft? : Option Draft → Reply
  | some d => .draft d
  | none => nothing

/-- The token itself. -/
def keep (t : Token) : Reply := .draft (.ofToken t)

end Reply

end TokenSpan
