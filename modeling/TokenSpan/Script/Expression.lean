/-
  TokenSpan.Script.Expression
  ───────────────────────────
  Expressions over the context of a token: texts, numbers, values and conditions.

  They are data, so that transforms can be given from outside; `eval` says what each one
  means for a context.  An expression fails only where it asks for the end of a token and
  that end does not fit 64 bits.
-/
import TokenSpan.Context

namespace TokenSpan.Script

/-! ## §1. Numbers. -/

/-- A number that depends on the context. -/
inductive NumExpr where
  /-- A fixed number. -/
  | literal (n : Nat)
  /-- The size of the token's text in bytes. -/
  | bytes
  /-- The number of its characters. -/
  | chars
  /-- Half the number of its characters, rounded down. -/
  | half
  /-- How many tokens come before. -/
  | position
  /-- How many tokens there are. -/
  | count
  /-- Where the token starts. -/
  | index
  /-- How many positions it covers. -/
  | offset
  /-- Where it ends. -/
  | stop
  deriving DecidableEq

/-- The number in a context. -/
def NumExpr.eval (cx : Context) : NumExpr → Except Fault Nat
  | .literal n => .ok n
  | .bytes => .ok cx.value.utf8ByteSize
  | .chars => .ok cx.value.length
  | .half => .ok (cx.value.length / 2)
  | .position => .ok cx.position
  | .count => .ok cx.tokens.length
  | .index => .ok cx.token.index
  | .offset => .ok cx.token.offset
  | .stop => cx.token.stop

/-! ## §2. Texts. -/

/-- A text that depends on the context. -/
inductive TextExpr where
  /-- A fixed text. -/
  | literal (s : String)
  /-- The text of the token. -/
  | value
  /-- The text with ASCII letters made capital. -/
  | upper
  /-- The text with ASCII letters made small. -/
  | lower
  /-- The characters of the text in reverse order. -/
  | reverse
  /-- The text of the token before, empty if there is none. -/
  | prev
  /-- The text of the token after, empty if there is none. -/
  | next
  /-- The decimal digits of a number. -/
  | number (n : NumExpr)
  /-- The characters of the text from one number up to another. -/
  | chars (first last : NumExpr)
  /-- The text of a captured group, empty if there is none. -/
  | group (i : Nat)
  /-- The text of a captured named group, empty if there is none. -/
  | named (name : String)
  /-- The text of a token of the sequence, empty if there is none. -/
  | tokenAt (i : Nat)
  /-- Texts one after the other. -/
  | concat (parts : List TextExpr)

/-- The characters of a text from one position up to another. -/
def charsBetween (s : String) (start stop : Nat) : String :=
  String.ofList ((s.toList.take stop).drop start)

/-- The text of a group of the token's match. -/
def groupOf (cx : Context) (i : Nat) : Option String := cx.token.matched.bind (·.group i)

/-- The text of a named group of the token's match. -/
def namedOf (cx : Context) (name : String) : Option String := cx.token.matched.bind (·.name name)

mutual

/-- The text in a context. -/
def TextExpr.eval (cx : Context) : TextExpr → Except Fault String
  | .literal s => .ok s
  | .value => .ok cx.value
  | .upper => .ok (cx.value.map Char.toUpper)
  | .lower => .ok (cx.value.map Char.toLower)
  | .reverse => .ok (String.ofList cx.value.toList.reverse)
  | .prev => .ok ((cx.prev.map (·.value)).getD "")
  | .next => .ok ((cx.next.map (·.value)).getD "")
  | .number n => (n.eval cx).map toString
  | .chars first last => do
      let first ← first.eval cx
      let last ← last.eval cx
      return charsBetween cx.value first last
  | .group i => .ok ((groupOf cx i).getD "")
  | .named name => .ok ((namedOf cx name).getD "")
  | .tokenAt i => .ok ((cx.tokens[i]?.map (·.value)).getD "")
  | .concat parts => evalParts cx parts

/-- The texts one after the other in a context. -/
def evalParts (cx : Context) : List TextExpr → Except Fault String
  | [] => .ok ""
  | t :: rest => do
      let s ← t.eval cx
      let more ← evalParts cx rest
      return s ++ more

end

/-! ## §3. Values. -/

/-- A value that depends on the context. -/
inductive ValueExpr where
  /-- A fixed value. -/
  | literal (v : Value)
  /-- A number. -/
  | number (n : NumExpr)
  /-- A text. -/
  | text (t : TextExpr)

/-- The value in a context. -/
def ValueExpr.eval (cx : Context) : ValueExpr → Except Fault Value
  | .literal v => .ok v
  | .number n => (n.eval cx).map .ofNat
  | .text t => (t.eval cx).map .ofString

/-- Named values that depend on the context. -/
abbrev PropertiesExpr := List (String × ValueExpr)

/-- The named values in a context; of equal names the last one counts. -/
def evalProperties (cx : Context) (entries : PropertiesExpr) : Except Fault Properties := do
  let values ← entries.mapM fun e => (e.2.eval cx).map fun v => (e.1, v)
  return .ofList values

/-! ## §4. Conditions. -/

/-- A condition on the context. -/
inductive Condition where
  /-- Always or never. -/
  | const (b : Bool)
  /-- There is a token before. -/
  | hasPrev
  /-- There is a token after. -/
  | hasNext
  /-- The text is the given one, perhaps up to the case of ASCII letters. -/
  | valueIs (s : String) (ignoreCase : Bool)
  /-- The token before has the given text. -/
  | prevIs (s : String) (ignoreCase : Bool)
  /-- The token after has the given text. -/
  | nextIs (s : String) (ignoreCase : Bool)
  /-- The token before has the same text. -/
  | sameAsPrev (ignoreCase : Bool)
  /-- The first character is a capital letter of ASCII. -/
  | upperFirst
  /-- All characters are digits of ASCII. -/
  | digits
  /-- The text holds the given one. -/
  | holds (s : String)
  /-- The text has more than the given number of bytes. -/
  | longerThan (n : Nat)
  /-- The position leaves the given remainder. -/
  | positionMod (n r : Nat)
  /-- The token is the given one from the end. -/
  | fromEnd (n : Nat)
  /-- The token does not start where the one before it ends, but later. -/
  | gap
  /-- The token carries a value of the given name. -/
  | hasProperty (name : String)
  /-- The token carries the given value. -/
  | propertyIs (name : String) (v : Value)
  /-- The token was found by a regular expression. -/
  | hasMatch
  /-- A captured group has the given text. -/
  | groupIs (i : Nat) (s : String)
  /-- A named group was captured. -/
  | hasNamed (name : String)
  /-- The other condition does not hold. -/
  | not (a : Condition)
  /-- All conditions hold. -/
  | all (l : List Condition)
  /-- One of the conditions holds. -/
  | any (l : List Condition)

/-- Whether texts are equal, perhaps up to the case of ASCII letters. -/
def sameText (ignoreCase : Bool) (a b : String) : Bool :=
  if ignoreCase then a.map Char.toLower == b.map Char.toLower else a == b

/-- Whether one text occurs in another one. -/
def occursIn (part : List Char) : List Char → Bool
  | [] => part.isEmpty
  | c :: rest => part.isPrefixOf (c :: rest) || occursIn part rest

mutual

/-- Whether the condition holds in a context. -/
def Condition.eval (cx : Context) : Condition → Except Fault Bool
  | .const b => .ok b
  | .hasPrev => .ok cx.prev.isSome
  | .hasNext => .ok cx.next.isSome
  | .valueIs s ci => .ok (sameText ci cx.value s)
  | .prevIs s ci => .ok (cx.prev.any fun t => sameText ci t.value s)
  | .nextIs s ci => .ok (cx.next.any fun t => sameText ci t.value s)
  | .sameAsPrev ci => .ok (cx.prev.any fun t => sameText ci t.value cx.value)
  | .upperFirst => .ok (cx.value.toList.head?.any Char.isUpper)
  | .digits => .ok (cx.value.toList.all Char.isDigit)
  | .holds s => .ok (occursIn s.toList cx.value.toList)
  | .longerThan n => .ok (n < cx.value.utf8ByteSize)
  | .positionMod n r => .ok (cx.position % max n 1 == r)
  | .fromEnd n => .ok (cx.tokens.length - cx.position == n)
  | .gap =>
      match cx.prev with
      | none => .ok false
      | some prev => prev.stop.map fun stop => decide (stop < cx.token.index)
  | .hasProperty name => .ok (cx.token.properties.contains name)
  | .propertyIs name v => .ok ((cx.token.property name).any fun w => w.same v)
  | .hasMatch => .ok cx.token.matched.isSome
  | .groupIs i s => .ok (groupOf cx i == some s)
  | .hasNamed name => .ok (namedOf cx name).isSome
  | .not a => (a.eval cx).map fun b => !b
  | .all l => evalAll cx l
  | .any l => evalAny cx l

/-- Whether all conditions hold; those after one that does not are not looked at. -/
def evalAll (cx : Context) : List Condition → Except Fault Bool
  | [] => .ok true
  | a :: rest => do
      if ← a.eval cx then evalAll cx rest else return false

/-- Whether one of the conditions holds; those after it are not looked at. -/
def evalAny (cx : Context) : List Condition → Except Fault Bool
  | [] => .ok false
  | a :: rest => do
      if ← a.eval cx then return true else evalAny cx rest

end

end TokenSpan.Script
