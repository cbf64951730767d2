/-
  TokenSpan.Token.Wire
  ────────────────────
  Tokens as JSON documents.

  A token is written as one object: its text and place under fixed names, its properties
  beside them under their own names, and what was captured at the end.  Reading takes the
  object apart again: the fixed names must occur once, every other name is a property.
  Inside the captures members of other names are passed over, whatever they hold.

  Main definitions: `Token.toJson` and `Token.ofJson?`, `Token.wireText` and
  `Token.ofWireText?`.
-/
import TokenSpan.Json.Printer
import TokenSpan.Json.Reader
import TokenSpan.Token.Basic

namespace TokenSpan

/-! ## §1. Writing. -/

/-- What was captured, as an object; no entry for named groups if there are none. -/
def MatchInfo.toJson (m : MatchInfo) : Json :=
  let groups := m.groups.map fun
    | some s => Json.string s
    | none => .null
  let named := m.named.entries.map fun e => (e.1, Json.string e.2)
  .object ([("index", .ofNat m.index), ("groups", .array groups)] ++
    if named.isEmpty then [] else [("named", .object named)])

/-- A token as an object: text, place, properties in order, captures. -/
def Token.toJson (t : Token) : Json :=
  .object ([("value", .string t.value), ("index", .ofNat t.index), ("offset", .ofNat t.offset)] ++
    t.properties.entries.map (fun e => (e.1, e.2.json)) ++
    match t.matched with
    | some m => [("match", m.toJson)]
    | none => [])

/-- The compact text of a token. -/
def Token.wireText (t : Token) : String := t.toJson.text

/-! ## §2. Reading. -/

/-- The documents of the members of a name, in order. -/
def membersNamed (name : String) (members : List (String × Json)) : List Json :=
  (members.filter (·.1 == name)).map (·.2)

/-- The text that a document is. -/
def Json.asString? : Json → Option String
  | .string s => some s
  | _ => none

/-- The natural number of 64 bits that a document is. -/
def Json.asNat? : Json → Option Nat
  | .number (.natural n) => some n.toNat
  | _ => none

/-- The document of a name that must occur exactly once. -/
def exactlyOne (name : String) (members : List (String × Json)) : Option Json :=
  match membersNamed name members with
  | [j] => some j
  | _ => none

/-- The texts of groups: a list of texts and nulls. -/
def readGroups? : Json → Option (List (Option String))
  | .array items => items.mapM fun
      | .string s => some (some s)
      | .null => some none
      | _ => none
  | _ => none

/-- The texts of named groups: an object of texts. -/
def readNamed? : Json → Option (KeyMap String)
  | .object members =>
      (members.mapM fun (e : String × Json) => e.2.asString?.map fun s => (e.1, s)).map KeyMap.ofList
  | _ => none

/-- What was captured, from its object, or from the list of its two or three parts. -/
def MatchInfo.ofJson? : Json → Option MatchInfo
  | .object members => do
      let index ← (← exactlyOne "index" members).asNat?
      let groups ← readGroups? (← exactlyOne "groups" members)
      let named ← match membersNamed "named" members with
        | [] => some KeyMap.empty
        | [j] => readNamed? j
        | _ => none
      return { index, groups, named }
  | .array [index, groups] => do
      return { index := ← index.asNat?, groups := ← readGroups? groups, named := .empty }
  | .array [index, groups, named] => do
      return { index := ← index.asNat?, groups := ← readGroups? groups, named := ← readNamed? named }
  | _ => none

/-- The names that have a meaning of their own in the object of a token. -/
def reservedNames : List String := ["value", "index", "offset", "match"]

/-- How many lists and objects may be open at a place in a property. -/
def maxPropertyDepth : Nat := 126

/-- The token that an object stands for. -/
def Token.ofJson? : Json → Option Token
  | .object members => do
      let value ← (← exactlyOne "value" members).asString?
      let index ← (← exactlyOne "index" members).asNat?
      let offset ← (← exactlyOne "offset" members).asNat?
      let matched ← match membersNamed "match" members with
        | [] | [.null] => some none
        | [j] => (MatchInfo.ofJson? j).map some
        | _ => none
      let others := members.filter fun e => !reservedNames.contains e.1
      if others.all fun (e : String × Json) => decide (e.2.depth ≤ maxPropertyDepth) then
        let properties := KeyMap.ofList (others.map fun e => (e.1, Value.ofJson e.2))
        return { value, index, offset, properties, matched }
      else none
  | _ => none

/-- What is wanted of the document of captures: the parts that are read, and nothing of other members. -/
def MatchInfo.interest : Json.Interest := .members fun name =>
  if ["index", "groups", "named"].contains name then some .all else none

/-- What is wanted of the document of a token: all, but of the captures only what is read. -/
def Token.interest : Json.Interest := .members fun name =>
  if name = "match" then some MatchInfo.interest else some .all

/-- The token that a text stands for. -/
def Token.ofWireText? (text : String) : Option Token :=
  (Json.parseFor? Token.interest text).bind Token.ofJson?

end TokenSpan
