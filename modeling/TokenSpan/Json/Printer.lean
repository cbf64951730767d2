/-
  TokenSpan.Json.Printer
  ──────────────────────
  How documents are written.

  `Json.print` writes the compact text: no blanks, members in stored order, text raw
  except for quotes, backslashes and control characters.  `Json.inspect` writes the
  form that log events show: every value under the name of its kind.
-/
import TokenSpan.Decimal.Shortest
import TokenSpan.Json.Basic

namespace TokenSpan

/-! ## §1. Numbers and texts. -/

/-- The text of a number. -/
def Number.print : Number → List Char
  | .natural n => Nat.toDigits 10 n.toNat
  | .negSucc n => '-' :: Nat.toDigits 10 (n.val + 1)
  | .double d => d.text

namespace Json

/-- How a character stands inside a quoted text. -/
def escape (c : Char) : List Char :=
  match c with
  | '"' => ['\\', '"']
  | '\\' => ['\\', '\\']
  | '\n' => ['\\', 'n']
  | '\r' => ['\\', 'r']
  | '\t' => ['\\', 't']
  | '\x08' => ['\\', 'b']
  | '\x0c' => ['\\', 'f']
  | c =>
      if c.toNat < 0x20 then
        ['\\', 'u', '0', '0', Nat.digitChar (c.toNat / 16), Nat.digitChar (c.toNat % 16)]
      else [c]

/-- A text between quotes. -/
def quote (s : String) : List Char := '"' :: s.toList.flatMap escape ++ ['"']

/-! ## §2. Compact documents. -/

mutual

/-- The compact text of a document. -/
def print : Json → List Char
  | .null => ['n', 'u', 'l', 'l']
  | .bool true => ['t', 'r', 'u', 'e']
  | .bool false => ['f', 'a', 'l', 's', 'e']
  | .number n => n.print
  | .string s => quote s
  | .array items => '[' :: printItems items ++ [']']
  | .object members => '{' :: printMembers members ++ ['}']

/-- The items with commas between them. -/
def printItems : List Json → List Char
  | [] => []
  | [j] => print j
  | j :: rest => print j ++ ',' :: printItems rest

/-- The members with commas between them. -/
def printMembers : List (String × Json) → List Char
  | [] => []
  | [(k, j)] => quote k ++ ':' :: print j
  | (k, j) :: rest => quote k ++ ':' :: print j ++ ',' :: printMembers rest

end

/-- The compact text of a document. -/
def text (j : Json) : String := String.ofList j.print

/-! ## §3. Inspection. -/

/-- How a character stands inside an inspected text. -/
def inspectChar (c : Char) : List Char :=
  match c with
  | '"' => ['\\', '"']
  | '\\' => ['\\', '\\']
  | '\n' => ['\\', 'n']
  | '\r' => ['\\', 'r']
  | '\t' => ['\\', 't']
  | '\x00' => ['\\', '0']
  | c =>
      if c.toNat < 0x20 ∨ c.toNat = 0x7f then
        ['\\', 'u', '{'] ++ Nat.toDigits 16 c.toNat ++ ['}']
      else [c]

/-- An inspected text between quotes. -/
def inspectText (s : String) : List Char := '"' :: s.toList.flatMap inspectChar ++ ['"']

mutual

/-- A document under the names of its kinds. -/
def inspect : Json → List Char
  | .null => "Null".toList
  | .bool true => "Bool(true)".toList
  | .bool false => "Bool(false)".toList
  | .number n => "Number(".toList ++ n.print ++ [')']
  | .string s => "String(".toList ++ inspectText s ++ [')']
  | .array items => "Array [".toList ++ inspectItems items ++ [']']
  | .object members => "Object ".toList ++ '{' :: inspectMembers members ++ ['}']

/-- The inspected items with commas and blanks between them. -/
def inspectItems : List Json → List Char
  | [] => []
  | [j] => inspect j
  | j :: rest => inspect j ++ ',' :: ' ' :: inspectItems rest

/-- The inspected members with commas and blanks between them. -/
def inspectMembers : List (String × Json) → List Char
  | [] => []
  | [(k, j)] => inspectText k ++ ':' :: ' ' :: inspect j
  | (k, j) :: rest => inspectText k ++ ':' :: ' ' :: inspect j ++ ',' :: ' ' :: inspectMembers rest

end

end Json

/-- The inspected form of named values. -/
def KeyMap.inspect (m : KeyMap Value) : String :=
  String.ofList ('{' :: Json.inspectMembers (m.entries.map fun e => (e.1, e.2.json)) ++ ['}'])

end TokenSpan
