/-
  TokenSpan.Json.Reader
  ─────────────────────
  Reading documents from text.

  The grammar is strict: no trailing text or commas, no leading zeros, no raw control
  characters in texts, no half of a surrogate pair.  Each reader takes the characters
  that are left and answers what it read and what is left after it.

  Whoever reads may have no use for parts of a document (`Interest`).  Those are passed over by
  their form alone: their numbers may be of any size, and their texts may hold half a pair.

  Main definitions: `Number.read?`, `Json.readText?`, `Json.skip?`, `Json.parseFor?`.
-/
import TokenSpan.Decimal.Digit
import TokenSpan.Json.Basic

namespace TokenSpan

/-! ## §1. Numbers. -/

namespace Number

/--
Takes digits into a significand as long as it stays below 2^64; answers the significand and the
digits that were left out.
-/
def gather (significand : Nat) : List Char → Nat × List Char
  | [] => (significand, [])
  | c :: rest =>
      let next := significand * 10 + (c.toNat - '0'.toNat)
      if next < UInt64.size then gather next rest else (significand, c :: rest)

/-- The digits after a point, if there is a point; none if no digit follows it. -/
def readFraction? : List Char → Option (List Char × List Char)
  | '.' :: rest =>
      match rest.takeWhile Char.isDigit with
      | [] => none
      | digits => some (digits, rest.dropWhile Char.isDigit)
  | rest => some ([], rest)

/-- The digits of an exponent with their sign; none if there is no digit. -/
def readExponentDigits? (negative : Bool) (cs : List Char) : Option (Int × List Char) :=
  match cs.takeWhile Char.isDigit with
  | [] => none
  | digits =>
      let n : Int := Nat.ofDigitChars 10 digits 0
      some (if negative then -n else n, cs.dropWhile Char.isDigit)

/-- The exponent after an `e`, if there is one. -/
def readExponent? : List Char → Option (Option Int × List Char)
  | c :: rest =>
      if c = 'e' ∨ c = 'E' then
        match rest with
        | '+' :: rest => (readExponentDigits? false rest).map fun (n, r) => (some n, r)
        | '-' :: rest => (readExponentDigits? true rest).map fun (n, r) => (some n, r)
        | rest => (readExponentDigits? false rest).map fun (n, r) => (some n, r)
      else some (none, c :: rest)
  | [] => some (none, [])

/-- The integer of a sign and a magnitude; a double if it is minus zero or has more than 64 bits. -/
def ofMagnitude? (negative : Bool) (magnitude : Nat) : Option Number :=
  if negative then
    if h : 0 < magnitude ∧ magnitude ≤ 9223372036854775808 then some (.negSucc ⟨magnitude - 1, by omega⟩)
    else (Double.ofDecimal? true magnitude 0).map .double
  else if h : magnitude < UInt64.size then some (.natural (UInt64.ofNatLT magnitude h))
  else (Double.ofDecimal? false magnitude 0).map .double

end Number

/-- A number as it is written. -/
structure Numeral where
  /-- Whether there is a minus sign. -/
  negative : Bool
  /-- The digits before the point. -/
  whole : List Char
  /-- The digits after the point; none if there is no point. -/
  fraction : List Char
  /-- The exponent, if there is one. -/
  exponent : Option Int

namespace Numeral

/--
The number that is written.  Digits of the whole part that do not fit the significand count as places,
digits of the fraction that do not fit are dropped.
-/
def number? (n : Numeral) : Option Number :=
  let (significand, places) := Number.gather 0 n.whole
  if places.isEmpty ∧ n.fraction.isEmpty ∧ n.exponent.isNone then
    Number.ofMagnitude? n.negative significand
  else
    let (significand, unread) := Number.gather significand n.fraction
    let shift : Int := places.length - (n.fraction.length - unread.length : Nat) + n.exponent.getD 0
    (Double.ofDecimal? n.negative significand shift).map .double

/-- Reads the form of a number without its sign. -/
def readMagnitude? (negative : Bool) (cs : List Char) : Option (Numeral × List Char) :=
  match cs.takeWhile Char.isDigit with
  | [] => none
  | '0' :: _ :: _ => none
  | whole => do
      let (fraction, rest) ← Number.readFraction? (cs.dropWhile Char.isDigit)
      let (exponent, rest) ← Number.readExponent? rest
      some ({ negative, whole, fraction, exponent }, rest)

/-- Reads the form of a number. -/
def read? : List Char → Option (Numeral × List Char)
  | '-' :: rest => readMagnitude? true rest
  | cs => readMagnitude? false cs

end Numeral

/-- Reads a number, which may be too large. -/
def Number.read? (cs : List Char) : Option (Number × List Char) :=
  (Numeral.read? cs).bind fun (n, rest) => n.number?.map fun number => (number, rest)

namespace Json

/-! ## §2. Texts. -/

/-- The value of four hexadecimal digits. -/
def hexUnit? (a b c d : Char) : Option Nat := do
  let a ← hexDigit? a
  let b ← hexDigit? b
  let c ← hexDigit? c
  let d ← hexDigit? d
  some (((a * 16 + b) * 16 + c) * 16 + d)

/-- The character that a letter stands for after a backslash. -/
def unescape? : Char → Option Char
  | '"' => some '"'
  | '\\' => some '\\'
  | '/' => some '/'
  | 'b' => some '\x08'
  | 'f' => some '\x0c'
  | 'n' => some '\n'
  | 'r' => some '\r'
  | 't' => some '\t'
  | _ => none

/-- Reads a text up to its closing quote. -/
def readText? : List Char → Option (List Char × List Char)
  | [] => none
  | '"' :: rest => some ([], rest)
  | '\\' :: 'u' :: a :: b :: c :: d :: rest =>
      match hexUnit? a b c d with
      | none => none
      | some unit =>
          if 0xd800 ≤ unit ∧ unit < 0xdc00 then
            match rest with
            | '\\' :: 'u' :: e :: f :: g :: h :: rest =>
                match hexUnit? e f g h with
                | none => none
                | some low =>
                    if 0xdc00 ≤ low ∧ low < 0xe000 then
                      let c := Char.ofNat (0x10000 + (unit - 0xd800) * 0x400 + (low - 0xdc00))
                      (readText? rest).map fun (s, r) => (c :: s, r)
                    else none
            | _ => none
          else if 0xdc00 ≤ unit ∧ unit < 0xe000 then none
          else (readText? rest).map fun (s, r) => (Char.ofNat unit :: s, r)
  | '\\' :: c :: rest =>
      match unescape? c with
      | none => none
      | some c => (readText? rest).map fun (s, r) => (c :: s, r)
  | c :: rest =>
      if c.toNat < 0x20 ∨ c = '\\' then none else (readText? rest).map fun (s, r) => (c :: s, r)

/-- Passes over a text up to its closing quote; halves of surrogate pairs do no harm. -/
def skipText? : List Char → Option (List Char)
  | [] => none
  | '"' :: rest => some rest
  | '\\' :: 'u' :: a :: b :: c :: d :: rest => if (hexUnit? a b c d).isSome then skipText? rest else none
  | '\\' :: c :: rest => if (unescape? c).isSome then skipText? rest else none
  | c :: rest => if c.toNat < 0x20 ∨ c = '\\' then none else skipText? rest

/-! ## §3. Documents. -/

/-- The blanks between the parts of a document. -/
def isBlank (c : Char) : Bool := c == ' ' || c == '\n' || c == '\t' || c == '\r'

/-- The text without the blanks it starts with. -/
def skipBlanks (cs : List Char) : List Char := cs.dropWhile isBlank

mutual

/-- Passes over a document that starts at the first character. -/
def skip? : Nat → List Char → Option (List Char)
  | 0, _ => none
  | fuel + 1, cs =>
      match cs with
      | 'n' :: 'u' :: 'l' :: 'l' :: rest => some rest
      | 't' :: 'r' :: 'u' :: 'e' :: rest => some rest
      | 'f' :: 'a' :: 'l' :: 's' :: 'e' :: rest => some rest
      | '"' :: rest => skipText? rest
      | '[' :: rest =>
          match skipBlanks rest with
          | ']' :: rest => some rest
          | rest => skipItems? fuel rest
      | '{' :: rest =>
          match skipBlanks rest with
          | '}' :: rest => some rest
          | rest => skipMembers? fuel rest
      | cs => (Numeral.read? cs).map (·.2)

/-- Passes over items up to the closing bracket. -/
def skipItems? : Nat → List Char → Option (List Char)
  | 0, _ => none
  | fuel + 1, cs =>
      match skip? fuel cs with
      | none => none
      | some rest =>
          match skipBlanks rest with
          | ']' :: rest => some rest
          | ',' :: rest => skipItems? fuel (skipBlanks rest)
          | _ => none

/-- Passes over members up to the closing brace. -/
def skipMembers? : Nat → List Char → Option (List Char)
  | 0, _ => none
  | fuel + 1, cs =>
      match cs with
      | '"' :: rest =>
          match skipText? rest with
          | none => none
          | some rest =>
              match skipBlanks rest with
              | ':' :: rest =>
                  match skip? fuel (skipBlanks rest) with
                  | none => none
                  | some rest =>
                      match skipBlanks rest with
                      | '}' :: rest => some rest
                      | ',' :: rest => skipMembers? fuel (skipBlanks rest)
                      | _ => none
              | _ => none
      | _ => none

end

/-- What is wanted of a document. -/
inductive Interest where
  /-- All of it. -/
  | all
  /-- If it is an object, what is wanted of the member of each name, if anything; otherwise all of it. -/
  | members (of : String → Option Interest)

/-- What is wanted of the member of a name. -/
def Interest.of : Interest → String → Option Interest
  | .all, _ => some .all
  | .members f, name => f name

/-- Reads what is wanted; null stands for a value of which nothing is wanted, and which is passed over. -/
def readWanted? (read : Interest → Option (Json × List Char)) (skip : Unit → Option (List Char)) :
    Option Interest → Option (Json × List Char)
  | some i => read i
  | none => (skip ()).map fun rest => (.null, rest)

mutual

/-- Reads what is wanted of a document that starts at the first character. -/
def read? : Interest → Nat → List Char → Option (Json × List Char)
  | _, 0, _ => none
  | i, fuel + 1, cs =>
      match cs with
      | 'n' :: 'u' :: 'l' :: 'l' :: rest => some (.null, rest)
      | 't' :: 'r' :: 'u' :: 'e' :: rest => some (.bool true, rest)
      | 'f' :: 'a' :: 'l' :: 's' :: 'e' :: rest => some (.bool false, rest)
      | '"' :: rest => (readText? rest).map fun (s, r) => (.string (String.ofList s), r)
      | '[' :: rest =>
          match skipBlanks rest with
          | ']' :: rest => some (.array [], rest)
          | rest => (readItems? fuel rest).map fun (items, r) => (.array items, r)
      | '{' :: rest =>
          match skipBlanks rest with
          | '}' :: rest => some (.object [], rest)
          | rest => (readMembers? i fuel rest).map fun (members, r) => (.object members, r)
      | cs => (Number.read? cs).map fun (n, r) => (.number n, r)

/-- Reads items up to the closing bracket. -/
def readItems? : Nat → List Char → Option (List Json × List Char)
  | 0, _ => none
  | fuel + 1, cs =>
      match read? .all fuel cs with
      | none => none
      | some (j, rest) =>
          match skipBlanks rest with
          | ']' :: rest => some ([j], rest)
          | ',' :: rest => (readItems? fuel (skipBlanks rest)).map fun (js, r) => (j :: js, r)
          | _ => none

/-- Reads what is wanted of members up to the closing brace. -/
def readMembers? : Interest → Nat → List Char → Option (List (String × Json) × List Char)
  | _, 0, _ => none
  | i, fuel + 1, cs =>
      match cs with
      | '"' :: rest =>
          match readText? rest with
          | none => none
          | some (key, rest) =>
              match skipBlanks rest with
              | ':' :: rest =>
                  match readWanted? (fun i => read? i fuel (skipBlanks rest))
                      (fun _ => skip? fuel (skipBlanks rest)) (i.of (String.ofList key)) with
                  | none => none
                  | some (j, rest) =>
                      match skipBlanks rest with
                      | '}' :: rest => some ([(String.ofList key, j)], rest)
                      | ',' :: rest =>
                          (readMembers? i fuel (skipBlanks rest)).map fun (ms, r) =>
                            ((String.ofList key, j) :: ms, r)
                      | _ => none
              | _ => none
      | _ => none

end

/-- What is wanted of the document of a text; none unless the whole text is one document between blanks. -/
def parseFor? (i : Interest) (s : String) : Option Json :=
  let cs := s.toList
  match read? i (cs.length + 1) (skipBlanks cs) with
  | some (j, rest) => if (skipBlanks rest).isEmpty then some j else none
  | none => none

/-- The document of a text; none unless the whole text is one document between blanks. -/
def parse? (s : String) : Option Json := parseFor? .all s

end Json

end TokenSpan
