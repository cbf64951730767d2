/-
  TokenSpan.Regex.Escape
  ──────────────────────
  The smallest parts of a pattern: blanks to skip, decimal counts, and escapes.

  Each reader takes the characters that are left and answers what it read and what is
  left after it.

  Main definitions: `skipVerbose`, `readWhile`, `readCount`, `readEscape`.
-/
import TokenSpan.Decimal.Digit
import TokenSpan.Regex.Flags
import TokenSpan.Regex.Node

namespace TokenSpan.Regex

/-! ## §1. Blanks and counts. -/

/-- The pattern without the blanks and comments it starts with; a comment ends with its line. -/
def skipVerbose : (comment : Bool) → List Char → List Char
  | _, [] => []
  | true, c :: rest => if c = '\n' then skipVerbose false rest else skipVerbose true rest
  | false, c :: rest =>
      if Unicode.isBlank c then skipVerbose false rest
      else if c = '#' then skipVerbose true rest
      else c :: rest

/-- Skips blanks and comments if the flags say so. -/
def Flags.skip (flags : Flags) (cs : List Char) : List Char :=
  if flags.verbose then skipVerbose false cs else cs

/-- Reads the characters that pass a test, skipping what the flags let be skipped after each one. -/
def readWhile (flags : Flags) (test : Char → Bool) : (fuel : Nat) → List Char → List Char × List Char
  | 0, cs => ([], cs)
  | _ + 1, [] => ([], [])
  | fuel + 1, c :: rest =>
      if test c then
        let (taken, rest) := readWhile flags test fuel (flags.skip rest)
        (c :: taken, rest)
      else ([], c :: rest)

/-- Reads a count of a repetition, between blanks. -/
def readCount (flags : Flags) (cs : List Char) : Except PatternError (Nat × List Char) :=
  let (digits, rest) := readWhile flags Char.isDigit cs.length (cs.dropWhile Unicode.isBlank)
  let value := Nat.ofDigitChars 10 digits 0
  if digits.isEmpty ∨ UInt32.size ≤ value then .error .countInvalid
  else .ok (value, flags.skip (rest.dropWhile Unicode.isBlank))

/-! ## §2. Escapes. -/

/-- A part of a pattern that is a character, a set or an assertion by itself. -/
inductive Atom where
  /-- A character. -/
  | char (c : Char)
  /-- A set of characters. -/
  | set (s : CharSet)
  /-- An assertion. -/
  | look (l : Look)

/-- The character of a code. -/
def charOfCode? (n : Nat) : Option Char := if n.isValidChar then some (Char.ofNat n) else none

/-- Reads a given number of hexadecimal digits. -/
def readHexDigits (flags : Flags) :
    (count value : Nat) → List Char → Except PatternError (Nat × List Char)
  | 0, value, cs => .ok (value, cs)
  | _ + 1, _, [] => .error .escapeUnclosed
  | count + 1, value, c :: rest =>
      match hexDigit? c with
      | some d => readHexDigits flags count (value * 16 + d) (flags.skip rest)
      | none => .error .codeInvalid

/-- Reads hexadecimal digits up to a closing brace. -/
def readHexBrace (flags : Flags) :
    (fuel : Nat) → (value : Option Nat) → List Char → Except PatternError (Nat × List Char)
  | 0, _, _ => .error .escapeUnclosed
  | _ + 1, _, [] => .error .escapeUnclosed
  | fuel + 1, value, c :: rest =>
      if c = '\x7d' then
        match value with
        | some n => .ok (n, rest)
        | none => .error .codeInvalid
      else
        match hexDigit? c with
        | some d => readHexBrace flags fuel (some (value.getD 0 * 16 + d)) (flags.skip rest)
        | none => .error .codeInvalid

/-- Reads the character of a code of `count` digits, or of any digits in braces. -/
def readCode (flags : Flags) (count : Nat) (cs : List Char) : Except PatternError (Char × List Char) := do
  let (braced, code, rest) ← match flags.skip cs with
    | [] => .error .escapeUnclosed
    | '\x7b' :: rest => do
        let (code, rest) ← readHexBrace flags (rest.length + 1) none (flags.skip rest)
        .ok (true, code, rest)
    | cs => do
        let (code, rest) ← readHexDigits flags count 0 cs
        .ok (false, code, rest)
  match charOfCode? code with
  | none => .error .codeInvalid
  | some c =>
      if !flags.unicode && !braced && count == 2 && 0x80 ≤ code then .error .beyondAscii
      else .ok (c, rest)

/-- The word edge of a name. -/
def wordEdge? (name : List Char) : Option WordEdge :=
  if name = "start".toList then some .start
  else if name = "end".toList then some .stop
  else if name = "start-half".toList then some .startHalf
  else if name = "end-half".toList then some .stopHalf
  else none

/-- Reads the name of a word edge and the brace after it; none if the braces hold something else. -/
def readWordEdge? (flags : Flags) (cs : List Char) :
    Except PatternError (Option (WordEdge × List Char)) :=
  let isNameChar (c : Char) : Bool := c.isAlpha || c == '-'
  match flags.skip cs with
  | [] => .error .wordEdgeInvalid
  | c :: rest =>
      if !isNameChar c then .ok none
      else
        let (name, rest) := readWhile flags isNameChar (rest.length + 1) (c :: rest)
        match wordEdge? name, rest with
        | some edge, '\x7d' :: rest => .ok (some (edge, rest))
        | _, _ => .error .wordEdgeInvalid

/-- The set of a class letter; without the Unicode flag its complement would cut characters. -/
def classLetter? (flags : Flags) (c : Char) : Option (Except PatternError CharSet) :=
  let positive : Option CharSet :=
    match c.toLower with
    | 'd' => some (if flags.unicode then .digit else .asciiDigit)
    | 's' => some (if flags.unicode then .blank else .asciiBlank)
    | 'w' => some (if flags.unicode then .word else .asciiWord)
    | _ => none
  positive.map fun s =>
    if c.isUpper then
      if flags.unicode then .ok (.compl s) else .error .beyondAscii
    else .ok s

/-- The character that a letter stands for after a backslash. -/
def controlLetter? : Char → Option Char
  | 'a' => some '\x07'
  | 'f' => some '\x0c'
  | 't' => some '\t'
  | 'n' => some '\n'
  | 'r' => some '\r'
  | 'v' => some '\x0b'
  | _ => none

/-- Whether a backslash takes the special meaning of a character away: ASCII punctuation and the like. -/
def isEscapable (c : Char) : Bool := c.toNat < 0x80 && !c.isAlphanum && c != '<' && c != '>'

/-- Reads what follows a backslash. -/
def readEscape (flags : Flags) : List Char → Except PatternError (Atom × List Char)
  | [] => .error .escapeUnclosed
  | c :: rest =>
      if c.isDigit then .error .backReference
      else if c = 'x' then (readCode flags 2 rest).map fun (c, r) => (.char c, r)
      else if c = 'u' then (readCode flags 4 rest).map fun (c, r) => (.char c, r)
      else if c = 'U' then (readCode flags 8 rest).map fun (c, r) => (.char c, r)
      else if isEscapable c then .ok (.char c, rest)
      else
        match classLetter? flags c with
        | some s => s.map fun s => (.set s, rest)
        | none =>
            match controlLetter? c with
            | some c => .ok (.char c, rest)
            | none =>
                match c with
                | 'A' => .ok (.look .textStart, rest)
                | 'z' => .ok (.look .textEnd, rest)
                | 'B' => .ok (.look (.word flags.unicode .interior), rest)
                | '<' => .ok (.look (.word flags.unicode .start), rest)
                | '>' => .ok (.look (.word flags.unicode .stop), rest)
                | 'b' =>
                    match rest with
                    | '\x7b' :: inner =>
                        (readWordEdge? flags inner).map fun
                          | some (edge, rest) => (.look (.word flags.unicode edge), rest)
                          | none => (.look (.word flags.unicode .boundary), rest)
                    | _ => .ok (.look (.word flags.unicode .boundary), rest)
                | _ => .error .escapeUnknown

end TokenSpan.Regex
