/-
  TokenSpan.Regex.Flags
  ─────────────────────
  Options under which a pattern is read, and what may be wrong with a pattern.
-/

namespace TokenSpan.Regex

/-- Options of a pattern; a pattern may change them for a part of itself. -/
structure Flags where
  /-- Letters match up to case (`i`). -/
  ignoreCase : Bool := false
  /-- `^` and `$` also match at lines (`m`). -/
  multiLine : Bool := false
  /-- The dot also matches a line feed (`s`). -/
  dotAll : Bool := false
  /-- Repetition prefers few rounds unless marked, not many (`U`). -/
  swapGreed : Bool := false
  /-- Classes and words are those of Unicode, not those of ASCII (`u`). -/
  unicode : Bool := true
  /-- Blanks and comments between the parts of the pattern are skipped (`x`). -/
  verbose : Bool := false
  /-- Lines also end with a carriage return (`R`). -/
  crlf : Bool := false
  deriving DecidableEq

/-- The flag of a letter. -/
inductive Flag where
  /-- The letter `i`. -/
  | ignoreCase
  /-- The letter `m`. -/
  | multiLine
  /-- The letter `s`. -/
  | dotAll
  /-- The letter `U`. -/
  | swapGreed
  /-- The letter `u`. -/
  | unicode
  /-- The letter `x`. -/
  | verbose
  /-- The letter `R`. -/
  | crlf
  deriving DecidableEq

/-- The flag that a letter stands for. -/
def Flag.ofChar? : Char → Option Flag
  | 'i' => some .ignoreCase
  | 'm' => some .multiLine
  | 's' => some .dotAll
  | 'U' => some .swapGreed
  | 'u' => some .unicode
  | 'x' => some .verbose
  | 'R' => some .crlf
  | _ => none

/-- The options with one flag set or cleared. -/
def Flags.set (flags : Flags) (flag : Flag) (on : Bool) : Flags :=
  match flag with
  | .ignoreCase => { flags with ignoreCase := on }
  | .multiLine => { flags with multiLine := on }
  | .dotAll => { flags with dotAll := on }
  | .swapGreed => { flags with swapGreed := on }
  | .unicode => { flags with unicode := on }
  | .verbose => { flags with verbose := on }
  | .crlf => { flags with crlf := on }

/-- What may be wrong with a pattern. -/
inductive PatternError where
  /-- A group is not closed. -/
  | groupUnclosed
  /-- A group is closed that was not opened. -/
  | groupUnopened
  /-- The name of a group is empty, ends with the pattern, or has a character no name has. -/
  | groupName
  /-- Two groups have one name. -/
  | groupNameRepeated
  /-- Look-around groups do not exist. -/
  | lookAround
  /-- A letter is not that of a flag. -/
  | flagUnknown
  /-- A flag or the minus sign occurs twice. -/
  | flagRepeated
  /-- No flag follows a minus sign. -/
  | flagMissing
  /-- A quantifier has nothing to repeat. -/
  | nothingToRepeat
  /-- The braces of a count are not closed. -/
  | countUnclosed
  /-- A count has no digits, or more than 32 bits. -/
  | countInvalid
  /-- The upper count is below the lower one. -/
  | countReversed
  /-- The pattern ends within an escape. -/
  | escapeUnclosed
  /-- An escape has no meaning, at least not where it stands. -/
  | escapeUnknown
  /-- References to groups do not exist. -/
  | backReference
  /-- A character code has a wrong digit, no digits, or is no code of a character. -/
  | codeInvalid
  /-- The name of a word edge is unknown or not closed. -/
  | wordEdgeInvalid
  /-- A class is not closed. -/
  | classUnclosed
  /-- A range ends before it starts. -/
  | rangeReversed
  /-- An end of a range, or a member of a class, is not a character. -/
  | rangeInvalid
  /-- Without the Unicode flag, something would match part of a character. -/
  | beyondAscii
  /-- The pattern is nested too deep. -/
  | tooDeep
  /-- The compiled pattern would be too large. -/
  | tooLarge
  deriving DecidableEq

end TokenSpan.Regex
