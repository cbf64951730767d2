/-
  TokenSpan.Unicode.Word
  ──────────────────────
  The characters that words are made of: letters, marks, decimal digits, connecting
  punctuation and the two joiners.

  Main definitions: `isWord` and its restriction to ASCII, `isAsciiWord`.
-/
import TokenSpan.Unicode.Alphabetic
import TokenSpan.Unicode.Mark
import TokenSpan.Unicode.Numeric

namespace TokenSpan.Unicode

/-- Connecting punctuation (general category Pc). -/
def connectorRanges : Ranges :=
  [(0x5f, 0x5f), (0x203f, 0x2040), (0x2054, 0x2054), (0xfe33, 0xfe34), (0xfe4d, 0xfe4f),
   (0xff3f, 0xff3f)]

/-- The joiners (property Join_Control). -/
def joinerRanges : Ranges :=
  [(0x200c, 0x200d)]

/-- Whether a character belongs to a word. -/
def isWord (c : Char) : Bool :=
  isAlphabetic c || isMark c || isDecimalDigit c || connectorRanges.has c.toNat || joinerRanges.has c.toNat

/-- Whether a character is a letter, a digit or an underscore of ASCII. -/
def isAsciiWord (c : Char) : Bool := c.isAlphanum || c == '_'

/-- Whether a character is a letter or a number of any kind. -/
def isAlphanumeric (c : Char) : Bool := isAlphabetic c || isDecimalDigit c || isOtherNumber c

end TokenSpan.Unicode
