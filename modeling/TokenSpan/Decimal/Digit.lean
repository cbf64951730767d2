/-
  TokenSpan.Decimal.Digit
  ───────────────────────
  The values of digits in texts, and the powers that number formats are made of.
-/

namespace TokenSpan

/-- The value of a hexadecimal digit, in small or capital letters. -/
def hexDigit? (c : Char) : Option Nat :=
  if '0' ≤ c ∧ c ≤ '9' then some (c.toNat - '0'.toNat)
  else if 'a' ≤ c ∧ c ≤ 'f' then some (c.toNat - 'a'.toNat + 10)
  else if 'A' ≤ c ∧ c ≤ 'F' then some (c.toNat - 'A'.toNat + 10)
  else none

/-- A power of two. -/
def twoTo (k : Nat) : Nat := Nat.pow 2 k

/-- A power of ten. -/
def tenTo (k : Nat) : Nat := Nat.pow 10 k

end TokenSpan
