/-
  TokenSpan.Decimal.Double
  ────────────────────────
  Finite doubles (64-bit binary floating point) in exact integer arithmetic.

  A double is a sign and a magnitude `mantissa · 2^exponent / 2^1074`.  Every operation
  forms its exact result as a quotient of natural numbers and rounds it once, to the
  nearest double and on a tie to the even mantissa, so nothing here depends on hardware.

  Main definitions: `ofRatio?` (the double nearest to a quotient, none beyond the largest
  double) and `ofDecimal?` (the double of a decimal notation).
-/
import TokenSpan.Decimal.Digit

namespace TokenSpan

/-- A finite double: `± mantissa · 2^exponent / 2^1074`. -/
structure Double where
  /-- Whether the sign is minus; zero has both signs. -/
  negative : Bool
  /-- The significant bits. -/
  mantissa : Nat
  /-- The exponent above that of the smallest positive double. -/
  exponent : Nat
  /-- There are at most 53 significant bits. -/
  mantissa_lt : mantissa < twoTo 53
  /-- The largest double has exponent 2045. -/
  exponent_le : exponent ≤ 2045
  /-- Only the smallest exponent leaves the leading bit clear, so each number has one form. -/
  leading : exponent = 0 ∨ twoTo 52 ≤ mantissa
  deriving DecidableEq

namespace Double

/-! ## §1. Rounding a quotient. -/

/-- The natural number nearest to `num / den`; a tie goes to the even one. -/
def roundQuotient (num den : Nat) : Nat :=
  let q := num / den
  let r := num % den
  if 2 * r < den then q else if den < 2 * r then q + 1 else q + q % 2

/-- The double of the given parts, if they are those of one. -/
def ofParts? (negative : Bool) (mantissa exponent : Nat) : Option Double :=
  if h : mantissa < twoTo 53 ∧ exponent ≤ 2045 ∧ (exponent = 0 ∨ twoTo 52 ≤ mantissa) then
    some ⟨negative, mantissa, exponent, h.1, h.2.1, h.2.2⟩
  else none

/-- The double nearest to `± num / den`, or none if that is beyond the largest one. -/
def ofRatio? (negative : Bool) (num den : Nat) : Option Double :=
  let scaled := num * twoTo 1074
  let whole := scaled / den
  let exponent := if whole < twoTo 53 then 0 else whole.log2 - 52
  let mantissa := roundQuotient scaled (den * twoTo exponent)
  if mantissa = twoTo 53 then ofParts? negative (twoTo 52) (exponent + 1)
  else ofParts? negative mantissa exponent

/-! ## §2. Numbers. -/

/-- Zero with a sign. -/
def zero (negative : Bool) : Double := ⟨negative, 0, 0, by decide, by decide, .inl rfl⟩

/-- Whether the number is a zero of either sign. -/
def isZero (d : Double) : Bool := d.mantissa == 0

/-- Equality as numbers: the two zeros are equal. -/
def same (a b : Double) : Bool := a == b || (a.isZero && b.isZero)

/-- The product of two numbers, rounded; none if it is beyond the largest double. -/
def mul? (a b : Double) : Option Double :=
  ofRatio? (a.negative != b.negative)
    (a.mantissa * b.mantissa * twoTo (a.exponent + b.exponent)) (twoTo 2148)

/-- The quotient of two numbers, rounded; none if it is beyond the largest double. -/
def div? (a b : Double) : Option Double :=
  ofRatio? (a.negative != b.negative) (a.mantissa * twoTo a.exponent) (b.mantissa * twoTo b.exponent)

/-- The double nearest to a power of ten. -/
def powerOfTen? (k : Nat) : Option Double := ofRatio? false (tenTo k) 1

/-! ## §3. Decimal notation. -/

/-- The largest power of ten that is a double. -/
def maxPower : Nat := 308

/-- Divides by a power of ten, in steps of at most the largest one that is a double. -/
def scaleDown? (d : Double) (k : Nat) : Option Double :=
  if k ≤ maxPower then (powerOfTen? k).bind d.div?
  else if d.isZero then some d
  else ((powerOfTen? maxPower).bind d.div?).bind fun d => scaleDown? d (k - maxPower)
termination_by k
decreasing_by simp only [maxPower] at *; omega

/-- Multiplies by a power of ten. -/
def scaleUp? (d : Double) (k : Nat) : Option Double :=
  if k ≤ maxPower then (powerOfTen? k).bind d.mul?
  else if d.isZero then some d
  else none

/--
The double that stands for `± significand · 10^exponent`: the significand is rounded first, then one
product or quotient with a power of ten.  None if the result is beyond the largest double.
-/
def ofDecimal? (negative : Bool) (significand : Nat) (exponent : Int) : Option Double :=
  (ofRatio? negative significand 1).bind fun d =>
    match exponent with
    | .ofNat k => d.scaleUp? k
    | .negSucc k => d.scaleDown? (k + 1)

end Double

end TokenSpan
