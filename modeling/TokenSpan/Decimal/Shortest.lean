/-
  TokenSpan.Decimal.Shortest
  ──────────────────────────
  The shortest decimal that reads back as a given double.

  The numbers that round to a double form an interval around it.  For one digit, two
  digits and so on, the two neighbours of the double on that decimal grid are tried
  against the interval; the first grid with a hit wins, and of two hits the nearer one.

  Main definitions: `Double.shortest` (digits and exponent) and `Double.text` (how a
  double is written: positional from 10^-5 up to below 10^16, otherwise with an exponent).
-/
import TokenSpan.Decimal.Double

namespace TokenSpan.Double

/-! ## §1. The interval of numbers that round to a double. -/

/-- The distance to the upper end of the interval, in quarters of the last place's unit. -/
def upperGap (_ : Double) : Nat := 2

/-- The distance to the lower end: half as far below a power of two. -/
def lowerGap (d : Double) : Nat := if d.mantissa = twoTo 52 ∧ 0 < d.exponent then 1 else 2

/-- A point `coefficient · 10^power` of a decimal grid, as a numerator and a denominator. -/
def gridPoint (coefficient : Nat) (power : Int) : Nat × Nat :=
  match power with
  | .ofNat k => (coefficient * tenTo k, 1)
  | .negSucc k => (coefficient, tenTo (k + 1))

/-- Whether a grid point rounds to the double: the ends of the interval count if the mantissa is even. -/
def holds (d : Double) (coefficient : Nat) (power : Int) : Bool :=
  let (num, den) := gridPoint coefficient power
  let unit := twoTo d.exponent * den
  let low := (4 * d.mantissa - d.lowerGap) * unit
  let high := (4 * d.mantissa + d.upperGap) * unit
  let point := num * twoTo 1076
  if d.mantissa % 2 = 0 then low ≤ point && point ≤ high else low < point && point < high

/-- The distance of a grid point from the double, over the denominator of the point. -/
def distance (d : Double) (coefficient : Nat) (power : Int) : Nat :=
  let (num, den) := gridPoint coefficient power
  let point := num * twoTo 1076
  let centre := 4 * d.mantissa * twoTo d.exponent * den
  (point - centre) + (centre - point)

/-! ## §2. The digits. -/

/-- The number of decimal digits before the point, less one; negative for numbers below one. -/
def magnitude (d : Double) : Int :=
  let num := d.mantissa * twoTo d.exponent
  let den := twoTo 1074
  if den ≤ num then ((Nat.toDigits 10 (num / den)).length : Int) - 1
  else
    let k := ((Nat.toDigits 10 (den / num)).length : Int)
    if num * tenTo (k.toNat - 1) < den then -k else -(k - 1)

/-- The coefficient of the grid point just below the double. -/
def floorOn (d : Double) (power : Int) : Nat :=
  let num := d.mantissa * twoTo d.exponent
  match power with
  | .ofNat k => num / (twoTo 1074 * tenTo k)
  | .negSucc k => num * tenTo (k + 1) / twoTo 1074

/-- Takes zeros off the end of a coefficient and counts them into the power. -/
def trimZeros : Nat → Nat → Int → Nat × Int
  | 0, coefficient, power => (coefficient, power)
  | fuel + 1, coefficient, power =>
      if coefficient % 10 = 0 ∧ coefficient ≠ 0 then trimZeros fuel (coefficient / 10) (power + 1)
      else (coefficient, power)

/-- Tries the grids of `count`, `count + 1`, … digits. -/
def search (d : Double) (top : Int) : Nat → Nat → Nat × Int
  | 0, count => (d.floorOn (top - count), top - count)
  | fuel + 1, count =>
      let power := top - count
      let low := d.floorOn power
      let high := low + 1
      match d.holds low power, d.holds high power with
      | true, true =>
          let a := d.distance low power
          let b := d.distance high power
          if a < b ∨ (a = b ∧ low % 2 = 0) then (low, power) else (high, power)
      | true, false => (low, power)
      | false, true => (high, power)
      | false, false => search d top fuel (count + 1)

/-- The coefficient and power of ten of the shortest decimal that reads back as a positive double. -/
def shortest (d : Double) : Nat × Int :=
  let (coefficient, power) := d.search d.magnitude 20 0
  trimZeros 20 coefficient power

/-! ## §3. The written form. -/

/-- How a positive number `coefficient · 10^power` is written. -/
def writeDecimal (coefficient : Nat) (power : Int) : List Char :=
  let digits := Nat.toDigits 10 coefficient
  let point : Int := digits.length + power
  if 0 ≤ power ∧ point ≤ 16 then digits ++ List.replicate power.toNat '0' ++ ['.', '0']
  else if 0 < point ∧ point ≤ 16 then
    digits.take point.toNat ++ '.' :: digits.drop point.toNat
  else if -5 < point ∧ point ≤ 0 then
    ['0', '.'] ++ List.replicate (-point).toNat '0' ++ digits
  else
    let exponent := point - 1
    let tail := match exponent with
      | .ofNat k => Nat.toDigits 10 k
      | .negSucc k => '-' :: Nat.toDigits 10 (k + 1)
    match digits with
    | d :: [] => d :: 'e' :: tail
    | d :: more => d :: '.' :: more ++ 'e' :: tail
    | [] => []

/-- The text of a double: the shortest decimal that reads back, always with a point or an exponent. -/
def text (d : Double) : List Char :=
  let sign := if d.negative then ['-'] else []
  if d.isZero then sign ++ ['0', '.', '0']
  else
    let (coefficient, power) := d.shortest
    sign ++ writeDecimal coefficient power

end TokenSpan.Double
