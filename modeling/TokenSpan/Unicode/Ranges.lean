/-
  TokenSpan.Unicode.Ranges
  ────────────────────────
  Sets of code points as lists of closed ranges.

  Tables of character properties are lists of this kind, in increasing order.
-/

namespace TokenSpan.Unicode

/-- A list of closed ranges of code points. -/
abbrev Ranges := List (Nat × Nat)

/-- Whether a code point lies in one of the ranges. -/
def Ranges.has (ranges : Ranges) (n : Nat) : Bool := ranges.any fun r => r.1 ≤ n && n ≤ r.2

end TokenSpan.Unicode
