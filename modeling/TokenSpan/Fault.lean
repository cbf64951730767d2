/-
  TokenSpan.Fault
  ───────────────
  What can go wrong when passes are built and run, and how it is reported.

  Main definitions: `Fault`, its wording `Fault.message`, and the checked sum of positions
  `addPositions`.
-/
import TokenSpan.Preset
import TokenSpan.Regex.Flags
import TokenSpan.Text

namespace TokenSpan

/-- Why a pass could not be built or run. -/
inductive Fault where
  /-- A position does not fit 64 bits. -/
  | overflow
  /-- A filler, repeated for a gap, would take `textBound` bytes or more. -/
  | capacity
  /-- The result for the token at `position` holds a sequence of `count` results inside a sequence. -/
  | nestedResult (count position : Nat)
  /-- A transform reported that it has no proper result. -/
  | reported (detail : String)
  /-- A pattern is not valid. -/
  | pattern (cause : Regex.PatternError)
  /-- No preset has the name. -/
  | unknownPreset (name : String)
  deriving DecidableEq

namespace Fault

/-- What a malformed result consists in. -/
def malformedText (detail : String) : String := "Malformed transform result: " ++ detail

/-- The wording of a fault. -/
def message : Fault → String
  | .overflow => "attempt to add with overflow"
  | .capacity => "capacity overflow"
  | .nestedResult count position =>
      malformedText ("nested sequence of " ++ toString count ++
        " results while normalizing token at " ++ toString position)
  | .reported detail => malformedText detail
  | .pattern _ => "Regex compilation error"
  | .unknownPreset name =>
      "Unknown preset: " ++ name ++ ". Supported: " ++ ", ".intercalate Preset.supportedNames

end Fault

/-- The sum of two positions, if it fits 64 bits. -/
def addPositions (a b : Nat) : Except Fault Nat :=
  if a + b < positionBound then .ok (a + b) else .error .overflow

/-- A sum of positions that exists is the plain sum, and fits. -/
theorem addPositions_eq_ok_iff {a b c : Nat} :
    addPositions a b = .ok c ↔ a + b = c ∧ a + b < positionBound := by
  unfold addPositions
  split
  · simp_all
  · rename_i h
    simp [h]

/-- The only fault of a sum of positions is an overflow. -/
theorem addPositions_eq_error_iff {a b : Nat} {e : Fault} :
    addPositions a b = .error e ↔ e = .overflow ∧ positionBound ≤ a + b := by
  unfold addPositions
  split
  · simp; omega
  · simp only [Except.error.injEq]; constructor
    · exact fun h => ⟨h.symm, by omega⟩
    · exact fun h => h.1.symm

end TokenSpan
