/-
  TokenSpan.Regex.CharSet
  ───────────────────────
  Sets of characters as patterns describe them.

  A set is kept as the expression that describes it; `CharSet.has` decides membership.
  Nothing enumerates a set, so classes over all of Unicode cost nothing to build.

  Main results: the membership laws of §2, one per way to build a set.
-/
import TokenSpan.Unicode.Blank
import TokenSpan.Unicode.Fold
import TokenSpan.Unicode.Word

namespace TokenSpan.Regex

/-! ## §1. Sets and membership. -/

/-- A set of characters. -/
inductive CharSet where
  /-- No character. -/
  | empty
  /-- The characters from the first to the last one. -/
  | range (first last : Char)
  /-- The decimal digits of all scripts. -/
  | digit
  /-- The blanks. -/
  | blank
  /-- The characters of words. -/
  | word
  /-- All other characters. -/
  | compl (s : CharSet)
  /-- The characters of either set. -/
  | union (s t : CharSet)
  /-- The characters of both sets. -/
  | inter (s t : CharSet)
  /-- The characters of the first set only. -/
  | diff (s t : CharSet)
  /-- The characters of exactly one of the sets. -/
  | symmDiff (s t : CharSet)
  /-- The characters equal to a member up to case. -/
  | caseFold (s : CharSet)
  /-- The characters equal to a member up to the case of ASCII letters. -/
  | asciiCaseFold (s : CharSet)
  deriving DecidableEq

namespace CharSet

/-- Whether a character belongs to a set. -/
def has : CharSet → Char → Bool
  | .empty, _ => false
  | .range first last, c => first ≤ c && c ≤ last
  | .digit, c => Unicode.isDecimalDigit c
  | .blank, c => Unicode.isBlank c
  | .word, c => Unicode.isWord c
  | .compl s, c => !s.has c
  | .union s t, c => s.has c || t.has c
  | .inter s t, c => s.has c && t.has c
  | .diff s t, c => s.has c && !t.has c
  | .symmDiff s t, c => s.has c != t.has c
  | .caseFold s, c => (Unicode.caseClass c).any s.has
  | .asciiCaseFold s, c => (Unicode.asciiCaseClass c).any s.has

/-- The set of one character. -/
def single (c : Char) : CharSet := .range c c

/-- The set of all characters. -/
def all : CharSet := .compl .empty

/-- The union of a list of sets. -/
def unions : List CharSet → CharSet
  | [] => .empty
  | [s] => s
  | s :: rest => .union s (unions rest)

/-! ## §2. Membership laws. -/

@[simp] theorem has_empty (c : Char) : has .empty c = false := rfl
@[simp] theorem has_all (c : Char) : has all c = true := rfl
@[simp] theorem has_compl (s : CharSet) (c : Char) : has (.compl s) c = !s.has c := rfl
@[simp] theorem has_union (s t : CharSet) (c : Char) : has (.union s t) c = (s.has c || t.has c) := rfl
@[simp] theorem has_inter (s t : CharSet) (c : Char) : has (.inter s t) c = (s.has c && t.has c) := rfl

/-- The set of one character holds that character only. -/
@[simp] theorem has_single (a c : Char) : has (single a) c = true ↔ c = a := by
  simp only [single, has, Bool.and_eq_true, decide_eq_true_eq]
  exact ⟨fun h => Char.le_antisymm h.2 h.1, fun h => h ▸ ⟨Char.le_refl _, Char.le_refl _⟩⟩

/-- The union of a list holds what one of its sets holds. -/
theorem has_unions (c : Char) : (sets : List CharSet) → (has (unions sets) c = sets.any (·.has c))
  | [] => rfl
  | [s] => by simp [unions]
  | s :: t :: rest => by simp [unions, has_unions c (t :: rest)]

/-! ## §3. ASCII classes. -/

/-- The decimal digits of ASCII. -/
def asciiDigit : CharSet := .range '0' '9'

/-- The small letters of ASCII. -/
def asciiLower : CharSet := .range 'a' 'z'

/-- The capital letters of ASCII. -/
def asciiUpper : CharSet := .range 'A' 'Z'

/-- The letters of ASCII. -/
def asciiAlpha : CharSet := unions [asciiUpper, asciiLower]

/-- The blanks of ASCII. -/
def asciiBlank : CharSet := unions [.range '\t' '\r', single ' ']

/-- Letters, digits and the underscore of ASCII. -/
def asciiWord : CharSet := unions [asciiDigit, asciiUpper, single '_', asciiLower]

/-- The class that has a name inside brackets, such as `alpha`. -/
def ofName? (name : List Char) : Option CharSet :=
  if name = "alnum".toList then some (unions [asciiDigit, asciiAlpha])
  else if name = "alpha".toList then some asciiAlpha
  else if name = "ascii".toList then some (.range '\x00' '\x7f')
  else if name = "blank".toList then some (unions [single '\t', single ' '])
  else if name = "cntrl".toList then some (unions [.range '\x00' '\x1f', single '\x7f'])
  else if name = "digit".toList then some asciiDigit
  else if name = "graph".toList then some (.range '!' '~')
  else if name = "lower".toList then some asciiLower
  else if name = "print".toList then some (.range ' ' '~')
  else if name = "punct".toList then
    some (unions [.range '!' '/', .range ':' '@', .range '[' '\x60', .range '\x7b' '~'])
  else if name = "space".toList then some asciiBlank
  else if name = "upper".toList then some asciiUpper
  else if name = "word".toList then some asciiWord
  else if name = "xdigit".toList then some (unions [asciiDigit, .range 'A' 'F', .range 'a' 'f'])
  else none

end CharSet

end TokenSpan.Regex
