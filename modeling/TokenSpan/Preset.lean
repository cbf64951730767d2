/-
  TokenSpan.Preset
  ────────────────
  The ready-made ways to cut a text: sections, words and characters.

  Each preset is a pattern; its matches are the tokens.

  Main results:
  * `ofName?_isSome_of_mem` — every supported name stands for a preset.
-/
namespace TokenSpan

/-- A ready-made way to cut a text. -/
inductive Preset where
  /-- Runs between line feeds and the marks that end or divide sentences. -/
  | sections
  /-- Runs between blanks and punctuation. -/
  | words
  /-- Single characters that are no blanks. -/
  | characters
  deriving DecidableEq

namespace Preset

/-- The names under which presets are found, in the order they are listed. -/
def supportedNames : List String := ["sections", "sentences", "words", "characters", "chars"]

/-- The preset of a name. -/
def ofName? : String → Option Preset
  | "sections" | "sentences" => some .sections
  | "words" => some .words
  | "characters" | "chars" => some .characters
  | _ => none

/-- Every supported name stands for a preset. -/
theorem ofName?_isSome_of_mem {name : String} (h : name ∈ supportedNames) : (ofName? name).isSome := by
  simp only [supportedNames, List.mem_cons, List.not_mem_nil, or_false] at h
  rcases h with rfl | rfl | rfl | rfl | rfl <;> rfl

/-- The characters that end a word. -/
def wordBoundaryChars : String := "\t\r\n\u00a0 !\"#$%&()*+,-./:;<=>?@[]^_\x60\x7b|\x7d~"

/-- The pattern of sections. -/
def sectionsPattern : String := "[^\\n.,;!?]+"

/-- The pattern of words. -/
def wordsPattern : String :=
  "[^\\t\\r\\n\\x\x7bA0\x7d !\"#$%&()*+,\\-./:;<=>?@\\[\\]^_\x60\x7b|\x7d~]+"

/-- The pattern of characters. -/
def charactersPattern : String := "\\S"

/-- The pattern of a preset. -/
def pattern : Preset → String
  | .sections => sectionsPattern
  | .words => wordsPattern
  | .characters => charactersPattern

end Preset

end TokenSpan
