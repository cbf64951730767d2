/-
  TokenSpan.Pass.Settings
  ───────────────────────
  Building passes.

  Settings hold what all passes built with them have in common.  Passes made from a
  pattern exist only if the pattern is valid.
-/
import TokenSpan.Pass.Run

namespace TokenSpan

open TokenSpan.Regex (Flags)
open TokenSpan.Finding (Mode)

variable [Regex.Engine]

/-- What passes built together have in common. -/
structure Settings where
  /-- Whether tokens inherit the values of the token they were made from. -/
  keepProperties : Bool := true
  deriving DecidableEq

/-- The expression of a pattern; an invalid pattern is a fault. -/
def compile (flags : Flags) (pattern : String) : Except Fault (Regex flags) :=
  (Regex.ofPattern? flags pattern).mapError .pattern

namespace Settings

variable (s : Settings)

/-- The pass that applies a transform to each token. -/
def each (f : Transform) : Pass := .each s.keepProperties f

/-- The pass that finds the matches of an expression; its results are stored. -/
def findStored (r : Regex {}) (mode : Mode) : Pass := .stored s.keepProperties (.find r mode)

/-- The pass that finds the matches of a pattern; its results are stored. -/
def findPattern (pattern : String) (mode : Mode) : Except Fault Pass :=
  (compile {} pattern).map fun r => s.findStored r mode

/-- The pass that finds the matches of an expression read under any flags. -/
def find {flags : Flags} (r : Regex flags) (mode : Mode) : Pass := s.each (.find flags r mode)

/-- The pass that keeps the tokens for which a condition holds. -/
def filter (condition : Context → Except Fault Bool) : Pass :=
  s.each (.function fun cx => (condition cx).map fun b => keepIf b cx)

/-- The pass that keeps the tokens in which a pattern matches; its results are stored. -/
def matching (pattern : String) : Except Fault Pass :=
  (compile {} pattern).map fun r => .stored s.keepProperties (.matching r)

/-- The pass that gives each token values that depend on its context; they replace older ones. -/
def annotateWith (values : Context → Except Fault Properties) : Pass :=
  s.each (.function fun cx =>
    (values cx).map fun more => .draft ((Draft.ofToken cx.token).annotate more))

/-- The pass that gives each token the same values; they replace older ones. -/
def annotate (values : Properties) : Pass := s.annotateWith fun _ => .ok values

/-- The pass that transforms the tokens for which a condition holds and keeps the others. -/
def onlyWhere (condition : Context → Except Fault Bool) (f : Transform) : Pass :=
  s.each (.choose condition f .keep)

/-- The pass that applies passes one after the other inside each token. -/
def chain (passes : List Pass) : Pass := s.each (.chain passes)

/-- The pass that applies a transform and merges what stands between cuts. -/
def mergeRuns (f : Transform) (filler : String) : Pass := .mergeRuns s.keepProperties f filler

/-- The pass that merges all tokens into one. -/
def mergeAll : Pass := s.mergeRuns .keep ""

/-- The pass of a preset. -/
def preset (p : Preset) : Pass := s.findStored p.regex .matches

/-- The pass of the preset of a name. -/
def presetNamed (name : String) : Except Fault Pass :=
  match Preset.ofName? name with
  | some p => .ok (s.preset p)
  | none => .error (.unknownPreset name)

/-- The pass that records an event for each token and keeps it. -/
def report (label : String) : Pass := s.each (.report label)

/-! ## Descriptions -/

/-- The fields that a description of settings shows. -/
def describeFields : String :=
  " \x7b preserve_properties: " ++ toString s.keepProperties ++ ", .. \x7d"

/-- The description of the settings. -/
def describe : String := "TokenizerConfig" ++ s.describeFields

/-- The description of something that builds passes with the settings. -/
def describeBuilder : String := "Tokenizer" ++ s.describeFields

end Settings

/-- The description of a pass. -/
def Pass.describe (_ : Pass) : String := "Tokenize \x7b .. \x7d"

end TokenSpan
