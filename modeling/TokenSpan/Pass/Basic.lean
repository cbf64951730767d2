/-
  TokenSpan.Pass.Basic
  ────────────────────
  Passes and transforms.

  A transform answers a reply for a token in its context; a pass turns a sequence of
  tokens into another one.  Both are data, so that what a pass is built from can be seen:
  a pass applies a transform to each token, with or without storing the results, or merges
  what the transform leaves between two cuts.

  A transform may be any function of the context, a search, a report, passes applied to
  the token's own text, a choice between two transforms, or several replies together.
-/
import TokenSpan.Context
import TokenSpan.Finding
import TokenSpan.Token.Reply

namespace TokenSpan

open TokenSpan.Regex (Flags)
open TokenSpan.Finding (Mode)

variable [Regex.Engine]

/-- What the results of a stored pass depend on, besides places and texts of tokens: nothing but this. -/
inductive StoredJob where
  /-- Finding the matches of a pattern. -/
  | find (r : Regex {}) (mode : Mode)
  /-- Keeping the tokens in which a pattern matches. -/
  | matching (r : Regex {})

/-- The name of a mode in salts. -/
def Finding.Mode.tag : Mode → String
  | .matches => "match"
  | .split => "split"

/-- The salt that the keys of a stored pass start with. -/
def StoredJob.salt : StoredJob → String
  | .find r mode => "re:" ++ r.pattern ++ ":" ++ mode.tag
  | .matching r => "test:" ++ r.pattern

mutual

/-- A pass over a sequence of tokens; `keepProperties` is whether results inherit the values of their token. -/
inductive Pass where
  /-- Applies a transform to each token. -/
  | each (keepProperties : Bool) (f : Transform)
  /-- Applies a job to each token and stores the results. -/
  | stored (keepProperties : Bool) (job : StoredJob)
  /-- Applies a transform to each token and merges what stands between cuts. -/
  | mergeRuns (keepProperties : Bool) (f : Transform) (filler : String)

/-- What a pass does with a token. -/
inductive Transform where
  /-- A function of the context. -/
  | function (f : Context → Except Fault Reply)
  /-- Finds the matches of a regular expression in the text of the token. -/
  | find (flags : Flags) (r : Regex flags) (mode : Mode)
  /-- Records an event for the token and keeps it. -/
  | report (label : String)
  /-- Applies passes one after the other to the text of the token alone. -/
  | chain (passes : List Pass)
  /-- Applies one of two transforms. -/
  | choose (condition : Context → Except Fault Bool) (yes no : Transform)
  /-- Gathers several replies. -/
  | gather (items : List Transform)

end

/-- The transform that keeps each token. -/
def Transform.keep : Transform := .function fun cx => .ok (.keep cx.token)

end TokenSpan
