/-
  TokenSpan.Script.Plan
  ─────────────────────
  Plans of passes, and rules for transforms, as data.

  A plan says how a pass is to be built; `Plan.build` builds it.  Everything inside is
  built first, in the order given, and the first part that cannot be built is the fault,
  even if it would never run.
-/
import TokenSpan.Pass.Settings
import TokenSpan.Script.Expression

namespace TokenSpan.Script

open TokenSpan.Regex (Flags)
open TokenSpan.Finding (Mode)

variable [Regex.Engine]

/-! ## §1. Drafts. -/

/-- A draft that depends on the context. -/
structure DraftExpr where
  /-- The text. -/
  value : TextExpr
  /-- Where it starts. -/
  index : Option NumExpr := none
  /-- How many positions it covers. -/
  offset : Option NumExpr := none
  /-- The values it carries. -/
  properties : PropertiesExpr := []
  /-- What was captured for it. -/
  matched : Option MatchInfo := none

/-- The draft in a context. -/
def DraftExpr.eval (cx : Context) (d : DraftExpr) : Except Fault Draft := do
  let value ← d.value.eval cx
  let index ← d.index.mapM (·.eval cx)
  let offset ← d.offset.mapM (·.eval cx)
  let properties ← evalProperties cx d.properties
  return { value, index, offset, properties, matched := d.matched }

/-- The parts of a text between the occurrences of a character. -/
def splitAtChar (c : Char) : List Char → List (List Char)
  | [] => [[]]
  | d :: rest =>
      if d = c then [] :: splitAtChar c rest
      else
        match splitAtChar c rest with
        | [] => [[d]]
        | part :: more => (d :: part) :: more

/-- The parts of a text between the occurrences of the first character of `sep`, with cuts between them. -/
def pieces (sep value : String) : Reply :=
  let parts := match sep.toList with
    | [] => [value.toList]
    | c :: _ => splitAtChar c value.toList
  .sequence ((parts.map fun part => Reply.text (String.ofList part)).intersperse .cut)

/-! ## §2. Rules and plans. -/

mutual

/-- How a transform answers. -/
inductive Rule where
  /-- With a text. -/
  | text (s : TextExpr)
  /-- With a draft. -/
  | draft (d : DraftExpr)
  /-- With the token itself. -/
  | keep
  /-- With the token, its own index taken as a relative one. -/
  | atOwnIndex
  /-- With a cut. -/
  | cut
  /-- With nothing. -/
  | nothing
  /-- With what several rules answer. -/
  | gather (items : List Rule)
  /-- With a text if a condition holds, else with nothing. -/
  | textIf (condition : Condition) (s : TextExpr)
  /-- With a draft if a condition holds, else with nothing. -/
  | draftIf (condition : Condition) (d : DraftExpr)
  /-- With what one of two rules answers. -/
  | choose (condition : Condition) (yes no : Rule)
  /-- With the parts of the text between the occurrences of a character. -/
  | pieces (sep : String)
  /-- Not at all. -/
  | fail (s : TextExpr)
  /-- With what passes make of the text of the token, one after the other. -/
  | chain (passes : List Plan)

/-- How a pass is built. -/
inductive Plan where
  /-- By a rule for each token. -/
  | each (rule : Rule)
  /-- By the matches of a pattern, stored. -/
  | find (pattern : String) (mode : Mode)
  /-- By the matches of a pattern read under flags, not stored. -/
  | findWith (flags : Flags) (pattern : String) (mode : Mode)
  /-- By a condition on the tokens to keep. -/
  | filter (condition : Condition)
  /-- By a pattern that tokens to keep match somewhere, stored. -/
  | matching (pattern : String)
  /-- By values that each token gets. -/
  | annotate (values : Properties)
  /-- By values that each token gets, depending on the context. -/
  | annotateWith (values : PropertiesExpr)
  /-- By a rule for the tokens for which a condition holds. -/
  | onlyWhere (condition : Condition) (rule : Rule)
  /-- By passes inside each token. -/
  | chain (passes : List Plan)
  /-- By a rule, merging what stands between cuts. -/
  | mergeRuns (rule : Rule) (filler : String)
  /-- By merging all tokens. -/
  | mergeAll
  /-- By a preset. -/
  | preset (p : Preset)
  /-- By the preset of a name. -/
  | presetNamed (name : String)
  /-- By recording an event for each token. -/
  | report (label : String)

end

mutual

/-- The transform of a rule. -/
def Rule.build (s : Settings) : Rule → Except Fault Transform
  | .text t => .ok (.function fun cx => (t.eval cx).map .text)
  | .draft d => .ok (.function fun cx => (d.eval cx).map .draft)
  | .keep => .ok .keep
  | .atOwnIndex => .ok (.function fun cx => .ok (.draft (.atOwnIndex cx.token)))
  | .cut => .ok (.function fun _ => .ok .cut)
  | .nothing => .ok (.function fun _ => .ok .nothing)
  | .gather items => (buildRules s items).map .gather
  | .textIf condition t =>
      .ok (.function fun cx => do
        if ← condition.eval cx then return .text (← t.eval cx) else return .nothing)
  | .draftIf condition d =>
      .ok (.function fun cx => do
        if ← condition.eval cx then return .draft (← d.eval cx) else return .nothing)
  | .choose condition yes no => do
      let yes ← yes.build s
      let no ← no.build s
      return .choose condition.eval yes no
  | .pieces sep => .ok (.function fun cx => .ok (Script.pieces sep cx.value))
  | .fail t => .ok (.function fun cx => do throw (.reported (← t.eval cx)))
  | .chain passes => (buildPlans s passes).map .chain

/-- The transforms of rules. -/
def buildRules (s : Settings) : List Rule → Except Fault (List Transform)
  | [] => .ok []
  | r :: rest => do
      let f ← r.build s
      let more ← buildRules s rest
      return f :: more

/-- The pass of a plan. -/
def Plan.build (s : Settings) : Plan → Except Fault Pass
  | .each rule => (rule.build s).map s.each
  | .find pattern mode => s.findPattern pattern mode
  | .findWith flags pattern mode => (compile flags pattern).map fun r => s.find r mode
  | .filter condition => .ok (s.filter condition.eval)
  | .matching pattern => s.matching pattern
  | .annotate values => .ok (s.annotate values)
  | .annotateWith values => .ok (s.annotateWith fun cx => evalProperties cx values)
  | .onlyWhere condition rule => (rule.build s).map fun f => s.onlyWhere condition.eval f
  | .chain passes => (buildPlans s passes).map s.chain
  | .mergeRuns rule filler => (rule.build s).map fun f => s.mergeRuns f filler
  | .mergeAll => .ok s.mergeAll
  | .preset p => .ok (s.preset p)
  | .presetNamed name => s.presetNamed name
  | .report label => .ok (s.report label)

/-- The passes of plans. -/
def buildPlans (s : Settings) : List Plan → Except Fault (List Pass)
  | [] => .ok []
  | p :: rest => do
      let pass ← p.build s
      let more ← buildPlans s rest
      return pass :: more

end

end TokenSpan.Script
