/-
  TokenSpan.Script.Dialogue
  ─────────────────────────
  Sessions whose passes are given as plans, and may be given names.

  A request defines a named pass, or asks for an action; what it asks for is built when it
  is its turn.  Any engine may read the patterns; the standard one comes with this module.
-/
import TokenSpan.Regex.Standard
import TokenSpan.Script.Plan
import TokenSpan.Session

namespace TokenSpan.Script

variable [Regex.Engine]

/-- Which pass is meant. -/
inductive Target where
  /-- The pass defined under a name. -/
  | named (name : String)
  /-- The pass of a plan. -/
  | plan (p : Plan)

/-- What is asked for. -/
inductive Request where
  /-- Builds a pass and gives it a name. -/
  | define (name : String) (plan : Plan)
  /-- Runs a pass on tokens. -/
  | run (target : Target) (tokens : List Token)
  /-- Runs the transform of a rule on tokens; with a salt its result is stored. -/
  | transform (rule : Rule) (salt : Option String) (tokens : List Token)
  /-- Looks for tokens under a key. -/
  | lookup (key : String)
  /-- Stores tokens under a key. -/
  | store (key : String) (tokens : List Token)
  /-- Empties the cache. -/
  | clear
  /-- Asks for the room of the cache. -/
  | capacity

/-- What lives on between requests. -/
structure State where
  /-- The cache. -/
  cache : Cache
  /-- The passes that have names. -/
  passes : KeyMap Pass := .empty

/-- What a request leads to. -/
inductive Reaction where
  /-- What an action led to. -/
  | performed (outcome : Outcome Cache Answer)
  /-- A pass was defined. -/
  | defined
  /-- The room of the cache. -/
  | capacity (n : Option Nat)
  /-- Something could not be built. -/
  | unbuilt (fault : Fault)
  /-- No pass has the name. -/
  | unknownName

/-- Performs an action, if it could be built. -/
def State.perform (s : State) (recording : Bool) : Except Fault Action → Reaction × State
  | .error e => (.unbuilt e, s)
  | .ok action =>
      let outcome := action.perform.exec recording s.cache
      (.performed outcome, { s with cache := outcome.cache })

/-- What a request leads to, and what lives on after it. -/
def State.react (s : State) (recording : Bool) (settings : Settings) : Request → Reaction × State
  | .define name plan =>
      match plan.build settings with
      | .ok p => (.defined, { s with passes := s.passes.insert name p })
      | .error e => (.unbuilt e, s)
  | .run (.named name) tokens =>
      match s.passes.get? name with
      | some p => s.perform recording (.ok (.run p tokens))
      | none => (.unknownName, s)
  | .run (.plan plan) tokens =>
      s.perform recording ((plan.build settings).map fun p => .run p tokens)
  | .transform rule salt tokens =>
      s.perform recording ((rule.build settings).map fun f =>
        .transform settings.keepProperties f salt tokens)
  | .lookup key => s.perform recording (.ok (.lookup key))
  | .store key tokens => s.perform recording (.ok (.store key tokens))
  | .clear => s.perform recording (.ok .clear)
  | .capacity => (.capacity s.cache.capacity?, s)

end TokenSpan.Script
