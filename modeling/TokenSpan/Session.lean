/-
  TokenSpan.Session
  ─────────────────
  Sessions: actions one after the other that share one cache.

  An action runs a pass, runs a transform with or without a salt, or uses the cache
  directly.  A fault ends its action only; the cache goes on as the action left it.  Events
  are recorded in some steps of a session and not in others, as whoever listens comes and goes.

  Main definitions: `Action.perform`, `SessionStep.exec` and `performAll`.
-/
import TokenSpan.Pass.Settings

namespace TokenSpan

variable [Regex.Engine]

/-- One action of a session. -/
inductive Action where
  /-- Runs a pass on tokens. -/
  | run (p : Pass) (tokens : List Token)
  /-- Runs a transform on tokens; with a salt its result is stored. -/
  | transform (keepProperties : Bool) (f : Transform) (salt : Option String) (tokens : List Token)
  /-- Looks for tokens under a key. -/
  | lookup (key : String)
  /-- Stores tokens under a key. -/
  | store (key : String) (tokens : List Token)
  /-- Empties the cache. -/
  | clear

/-- What an action answers. -/
inductive Answer where
  /-- The action was done. -/
  | done
  /-- Tokens. -/
  | tokens (out : List Token)
  /-- Tokens, if some were found. -/
  | found (out : Option (List Token))
  deriving DecidableEq

/-- The run of an action. -/
def Action.perform : Action → Run Answer
  | .run p tokens => return .tokens (← p.run tokens)
  | .transform keepProperties f salt tokens =>
      return .tokens (← transformSalted keepProperties salt f.run tokens)
  | .lookup key => return .found (← Run.lookup key)
  | .store key tokens => do
      Run.store key tokens
      return .done
  | .clear => ⟨fun _ cache => { result := .ok .done, cache := ResultStore.clear cache }⟩

/-- A step of a session. -/
structure SessionStep where
  /-- Whether events are recorded during the step. -/
  recording : Bool
  /-- What is done. -/
  action : Action

/-- What a step leads to from a cache. -/
def SessionStep.exec {σ : Type} [ResultStore σ] (step : SessionStep) (cache : σ) : Outcome σ Answer :=
  step.action.perform.exec step.recording cache

/-- What the steps of a session lead to, each with the cache that the one before it left. -/
def performAll {σ : Type} [ResultStore σ] (cache : σ) : List SessionStep → List (Outcome σ Answer)
  | [] => []
  | step :: rest =>
      let outcome := step.exec cache
      outcome :: performAll outcome.cache rest

/-- A run of a pass on tokens. -/
structure PassRun where
  /-- Whether events are recorded during the run. -/
  recording : Bool
  /-- The pass. -/
  pass : Pass
  /-- The tokens it is run on. -/
  tokens : List Token

/-- The step that consists in a run. -/
def PassRun.step (r : PassRun) : SessionStep where
  recording := r.recording
  action := .run r.pass r.tokens

end TokenSpan
