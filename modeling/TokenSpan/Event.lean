/-
  TokenSpan.Event
  ───────────────
  What a run leaves behind besides its tokens: events, and the use it made of the cache.
-/
import TokenSpan.Token.Basic

namespace TokenSpan

/-- Something worth recording. -/
inductive Event where
  /-- The result of a pass was looked for among the stored ones. -/
  | lookup (hit : Bool) (salt : String) (tokens : Nat)
  /-- A pattern matched the empty text at a position of a value. -/
  | emptyMatch (position : Nat) (pattern : String)
  /-- A token went through a reporting pass. -/
  | token (label : String) (start stop : Nat) (value : String) (properties : Properties)
  deriving DecidableEq

/-- How much attention an event asks for. -/
inductive EventLevel where
  /-- The finest level. -/
  | trace
  /-- The level of reports that were asked for. -/
  | debug
  deriving DecidableEq

namespace Event

/-- The level of an event. -/
def level : Event → EventLevel
  | .lookup .. | .emptyMatch .. => .trace
  | .token .. => .debug

/-- The wording of an event. -/
def message : Event → String
  | .lookup true _ _ => "cache hit"
  | .lookup false _ _ => "cache miss"
  | .emptyMatch .. => "zero-length match, advancing"
  | .token .. => "token"

end Event

/-- One use of the cache. -/
inductive CacheCall where
  /-- A look-up, and whether it found something. -/
  | get (key : String) (hit : Bool)
  /-- The storing of a number of tokens. -/
  | set (key : String) (tokens : Nat)
  deriving DecidableEq

end TokenSpan
