/-
  TokenSpan.Context
  ─────────────────
  What a transform sees: a token among its neighbours.

  Main results:
  * `map_token_contexts` — the contexts of a sequence show its tokens in order.
-/
import TokenSpan.Token.Basic

namespace TokenSpan

/-- A token of a sequence with its neighbours. -/
structure Context where
  /-- The whole sequence. -/
  tokens : List Token
  /-- How many tokens come before. -/
  position : Nat
  /-- The token itself. -/
  token : Token
  /-- The token before, if there is one. -/
  prev : Option Token
  /-- The token after, if there is one. -/
  next : Option Token

namespace Context

/-- The text of the token. -/
def value (cx : Context) : String := cx.token.value

end Context

/-- The contexts of the tokens of the rest of a sequence. -/
def contextsFrom (tokens : List Token) (position : Nat) (prev : Option Token) : List Token → List Context
  | [] => []
  | t :: rest =>
      { tokens, position, token := t, prev, next := rest.head? } ::
        contextsFrom tokens (position + 1) (some t) rest

/-- The contexts of the tokens of a sequence. -/
def contexts (tokens : List Token) : List Context := contextsFrom tokens 0 none tokens

theorem map_token_contextsFrom (tokens : List Token) (position : Nat) (prev : Option Token)
    (rest : List Token) : (contextsFrom tokens position prev rest).map (·.token) = rest := by
  induction rest generalizing position prev with
  | nil => rfl
  | cons t rest ih => simp [contextsFrom, ih]

/-- The contexts of a sequence show its tokens in order. -/
@[simp] theorem map_token_contexts (tokens : List Token) : (contexts tokens).map (·.token) = tokens :=
  map_token_contextsFrom tokens 0 none tokens

end TokenSpan
