/-
  TokenSpan.Token.CacheKey
  ────────────────────────
  The key under which the result of a pass on tokens is stored.

  A key starts with the salt of the pass and names the place, the size and the text of
  each token.  The size before each text keeps texts from being taken for other entries.
-/
import TokenSpan.Token.Basic

namespace TokenSpan

/-- The part of a key that names one token. -/
def Token.keyPart (t : Token) : String :=
  ":" ++ toString t.index ++ "-" ++ toString t.offset ++ "-" ++ toString t.value.utf8ByteSize ++ "-" ++
    t.value

/-- The key of tokens for a pass with a salt. -/
def cacheKey (salt : String) (tokens : List Token) : String :=
  salt ++ String.join (tokens.map Token.keyPart)

end TokenSpan
