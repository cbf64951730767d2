/-
  TokenSpan.Token.Merging
  ───────────────────────
  Merging neighbouring tokens into one.

  The values are joined, and where a token starts after the end of the one before it, each
  position of the gap is filled with the filler.  The merged token starts with the first
  one and covers at least every token and its own text.

  Main definition: `merge?`.
-/
import TokenSpan.Token.Basic

namespace TokenSpan

/-- A text several times in a row. -/
def repeatText (s : String) (count : Nat) : String :=
  if s.isEmpty then "" else String.join (List.replicate count s)

/--
The filler for a gap, refused where it would reach `textBound` by itself.  Only this repetition is checked:
memory for the texts that are joined with it is taken to be there.
-/
def fillGap (filler : String) (gap : Nat) : Except Fault String :=
  if filler.utf8ByteSize * gap < textBound then .ok (repeatText filler gap) else .error .capacity

/-- What stands between a token and the one before it, if there is one. -/
def bridge (filler : String) (prev : Option Token) (t : Token) : Except Fault String :=
  match prev with
  | none => .ok ""
  | some prev => do
      let stop ← prev.stop
      fillGap filler (t.index - stop)

/--
Joins tokens to a text that ends with `prev`; answers the whole text, however long, and the greatest number
of positions from `start` to the end of a token.
-/
def mergeOnto (filler : String) (start : Nat) :
    (prev : Option Token) → (text : String) → (span : Nat) → List Token → Except Fault (String × Nat)
  | _, text, span, [] => .ok (text, span)
  | prev, text, span, t :: rest => do
      let gap ← bridge filler prev t
      let reach ← addPositions (t.index - start) t.offset
      mergeOnto filler start (some t) (text ++ gap ++ t.value) (max span reach) rest

/-- The token that tokens merge into; none if there are no tokens. -/
def merge? (filler : String) : List Token → Except Fault (Option Token)
  | [] => .ok none
  | first :: rest => do
      let (value, span) ← mergeOnto filler first.index none "" 0 (first :: rest)
      return some { value, index := first.index, offset := max span value.utf8ByteSize }

end TokenSpan
