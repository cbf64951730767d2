/-
  TokenSpan.Regex.Node
  ────────────────────
  What a pattern asks of a text: nodes, and the empty assertions among them.

  A node is built from character sets, empty assertions, sequence, choice, repetition and
  groups.  Choice prefers its first branch.  All counted and optional forms are made from
  choice and `plus` by `Node.repeated`.
-/
import TokenSpan.Regex.CharSet

namespace TokenSpan.Regex

/-! ## §1. Empty assertions. -/

/-- Where a place stands with regard to words. -/
inductive WordEdge where
  /-- A word starts or ends here. -/
  | boundary
  /-- No word starts or ends here. -/
  | interior
  /-- A word starts here. -/
  | start
  /-- A word ends here. -/
  | stop
  /-- No word character comes before. -/
  | startHalf
  /-- No word character comes after. -/
  | stopHalf
  deriving DecidableEq

/-- An assertion about the place between two characters. -/
inductive Look where
  /-- The text starts here. -/
  | textStart
  /-- The text ends here. -/
  | textEnd
  /-- A line starts here; lines end with a line feed, or also with a carriage return. -/
  | lineStart (crlf : Bool)
  /-- A line ends here. -/
  | lineEnd (crlf : Bool)
  /-- The place has the given relation to words, of all scripts or of ASCII. -/
  | word (unicode : Bool) (edge : WordEdge)
  deriving DecidableEq

/-- Whether an assertion holds between two characters; the ends of the text have none. -/
def Look.holds (look : Look) (prev next : Option Char) : Bool :=
  match look with
  | .textStart => prev.isNone
  | .textEnd => next.isNone
  | .lineStart false => prev.isNone || prev == some '\n'
  | .lineEnd false => next.isNone || next == some '\n'
  | .lineStart true =>
      prev.isNone || prev == some '\n' || (prev == some '\r' && next != some '\n')
  | .lineEnd true =>
      next.isNone || next == some '\r' || (next == some '\n' && prev != some '\r')
  | .word unicode edge =>
      let isWord := if unicode then Unicode.isWord else Unicode.isAsciiWord
      let before := prev.any isWord
      let after := next.any isWord
      match edge with
      | .boundary => before != after
      | .interior => before == after
      | .start => !before && after
      | .stop => before && !after
      | .startHalf => !before
      | .stopHalf => !after

/-! ## §2. Nodes. -/

/-- A compiled pattern. -/
inductive Node where
  /-- The empty text. -/
  | empty
  /-- One character of a set. -/
  | set (s : CharSet)
  /-- The empty text where an assertion holds. -/
  | look (l : Look)
  /-- One node after the other. -/
  | seq (a b : Node)
  /-- Either node, the first one preferred. -/
  | alt (a b : Node)
  /-- A node once or more often; greedy repetition prefers another round. -/
  | plus (greedy : Bool) (r : Node)
  /-- A node whose text is remembered under an index. -/
  | group (index : Nat) (r : Node)
  deriving DecidableEq

namespace Node

/-- The node after nothing else matched. -/
def never : Node := .set .empty

/-- The nodes of a list one after the other. -/
def seqs : List Node → Node
  | [] => .empty
  | [r] => r
  | r :: rest => .seq r (seqs rest)

/-- The first node of a list that matches. -/
def alts : List Node → Node
  | [] => .never
  | [r] => r
  | r :: rest => .alt r (alts rest)

/-- A node or nothing. -/
def optional (greedy : Bool) (r : Node) : Node := if greedy then .alt r .empty else .alt .empty r

/-- A node `count` times and then another one. -/
def times (r : Node) : Nat → Node → Node
  | 0, last => last
  | count + 1, last => .seq r (times r count last)

/-- At most `count` rounds of a node. -/
def upTo (greedy : Bool) (r : Node) : Nat → Node
  | 0 => .empty
  | 1 => optional greedy r
  | count + 1 => optional greedy (.seq r (upTo greedy r count))

/-- A node from `least` up to `most` times; without `most` there is no upper limit. -/
def repeated (greedy : Bool) (least : Nat) (most : Option Nat) (r : Node) : Node :=
  match most with
  | some most =>
      if most ≤ least then
        match least with
        | 0 => .empty
        | count + 1 => times r count r
      else times r least (upTo greedy r (most - least))
  | none =>
      match least with
      | 0 => optional greedy (.plus greedy r)
      | count + 1 => times r count (.plus greedy r)

/-- Whether a node can match nothing but the empty text because it asks for no character. -/
def asksNothing : Node → Bool
  | .empty | .look _ => true
  | .set _ => false
  | .seq a b | .alt a b => a.asksNothing && b.asksNothing
  | .plus _ r | .group _ r => r.asksNothing

/-- The largest index of a group, or 0 if there is none. -/
def groupCount : Node → Nat
  | .empty | .set _ | .look _ => 0
  | .seq a b | .alt a b => max a.groupCount b.groupCount
  | .plus _ r => r.groupCount
  | .group index r => max index r.groupCount

/-- Whether a group with an index occurs. -/
def hasGroup (i : Nat) : Node → Bool
  | .empty | .set _ | .look _ => false
  | .seq a b | .alt a b => a.hasGroup i || b.hasGroup i
  | .plus _ r => r.hasGroup i
  | .group index r => index == i || r.hasGroup i

end Node

end TokenSpan.Regex
