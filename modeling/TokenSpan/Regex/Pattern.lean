/-
  TokenSpan.Regex.Pattern
  ───────────────────────
  Reading a pattern into a node.

  The reader keeps the flags in force (a change lasts to the end of the group it stands
  in, across its branches), numbers the groups from left to right by their opening
  parentheses, and joins items to sequences and sequences to choices.

  Main definition: `Program.ofPattern?`, the program of a whole pattern.
-/
import TokenSpan.Regex.Bracket

namespace TokenSpan.Regex

/-! ## §1. Pieces of a pattern. -/

/-- A part of a pattern: its node, how deep its text is nested, and the size of its program. -/
structure Piece where
  /-- The node. -/
  node : Node
  /-- How deep the text is nested. -/
  depth : Nat := 0
  /-- The estimated size of the program in bytes. -/
  size : Nat := 0
  /-- Whether a quantifier may follow; it may not after a change of flags. -/
  repeatable : Bool := true

/-- The greatest depth of nesting of a pattern. -/
def maxDepth : Nat := 250

/-- The greatest size of a program in bytes. -/
def maxSize : Nat := 10 * 1024 * 1024

/-- The size of one state of a program in bytes. -/
def stateSize : Nat := 32

/-- An estimate of the size of a set in a program; words are described by many ranges. -/
def CharSet.size : CharSet → Nat
  | .empty => stateSize
  | .range first last => stateSize * (first.utf8Size + last.utf8Size) / 2
  | .digit => 3000
  | .blank => 500
  | .word => 60000
  | .compl s => s.size + 500
  | .union s t | .inter s t | .diff s t | .symmDiff s t => s.size + t.size
  | .caseFold s | .asciiCaseFold s => 2 * s.size

namespace Piece

/-- The piece of a node, or of nothing if its program would be too large. -/
def bounded (node : Unit → Node) (depth size : Nat) : Piece :=
  { node := if size ≤ maxSize then node () else .never, depth, size }

/-- The piece of a set. -/
def ofSet (s : CharSet) : Piece := { node := .set s, size := s.size }

/-- The piece of an assertion. -/
def ofLook (l : Look) : Piece := { node := .look l, size := stateSize }

/-- The place where flags change. -/
def flagChange : Piece := { node := .empty, repeatable := false }

/-- The size of several pieces together. -/
def totalSize : List Piece → Nat
  | [] => 0
  | p :: rest => p.size + totalSize rest

/-- The greatest depth of several pieces. -/
def greatestDepth : List Piece → Nat
  | [] => 0
  | p :: rest => max p.depth (greatestDepth rest)

/-- The items of a sequence, the last one first, as one piece. -/
def sequence : List Piece → Piece
  | [] => { node := .empty }
  | [p] => p
  | items =>
      bounded (fun _ => .seqs (items.reverse.map (·.node)))
        (greatestDepth items + 1) (totalSize items)

/-- The branches of a choice, the last one first, as one piece. -/
def choice : List Piece → Piece
  | [] => { node := .empty }
  | [p] => p
  | branches =>
      bounded (fun _ => .alts (branches.reverse.map (·.node)))
        (greatestDepth branches + 1) (totalSize branches + stateSize)

/-- A piece as a group, which is numbered if it remembers its text. -/
def inGroup (index : Option Nat) (p : Piece) : Piece :=
  match index with
  | some i => { node := .group i p.node, depth := p.depth + 1, size := p.size + 2 * stateSize }
  | none => { p with depth := p.depth + 1, repeatable := true }

/-- A piece repeated.  More rounds than one of a piece that asks for no character change nothing. -/
def repeated (greedy : Bool) (least : Nat) (most : Option Nat) (p : Piece) : Piece :=
  let least := if p.node.asksNothing then min least 1 else least
  let most := if p.node.asksNothing then some (min (most.getD 1) 1) else most
  if most = some 0 then { node := .empty, depth := p.depth + 1 }
  else
    let copies := match most with
      | some most => max least most
      | none => max least 1
    bounded (fun _ => .repeated greedy least most p.node) (p.depth + 1)
      (copies * p.size + (copies - least + 1) * stateSize)

end Piece

/-! ## §2. Groups. -/

/-- What the reader carries along. -/
structure Scope where
  /-- The flags in force. -/
  flags : Flags
  /-- How many groups were opened. -/
  groups : Nat := 0
  /-- The named groups so far, the latest first. -/
  names : List (Nat × String) := []

/-- What an opening parenthesis starts. -/
inductive Opening where
  /-- Other flags from here on. -/
  | flagChange (flags : Flags)
  /-- A group with the flags inside it; a numbered one remembers its text. -/
  | group (index : Option Nat) (inner : Flags)

/-- Whether a character may stand in the name of a group, at its start or later. -/
def isNameChar (first : Bool) (c : Char) : Bool :=
  c == '_' ||
    if first then Unicode.isAlphabetic c
    else c == '.' || c == '[' || c == ']' || Unicode.isAlphanumeric c

/-- Whether a text may be the name of a group. -/
def isGroupName : List Char → Bool
  | [] => false
  | c :: rest => isNameChar true c && rest.all (isNameChar false)

/--
Reads flags up to the colon or parenthesis after them: `on` is whether flags are being set, `seen` holds
the flags so far, and `dangling` is whether a minus sign came last.
-/
def readFlags (flags : Flags) (on dangling : Bool) (seen : List Flag) :
    List Char → Except PatternError (Flags × Bool × Char × List Char)
  | [] => .error .groupUnclosed
  | c :: rest =>
      if c = ':' ∨ c = ')' then
        if dangling then .error .flagMissing else .ok (flags, seen.isEmpty && on, c, rest)
      else if c = '-' then
        if on then readFlags flags false true seen rest else .error .flagRepeated
      else
        match Flag.ofChar? c with
        | none => .error .flagUnknown
        | some flag =>
            if seen.contains flag then .error .flagRepeated
            else readFlags (flags.set flag on) on false (flag :: seen) rest

/-- Reads the name of a group and opens it. -/
def readNamedGroup (scope : Scope) (cs : List Char) :
    Except PatternError (Opening × Scope × List Char) :=
  let name := cs.takeWhile (· != '>')
  match cs.dropWhile (· != '>') with
  | [] => .error .groupName
  | _ :: rest =>
      if !isGroupName name then .error .groupName
      else if scope.names.any (·.2.toList == name) then .error .groupNameRepeated
      else
        let index := scope.groups + 1
        .ok (.group (some index) scope.flags,
          { scope with groups := index, names := (index, String.ofList name) :: scope.names }, rest)

/-- Reads what follows an opening parenthesis. -/
def readOpeningGroup (scope : Scope) (cs : List Char) :
    Except PatternError (Opening × Scope × List Char) :=
  match scope.flags.skip cs with
  | '?' :: '=' :: _ | '?' :: '!' :: _ | '?' :: '<' :: '=' :: _ | '?' :: '<' :: '!' :: _ =>
      .error .lookAround
  | '?' :: 'P' :: '<' :: rest => readNamedGroup scope rest
  | '?' :: '<' :: rest => readNamedGroup scope rest
  | '?' :: rest =>
      match readFlags scope.flags true false [] rest with
      | .error e => .error e
      | .ok (flags, isEmpty, stop, rest) =>
          if stop = ':' then .ok (.group none flags, scope, rest)
          else if isEmpty then .error .nothingToRepeat
          else .ok (.flagChange flags, scope, rest)
  | rest =>
      let index := scope.groups + 1
      .ok (.group (some index) scope.flags, { scope with groups := index }, rest)

/-! ## §3. Items. -/

/-- The set of a character under the flags. -/
def Flags.charSet (flags : Flags) (c : Char) : CharSet := flags.foldSet (.single c)

/-- The piece of an atom under the flags. -/
def Flags.atom (flags : Flags) : Atom → Piece
  | .char c => .ofSet (flags.charSet c)
  | .set s => .ofSet s
  | .look l => .ofLook l

/-- The set of the dot; without the Unicode flag it would match parts of characters. -/
def Flags.dot (flags : Flags) : Except PatternError CharSet :=
  if !flags.unicode then .error .beyondAscii
  else if flags.dotAll then .ok .all
  else if flags.crlf then .ok (.compl (.union (.single '\n') (.single '\r')))
  else .ok (.compl (.single '\n'))

/-- The assertion of `^`. -/
def Flags.lineStart (flags : Flags) : Look := if flags.multiLine then .lineStart flags.crlf else .textStart

/-- The assertion of `$`. -/
def Flags.lineEnd (flags : Flags) : Look := if flags.multiLine then .lineEnd flags.crlf else .textEnd

/-- Reads the question mark that turns the preference of a quantifier; answers whether it is greedy. -/
def readGreed (flags : Flags) : List Char → Bool × List Char
  | '?' :: rest => (flags.swapGreed, rest)
  | rest => (!flags.swapGreed, rest)

/-- Puts a repetition in the place of the last item. -/
def repeatLast (greedy : Bool) (least : Nat) (most : Option Nat) :
    List Piece → Except PatternError (List Piece)
  | [] => .error .nothingToRepeat
  | p :: items =>
      if p.repeatable then .ok (p.repeated greedy least most :: items) else .error .nothingToRepeat

/-- Reads the counts of a repetition after the opening brace. -/
def readBounds (flags : Flags) (cs : List Char) :
    Except PatternError (Nat × Option Nat × List Char) :=
  match flags.skip cs with
  | [] => .error .countUnclosed
  | cs =>
      match readCount flags cs with
      | .error e => .error e
      | .ok (least, '\x7d' :: rest) => .ok (least, some least, rest)
      | .ok (least, ',' :: rest) =>
          match flags.skip rest with
          | '\x7d' :: rest => .ok (least, none, rest)
          | rest =>
              match readCount flags rest with
              | .error e => .error e
              | .ok (most, '\x7d' :: rest) =>
                  if most < least then .error .countReversed else .ok (least, some most, rest)
              | .ok _ => .error .countUnclosed
      | .ok _ => .error .countUnclosed

/-- Reads a counted repetition after the opening brace and repeats the last item. -/
def readCounted (flags : Flags) (items : List Piece) (cs : List Char) :
    Except PatternError (List Piece × List Char) :=
  match readBounds flags cs with
  | .error e => .error e
  | .ok (least, most, rest) =>
      let (greedy, rest) := readGreed flags (flags.skip rest)
      (repeatLast greedy least most items).map fun items => (items, rest)

/-- Reads a quantifier of one character and repeats the last item. -/
def readQuantifier (flags : Flags) (least : Nat) (most : Option Nat) (items : List Piece)
    (cs : List Char) : Except PatternError (List Piece × List Char) :=
  let (greedy, rest) := readGreed flags cs
  (repeatLast greedy least most items).map fun items => (items, rest)

/-- Reads an item that is neither a group nor a quantifier. -/
def readAtom (flags : Flags) : List Char → Except PatternError (Piece × List Char)
  | [] => .error .escapeUnclosed
  | '[' :: rest =>
      (readBracket flags rest).map fun (d, rest) => ({ Piece.ofSet d.set with depth := d.depth }, rest)
  | '\\' :: rest => (readEscape flags rest).map fun (a, rest) => (flags.atom a, rest)
  | '.' :: rest => flags.dot.map fun s => (.ofSet s, rest)
  | '^' :: rest => .ok (.ofLook flags.lineStart, rest)
  | '$' :: rest => .ok (.ofLook flags.lineEnd, rest)
  | c :: rest => .ok (.ofSet (flags.charSet c), rest)

/-- Reads a quantifier, which changes the last item, or an item that is not a group. -/
def readItem (flags : Flags) (items : List Piece) : List Char →
    Except PatternError (List Piece × List Char)
  | '?' :: rest => readQuantifier flags 0 (some 1) items rest
  | '*' :: rest => readQuantifier flags 0 none items rest
  | '+' :: rest => readQuantifier flags 1 none items rest
  | '\x7b' :: rest => readCounted flags items rest
  | cs => (readAtom flags cs).map fun (piece, rest) => (piece :: items, rest)

/--
Reads branches up to a closing parenthesis or the end.  `branches` holds the finished branches and
`items` the items of the current one, the latest first.
-/
def readBranches : (fuel : Nat) → Scope → (branches items : List Piece) → List Char →
    Except PatternError (Piece × Scope × List Char)
  | 0, _, _, _, _ => .error .tooDeep
  | fuel + 1, scope, branches, items, cs =>
      match scope.flags.skip cs with
      | [] => .ok (.choice (.sequence items :: branches), scope, [])
      | ')' :: rest => .ok (.choice (.sequence items :: branches), scope, ')' :: rest)
      | '|' :: rest => readBranches fuel scope (.sequence items :: branches) [] rest
      | '(' :: rest =>
          match readOpeningGroup scope rest with
          | .error e => .error e
          | .ok (.flagChange flags, scope, rest) =>
              readBranches fuel { scope with flags } branches (.flagChange :: items) rest
          | .ok (.group index inner, opened, rest) =>
              match readBranches fuel { opened with flags := inner } [] [] rest with
              | .ok (piece, closed, ')' :: rest) =>
                  readBranches fuel { closed with flags := scope.flags } branches
                    (piece.inGroup index :: items) rest
              | .ok _ => .error .groupUnclosed
              | .error e => .error e
      | cs =>
          match readItem scope.flags items cs with
          | .error e => .error e
          | .ok (items, rest) => readBranches fuel scope branches items rest

/-! ## §4. Programs. -/

/-- A compiled pattern. -/
structure Program where
  /-- What the pattern asks for. -/
  root : Node
  /-- How many groups there are, besides the whole match. -/
  groups : Nat
  /-- The indices of named groups with their names, in increasing order. -/
  names : List (Nat × String)
  deriving DecidableEq

/-- The program of a pattern. -/
def Program.ofPattern? (flags : Flags) (pattern : List Char) : Except PatternError Program :=
  match readBranches (pattern.length + 1) { flags } [] [] pattern with
  | .error e => .error e
  | .ok (piece, scope, []) =>
      if maxDepth < piece.depth then .error .tooDeep
      else if maxSize < piece.size then .error .tooLarge
      else .ok
        { root := piece.node
          groups := piece.node.groupCount
          names := scope.names.reverse.filter fun n => piece.node.hasGroup n.1 }
  | .ok _ => .error .groupUnopened

end TokenSpan.Regex
