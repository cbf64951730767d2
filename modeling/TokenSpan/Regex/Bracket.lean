/-
  TokenSpan.Regex.Bracket
  ───────────────────────
  Reading bracketed classes such as `[^a-z&&[^aeiou]]`.

  Inside brackets stand characters, ranges, escapes, named ASCII classes, further
  brackets, and the operators `&&` (both), `--` (first only) and `~~` (one of the two),
  which bind alike, from left to right, and more loosely than mere juxtaposition.

  Main definition: `readBracket`, which starts after the opening bracket.
-/
import TokenSpan.Regex.Escape

namespace TokenSpan.Regex

/-! ## §1. Pieces of a class. -/

/-- A set with the depth of nesting of the text that describes it. -/
structure Described where
  /-- The set. -/
  set : CharSet
  /-- How deep its description is nested. -/
  depth : Nat

/-- The members of a class that stand side by side. -/
structure Members where
  /-- Their union. -/
  set : CharSet := .empty
  /-- How many they are. -/
  count : Nat := 0
  /-- The greatest depth of one of them. -/
  depth : Nat := 0

/-- The members with one more. -/
def Members.push (m : Members) (d : Described) : Members :=
  { set := if m.count = 0 then d.set else .union m.set d.set
    count := m.count + 1
    depth := max m.depth d.depth }

/-- All members as one set; two or more of them are nested one level deeper. -/
def Members.close (m : Members) : Described := ⟨m.set, if 2 ≤ m.count then m.depth + 1 else m.depth⟩

/-- An operator between sets. -/
inductive SetOp where
  /-- The characters of both sets. -/
  | inter
  /-- The characters of the first set only. -/
  | diff
  /-- The characters of exactly one of the sets. -/
  | symmDiff

/-- The set that an operator makes. -/
def SetOp.apply : SetOp → CharSet → CharSet → CharSet
  | .inter, s, t => .inter s t
  | .diff, s, t => .diff s t
  | .symmDiff, s, t => .symmDiff s t

/-- The set with all characters equal up to case, if the flags ask for it. -/
def Flags.foldSet (flags : Flags) (s : CharSet) : CharSet :=
  if flags.ignoreCase then if flags.unicode then .caseFold s else .asciiCaseFold s else s

/-- The members read so far, joined to the set and operator before them. -/
def joinOperand (flags : Flags) (left : Option (SetOp × Described)) (members : Members) : Described :=
  let right := members.close
  match left with
  | none => right
  | some (op, left) =>
      ⟨op.apply (flags.foldSet left.set) (flags.foldSet right.set), max left.depth right.depth + 1⟩

/--
The set of a finished class: first all cases are added, then it may be negated.  Without the Unicode
flag a class that holds a character beyond ASCII would match a part of it, and is refused.
-/
def Flags.finishSet (flags : Flags) (negated : Bool) (s : CharSet) : Except PatternError CharSet :=
  let folded := flags.foldSet s
  let set := if negated then .compl folded else folded
  if !flags.unicode && set.has '\x80' then .error .beyondAscii else .ok set

/-! ## §2. Characters, ranges and names. -/

/-- A character as a member of a class; without the Unicode flag it must be ASCII. -/
def memberChar (flags : Flags) (c : Char) : Except PatternError Char :=
  if !flags.unicode && 0x80 ≤ c.toNat then .error .beyondAscii else .ok c

/-- Reads one character or escape of a class. -/
def readMember (flags : Flags) : List Char → Except PatternError (Atom × List Char)
  | [] => .error .classUnclosed
  | '\\' :: rest => readEscape flags rest
  | c :: rest => .ok (.char c, rest)

/-- An end of a range. -/
def rangeEnd (flags : Flags) : Atom → Except PatternError Char
  | .char c => memberChar flags c
  | _ => .error .rangeInvalid

/-- Whether a hyphen before these characters makes a range of what is around it. -/
def startsRange (flags : Flags) (afterHyphen : List Char) : Bool :=
  match flags.skip afterHyphen with
  | ']' :: _ | '-' :: _ => false
  | _ => true

/-- Reads a member or a range of a class. -/
def readRange (flags : Flags) (cs : List Char) : Except PatternError (CharSet × List Char) := do
  let (first, rest) ← readMember flags cs
  let single : Except PatternError (CharSet × List Char) :=
    match first with
    | .char c => do .ok (.single (← memberChar flags c), flags.skip rest)
    | .set s => .ok (s, flags.skip rest)
    | .look _ => .error .rangeInvalid
  match flags.skip rest with
  | [] => .error .classUnclosed
  | '-' :: rest =>
      if startsRange flags rest then
        let (last, rest) ← readMember flags (flags.skip rest)
        let first ← rangeEnd flags first
        let last ← rangeEnd flags last
        if first ≤ last then .ok (.range first last, rest) else .error .rangeReversed
      else single
  | _ => single

/-- Reads a named ASCII class such as `:^alpha:]`, after its opening bracket; answers whether it is negated. -/
def readNamed? : List Char → Option (Bool × CharSet × List Char)
  | ':' :: rest =>
      let (negated, rest) := match rest with
        | '^' :: rest => (true, rest)
        | rest => (false, rest)
      match rest.dropWhile (· != ':') with
      | ':' :: ']' :: after =>
          (CharSet.ofName? (rest.takeWhile (· != ':'))).map fun s => (negated, s, after)
      | _ => none
  | _ => none

/-! ## §3. Classes. -/

/-- Reads the hyphens that a class may start with. -/
def readHyphens (flags : Flags) : (fuel : Nat) → Members → List Char → Members × List Char
  | fuel + 1, members, '-' :: rest =>
      readHyphens flags fuel (members.push ⟨.single '-', 0⟩) (flags.skip rest)
  | _, members, cs => (members, cs)

/-- Reads the start of a class: its negation, leading hyphens and a leading closing bracket. -/
def readOpening (flags : Flags) (cs : List Char) : Bool × Members × List Char :=
  let cs := flags.skip cs
  let (negated, cs) := match cs with
    | '^' :: rest => (true, flags.skip rest)
    | cs => (false, cs)
  let (members, cs) := readHyphens flags cs.length {} cs
  match members.count, cs with
  | 0, ']' :: rest => (negated, members.push ⟨.single ']', 0⟩, flags.skip rest)
  | _, cs => (negated, members, cs)

mutual

/-- Reads a class after its opening bracket, up to and with its closing one. -/
def readBracketFuel (flags : Flags) : Nat → List Char → Except PatternError (Described × List Char)
  | 0, _ => .error .classUnclosed
  | fuel + 1, cs =>
      let (negated, members, cs) := readOpening flags cs
      match readMembers flags fuel none members cs with
      | .error e => .error e
      | .ok (d, rest) => (flags.finishSet negated d.set).map fun s => (⟨s, d.depth + 1⟩, rest)

/-- Reads the members of a class and the operators between them, up to and with the closing bracket. -/
def readMembers (flags : Flags) :
    Nat → Option (SetOp × Described) → Members → List Char → Except PatternError (Described × List Char)
  | 0, _, _, _ => .error .classUnclosed
  | fuel + 1, left, members, cs =>
      match flags.skip cs with
      | [] => .error .classUnclosed
      | ']' :: rest => .ok (joinOperand flags left members, rest)
      | '&' :: '&' :: rest =>
          readMembers flags fuel (some (.inter, joinOperand flags left members)) {} rest
      | '-' :: '-' :: rest =>
          readMembers flags fuel (some (.diff, joinOperand flags left members)) {} rest
      | '~' :: '~' :: rest =>
          readMembers flags fuel (some (.symmDiff, joinOperand flags left members)) {} rest
      | '[' :: rest =>
          match readNamed? rest with
          | some (negated, s, rest) =>
              -- a named class is finished by itself, whatever the class around it does
              match flags.finishSet negated s with
              | .error e => .error e
              | .ok s => readMembers flags fuel left (members.push ⟨s, 0⟩) rest
          | none =>
              match readBracketFuel flags fuel rest with
              | .error e => .error e
              | .ok (d, rest) => readMembers flags fuel left (members.push d) rest
      | cs =>
          match readRange flags cs with
          | .error e => .error e
          | .ok (s, rest) => readMembers flags fuel left (members.push ⟨s, 0⟩) rest

end

/-- Reads a class after its opening bracket, up to and with its closing one. -/
def readBracket (flags : Flags) (cs : List Char) : Except PatternError (Described × List Char) :=
  readBracketFuel flags (2 * cs.length + 2) cs

end TokenSpan.Regex
