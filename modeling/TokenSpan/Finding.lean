/-
  TokenSpan.Finding
  ─────────────────
  All matches of a regular expression in a text.

  The text is searched from left to right.  After a match that is not empty the search
  goes on behind it; after an empty match it steps over one character, and that match is
  not reported.  After an empty match at the end of the text the search is over.

  The search is a list of steps (`steps`); what stands between the reported matches is put
  together from it (`layout`).

  Main results:
  * `flatMap_text_steps` — the steps go through the whole text, each character once.
-/
import TokenSpan.Event
import TokenSpan.Regex.Basic
import TokenSpan.Token.Placing

namespace TokenSpan.Finding

open TokenSpan.Regex (Captures Flags)

variable [Regex.Engine]

/-! ## §1. Searching. -/

/-- One search in a text, at the byte position where it started. -/
inductive Step where
  /-- Nothing was found in the rest of the text. -/
  | miss (position : Nat) (rest : List Char)
  /-- An empty match was found behind some text; the character after it is stepped over. -/
  | blank (position : Nat) (skipped : List Char) (passed : Option Char)
  /-- A match was found. -/
  | hit (position : Nat) (captures : Captures)

/-- The part of the text that a step goes through. -/
def Step.text : Step → List Char
  | .miss _ rest => rest
  | .blank _ skipped passed => skipped ++ passed.toList
  | .hit _ c => c.skipped ++ c.matched

/-- The search of a text that starts at a byte position, after the character `prev`. -/
def steps {flags : Flags} (r : Regex flags) (prev : Option Char) (position : Nat) (text : List Char) :
    List Step :=
  match h : r.capturesFrom? prev text with
  | none => [.miss position text]
  | some c =>
      match hm : c.matched, ha : c.after with
      | [], [] => [.blank position c.skipped none]
      | [], d :: after =>
          have : after.length < text.length := by
            rw [← Regex.capturesFrom?_append h]; simp [hm, ha]; omega
          .blank position c.skipped (some d) ::
            steps r (some d) (position + byteLength c.skipped + d.utf8Size) after
      | m :: rest, after =>
          have : after.length < text.length := by
            rw [← Regex.capturesFrom?_append h]; simp [hm, ha]; omega
          .hit position c ::
            steps r ((m :: rest).getLast?) (position + byteLength c.skipped + byteLength c.matched) after
termination_by text.length

/-- The steps go through the whole text, each character once. -/
theorem flatMap_text_steps {flags : Flags} (r : Regex flags) (prev : Option Char) (position : Nat)
    (text : List Char) : (steps r prev position text).flatMap Step.text = text := by
  fun_induction steps r prev position text with
  | case1 => simp [Step.text]
  | case2 prev position text c h hm ha =>
      have := Regex.capturesFrom?_append h
      simp_all [Step.text]
  | case3 prev position text c h hm d after ha _ ih =>
      have := Regex.capturesFrom?_append h
      simp_all [Step.text]
  | case4 prev position text c h m rest hm _ ih =>
      have := Regex.capturesFrom?_append h
      simp_all [Step.text]

/-! ## §2. Matches and gaps. -/

/-- A part of a text with the byte position where it starts. -/
inductive Segment where
  /-- Text that belongs to no match. -/
  | gap (position : Nat) (text : List Char)
  /-- A match. -/
  | hit (position : Nat) (captures : Captures)

/-- The text before the first match of a search, and the matches, each with the gap after it. -/
def layout : List Step → List Char × List Segment
  | [] => ([], [])
  | .miss _ rest :: more =>
      let (lead, segments) := layout more
      (rest ++ lead, segments)
  | .blank _ skipped passed :: more =>
      let (lead, segments) := layout more
      (skipped ++ passed.toList ++ lead, segments)
  | .hit position c :: more =>
      let (lead, segments) := layout more
      let start := position + byteLength c.skipped
      (c.skipped, .hit start c :: .gap (start + byteLength c.matched) lead :: segments)

/-- The matches and gaps of a text. -/
def segments {flags : Flags} (r : Regex flags) (text : List Char) : List Segment :=
  let (lead, rest) := layout (steps r none 0 text)
  .gap 0 lead :: rest

/-! ## §3. Drafts and events. -/

/-- Which parts of a text become tokens. -/
inductive Mode where
  /-- The matches. -/
  | matches
  /-- The matches and the text between them. -/
  | split
  deriving DecidableEq

/-- The draft of a part of a text. -/
def draftAt (position : Nat) (text : List Char) : Draft :=
  { value := String.ofList text, index := some position, offset := some (byteLength text) }

/-- What was captured at a match that starts at a position. -/
def matchInfo {flags : Flags} (r : Regex flags) (position : Nat) (c : Captures) : MatchInfo where
  index := position
  groups := some (String.ofList c.matched) :: c.groups.map (·.map String.ofList)
  named := .ofList (r.search.names.filterMap fun n =>
    (c.groups[n.1 - 1]?.join).map fun text => (n.2, String.ofList text))

/-- The draft of a segment; gaps count in split mode only, and if they are not empty. -/
def Segment.draft? {flags : Flags} (r : Regex flags) (mode : Mode) : Segment → Option Draft
  | .gap position text =>
      if mode = .split ∧ text ≠ [] then some (draftAt position text) else none
  | .hit position c =>
      some { draftAt position c.matched with matched := some (matchInfo r position c) }

/-- The drafts that a regular expression finds in a text. -/
def drafts {flags : Flags} (r : Regex flags) (mode : Mode) (text : String) : List Draft :=
  (segments r text.toList).filterMap (Segment.draft? r mode)

/-- The event of a step over an empty match. -/
def Step.event? (pattern : String) : Step → Option Event
  | .blank position skipped _ => some (.emptyMatch (position + byteLength skipped) pattern)
  | _ => none

/-- The events of a search. -/
def events {flags : Flags} (r : Regex flags) (text : String) : List Event :=
  (steps r none 0 text.toList).filterMap (Step.event? r.pattern)

end TokenSpan.Finding
