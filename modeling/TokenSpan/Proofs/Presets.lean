/-
  TokenSpan.Proofs.Presets
  ────────────────────────
  What the presets cut out of a text.

  The pattern of words and the list of characters that end a word are two spellings of one
  set, with escapes and members that mean something inside brackets.  Read once, each pattern
  is a set of characters, so the tokens of a preset are the stretches of that set: for
  sections and words the longest runs of characters that are kept, for characters each of
  them alone.

  Main results:
  * `Preset.takes` — the patterns are the sets they are meant to be;
  * `found_preset` — the tokens of a preset are the stretches of the text;
  * `presets_cut_exactly` — every run that a preset stands for is one token, and nothing else is.
-/
import Mathlib.Control.Monad.Basic
import TokenSpan.Proofs.Flows
import TokenSpan.Proofs.SetSearch

namespace TokenSpan

open TokenSpan.Regex (CharSet Program)
open TokenSpan.Finding (found stretchToken)

/-! ## §1. Sets of listed characters. -/

namespace Regex.CharSet

/-- The set of the listed characters, put together from left to right. -/
def anyOf : List Char → CharSet
  | [] => .empty
  | c :: cs => cs.foldl (fun s d => .union s (.single d)) (.single c)

theorem has_single_eq (d c : Char) : (single d).has c = (c == d) := by
  rw [Bool.eq_iff_iff, has_single, beq_iff_eq]

theorem has_foldl_union (cs : List Char) (s : CharSet) (c : Char) :
    (cs.foldl (fun s d => .union s (.single d)) s).has c = (s.has c || cs.contains c) := by
  induction cs generalizing s with
  | nil => simp
  | cons d rest ih =>
      rw [List.foldl_cons, ih, has_union, has_single_eq, List.contains_cons, Bool.or_assoc]

theorem has_anyOf (cs : List Char) (c : Char) : (anyOf cs).has c = cs.contains c := by
  cases cs with
  | nil => rfl
  | cons d rest =>
      unfold anyOf
      rw [has_foldl_union, has_single_eq, List.contains_cons]

end Regex.CharSet

/-! ## §2. The sets of the presets. -/

namespace Preset

/-- The characters that end a section. -/
def sectionBoundaryChars : List Char := ['\n', '.', ',', ';', '!', '?']

/-- Whether a character belongs to the tokens of a preset. -/
def keeps : Preset → Char → Bool
  | .sections, c => !sectionBoundaryChars.contains c
  | .words, c => !wordBoundaryChars.toList.contains c
  | .characters, c => !Unicode.isBlank c

/-- Whether a character goes on with a token of a preset. -/
def joins : Preset → Char → Bool
  | .characters, _ => false
  | p, c => p.keeps c

/-- The node that a preset stands for. -/
def root : Preset → Regex.Node
  | .sections => .plus true (.set (.compl (.anyOf sectionBoundaryChars)))
  | .words => .plus true (.set (.compl (.anyOf wordBoundaryChars.toList)))
  | .characters => .set (.compl .blank)

/-- The patterns of the presets, as they are read. -/
theorem program_pattern (p : Preset) :
    Program.ofPattern? {} p.pattern.toList = .ok ⟨p.root, 0, []⟩ := by
  cases p <;> decide +kernel

theorem pattern_regex (p : Preset) : p.regex.pattern = p.pattern := by
  cases p <;> simp only [regex, pattern, Regex.pattern_ofValid]

/-- One or more characters that are not listed. -/
theorem plus_compl_takes (cs : List Char) :
    (Regex.Node.plus true (.set (.compl (.anyOf cs)))).Takes (fun c => !cs.contains c)
      fun c => !cs.contains c := by
  have hhas : (CharSet.compl (.anyOf cs)).has = fun c => !cs.contains c := by
    funext c
    rw [CharSet.has_compl, CharSet.has_anyOf]
  have h := Regex.plus_takes (.compl (.anyOf cs))
  rw [hhas] at h
  exact h

theorem takes (p : Preset) : p.root.Takes p.keeps p.joins := by
  cases p with
  | sections => exact plus_compl_takes sectionBoundaryChars
  | words => exact plus_compl_takes wordBoundaryChars.toList
  | characters => exact Regex.set_takes (.compl .blank)

/-- The search for a preset finds the stretches of its set. -/
theorem findsStretches (p : Preset) : p.regex.search.FindsStretches p.keeps p.joins := by
  have hread := p.regex.compiled
  rw [p.pattern_regex] at hread
  obtain ⟨program, hprogram, hsearch⟩ := Regex.exists_program_of_readSearch? hread
  obtain rfl : program = ⟨p.root, 0, []⟩ := Except.ok.inj (hprogram.symm.trans p.program_pattern)
  rw [hsearch]
  exact Program.findsStretches hprogram p.takes rfl rfl

theorem keeps_of_joins {p : Preset} {c : Char} (h : p.joins c) : p.keeps c := by
  cases p with
  | sections => exact h
  | words => exact h
  | characters => cases h

end Preset

/-- The tokens that a preset finds in a text are the stretches of its set. -/
theorem found_preset (p : Preset) (text : String) :
    found p.regex .matches text
      = (stretchesFrom p.keeps p.joins 0 text.toList).map stretchToken :=
  Finding.found_eq_stretches p.findsStretches text

/-! ## §3. Runs of characters. -/

/-- A part of a text that is not empty, of kept characters only, and cannot be made longer. -/
structure MaximalRun (keeps : Char → Bool) (before run after : List Char) : Prop where
  nonempty : run ≠ []
  kept : ∀ c ∈ run, keeps c
  starts : ∀ c ∈ before.getLast?, keeps c = false
  stops : ∀ c ∈ after.head?, keeps c = false

/-- A part of a text that a preset stands for, given what stands before and after it. -/
def Preset.CutsOut (p : Preset) (before part after : List Char) : Prop :=
  match p with
  | .sections | .words => MaximalRun p.keeps before part after
  | .characters => ∃ c, part = [c] ∧ Unicode.isBlank c = false

theorem maximalRun_iff_isStretch {keeps : Char → Bool} {before part after : List Char} :
    MaximalRun keeps before part after ↔ IsStretch keeps keeps before part after := by
  constructor
  · rintro ⟨hnonempty, hkept, hstarts, hstops⟩
    obtain ⟨c, rest, rfl⟩ := List.exists_cons_of_ne_nil hnonempty
    exact ⟨⟨c, rest, rfl, hkept c List.mem_cons_self,
      fun d hd => hkept d (List.mem_cons_of_mem c hd)⟩, hstops, fun _ _ _ => hstarts⟩
  · rintro ⟨⟨c, rest, rfl, hc, hrest⟩, hstops, hstarts⟩
    refine ⟨by simp, fun d hd => ?_, hstarts c rfl hc, hstops⟩
    rcases List.mem_cons.1 hd with rfl | hd
    · exact hc
    · exact hrest d hd

theorem cutsOut_iff_isStretch {p : Preset} {before part after : List Char} :
    p.CutsOut before part after ↔ IsStretch p.keeps p.joins before part after := by
  cases p with
  | sections => exact maximalRun_iff_isStretch
  | words => exact maximalRun_iff_isStretch
  | characters =>
      constructor
      · rintro ⟨c, rfl, hc⟩
        refine ⟨⟨c, [], rfl, by simp [Preset.keeps, hc], fun d hd => (List.not_mem_nil hd).elim⟩,
          fun _ _ => rfl, fun _ _ hjoins => ?_⟩
        cases hjoins
      · rintro ⟨⟨c, rest, rfl, hc, hrest⟩, -, -⟩
        -- no character goes on with a token, so nothing stands behind the first one
        cases rest with
        | nil => exact ⟨c, rfl, by simpa [Preset.keeps] using hc⟩
        | cons d more => cases hrest d List.mem_cons_self

/-! ## §4. The tokens of a preset. -/

/-- The tokens are the parts of the text that the preset stands for, each at its place, in order. -/
structure Preset.CutInto (p : Preset) (text : String) (out : List Token) : Prop where
  covers : ∀ t ∈ out, t.offset = t.value.utf8ByteSize
  inOrder : out.Pairwise fun t u => t.index + t.offset ≤ u.index
  exactly : ∀ value index, (∃ t ∈ out, t.value = value ∧ t.index = index) ↔
    ∃ before part after, text.toList = before ++ part ++ after ∧ p.CutsOut before part after ∧
      value = String.ofList part ∧ index = byteLength before
  once : ∀ before c after, text.toList = before ++ c :: after → p.keeps c →
    ∃! t, t ∈ out ∧ t.index ≤ byteLength before ∧ byteLength before < t.index + t.offset

/-- Tokens in order that share a position are the same. -/
theorem eq_of_inOrder {out : List Token}
    (h : out.Pairwise fun t u => t.index + t.offset ≤ u.index) {position : Nat} :
    ∀ t ∈ out, ∀ u ∈ out, (t.index ≤ position ∧ position < t.index + t.offset) →
      (u.index ≤ position ∧ position < u.index + u.offset) → t = u := by
  induction out with
  | nil =>
      intro t ht
      cases ht
  | cons first rest ih =>
      obtain ⟨hfirst, hrest⟩ := List.pairwise_cons.1 h
      intro t ht u hu htp hup
      rcases List.mem_cons.1 ht with rfl | ht' <;> rcases List.mem_cons.1 hu with rfl | hu'
      · rfl
      · have hle := hfirst u hu'
        omega
      · have hle := hfirst t ht'
        omega
      · exact ih hrest t ht' u hu' htp hup

/-- The tokens that a preset finds are what it stands for. -/
theorem cutInto_found (p : Preset) (text : String) :
    p.CutInto text (found p.regex .matches text) := by
  have hlist := found_preset p text
  have horder : (stretchesFrom p.keeps p.joins 0 text.toList).Pairwise
      fun x y => x.1 + byteLength x.2 ≤ y.1 := (stretchesFrom_inOrder 0 text.toList).2
  have hinOrder : (found p.regex .matches text).Pairwise fun t u => t.index + t.offset ≤ u.index := by
    rw [hlist]
    exact List.pairwise_map.2 horder
  refine ⟨?_, hinOrder, ?_, ?_⟩
  · intro t ht
    rw [hlist] at ht
    obtain ⟨x, -, rfl⟩ := List.mem_map.1 ht
    exact (utf8ByteSize_ofList x.2).symm
  · intro value index
    rw [hlist]
    constructor
    · rintro ⟨t, ht, rfl, rfl⟩
      obtain ⟨⟨start, part⟩, hx, rfl⟩ := List.mem_map.1 ht
      obtain ⟨before, after, htext, hstart, hpart⟩ := exists_of_mem_stretchesFrom hx
      refine ⟨before, part, after, htext, cutsOut_iff_isStretch.2 hpart, rfl, ?_⟩
      show start = byteLength before
      omega
    · rintro ⟨before, part, after, htext, hpart, rfl, rfl⟩
      have hmem : (byteLength before, part) ∈ stretchesFrom p.keeps p.joins 0 text.toList :=
        (mem_stretchesFrom_iff fun _ => p.keeps_of_joins).2
          ⟨before, after, htext, (Nat.zero_add _).symm, cutsOut_iff_isStretch.1 hpart⟩
      exact ⟨stretchToken (byteLength before, part), List.mem_map_of_mem hmem, rfl, rfl⟩
  · intro before c after htext hc
    obtain ⟨x, hx, hstart, hstop⟩ := exists_mem_stretchesFrom hc 0 before after
    rw [Nat.zero_add] at hstart hstop
    have hmem : stretchToken x ∈ found p.regex .matches text := by
      rw [hlist, htext]
      exact List.mem_map_of_mem hx
    refine ⟨stretchToken x, ⟨hmem, hstart, hstop⟩, ?_⟩
    rintro u ⟨hu, hposition⟩
    exact eq_of_inOrder hinOrder u hu _ hmem hposition ⟨hstart, hstop⟩

theorem runsLocally_preset (s : Settings) (p : Preset) (recording : Bool) :
    RunsLocally s.keepProperties recording (found p.regex .matches) (s.preset p).run :=
  runsLocally_findStored s p.regex .matches recording

/--
Without a cache, a preset cuts a text into exactly the parts it stands for: the longest runs between
the boundary characters of sections or words, or the single characters that are no blanks.
-/
theorem presets_cut_exactly (s : Settings) (p : Preset) {text : String}
    (htext : text.utf8ByteSize < textBound) (recording : Bool) :
    ∃ out, (((s.preset p).runText text).exec recording Cache.off).result = .ok out ∧
      p.CutInto text out := by
  have hlocal := runsLocally_preset s p recording
  exact ⟨_, hlocal.root (htext.trans textBound_lt_positionBound), cutInto_found p text⟩

/-- Words between a no-break space, a dash and brackets, some of them with longer characters. -/
theorem words_cut_exactly :
    "\u00a0[Größe]--don't".utf8ByteSize < textBound ∧
      ∃ out, (((({} : Settings).preset .words).runText "\u00a0[Größe]--don't").exec true Cache.off).result
          = .ok out ∧ Preset.words.CutInto "\u00a0[Größe]--don't" out :=
  have htext : "\u00a0[Größe]--don't".utf8ByteSize < textBound := by decide +kernel
  ⟨htext, presets_cut_exactly {} .words htext true⟩

end TokenSpan
