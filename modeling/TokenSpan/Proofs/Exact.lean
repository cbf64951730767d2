/-
  TokenSpan.Proofs.Exact
  ──────────────────────
  Tokens that are slices of the text they come from.

  A token is exact if its text stands in the whole text at the place it names.  What is
  exact inside an exact token is exact, so passes that cut texts, however deep they are
  nested, lead from exact tokens to exact tokens, and they do not fail.

  Main results:
  * `Token.exact_iff` — exact tokens split the text into what is before, the token, what is after;
  * `Token.Exact.adopt` — a slice of a slice is a slice;
  * `Pass.Cutting.faithful` — cutting passes lead from exact tokens to exact tokens;
  * `tokens_are_slices` — what cutting passes make of a text are slices of it.
-/
import TokenSpan.Proofs.Tiling

namespace TokenSpan

open TokenSpan.Regex (Flags)
open TokenSpan.Finding (Mode found)

/-! ## §1. Exact tokens. -/

/-- The token is the slice of the text at the place it names. -/
structure Token.Exact (text : String) (t : Token) : Prop where
  /-- The token covers its own text. -/
  covers : t.offset = t.value.utf8ByteSize
  /-- The token starts and ends between characters, and what stands there is its text. -/
  slice : ∃ start stop : text.Pos,
    start.offset.byteIdx = t.index ∧ stop.offset.byteIdx = t.index + t.offset ∧
      text.extract start stop = t.value

/-- Between what is before a slice and what is after it stands the slice. -/
theorem eq_append_extract {text : String} (start stop : text.Pos)
    (hle : start.offset.byteIdx ≤ stop.offset.byteIdx) :
    ∃ before after, text = before ++ text.extract start stop ++ after ∧
      before.utf8ByteSize = start.offset.byteIdx := by
  obtain ⟨before, rest, hstart, hbefore⟩ := String.Pos.Raw.isValid_iff_exists_append.1 start.isValid
  obtain ⟨front, after, hstop, hfront⟩ := String.Pos.Raw.isValid_iff_exists_append.1 stop.isValid
  have hi : start.offset.byteIdx = before.utf8ByteSize := by rw [hbefore]; rfl
  have hj : stop.offset.byteIdx = front.utf8ByteSize := by rw [hfront]; rfl
  have hb := congrArg String.toByteArray hstart
  have ha := congrArg String.toByteArray hstop
  rw [String.toByteArray_append] at hb ha
  refine ⟨before, after, String.toByteArray_inj.1 ?_, hi.symm⟩
  -- the bytes up to the first position, and those from the second position on
  have hleft : text.toByteArray.extract 0 start.offset.byteIdx = before.toByteArray := by
    rw [hb]
    exact ByteArray.extract_append_eq_left (by simpa using hi)
  have hright : text.toByteArray.extract stop.offset.byteIdx text.toByteArray.size
      = after.toByteArray := by
    rw [ha]
    exact ByteArray.extract_append_eq_right (by simpa using hj) (by simp)
  have hsize : stop.offset.byteIdx ≤ text.toByteArray.size := by
    rw [ha, hj]
    simp
  rw [String.toByteArray_append, String.toByteArray_append, String.toByteArray_extract, ← hleft,
    ← hright, ← ByteArray.extract_eq_extract_append_extract _ (Nat.zero_le _) hle,
    ← ByteArray.extract_eq_extract_append_extract _ (Nat.zero_le _) hsize,
    ByteArray.extract_zero_size]

/-- The position in a text behind its first part. -/
theorem exists_pos {text before rest : String} (h : text = before ++ rest) :
    ∃ pos : text.Pos, pos.offset.byteIdx = before.utf8ByteSize :=
  ⟨⟨before.rawEndPos, String.Pos.Raw.isValid_iff_exists_append.2 ⟨before, rest, h, rfl⟩⟩, rfl⟩

/-- Exact tokens split the text into what is before them, the token, and what is after them. -/
theorem Token.exact_iff {text : String} {t : Token} :
    t.Exact text ↔ t.offset = t.value.utf8ByteSize ∧
      ∃ before after, text = before ++ t.value ++ after ∧ t.index = before.utf8ByteSize := by
  constructor
  · intro ⟨hcovers, start, stop, hstart, hstop, hslice⟩
    obtain ⟨before, after, htext, hbefore⟩ := eq_append_extract start stop (by omega)
    rw [hslice] at htext
    exact ⟨hcovers, before, after, htext, by rw [hbefore, hstart]⟩
  · intro ⟨hcovers, before, after, htext, hindex⟩
    obtain ⟨start, hstart⟩ := exists_pos (htext.trans (String.append_assoc ..))
    obtain ⟨stop, hstop⟩ := exists_pos htext
    rw [String.utf8ByteSize_append] at hstop
    refine ⟨hcovers, start, stop, by rw [hstart, hindex], by rw [hstop, hindex, hcovers], ?_⟩
    -- slicing is about bytes, so the texts are compared byte by byte
    apply String.toByteArray_inj.1
    have hbytes := congrArg String.toByteArray htext
    rw [String.toByteArray_append, String.toByteArray_append] at hbytes
    rw [String.toByteArray_extract, hstart, hstop, hbytes, ByteArray.append_assoc]
    -- behind the bytes before the token stand those of the token
    have hskip := ByteArray.extract_append_size_add (a := before.toByteArray)
      (b := t.value.toByteArray ++ after.toByteArray) (i := 0) (j := t.value.toByteArray.size)
    rw [Nat.add_zero, ByteArray.extract_append_eq_left rfl] at hskip
    simpa using hskip

namespace Token.Exact

variable {text : String} {t u : Token}

/-- The token of a whole text is exact. -/
theorem root (text : String) : (Token.root text).Exact text :=
  Token.exact_iff.2 ⟨rfl, "", "", by simp [Token.root, Token.ofText], rfl⟩

/-- Whether a token is exact depends on its text and its place alone. -/
theorem of_eq (h : t.Exact text) (hvalue : u.value = t.value) (hindex : u.index = t.index)
    (hoffset : u.offset = t.offset) : u.Exact text := by
  obtain ⟨hcovers, hslice⟩ := h
  refine ⟨?_, ?_⟩
  · rw [hoffset, hvalue, hcovers]
  · rw [hvalue, hindex, hoffset]
    exact hslice

/-- An exact token ends inside the text. -/
theorem stop_le (h : t.Exact text) : t.index + t.offset ≤ text.utf8ByteSize := by
  obtain ⟨hcovers, before, after, rfl, hindex⟩ := Token.exact_iff.1 h
  rw [hindex, hcovers, String.utf8ByteSize_append, String.utf8ByteSize_append]
  omega

/-- An exact token is no larger than the text. -/
theorem size_le (h : t.Exact text) : t.value.utf8ByteSize ≤ text.utf8ByteSize := by
  have hstop := h.stop_le
  have hcovers := h.covers
  omega

/-- A slice of a slice is a slice. -/
theorem adopt (h : t.Exact text) (hu : u.Exact t.value) (keepProperties : Bool) :
    (t.adopt keepProperties u).Exact text := by
  obtain ⟨_, before, after, rfl, hindex⟩ := Token.exact_iff.1 h
  obtain ⟨hcovers, inner, rest, hvalue, hinner⟩ := Token.exact_iff.1 hu
  -- what is before the inner slice is what is before the outer one and what it skips
  refine Token.exact_iff.2 ⟨by simpa using hcovers, before ++ inner, rest ++ after, ?_, ?_⟩
  · rw [hvalue, Token.value_adopt]
    simp only [String.append_assoc]
  · rw [Token.index_adopt, hindex, hinner, String.utf8ByteSize_append]

/-- There is room in an exact token for what is exact in it. -/
theorem hasRoom (h : t.Exact text) (htext : text.utf8ByteSize < textBound) (hu : u.Exact t.value) :
    t.HasRoom u := by
  have hlarge := textBound_lt_positionBound
  have ht := h.stop_le
  have hcovers := h.covers
  have hstop := hu.stop_le
  constructor <;> omega

end Token.Exact

/-- What a search finds in a text is exact. -/
theorem Finding.exact_found [Regex.Engine] {flags : Flags} (r : Regex flags) (mode : Mode)
    (text : String) :
    ∀ u ∈ found r mode text, u.Exact text := by
  intro u hu
  obtain ⟨hcovers, _, before, after, htext, hindex⟩ :=
    (Finding.tiles_found r text).exists_append (Finding.mem_found_split r hu)
  exact Token.exact_iff.2 ⟨hcovers, before, after, htext, by omega⟩

/-! ## §2. Faithful replies. -/

/--
The replies are faithful: each token that is exact in a text gets a reply with a place, made of tokens
that are exact in that text.
-/
def FaithfulReplies (keepProperties : Bool) (f : Context → Except Fault Reply) : Prop :=
  ∀ text, text.utf8ByteSize < textBound →
    Leads keepProperties (Token.Exact text) (fun _ items => ∀ u, some u ∈ items → u.Exact text) f

section Replies

variable {keepProperties : Bool}

/-- Tokens that are exact in the token's own text make a faithful reply. -/
theorem faithful_locals {f : Context → Except Fault Reply}
    (h : ∀ cx, cx.value.utf8ByteSize < textBound →
      ∃ us : List Token, f cx = .ok (.sequence (us.map fun u => .draft (.atOwnIndex u))) ∧
        ∀ u ∈ us, u.Exact cx.value) :
    FaithfulReplies keepProperties f := by
  intro text htext cx hcx
  have hvalue : cx.value.utf8ByteSize < textBound := Nat.lt_of_le_of_lt hcx.size_le htext
  obtain ⟨us, hf, hus⟩ := h cx hvalue
  have hroom : ∀ u ∈ us, cx.token.HasRoom u := fun u hu => hcx.hasRoom htext (hus u hu)
  -- each token of the result is one of the text's own tokens, moved
  refine ⟨_, _, hf, placeReply_locals hroom, fun v hv => ?_⟩
  obtain ⟨u, hu, huv⟩ := List.mem_map.1 hv
  rw [← Option.some.inj huv]
  exact hcx.adopt (hus u hu) keepProperties

/-- A draft of the token itself, with any values, is a faithful reply. -/
theorem faithful_whole {f : Context → Except Fault Reply}
    (h : ∀ cx, ∃ d : Draft, f cx = .ok (.draft d) ∧ d.index = none ∧ d.value = cx.token.value ∧
      d.offset = some cx.token.offset) :
    FaithfulReplies keepProperties f := by
  intro text htext cx hcx
  obtain ⟨d, hf, hopen, hvalue, hoffset⟩ := h cx
  have hspan : d.atStart.offset = cx.token.offset := by
    show d.span = _
    rw [Draft.span, hoffset]
    rfl
  -- the draft has no place of its own, so it starts where the token does
  have hroom : cx.token.HasRoom d.atStart := by
    have hlarge := textBound_lt_positionBound
    have hstop := hcx.stop_le
    have hstart : d.atStart.index = 0 := rfl
    constructor <;> omega
  refine ⟨_, _, hf, placeReply_open hopen hroom, fun u hu => ?_⟩
  rw [Option.some.inj (List.mem_singleton.1 hu)]
  exact hcx.of_eq (by simp [Draft.atStart, hvalue]) (by simp [Draft.atStart]) (by simp [hspan])

/-- Keeping the token is a faithful reply. -/
theorem faithful_keep : FaithfulReplies keepProperties fun cx => .ok (.keep cx.token) :=
  faithful_whole fun cx => ⟨.ofToken cx.token, rfl, rfl, rfl, rfl⟩

/-- Annotating the token is a faithful reply. -/
theorem faithful_annotate (values : Context → Properties) :
    FaithfulReplies keepProperties fun cx =>
      .ok (.draft ((Draft.ofToken cx.token).annotate (values cx))) :=
  faithful_whole fun _ => ⟨_, rfl, rfl, rfl, rfl⟩

/-- Dropping the token is a faithful reply. -/
theorem faithful_nothing : FaithfulReplies keepProperties fun _ => .ok .nothing :=
  faithful_locals fun _ _ => ⟨[], rfl, fun _ hu => absurd hu List.not_mem_nil⟩

/-- Keeping or dropping the token is a faithful reply. -/
theorem faithful_keepIf (condition : Context → Bool) :
    FaithfulReplies keepProperties fun cx => .ok (keepIf (condition cx) cx) :=
  fun text htext => .keepIf (faithful_keep text htext) (faithful_nothing text htext) condition

variable [Regex.Engine]

/-- A report is a faithful reply: the end of an exact token can be told. -/
theorem faithful_report (label : String) (recording : Bool) :
    FaithfulReplies keepProperties fun cx =>
      ((Transform.report label).run cx).answer recording := by
  intro text htext
  refine .report (faithful_keep text htext) (fun t ht => ?_) label
  have hlarge := textBound_lt_positionBound
  have hinside := ht.stop_le
  omega

/-- What a search finds is a faithful reply. -/
theorem faithful_find {flags : Flags} (r : Regex flags) (mode : Mode) :
    FaithfulReplies keepProperties fun cx =>
      .ok (.sequence ((Finding.drafts r mode cx.value).map .draft)) := by
  refine faithful_locals fun cx _ => ⟨found r mode cx.value, ?_, Finding.exact_found r mode _⟩
  rw [Finding.reply_drafts]

end Replies

/-! ## §3. Faithful passes. -/

/-- Faithful replies for the tokens of a sequence give a sequence of exact tokens. -/
theorem FaithfulReplies.expandAll {keepProperties : Bool} {f : Context → Except Fault Reply}
    (hf : FaithfulReplies keepProperties f) {text : String} {ts : List Token}
    (htext : text.utf8ByteSize < textBound) (hts : ∀ t ∈ ts, t.Exact text) :
    ∃ out, (expandAll keepProperties f (contexts ts)).map (·.filterMap id) = .ok out ∧
      ∀ u ∈ out, u.Exact text := by
  obtain ⟨groups, hg, hgroups⟩ := (hf text htext).expandAll hts
  refine ⟨groups.flatten.filterMap id, by rw [hg]; rfl, fun u hu => ?_⟩
  have hmem : some u ∈ groups.flatten := by simpa using hu
  -- the token belongs to what was made of one of the tokens
  obtain ⟨items, hitems, hu⟩ := List.mem_flatten.1 hmem
  obtain ⟨_, _, hexact⟩ := exists_of_mem_forall₂ hgroups hitems
  exact hexact u hu

section Passes

variable [Regex.Engine]

/-- The pass leads from tokens that are exact in a text to tokens that are, and does not fail. -/
def Pass.Faithful (p : Pass) : Prop :=
  ∀ text recording ts, text.utf8ByteSize < textBound → (∀ t ∈ ts, t.Exact text) →
    ∃ out, (p.run ts).answer recording = .ok out ∧ ∀ u ∈ out, u.Exact text

/-- A pass without a store is faithful if its replies are. -/
theorem faithful_each {keepProperties : Bool} {f : Transform}
    (hf : ∀ recording, FaithfulReplies keepProperties fun cx => (f.run cx).answer recording) :
    (Pass.each keepProperties f).Faithful := by
  intro text recording ts htext hts
  rw [answer_each]
  exact (hf recording).expandAll htext hts

/-- A stored pass is faithful if its replies are. -/
theorem faithful_stored {keepProperties : Bool} {job : StoredJob}
    (hf : ∀ recording, FaithfulReplies keepProperties fun cx => (job.run cx).answer recording) :
    (Pass.stored keepProperties job).Faithful := by
  intro text recording ts htext hts
  rw [answer_stored]
  exact (hf recording).expandAll htext hts

/-- Faithful passes may be run one after the other. -/
theorem faithful_runChain {passes : List Pass} (h : ∀ p ∈ passes, p.Faithful) {text : String}
    {ts : List Token} (htext : text.utf8ByteSize < textBound) (hts : ∀ t ∈ ts, t.Exact text)
    (recording : Bool) :
    ∃ out, (runChain passes ts).answer recording = .ok out ∧ ∀ u ∈ out, u.Exact text :=
  runChain_keeps (fun p hp us hus => h p hp text recording us htext hus) hts

/-- Faithful passes, applied to the text of a token alone, are faithful replies. -/
theorem faithful_chain {keepProperties : Bool} {passes : List Pass} (h : ∀ p ∈ passes, p.Faithful)
    (recording : Bool) :
    FaithfulReplies keepProperties fun cx => ((Transform.chain passes).run cx).answer recording := by
  refine faithful_locals fun cx hvalue => ?_
  -- inside, the text of the token is the whole text, and the token its root
  have hroot : ∀ t ∈ [Token.root cx.value], t.Exact cx.value := by
    intro t ht
    rw [List.mem_singleton.1 ht]
    exact Token.Exact.root cx.value
  obtain ⟨us, hrun, hus⟩ := faithful_runChain h hvalue hroot recording
  refine ⟨us, ?_, hus⟩
  rw [answer_chain, hrun]
  rfl

/-! ## §4. Cutting passes. -/

/--
The passes that cut texts and choose among the pieces: searches, presets, conditions, reports,
annotations, and such passes one after the other inside each token, or inside some of them.
-/
inductive Pass.Cutting : Pass → Prop where
  /-- Finding the matches of a pattern. -/
  | findPattern {s : Settings} {pattern : String} {mode : Mode} {p : Pass}
      (h : s.findPattern pattern mode = .ok p) : Cutting p
  /-- Finding the matches of an expression. -/
  | find (s : Settings) {flags : Flags} (r : Regex flags) (mode : Mode) : Cutting (s.find r mode)
  /-- A preset. -/
  | preset (s : Settings) (p : Preset) : Cutting (s.preset p)
  /-- The preset of a name. -/
  | presetNamed {s : Settings} {name : String} {p : Pass} (h : s.presetNamed name = .ok p) : Cutting p
  /-- Keeping the tokens for which a condition holds. -/
  | filter (s : Settings) (condition : Context → Bool) :
      Cutting (s.filter fun cx => .ok (condition cx))
  /-- Keeping the tokens in which a pattern matches. -/
  | matching {s : Settings} {pattern : String} {p : Pass} (h : s.matching pattern = .ok p) : Cutting p
  /-- Reporting each token. -/
  | report (s : Settings) (label : String) : Cutting (s.report label)
  /-- Giving each token the same values. -/
  | annotate (s : Settings) (values : Properties) : Cutting (s.annotate values)
  /-- Giving each token values that depend on its context. -/
  | annotateWith (s : Settings) (values : Context → Properties) :
      Cutting (s.annotateWith fun cx => .ok (values cx))
  /-- Cutting passes one after the other inside each token. -/
  | chain (s : Settings) {passes : List Pass} (h : ∀ p ∈ passes, Cutting p) : Cutting (s.chain passes)
  /-- Cutting passes one after the other inside the tokens for which a condition holds. -/
  | onlyWhere (s : Settings) (condition : Context → Bool) {passes : List Pass}
      (h : ∀ p ∈ passes, Cutting p) :
      Cutting (s.onlyWhere (fun cx => .ok (condition cx)) (.chain passes))

/-- A stored search is faithful. -/
theorem faithful_findStored (s : Settings) (r : Regex {}) (mode : Mode) :
    (s.findStored r mode).Faithful := by
  refine faithful_stored fun recording => ?_
  simp only [StoredJob.run, answer_runFind]
  exact faithful_find r mode

/-- Cutting passes lead from exact tokens to exact tokens. -/
theorem Pass.Cutting.faithful {p : Pass} (hp : p.Cutting) : p.Faithful := by
  induction hp with
  | @findPattern s pattern mode p h =>
      obtain ⟨r, rfl⟩ := Settings.eq_findStored_of_findPattern h
      exact faithful_findStored s r mode
  | find s r mode =>
      refine faithful_each fun recording => ?_
      simp only [answer_find]
      exact faithful_find r mode
  | preset s p => exact faithful_findStored s p.regex .matches
  | @presetNamed s name p h =>
      obtain ⟨q, rfl⟩ := Settings.eq_preset_of_presetNamed h
      exact faithful_findStored s q.regex .matches
  | filter s condition =>
      refine faithful_each fun recording => ?_
      simp only [answer_function]
      exact faithful_keepIf condition
  | @matching s pattern p h =>
      obtain ⟨r, rfl⟩ := Settings.eq_stored_of_matching h
      refine faithful_stored fun recording => ?_
      exact faithful_keepIf fun cx => r.isMatch cx.value.toList
  | report s label => exact faithful_each fun recording => faithful_report label recording
  | annotate s values =>
      refine faithful_each fun recording => ?_
      simp only [answer_function]
      exact faithful_annotate fun _ => values
  | annotateWith s values =>
      refine faithful_each fun recording => ?_
      simp only [answer_function]
      exact faithful_annotate values
  | chain s h ih => exact faithful_each fun recording => faithful_chain ih recording
  | onlyWhere s condition h ih =>
      refine faithful_each fun recording text htext => ?_
      refine .choose condition (faithful_chain ih recording text htext) ?_
      simp only [answer_keep]
      exact faithful_keep text htext

/--
What cutting passes make of a text, or of tokens that are exact in it, are slices of that text; they do
not fail.
-/
theorem tokens_are_slices {p : Pass} (hp : p.Cutting) {text : String}
    (htext : text.utf8ByteSize < textBound) (recording : Bool) :
    (∃ out, ((p.runText text).exec recording Cache.off).result = .ok out ∧ ∀ t ∈ out, t.Exact text) ∧
      ∀ ts, (∀ t ∈ ts, t.Exact text) →
        ∃ out, ((p.run ts).exec recording Cache.off).result = .ok out ∧ ∀ t ∈ out, t.Exact text := by
  have hrun := fun ts hts => hp.faithful text recording ts htext hts
  refine ⟨hrun [Token.root text] ?_, hrun⟩
  intro t ht
  rw [List.mem_singleton.1 ht]
  exact Token.Exact.root text

end Passes

/-- Words inside sections, in those sections alone that another one follows. -/
theorem words_in_sections_are_slices :
    let p := ({} : Settings).chain [({} : Settings).preset .sections,
      ({} : Settings).onlyWhere (fun cx => .ok cx.next.isSome)
        (.chain [({} : Settings).find Preset.words.regex .split])]
    "Größe zählt. Maß nicht".utf8ByteSize < textBound ∧
    (∃ out, ((p.runText "Größe zählt. Maß nicht").exec true Cache.off).result = .ok out ∧
        ∀ t ∈ out, t.Exact "Größe zählt. Maß nicht") ∧
      ∀ ts, (∀ t ∈ ts, t.Exact "Größe zählt. Maß nicht") →
        ∃ out, ((p.run ts).exec true Cache.off).result = .ok out ∧
          ∀ t ∈ out, t.Exact "Größe zählt. Maß nicht" := by
  intro p
  have hsize : "Größe zählt. Maß nicht".utf8ByteSize < textBound := by decide +kernel
  have hinner : (({} : Settings).onlyWhere (fun cx => .ok cx.next.isSome)
      (.chain [({} : Settings).find Preset.words.regex .split])).Cutting :=
    .onlyWhere {} (fun cx => cx.next.isSome) (by simpa using .find {} _ .split)
  have hp : p.Cutting := .chain {} (by simpa using ⟨.preset {} .sections, hinner⟩)
  exact ⟨hsize, tokens_are_slices hp hsize true⟩

end TokenSpan
