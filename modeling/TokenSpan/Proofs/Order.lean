/-
  TokenSpan.Proofs.Order
  ──────────────────────
  Passes that keep tokens in order, merging ones included.

  A transform that keeps a token, or answers texts that are together no longer than the
  token's own, leads to tokens in order inside the stretch of that token.  Whole passes then
  lead from a sequence in order between two positions to another one between the same two
  positions (`Pass.Tidy`); merging needs no more than that, and passes inside a merged
  token, whose text may be shorter than its stretch, find what they need as well.

  Main results:
  * `placeAll_ordered` — pieces that fit a token are placed in order inside it;
  * `tidy_mergeRuns`, `tidy_chain` — merging, and passes inside tokens;
  * `Pass.Tame.tidy` — tame passes keep order;
  * `tokens_stay_in_order` — what tame passes make of a text is in order, inside the text.
-/
import TokenSpan.Proofs.Merging
import TokenSpan.Proofs.Tiling

namespace TokenSpan

open TokenSpan.Regex (Flags)
open TokenSpan.Finding (Mode Tiles found)

/-! ## §1. Replies that fit. -/

/-- How many positions a piece takes. -/
def Piece.extent : Piece → Nat
  | .draft d => d.span
  | _ => 0

/-- A piece whose place is open, and that has no more text than it takes positions; or a cut. -/
def Piece.Loose : Piece → Prop
  | .cut => True
  | .draft d => d.index = none ∧ d.value.utf8ByteSize ≤ d.span
  | .nested _ => False

/-- How many positions pieces take together. -/
def totalExtent : List Piece → Nat
  | [] => 0
  | p :: rest => p.extent + totalExtent rest

/-- What a transform may answer for a token so that the order stays. -/
inductive Reply.Modest (t : Token) (r : Reply) : Prop where
  /-- The token with any values, alone or between cuts. -/
  | whole (before after : Nat) (d : Draft)
      (pieces : r.pieces = List.replicate before .cut ++ .draft d :: List.replicate after .cut)
      (index : d.index = none) (value : d.value = t.value) (offset : d.offset = some t.offset)
  /-- Texts and cuts, the texts together no longer than that of the token. -/
  | texts (pieces : ∀ p ∈ r.pieces, p = .cut ∨ ∃ value, p = .draft (.ofText value))
      (total : totalExtent r.pieces ≤ t.value.utf8ByteSize)

/-- The pieces are loose and together take no more positions than the token. -/
def Reply.Fits (t : Token) (r : Reply) : Prop :=
  (∀ p ∈ r.pieces, p.Loose) ∧ totalExtent r.pieces ≤ t.offset

theorem totalExtent_append (ps qs : List Piece) :
    totalExtent (ps ++ qs) = totalExtent ps + totalExtent qs := by
  induction ps with
  | nil => exact (Nat.zero_add _).symm
  | cons p rest ih =>
      show p.extent + totalExtent (rest ++ qs) = p.extent + totalExtent rest + totalExtent qs
      rw [ih, Nat.add_assoc]

theorem totalExtent_cuts (count : Nat) : totalExtent (List.replicate count .cut) = 0 := by
  induction count with
  | zero => rfl
  | succ n ih =>
      show 0 + totalExtent (List.replicate n .cut) = 0
      rw [ih]

/-- Modest replies fit a token that covers its text. -/
theorem Reply.Modest.fits {t : Token} {r : Reply} (h : r.Modest t)
    (ht : t.value.utf8ByteSize ≤ t.offset) : r.Fits t := by
  cases h with
  | whole before after d pieces index value offset =>
      have hspan : d.span = t.offset := by rw [Draft.span, offset]; rfl
      unfold Reply.Fits
      rw [pieces]
      constructor
      · -- the pieces are cuts, the draft, and cuts
        intro p hp
        rcases List.mem_append.1 hp with hp | hp
        · rw [List.eq_of_mem_replicate hp]
          trivial
        · rcases List.mem_cons.1 hp with rfl | hp
          · exact ⟨index, by rw [value, hspan]; exact ht⟩
          · rw [List.eq_of_mem_replicate hp]
            trivial
      · rw [totalExtent_append, totalExtent_cuts]
        show 0 + (d.span + totalExtent (List.replicate after .cut)) ≤ t.offset
        rw [totalExtent_cuts]
        omega
  | texts pieces total =>
      refine ⟨fun p hp => ?_, Nat.le_trans total ht⟩
      rcases pieces p hp with rfl | ⟨value, rfl⟩
      · trivial
      · exact ⟨rfl, Nat.le_refl _⟩

/-- Loose pieces are placed one after the other, in order, and the places do not fail. -/
theorem placeAll_ordered {pieces : List Piece} (hloose : ∀ p ∈ pieces, p.Loose) (base : Token)
    (cursor : Nat) (hroom : base.index + cursor + totalExtent pieces < textBound) :
    ∃ items, placeAll base cursor pieces = .ok items ∧
      Ordered (base.index + cursor) (items.filterMap id)
        (base.index + cursor + totalExtent pieces) := by
  -- the cursor is where the piece before ended; cuts leave it where it is
  induction pieces generalizing cursor with
  | nil => exact ⟨[], rfl, Nat.le_refl _⟩
  | cons p rest ih =>
      have hrest : ∀ q ∈ rest, q.Loose := fun q hq => hloose q (List.mem_cons_of_mem _ hq)
      unfold totalExtent at hroom ⊢
      match p, hloose p List.mem_cons_self with
      | .cut, _ =>
          have hextent : Piece.cut.extent = 0 := rfl
          obtain ⟨items, hplace, hitems⟩ := ih hrest cursor (by omega)
          refine ⟨none :: items, ?_, ?_⟩
          · unfold placeAll
            show (placeAll base cursor rest).bind _ = _
            rw [hplace]
            rfl
          · rw [hextent, Nat.zero_add]
            exact hitems
      | .draft d, ⟨hopen, hvalue⟩ =>
          have hlarge := textBound_lt_positionBound
          have hextent : (Piece.draft d).extent = d.span := rfl
          rw [hextent] at hroom ⊢
          have hd := Draft.place_open base hopen cursor (by omega) (by omega)
          obtain ⟨items, hplace, hitems⟩ := ih hrest (cursor + d.span) (by omega)
          refine ⟨some { d.atStart with index := base.index + cursor } :: items, ?_, ?_⟩
          · rw [placeAll_cons_draft, hd]
            show (placeAll base (cursor + d.span) rest).map _ = _
            rw [hplace]
            rfl
          · -- the other pieces start where the draft ends
            refine ⟨Nat.le_refl _, hvalue, ?_⟩
            have hsum : base.index + (cursor + d.span) + totalExtent rest
                = base.index + cursor + (d.span + totalExtent rest) := by omega
            rw [hsum, ← Nat.add_assoc] at hitems
            exact hitems

/-! ## §2. Tidy replies. -/

/-- The token covers its text, and it ends inside a text. -/
def Token.Sound (t : Token) : Prop :=
  t.value.utf8ByteSize ≤ t.offset ∧ t.index + t.offset < textBound

/-- The replies are tidy: their tokens are in order inside the stretch of the token they are made for. -/
def TidyReplies (keepProperties : Bool) (f : Context → Except Fault Reply) : Prop :=
  Leads keepProperties Token.Sound
    (fun t items => Ordered t.index (items.filterMap id) (t.index + t.offset)) f

section Replies

variable (keepProperties : Bool)

/-- Inheriting values does not touch the order. -/
theorem ordered_inherit (base : Token) {lo hi : Nat} {items : List (Option Token)}
    (h : Ordered lo (items.filterMap id) hi) :
    Ordered lo
      ((if keepProperties then items.map (·.map (·.inherit base)) else items).filterMap id) hi := by
  cases keepProperties with
  | false => exact h
  | true =>
      have hmap : (items.map (·.map (·.inherit base))).filterMap id
          = (items.filterMap id).map (·.inherit base) := by
        rw [List.filterMap_map, List.map_filterMap]
        rfl
      have hsame := h.map (·.inherit base) 0 fun t => ⟨rfl, (Nat.zero_add _).symm, rfl⟩
      rw [Nat.zero_add, Nat.zero_add, ← hmap] at hsame
      exact hsame

variable {keepProperties}

/-- Replies that fit are tidy. -/
theorem tidy_of_fits {f : Context → Reply}
    (h : ∀ cx, cx.token.value.utf8ByteSize ≤ cx.token.offset → (f cx).Fits cx.token) :
    TidyReplies keepProperties fun cx => .ok (f cx) := by
  intro cx ⟨hvalue, hend⟩
  obtain ⟨hloose, htotal⟩ := h cx hvalue
  obtain ⟨items, hplace, hitems⟩ := placeAll_ordered hloose cx.token 0 (by omega)
  rw [Nat.add_zero] at hitems
  refine ⟨f cx, _, rfl, ?_, ordered_inherit keepProperties cx.token (hitems.le_of (by omega))⟩
  unfold placeReply Reply.place
  rw [hplace]
  rfl

/-- Tokens in order in the token's own text make a tidy reply. -/
theorem tidy_locals {f : Context → Except Fault Reply}
    (h : ∀ cx, cx.value.utf8ByteSize < textBound → ∃ us : List Token,
      f cx = .ok (.sequence (us.map fun u => .draft (.atOwnIndex u))) ∧
        Ordered 0 us cx.value.utf8ByteSize) :
    TidyReplies keepProperties f := by
  intro cx ⟨hvalue, hend⟩
  have hlarge := textBound_lt_positionBound
  have hsize : cx.value.utf8ByteSize ≤ cx.token.offset := hvalue
  obtain ⟨us, hf, hus⟩ := h cx (by omega)
  -- the tokens end inside the text of the token, so they do inside its stretch
  have hroom : ∀ u ∈ us, cx.token.HasRoom u := by
    intro u hu
    obtain ⟨_, _, hu⟩ := hus.mem hu
    constructor <;> omega
  refine ⟨_, _, hf, placeReply_locals hroom, ?_⟩
  have hmoved := hus.map (cx.token.adopt keepProperties) cx.token.index
    fun u => ⟨by simp, by simp, by simp⟩
  have hitems : (us.map fun u => some (cx.token.adopt keepProperties u)).filterMap id
      = us.map (cx.token.adopt keepProperties) := by
    rw [List.filterMap_map]
    exact congrFun List.filterMap_eq_map us
  show Ordered cx.token.index (List.filterMap id _) (cx.token.index + cx.token.offset)
  rw [hitems]
  exact hmoved.le_of (by omega)

/-- Keeping the token, or dropping it, is a tidy reply. -/
theorem modest_keepIf (test : Bool) (cx : Context) : (keepIf test cx).Modest cx.token := by
  cases test with
  | true => exact .whole 0 0 (.ofToken cx.token) rfl rfl rfl rfl
  | false => exact .texts (fun p hp => absurd hp List.not_mem_nil) (Nat.zero_le _)

/-- Annotating the token is a tidy reply. -/
theorem modest_annotate (values : Properties) (t : Token) :
    (Reply.draft ((Draft.ofToken t).annotate values)).Modest t :=
  .whole 0 0 ((Draft.ofToken t).annotate values) rfl rfl rfl rfl

/-- Modest replies are tidy. -/
theorem tidy_of_modest {f : Context → Reply} (h : ∀ cx, (f cx).Modest cx.token) :
    TidyReplies keepProperties fun cx => .ok (f cx) :=
  tidy_of_fits fun cx hvalue => (h cx).fits hvalue

/-- Tiles are in order. -/
theorem Finding.Tiles.ordered {start : Nat} {text : String} {ts : List Token}
    (h : Tiles start text ts) : Ordered start ts (start + text.utf8ByteSize) := by
  induction ts generalizing start text with
  | nil => exact Nat.le_add_right _ _
  | cons t rest ih =>
      obtain ⟨hindex, hoffset, _, more, rfl, hrest⟩ := h
      refine ⟨by omega, by omega, ?_⟩
      have htail := ih hrest
      rw [String.utf8ByteSize_append, ← Nat.add_assoc, ← hoffset, hindex]
      exact htail

variable [Regex.Engine]

/-- A report is a tidy reply: the end of the token can be told. -/
theorem tidy_report (label : String) (recording : Bool) :
    TidyReplies keepProperties fun cx => ((Transform.report label).run cx).answer recording := by
  have hkeep : TidyReplies keepProperties fun cx => .ok (.keep cx.token) :=
    tidy_of_modest fun cx => modest_keepIf true cx
  refine .report hkeep (fun t ht => ?_) label
  exact Nat.lt_trans ht.2 textBound_lt_positionBound

/-- What a search finds is in order. -/
theorem Finding.ordered_found {flags : Flags} (r : Regex flags) (mode : Mode) (text : String) :
    Ordered 0 (found r mode text) text.utf8ByteSize := by
  have htiles := (Finding.tiles_found r text).ordered
  rw [Nat.zero_add] at htiles
  match mode with
  | .split => exact htiles
  | .matches =>
      rw [Finding.found_matches]
      exact htiles.filter _

/-- What a search finds is a tidy reply. -/
theorem tidy_find {flags : Flags} (r : Regex flags) (mode : Mode) :
    TidyReplies keepProperties fun cx =>
      .ok (.sequence ((Finding.drafts r mode cx.value).map .draft)) := by
  refine tidy_locals fun cx _ => ⟨found r mode cx.value, ?_, Finding.ordered_found r mode _⟩
  rw [Finding.reply_drafts]

end Replies

/-! ## §3. Tidy passes. -/

/-- What is made of each token of a sequence in order, inside its stretch, is in order. -/
theorem ordered_groups {lo hi : Nat} {ts : List Token} {groups : List (List (Option Token))}
    (h : Ordered lo ts hi)
    (hgroups : List.Forall₂
      (fun t items => Ordered t.index (items.filterMap id) (t.index + t.offset)) ts groups) :
    Ordered lo (groups.flatten.filterMap id) hi := by
  induction hgroups generalizing lo with
  | nil => exact h
  | cons hitems _ ih =>
      obtain ⟨hlo, _, hrest⟩ := h
      rw [List.flatten_cons, List.filterMap_append]
      exact ordered_append.2 ⟨_, hitems.of_le hlo, ih hrest⟩

/-- Tidy replies for the tokens of a sequence in order give tokens in order. -/
theorem TidyReplies.expandAll {keepProperties : Bool} {f : Context → Except Fault Reply}
    (hf : TidyReplies keepProperties f) {lo hi : Nat} {ts : List Token} (hhi : hi < textBound)
    (h : Ordered lo ts hi) :
    ∃ items, expandAll keepProperties f (contexts ts) = .ok items ∧
      Ordered lo (items.filterMap id) hi := by
  have hsound : ∀ t ∈ ts, t.Sound := by
    intro t ht
    obtain ⟨_, hvalue, hend⟩ := h.mem ht
    exact ⟨hvalue, by omega⟩
  obtain ⟨groups, hg, hgroups⟩ := Leads.expandAll hf hsound
  exact ⟨groups.flatten, hg, ordered_groups h hgroups⟩

/-- The token of a whole text is in order by itself. -/
theorem ordered_root (text : String) : Ordered 0 [Token.root text] text.utf8ByteSize :=
  ordered_singleton (Nat.zero_le _) (Nat.le_refl _) (Nat.le_of_eq (Nat.zero_add _))

section Passes

variable [Regex.Engine]

/-- The pass leads from tokens in order to tokens in order between the same positions, and does not fail. -/
def Pass.Tidy (p : Pass) : Prop :=
  ∀ lo hi recording ts, hi < textBound → Ordered lo ts hi →
    ∃ out, (p.run ts).answer recording = .ok out ∧ Ordered lo out hi

section Builders

variable {keepProperties : Bool} {f : Transform}

/-- A pass without a store is tidy if its replies are. -/
theorem tidy_each
    (hf : ∀ recording, TidyReplies keepProperties fun cx => (f.run cx).answer recording) :
    (Pass.each keepProperties f).Tidy := by
  intro lo hi recording ts hhi h
  obtain ⟨items, hitems, hout⟩ := (hf recording).expandAll hhi h
  refine ⟨items.filterMap id, ?_, hout⟩
  rw [answer_each, hitems]
  rfl

/-- A stored pass is tidy if its replies are. -/
theorem tidy_stored {job : StoredJob}
    (hf : ∀ recording, TidyReplies keepProperties fun cx => (job.run cx).answer recording) :
    (Pass.stored keepProperties job).Tidy := by
  intro lo hi recording ts hhi h
  obtain ⟨items, hitems, hout⟩ := (hf recording).expandAll hhi h
  refine ⟨items.filterMap id, ?_, hout⟩
  rw [answer_stored, hitems]
  rfl

/-- A merging pass is tidy if its replies are, and its filler takes at most one byte. -/
theorem tidy_mergeRuns {filler : String} (hfiller : filler.utf8ByteSize ≤ 1)
    (hf : ∀ recording, TidyReplies keepProperties fun cx => (f.run cx).answer recording) :
    (Pass.mergeRuns keepProperties f filler).Tidy := by
  intro lo hi recording ts hhi h
  obtain ⟨items, hitems, hmid⟩ := (hf recording).expandAll hhi h
  rw [answer_mergeRuns, hitems]
  exact mergeSegments_ordered hfiller hhi hmid

/-- Tidy passes may be run one after the other. -/
theorem tidy_runChain {passes : List Pass} (hpasses : ∀ p ∈ passes, p.Tidy) {lo hi : Nat}
    {ts : List Token} (hhi : hi < textBound) (h : Ordered lo ts hi) (recording : Bool) :
    ∃ out, (runChain passes ts).answer recording = .ok out ∧ Ordered lo out hi :=
  runChain_keeps (I := fun us => Ordered lo us hi)
    (fun p hp us hus => hpasses p hp lo hi recording us hhi hus) h

/-- Tidy passes, applied to the text of a token alone, are tidy replies. -/
theorem tidy_chain {passes : List Pass} (hpasses : ∀ p ∈ passes, p.Tidy) (recording : Bool) :
    TidyReplies keepProperties fun cx => ((Transform.chain passes).run cx).answer recording := by
  refine tidy_locals fun cx hvalue => ?_
  -- inside, the text of the token is the whole text, however far the token stretches
  obtain ⟨us, hrun, hus⟩ := tidy_runChain hpasses hvalue (ordered_root cx.value) recording
  refine ⟨us, ?_, hus⟩
  rw [answer_chain, hrun]
  rfl

end Builders

/-! ## §4. Tame passes. -/

mutual

/--
The passes that keep order: searches, presets, conditions, reports, annotations, tame transforms of
each token or of some of them, tame passes inside each token, and merging with a filler of at most one
byte.
-/
inductive Pass.Tame : Pass → Prop where
  /-- Finding the matches of a pattern. -/
  | findPattern {s : Settings} {pattern : String} {mode : Mode} {p : Pass}
      (h : s.findPattern pattern mode = .ok p) : Pass.Tame p
  /-- Finding the matches of an expression. -/
  | find (s : Settings) {flags : Flags} (r : Regex flags) (mode : Mode) : Pass.Tame (s.find r mode)
  /-- A preset. -/
  | preset (s : Settings) (p : Preset) : Pass.Tame (s.preset p)
  /-- The preset of a name. -/
  | presetNamed {s : Settings} {name : String} {p : Pass} (h : s.presetNamed name = .ok p) :
      Pass.Tame p
  /-- Keeping the tokens for which a condition holds. -/
  | filter (s : Settings) (condition : Context → Bool) :
      Pass.Tame (s.filter fun cx => .ok (condition cx))
  /-- Keeping the tokens in which a pattern matches. -/
  | matching {s : Settings} {pattern : String} {p : Pass} (h : s.matching pattern = .ok p) :
      Pass.Tame p
  /-- Reporting each token. -/
  | report (s : Settings) (label : String) : Pass.Tame (s.report label)
  /-- Giving each token the same values. -/
  | annotate (s : Settings) (values : Properties) : Pass.Tame (s.annotate values)
  /-- Giving each token values that depend on its context. -/
  | annotateWith (s : Settings) (values : Context → Properties) :
      Pass.Tame (s.annotateWith fun cx => .ok (values cx))
  /-- Tame passes one after the other inside each token. -/
  | chain (s : Settings) {passes : List Pass} (h : ∀ p ∈ passes, p.Tame) : Pass.Tame (s.chain passes)
  /-- A tame transform of each token. -/
  | each (s : Settings) {f : Transform} (h : f.Tame) : Pass.Tame (s.each f)
  /-- A tame transform of the tokens for which a condition holds. -/
  | onlyWhere (s : Settings) (condition : Context → Bool) {f : Transform} (h : f.Tame) :
      Pass.Tame (s.onlyWhere (fun cx => .ok (condition cx)) f)
  /-- A tame transform of each token, and merging between its cuts. -/
  | mergeRuns (s : Settings) {f : Transform} (h : f.Tame) {filler : String}
      (hfiller : filler.utf8ByteSize ≤ 1) : Pass.Tame (s.mergeRuns f filler)
  /-- Merging all tokens into one. -/
  | mergeAll (s : Settings) : Pass.Tame s.mergeAll

/-- Transforms that answer modestly, apply tame passes, or choose between such transforms. -/
inductive Transform.Tame : Transform → Prop where
  /-- Modest replies. -/
  | function (f : Context → Reply) (h : ∀ cx, (f cx).Modest cx.token) :
      Transform.Tame (.function fun cx => .ok (f cx))
  /-- Tame passes one after the other. -/
  | chain {passes : List Pass} (h : ∀ p ∈ passes, p.Tame) : Transform.Tame (.chain passes)
  /-- A choice between tame transforms. -/
  | choose (condition : Context → Bool) {yes no : Transform} (hyes : yes.Tame) (hno : no.Tame) :
      Transform.Tame (.choose (fun cx => .ok (condition cx)) yes no)

end

/-- A stored search is tidy. -/
theorem tidy_findStored (s : Settings) (r : Regex {}) (mode : Mode) : (s.findStored r mode).Tidy := by
  refine tidy_stored fun recording => ?_
  simp only [StoredJob.run, answer_runFind]
  exact tidy_find r mode

/-- A transform whose replies are modest is tidy. -/
theorem tidy_function {keepProperties : Bool} {f : Context → Reply}
    (h : ∀ cx, (f cx).Modest cx.token) (recording : Bool) :
    TidyReplies keepProperties fun cx =>
      ((Transform.function fun cx => .ok (f cx)).run cx).answer recording := by
  simp only [answer_function]
  exact tidy_of_modest h

/-- The transform that keeps each token is tidy. -/
theorem tidy_keep {keepProperties : Bool} (recording : Bool) :
    TidyReplies keepProperties fun cx => (Transform.keep.run cx).answer recording :=
  tidy_function (fun cx => modest_keepIf true cx) recording

mutual

/-- Tame passes lead from tokens in order to tokens in order, and do not fail. -/
theorem Pass.Tame.tidy {p : Pass} : p.Tame → p.Tidy
  | .findPattern h => by
      obtain ⟨r, rfl⟩ := Settings.eq_findStored_of_findPattern h
      exact tidy_findStored _ r _
  | .find s r mode => by
      refine tidy_each fun recording => ?_
      simp only [answer_find]
      exact tidy_find r mode
  | .preset s p => tidy_findStored s p.regex .matches
  | .presetNamed h => by
      obtain ⟨q, rfl⟩ := Settings.eq_preset_of_presetNamed h
      exact tidy_findStored _ q.regex .matches
  | .filter s condition =>
      tidy_each fun recording => tidy_function (fun cx => modest_keepIf (condition cx) cx) recording
  | .matching h => by
      obtain ⟨r, rfl⟩ := Settings.eq_stored_of_matching h
      refine tidy_stored fun recording => ?_
      exact tidy_of_modest fun cx => modest_keepIf (r.isMatch cx.value.toList) cx
  | .report s label => tidy_each fun recording => tidy_report label recording
  | .annotate s values =>
      tidy_each fun recording => tidy_function (fun cx => modest_annotate values cx.token) recording
  | .annotateWith s values =>
      tidy_each fun recording =>
        tidy_function (fun cx => modest_annotate (values cx) cx.token) recording
  | .chain s h => tidy_each fun recording => tidy_chain (fun p hp => (h p hp).tidy) recording
  | .each s h => tidy_each fun recording => h.tidy recording
  | .onlyWhere s condition h =>
      tidy_each fun recording => .choose condition (h.tidy recording) (tidy_keep recording)
  | .mergeRuns s h hfiller => tidy_mergeRuns hfiller fun recording => h.tidy recording
  | .mergeAll s => tidy_mergeRuns (by decide) fun recording => tidy_keep recording

/-- Tame transforms answer tidy replies. -/
theorem Transform.Tame.tidy {f : Transform} :
    f.Tame → ∀ {keepProperties : Bool} (recording : Bool),
      TidyReplies keepProperties fun cx => (f.run cx).answer recording
  | .function _ h => fun recording => tidy_function h recording
  | .chain h => fun recording => tidy_chain (fun p hp => (h p hp).tidy) recording
  | .choose condition hyes hno => fun recording =>
      .choose condition (hyes.tidy recording) (hno.tidy recording)

end

/--
What tame passes make of a text comes one token after the other, without overlap, inside the text, and
no token holds more text than it covers; they do not fail.
-/
theorem tokens_stay_in_order {p : Pass} (hp : p.Tame) {text : String}
    (htext : text.utf8ByteSize < textBound) (recording : Bool) :
    ∃ out, ((p.runText text).exec recording Cache.off).result = .ok out ∧
      (∀ t ∈ out, t.value.utf8ByteSize ≤ t.offset ∧ t.index + t.offset ≤ text.utf8ByteSize) ∧
      out.Pairwise fun t u => t.index + t.offset ≤ u.index := by
  obtain ⟨out, hout, horder⟩ := hp.tidy 0 _ recording _ htext (ordered_root text)
  refine ⟨out, hout, fun t ht => ?_, horder.pairwise⟩
  exact (horder.mem ht).2

end Passes

/-- Words merged between cuts, the filler in the gaps, and the characters of what they merge into. -/
theorem characters_of_merged_words_in_order :
    let p := ({} : Settings).chain [({} : Settings).preset .words,
      ({} : Settings).mergeRuns (.function fun cx =>
        .ok (.sequence (if cx.position = 2 then [.cut, .keep cx.token] else [.keep cx.token]))) "-",
      ({} : Settings).preset .characters, ({} : Settings).mergeAll]
    p.Tame ∧ "Füße, Hände und Köpfe".utf8ByteSize < textBound ∧
    ∃ out, ((p.runText "Füße, Hände und Köpfe").exec true Cache.off).result = .ok out ∧
      (∀ t ∈ out, t.value.utf8ByteSize ≤ t.offset ∧
        t.index + t.offset ≤ "Füße, Hände und Köpfe".utf8ByteSize) ∧
      out.Pairwise fun t u => t.index + t.offset ≤ u.index := by
  intro p
  -- the third word is cut off from the words before it
  have hcut : Transform.Tame (.function fun cx => .ok (.sequence
      (if cx.position = 2 then [.cut, .keep cx.token] else [.keep cx.token]))) := by
    refine .function (fun cx => .sequence
      (if cx.position = 2 then [.cut, .keep cx.token] else [.keep cx.token])) fun cx => ?_
    by_cases h : cx.position = 2
    · rw [if_pos h]
      exact .whole 1 0 (.ofToken cx.token) rfl rfl rfl rfl
    · rw [if_neg h]
      exact .whole 0 0 (.ofToken cx.token) rfl rfl rfl rfl
  have hp : p.Tame := by
    refine .chain {} ?_
    simp only [List.forall_mem_cons]
    exact ⟨.preset {} .words, .mergeRuns {} hcut (by decide), .preset {} .characters, .mergeAll {},
      List.forall_mem_nil _⟩
  have hsize : "Füße, Hände und Köpfe".utf8ByteSize < textBound := by decide +kernel
  exact ⟨hp, hsize, tokens_stay_in_order hp hsize true⟩

end TokenSpan
