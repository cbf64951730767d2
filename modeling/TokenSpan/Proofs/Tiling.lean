/-
  TokenSpan.Proofs.Tiling
  ───────────────────────
  What a search finds covers the text it searches.

  The matches and the gaps between them stand end to end and spell the text
  (`segments_laid`, `flatMap_text_segments`), whatever the regular expression answers.
  So the tokens of split mode tile the text of each token, and those of match mode are some
  of them.

  Main results:
  * `tiles_found` — the tokens found in split mode tile the text;
  * `found_matches` — match mode finds those of them that carry a match;
  * `answer_find_pass` — what a search pass answers, token by token;
  * `split_tiles_each_token` — split mode tiles each token of a sequence.
-/
import TokenSpan.Proofs.Success
import TokenSpan.Regex.Standard

namespace TokenSpan

open TokenSpan.Regex (Flags)
open TokenSpan.Finding (Mode)

namespace Finding

section Searches

variable [Regex.Engine] {flags : Flags} (r : Regex flags)

/-! ## §1. Segments stand end to end. -/

/-- Where a segment starts. -/
def Segment.position : Segment → Nat
  | .gap position _ => position
  | .hit position _ => position

/-- The text of a segment. -/
def Segment.text : Segment → List Char
  | .gap _ text => text
  | .hit _ c => c.matched

/-- A match that was reported is not empty. -/
def Segment.Solid : Segment → Prop
  | .gap _ _ => True
  | .hit _ c => c.matched ≠ []

/-- Segments stand end to end from a position on, and their matches are not empty. -/
def Laid : Nat → List Segment → Prop
  | _, [] => True
  | start, s :: rest => s.position = start ∧ s.Solid ∧ Laid (start + byteLength s.text) rest

/--
The layout of a search from a position: the text before the first match and the segments after it
spell the searched text, and the segments stand where their texts are.
-/
theorem layout_steps (prev : Option Char) (position : Nat) (text : List Char) :
    (layout (steps r prev position text)).1
        ++ (layout (steps r prev position text)).2.flatMap Segment.text = text ∧
      Laid (position + byteLength (layout (steps r prev position text)).1)
        (layout (steps r prev position text)).2 := by
  -- the parts of a match spell the text that was searched, so what is left is the rest of the search
  fun_induction steps r prev position text with
  | case1 prev position text h => exact ⟨by simp [layout], trivial⟩
  | case2 prev position text c h hm ha =>
      have happ := Regex.capturesFrom?_append h
      rw [hm, ha] at happ
      exact ⟨by simpa [layout] using happ, trivial⟩
  | case3 prev position text c h d after hm ha _ ih =>
      have happ := Regex.capturesFrom?_append h
      rw [hm, ha] at happ
      simp only [layout, Option.toList_some]
      generalize layout (steps r (some d) _ after) = more at ih ⊢
      obtain ⟨htext, hlaid⟩ := ih
      constructor
      · rw [← happ, ← htext]
        simp
      · -- the search goes on behind the character that was stepped over
        have hpos : position + byteLength (c.skipped ++ [d] ++ more.1)
            = position + byteLength c.skipped + d.utf8Size + byteLength more.1 := by
          simp only [byteLength_append, byteLength_cons, byteLength_nil]
          omega
        rw [hpos]
        exact hlaid
  | case4 prev position text c h m rest hm _ ih =>
      have happ := Regex.capturesFrom?_append h
      simp only [layout]
      generalize layout (steps r _ _ c.after) = more at ih ⊢
      obtain ⟨htext, hlaid⟩ := ih
      constructor
      · rw [← happ, ← htext]
        simp [Segment.text]
      · -- behind the match stands the gap up to the next one
        exact ⟨rfl, by simp [Segment.Solid, hm], rfl, trivial, hlaid⟩

/-- The matches and gaps of a text stand end to end from its start on. -/
theorem segments_laid (text : List Char) : Laid 0 (segments r text) := by
  have h := (layout_steps r none 0 text).2
  exact ⟨rfl, trivial, h⟩

/-- The matches and gaps of a text spell it. -/
theorem flatMap_text_segments (text : List Char) :
    (segments r text).flatMap Segment.text = text :=
  (layout_steps r none 0 text).1

/-! ## §2. The tokens that are found. -/

/-- A segment as a token of the text it belongs to. -/
def Segment.token : Segment → Token
  | .gap position text =>
      { value := String.ofList text, index := position, offset := byteLength text }
  | .hit position c =>
      { value := String.ofList c.matched, index := position, offset := byteLength c.matched,
        matched := some (matchInfo r position c) }

/-- Whether a segment becomes a token. -/
def Segment.shown (mode : Mode) : Segment → Bool
  | .gap _ text => mode = .split ∧ text ≠ []
  | .hit _ _ => true

/-- The tokens that a regular expression finds in a text, at their places in that text. -/
def found (mode : Mode) (text : String) : List Token :=
  ((segments r text.toList).filter (Segment.shown mode)).map (Segment.token r)

theorem draft?_eq (mode : Mode) (s : Segment) :
    s.draft? r mode = if s.shown mode then some (Draft.atOwnIndex (s.token r)) else none := by
  cases s with
  | gap position text =>
      simp only [Segment.draft?, Segment.shown, decide_eq_true_eq]
      rfl
  | hit position c => rfl

/-- The drafts of a search are the tokens it finds, each at its own place. -/
theorem drafts_eq (mode : Mode) (text : String) :
    drafts r mode text = (found r mode text).map Draft.atOwnIndex := by
  unfold drafts found
  induction segments r text.toList with
  | nil => rfl
  | cons s rest ih =>
      rw [List.filterMap_cons, draft?_eq]
      by_cases h : s.shown mode
      · simp only [h, if_true, List.filter_cons_of_pos, List.map_cons, ih]
      · simp only [h, if_false, List.filter_cons_of_neg, not_false_iff, Bool.false_eq_true, ih]

/-- The reply of a search holds the tokens it finds, each at its own place. -/
theorem reply_drafts (mode : Mode) (text : String) :
    Reply.sequence ((drafts r mode text).map .draft)
      = .sequence ((found r mode text).map fun u => .draft (.atOwnIndex u)) := by
  rw [drafts_eq, List.map_map]
  rfl

/-- Match mode finds those tokens of split mode that carry a match. -/
theorem found_matches (text : String) :
    found r .matches text = (found r .split text).filter (·.matched.isSome) := by
  unfold found
  induction segments r text.toList with
  | nil => rfl
  | cons s rest ih =>
      cases s with
      | gap position t =>
          -- match mode shows no gap, and split mode gives it no match
          by_cases h : t = []
          · simpa [Segment.shown, h] using ih
          · simpa [Segment.shown, Segment.token, h] using ih
      | hit position c =>
          rw [List.filter_cons_of_pos rfl, List.filter_cons_of_pos rfl, List.map_cons, List.map_cons,
            List.filter_cons_of_pos rfl, ih]

/-- What either mode finds is found in split mode. -/
theorem mem_found_split {mode : Mode} {text : String} {t : Token} (h : t ∈ found r mode text) :
    t ∈ found r .split text :=
  match mode, h with
  | .split, h => h
  | .matches, h => List.mem_of_mem_filter (found_matches r text ▸ h)

/-! ## §3. Tiles. -/

/-- Tokens that stand end to end from a position on, none of them empty, and spell a text. -/
def Tiles : Nat → String → List Token → Prop
  | _, text, [] => text = ""
  | start, text, t :: rest =>
      t.index = start ∧ t.offset = t.value.utf8ByteSize ∧ t.value ≠ "" ∧
        ∃ more, text = t.value ++ more ∧ Tiles (start + t.offset) more rest

/-- Segments that stand end to end show tokens that do. -/
theorem tiles_of_laid {start : Nat} {segs : List Segment} (h : Laid start segs) :
    Tiles start (String.ofList (segs.flatMap Segment.text))
      ((segs.filter (Segment.shown .split)).map (Segment.token r)) := by
  induction segs generalizing start with
  | nil => rfl
  | cons s rest ih =>
      obtain ⟨hpos, hsolid, hrest⟩ := h
      have hmore := ih hrest
      rw [List.flatMap_cons]
      by_cases hempty : s.text = []
      · -- an empty segment is a gap, and no token comes from it
        cases s with
        | hit position c => exact absurd hempty hsolid
        | gap position text =>
            have htext : text = [] := hempty
            subst htext
            simpa [Segment.shown, Segment.text] using hmore
      · have hshown : s.shown .split = true := by
          cases s with
          | gap position text => simpa [Segment.shown, Segment.text] using hempty
          | hit position c => rfl
        have hvalue : (s.token r).value = String.ofList s.text := by cases s <;> rfl
        have hindex : (s.token r).index = s.position := by cases s <;> rfl
        have hoffset : (s.token r).offset = byteLength s.text := by cases s <;> rfl
        rw [List.filter_cons_of_pos hshown, List.map_cons]
        refine ⟨by rw [hindex, hpos], ?_, ?_, String.ofList (rest.flatMap Segment.text), ?_, ?_⟩
        · rw [hoffset, hvalue, utf8ByteSize_ofList]
        · rw [hvalue]
          simpa using hempty
        · rw [hvalue, String.ofList_append]
        · rw [hoffset]
          exact hmore

/-- The tokens found in split mode tile the text. -/
theorem tiles_found (text : String) : Tiles 0 text (found r .split text) := by
  have h := tiles_of_laid r (segments_laid r text.toList)
  rw [flatMap_text_segments, String.ofList_toList] at h
  exact h

end Searches

namespace Tiles

variable {start : Nat} {text : String} {ts : List Token}

/-- A tile stands on the text: something before it and something after it complete the text. -/
theorem exists_append (h : Tiles start text ts) {t : Token} (ht : t ∈ ts) :
    t.offset = t.value.utf8ByteSize ∧ t.value ≠ "" ∧
      ∃ before after, text = before ++ t.value ++ after ∧
        t.index = start + before.utf8ByteSize := by
  induction ts generalizing start text with
  | nil => cases ht
  | cons u rest ih =>
      obtain ⟨hindex, hoffset, hsolid, more, rfl, hrest⟩ := h
      rcases List.mem_cons.1 ht with rfl | ht
      · exact ⟨hoffset, hsolid, "", more, by simp, by simpa using hindex⟩
      · obtain ⟨htoff, htsolid, before, after, rfl, htindex⟩ := ih hrest ht
        refine ⟨htoff, htsolid, u.value ++ before, after, by simp [String.append_assoc], ?_⟩
        rw [htindex, hoffset, String.utf8ByteSize_append, Nat.add_assoc]

/-- A tile ends inside the text. -/
theorem stop_le (h : Tiles start text ts) {t : Token} (ht : t ∈ ts) :
    t.index + t.offset ≤ start + text.utf8ByteSize := by
  obtain ⟨hoffset, _, before, after, rfl, hindex⟩ := h.exists_append ht
  rw [hindex, hoffset, String.utf8ByteSize_append, String.utf8ByteSize_append]
  omega

/-- Tiles stay tiles when their token is moved. -/
theorem adopt (h : Tiles start text ts) (keepProperties : Bool) (base : Token) :
    Tiles (base.index + start) text (ts.map (base.adopt keepProperties)) := by
  induction ts generalizing start text with
  | nil => exact h
  | cons u rest ih =>
      obtain ⟨hindex, hoffset, hsolid, more, htext, hrest⟩ := h
      rw [List.map_cons]
      refine ⟨by simp [hindex], by simp [hoffset], by simpa using hsolid, more, by simpa using htext,
        ?_⟩
      have hmoved := ih hrest
      rw [← Nat.add_assoc] at hmoved
      simpa using hmoved

/-- The first tile starts where the text does. -/
theorem head?_index (h : Tiles start text ts) : ∀ t ∈ ts.head?, t.index = start := by
  cases ts with
  | nil => simp
  | cons u rest =>
      intro t ht
      have : u = t := by simpa using ht
      rw [← this]
      exact h.1

/-- The last tile ends where the text does. -/
theorem getLast?_stop (h : Tiles start text ts) :
    ∀ t ∈ ts.getLast?, t.index + t.offset = start + text.utf8ByteSize := by
  induction ts generalizing start text with
  | nil => simp
  | cons u rest ih =>
      obtain ⟨hindex, hoffset, _, more, rfl, hrest⟩ := h
      cases rest with
      | nil =>
          -- nothing follows, so the tile is all the text
          have hmore : more = "" := hrest
          intro t ht
          have htu : u = t := by simpa using ht
          rw [← htu, hindex, hoffset, hmore, String.append_empty]
      | cons v rest =>
          intro t ht
          rw [List.getLast?_cons_cons] at ht
          rw [ih hrest t ht, hoffset, String.utf8ByteSize_append, Nat.add_assoc]

/-- Each tile starts where the one before it ends. -/
theorem isChain (h : Tiles start text ts) : ts.IsChain fun t u => u.index = t.index + t.offset := by
  induction ts generalizing start text with
  | nil => exact .nil
  | cons t rest ih =>
      obtain ⟨hindex, _, _, more, _, hrest⟩ := h
      cases rest with
      | nil => exact .singleton t
      | cons u rest =>
          have hnext : u.index = start + t.offset := hrest.1
          exact .cons_cons (by rw [hnext, hindex]) (ih hrest)

/-- The tiles spell the text. -/
theorem join_values (h : Tiles start text ts) : String.join (ts.map (·.value)) = text := by
  induction ts generalizing start text with
  | nil => exact h.symm
  | cons t rest ih =>
      obtain ⟨_, _, _, more, htext, hrest⟩ := h
      rw [List.map_cons, String.join_cons, ih hrest, htext]

/-- Where there is no text there is no tile. -/
theorem eq_nil (h : Tiles start "" ts) : ts = [] := by
  cases ts with
  | nil => rfl
  | cons t rest =>
      obtain ⟨_, _, hsolid, more, htext, _⟩ := h
      exact absurd (String.append_eq_empty_iff.1 htext.symm).1 hsolid

end Tiles

end Finding

open TokenSpan.Finding

/-! ## §4. Search passes, token by token. -/

/-- Tokens tile the text of a token: they are not empty, meet without gaps, and spell it. -/
structure Token.TiledBy (t : Token) (out : List Token) : Prop where
  /-- No token is empty. -/
  solid : ∀ u ∈ out, u.value ≠ ""
  /-- Each token covers its own text. -/
  covers : ∀ u ∈ out, u.offset = u.value.utf8ByteSize
  /-- The first one starts where the text does. -/
  first : ∀ u ∈ out.head?, u.index = t.index
  /-- Each other one starts where the one before it ends. -/
  adjacent : out.IsChain fun u v => v.index = u.index + u.offset
  /-- The last one ends where the text does. -/
  last : ∀ u ∈ out.getLast?, u.index + u.offset = t.index + t.value.utf8ByteSize
  /-- Together they spell the text. -/
  joined : String.join (out.map (·.value)) = t.value
  /-- Nothing comes from the empty text. -/
  nothing : t.value = "" → out = []

theorem Finding.Tiles.tiledBy {t : Token} {out : List Token} (h : Tiles t.index t.value out) :
    t.TiledBy out where
  solid u hu := (h.exists_append hu).2.1
  covers u hu := (h.exists_append hu).1
  first := h.head?_index
  adjacent := h.isChain
  last := h.getLast?_stop
  joined := h.join_values
  nothing hempty := by
    rw [hempty] at h
    exact h.eq_nil

section Passes

variable [Regex.Engine]

section Searches

variable {flags : Flags} (r : Regex flags) (mode : Mode)

/-- The tokens found in the text of a token have room in it. -/
theorem hasRoom_found {t : Token} (ht : t.index + t.value.utf8ByteSize < positionBound) :
    ∀ u ∈ found r mode t.value, t.HasRoom u := by
  intro u hu
  have hstop := (tiles_found r t.value).stop_le (mem_found_split r hu)
  constructor <;> omega

/-- The tokens that a search finds in the text of a token, as the whole text sees them. -/
def Token.search (keepProperties : Bool) (t : Token) : List Token :=
  (found r mode t.value).map (t.adopt keepProperties)

theorem expandAll_find {keepProperties : Bool} {ts : List Token}
    (h : ∀ t ∈ ts, t.index + t.value.utf8ByteSize < positionBound) :
    (expandAll keepProperties
        (fun cx => .ok (.sequence ((drafts r mode cx.value).map .draft))) (contexts ts)).map
        (·.filterMap id)
      = .ok (ts.flatMap (Token.search r mode keepProperties)) := by
  refine expandAll_locals (fun t ht => hasRoom_found r mode (h t ht)) fun cx _ => ?_
  rw [reply_drafts]

/-- What a search pass answers: the tokens found in each token, one after the other. -/
theorem answer_find_pass (s : Settings) {ts : List Token}
    (h : ∀ t ∈ ts, t.index + t.value.utf8ByteSize < positionBound) (recording : Bool) :
    ((s.find r mode).run ts).answer recording
      = .ok (ts.flatMap (Token.search r mode s.keepProperties)) := by
  unfold Settings.find Settings.each
  rw [answer_each]
  simp only [answer_find]
  exact expandAll_find r mode h

theorem answer_findStored_pass (s : Settings) (r : Regex {}) {ts : List Token}
    (h : ∀ t ∈ ts, t.index + t.value.utf8ByteSize < positionBound) (recording : Bool) :
    ((s.findStored r mode).run ts).answer recording
      = .ok (ts.flatMap (Token.search r mode s.keepProperties)) := by
  unfold Settings.findStored
  rw [answer_stored]
  simp only [StoredJob.run, answer_runFind]
  exact expandAll_find r mode h

end Searches

/-- A pattern that is read gives the stored search of its expression. -/
theorem Settings.eq_findStored_of_findPattern {s : Settings} {pattern : String} {mode : Mode}
    {p : Pass} (h : s.findPattern pattern mode = .ok p) : ∃ q : Regex {}, p = s.findStored q mode := by
  unfold Settings.findPattern at h
  cases hc : compile {} pattern with
  | error e => simp [hc, Except.map] at h
  | ok q =>
      rw [hc] at h
      exact ⟨q, (Except.ok.inj h).symm⟩

/-- A pattern that is read gives the stored test of its expression. -/
theorem Settings.eq_stored_of_matching {s : Settings} {pattern : String} {p : Pass}
    (h : s.matching pattern = .ok p) :
    ∃ q : Regex {}, p = .stored s.keepProperties (.matching q) := by
  unfold Settings.matching at h
  cases hc : compile {} pattern with
  | error e => simp [hc, Except.map] at h
  | ok q =>
      rw [hc] at h
      exact ⟨q, (Except.ok.inj h).symm⟩

/-- A name that is supported gives the pass of its preset. -/
theorem Settings.eq_preset_of_presetNamed {s : Settings} {name : String} {p : Pass}
    (h : s.presetNamed name = .ok p) : ∃ q : Preset, p = s.preset q := by
  unfold Settings.presetNamed at h
  cases hname : Preset.ofName? name with
  | none => simp [hname] at h
  | some q =>
      rw [hname] at h
      exact ⟨q, (Except.ok.inj h).symm⟩

/--
A pass of split mode replaces each token by tokens that tile it; they are the same whatever other
tokens stand in the sequence.
-/
theorem split_tiles_each_token {s : Settings} {p : Pass}
    (hp : (∃ pattern, s.findPattern pattern .split = .ok p) ∨
      ∃ (flags : Flags) (r : Regex flags), p = s.find r .split)
    {ts : List Token} (hts : ∀ t ∈ ts, t.index + t.value.utf8ByteSize < positionBound)
    (recording : Bool) :
    ∃ emit : Token → List Token,
      ((p.run ts).exec recording Cache.off).result = .ok (ts.flatMap emit) ∧
      ∀ t ∈ ts,
        ((p.run [t]).exec recording Cache.off).result = .ok (emit t) ∧ t.TiledBy (emit t) := by
  have hsearch : ∃ emit : Token → List Token,
      (∀ us : List Token, (∀ t ∈ us, t.index + t.value.utf8ByteSize < positionBound) →
        (p.run us).answer recording = .ok (us.flatMap emit)) ∧
      ∀ t, Tiles t.index t.value (emit t) := by
    rcases hp with ⟨pattern, hp⟩ | ⟨flags, r, rfl⟩
    · obtain ⟨q, rfl⟩ := Settings.eq_findStored_of_findPattern hp
      exact ⟨Token.search q .split s.keepProperties,
        fun us hus => answer_findStored_pass .split s q hus recording,
        fun t => (tiles_found q t.value).adopt s.keepProperties t⟩
    · exact ⟨Token.search r .split s.keepProperties,
        fun us hus => answer_find_pass r .split s hus recording,
        fun t => (tiles_found r t.value).adopt s.keepProperties t⟩
  obtain ⟨emit, hrun, htiles⟩ := hsearch
  refine ⟨emit, hrun ts hts, fun t ht => ⟨?_, (htiles t).tiledBy⟩⟩
  -- alone, a token gives what it gives in the sequence
  have hone : ∀ u ∈ [t], u.index + u.value.utf8ByteSize < positionBound := by
    intro u hu
    rw [List.mem_singleton.1 hu]
    exact hts t ht
  rw [← List.flatMap_singleton emit t]
  exact hrun [t] hone

end Passes

/-- The words of a text and what stands between them; the second token is empty. -/
theorem split_tiles_words :
    ∃ emit : Token → List Token,
      ((((({} : Settings).find Preset.words.regex .split).run
          [.ofText "zwölf Boxkämpfer" 3, .ofText "" 40]).exec true Cache.off).result
        = .ok ([.ofText "zwölf Boxkämpfer" 3, .ofText "" 40].flatMap emit)) ∧
      ∀ t ∈ [Token.ofText "zwölf Boxkämpfer" 3, .ofText "" 40],
        ((((({} : Settings).find Preset.words.regex .split).run [t]).exec true Cache.off).result
          = .ok (emit t)) ∧ t.TiledBy (emit t) :=
  split_tiles_each_token (.inr ⟨_, _, rfl⟩) (by decide +kernel) true

end TokenSpan
