/-
  TokenSpan.Proofs.MatchData
  ──────────────────────────
  What is recorded about a match, held against the token and the expression.

  A match is described twice.  The token says where it stands in the whole text, and its match
  data where it stands in the text that was searched; groups are listed by number, and those
  with a name again by name.  `MatchInfo.TrueOf` says that both descriptions are about the same
  match.  Both modes go through one search, so their tokens agree to the last field.

  Main results:
  * `exists_capturesFrom?_of_hit` — a reported match is one that the expression finds;
  * `name_matchInfo_eq_some_iff` — names are looked up as their groups are;
  * `trueOf_search` — match data is true of the token and the one it was found in;
  * `match_mode_agrees_with_split_mode` — both modes, and what match mode finds in each token.
-/
import TokenSpan.Proofs.Exact
import Mathlib.Data.List.Pairwise
import TokenSpan.Proofs.Order

namespace TokenSpan

open TokenSpan.Regex (Flags Captures)
open TokenSpan.Finding (Mode found matchInfo)

/-- A name stands at one index only. -/
theorem Regex.Search.index_eq (s : Regex.Search) {i j : Nat} {name : String} (hi : (i, name) ∈ s.names)
    (hj : (j, name) ∈ s.names) : i = j := by
  by_contra hne
  have : Std.Symm fun m n : Nat × String => m.2 ≠ n.2 := ⟨fun _ _ => Ne.symm⟩
  exact s.names_distinct.forall hi hj (fun heq => hne (Prod.mk.inj heq).1) rfl

namespace Finding

/-! ## §1. Where matches come from. -/

/-- The layout of a search shows the matches of its steps. -/
theorem exists_step_of_layout {ss : List Step} {position : Nat} {c : Captures}
    (h : .hit position c ∈ (layout ss).2) : ∃ start, .hit start c ∈ ss := by
  induction ss with
  | nil => cases h
  | cons s rest ih =>
      cases s with
      | miss start text | blank start skipped passed =>
          obtain ⟨start, hstep⟩ := ih h
          exact ⟨start, List.mem_cons_of_mem _ hstep⟩
      | hit start c' =>
          -- a match, and the gap behind it
          rcases List.mem_cons.1 h with h | h
          · cases h
            exact ⟨start, List.mem_cons_self⟩
          · rcases List.mem_cons.1 h with h | h
            · cases h
            · obtain ⟨start, hstep⟩ := ih h
              exact ⟨start, List.mem_cons_of_mem _ hstep⟩

section Matches

variable [Regex.Engine] {flags : Flags} {r : Regex flags}

/-- A match of a search is one that the expression finds in a rest of the text. -/
theorem exists_capturesFrom?_of_step {prev : Option Char} {start position : Nat} {text : List Char}
    {c : Captures} (h : .hit position c ∈ steps r prev start text) :
    ∃ before rest, r.capturesFrom? before rest = some c := by
  fun_induction steps r prev start text with
  | case1 => simp at h
  | case2 => simp at h
  | case3 prev start text c' hc d after hm ha _ ih =>
      rcases List.mem_cons.1 h with h | h
      · cases h
      · exact ih h
  | case4 prev start text c' hc m rest hm _ ih =>
      rcases List.mem_cons.1 h with h | h
      · cases h
        exact ⟨_, _, hc⟩
      · exact ih h

/-- A match among the segments of a text is one that the expression finds in a rest of it. -/
theorem exists_capturesFrom?_of_hit {position : Nat} {text : List Char} {c : Captures}
    (h : .hit position c ∈ segments r text) :
    ∃ before rest, r.capturesFrom? before rest = some c := by
  rcases List.mem_cons.1 h with h | h
  · cases h
  · obtain ⟨start, hstep⟩ := exists_step_of_layout h
    exact exists_capturesFrom?_of_step hstep

/-! ## §2. Groups by number and by name. -/

@[simp] theorem group_matchInfo_zero (position : Nat) (c : Captures) :
    (matchInfo r position c).group 0 = some (String.ofList c.matched) := rfl

@[simp] theorem group_matchInfo_succ (position : Nat) (c : Captures) (i : Nat) :
    (matchInfo r position c).group (i + 1) = c.groups[i]?.join.map String.ofList := by
  unfold MatchInfo.group matchInfo
  rw [List.getElem?_cons_succ, List.getElem?_map]
  cases c.groups[i]? <;> rfl

/-- The named groups that took part have distinct names. -/
theorem distinctKeys_named (c : Captures) :
    KeyMap.DistinctKeys (r.search.names.filterMap fun n =>
      (c.groups[n.1 - 1]?.join).map fun text => (n.2, String.ofList text)) := by
  refine List.Pairwise.filterMap _ ?_ r.search.names_distinct
  intro m n hne x hx y hy
  obtain ⟨_, -, rfl⟩ := Option.map_eq_some_iff.1 hx
  obtain ⟨_, -, rfl⟩ := Option.map_eq_some_iff.1 hy
  exact hne

/-- Under a name stands the text of its group, if the group took part. -/
theorem name_matchInfo_eq_some_iff {position : Nat} {c : Captures} {name text : String} :
    (matchInfo r position c).name name = some text ↔
      ∃ i, (i, name) ∈ r.search.names ∧ (matchInfo r position c).group i = some text := by
  unfold MatchInfo.name
  show (KeyMap.ofList _).get? name = some text ↔ _
  rw [KeyMap.get?_ofList_eq_some_iff (distinctKeys_named c), List.mem_filterMap]
  have hgroup : ∀ i, (i, name) ∈ r.search.names →
      (matchInfo r position c).group i = c.groups[i - 1]?.join.map String.ofList := by
    intro i hi
    -- numbers of groups start at 1, so the look-up does not meet the whole match
    have hpos : i ≠ 0 := Nat.one_le_iff_ne_zero.1 (r.search.names_occur _ hi).1
    obtain ⟨j, rfl⟩ := Nat.exists_eq_succ_of_ne_zero hpos
    exact group_matchInfo_succ position c j
  constructor
  · rintro ⟨⟨i, name'⟩, hmem, htext⟩
    obtain ⟨cs, hcs, heq⟩ := Option.map_eq_some_iff.1 htext
    obtain ⟨rfl, rfl⟩ := Prod.mk.inj heq
    exact ⟨i, hmem, by rw [hgroup i hmem, hcs]; rfl⟩
  · rintro ⟨i, hmem, htext⟩
    rw [hgroup i hmem] at htext
    obtain ⟨cs, hcs, rfl⟩ := Option.map_eq_some_iff.1 htext
    exact ⟨(i, name), hmem, by rw [hcs]; rfl⟩

end Matches

end Finding

/-! ## §3. Data that is true of a token. -/

/--
Match data is true of a token `u` that an expression found in the text of a token `t`: it is about the
place and the text of `u`, and its groups are those of the expression.
-/
structure MatchInfo.TrueOf [Regex.Engine] {flags : Flags} (m : MatchInfo) (r : Regex flags)
    (t u : Token) : Prop where
  /-- The place in the text of `t`, counted from the start of `t`, is that in the whole text. -/
  place : u.index = t.index + m.index
  /-- At its place in the text of `t` stands the text of `u`. -/
  slice : ∃ start stop : t.value.Pos, start.offset.byteIdx = m.index ∧
    stop.offset.byteIdx = m.index + u.offset ∧ t.value.extract start stop = u.value
  /-- The whole match is the text of `u`. -/
  whole : m.group 0 = some u.value
  /-- There is an entry for the whole match and for each group of the expression. -/
  counted : m.groups.length = r.search.groups + 1
  /-- So the entries go up to the largest number of a group. -/
  numbered : ∀ i, i < m.groups.length ↔ i = 0 ∨ ∃ j, i ≤ j ∧ r.search.hasGroup j = true
  /-- Under the name of a group stands its entry, and nothing if it took no part. -/
  named : ∀ i name, (i, name) ∈ r.search.names → m.name name = m.group i
  /-- Under other names stands nothing. -/
  unnamed : ∀ name, (∀ i, (i, name) ∉ r.search.names) → m.name name = none

section Searches

variable [Regex.Engine] {flags : Flags} {r : Regex flags}
variable {mode : Mode} {keepProperties : Bool} {t u : Token}

/-- Match data is true of the token that carries it and of the one it was found in. -/
theorem trueOf_search {m : MatchInfo} (hu : u ∈ t.search r mode keepProperties)
    (hm : u.matched = some m) : m.TrueOf r t u := by
  obtain ⟨w, hw, rfl⟩ := List.mem_map.1 hu
  have hslice := (Finding.exact_found r mode t.value w hw).slice
  obtain ⟨s, hs, rfl⟩ := List.mem_map.1 hw
  rw [Token.matched_adopt] at hm
  cases s with
  | gap position text => cases hm
  | hit position c =>
      cases hm
      obtain ⟨_, _, hfound⟩ := Finding.exists_capturesFrom?_of_hit (List.mem_of_mem_filter hs)
      have hcount : (matchInfo r position c).groups.length = r.search.groups + 1 := by
        unfold matchInfo
        rw [List.length_cons, List.length_map, Regex.length_groups_of_capturesFrom? hfound]
      refine ⟨Token.index_adopt .., ?_, ?_, hcount, fun i => ?_, fun i name hi => ?_, fun name hno => ?_⟩
      · rw [Token.value_adopt, Token.offset_adopt]
        exact hslice
      · rw [Token.value_adopt]
        exact Finding.group_matchInfo_zero position c
      · rw [hcount, Nat.lt_succ_iff, r.search.le_groups_iff]
      · -- a text under the name is that of its group, for no other group has the name
        refine Option.ext fun text => ?_
        rw [Finding.name_matchInfo_eq_some_iff]
        constructor
        · rintro ⟨j, hj, htext⟩
          rwa [r.search.index_eq hi hj]
        · exact fun htext => ⟨i, hi, htext⟩
      · refine Option.eq_none_iff_forall_ne_some.2 fun text htext => ?_
        obtain ⟨i, hi, -⟩ := Finding.name_matchInfo_eq_some_iff.1 htext
        exact hno i hi

/-- Match mode finds those tokens of split mode that carry match data. -/
theorem search_matches :
    t.search r .matches keepProperties
      = (t.search r .split keepProperties).filter (·.matched.isSome) := by
  unfold Token.search
  rw [Finding.found_matches, List.filter_map]
  congr 1
  refine List.filter_congr fun u _ => ?_
  rw [Function.comp_apply, Token.matched_adopt]

/-- A token that was found is not empty, and covers its text. -/
theorem solid_of_mem_search (hu : u ∈ t.search r mode keepProperties) :
    u.value ≠ "" ∧ u.offset = u.value.utf8ByteSize := by
  obtain ⟨w, hw, rfl⟩ := List.mem_map.1 hu
  obtain ⟨hcovers, hsolid, -⟩ :=
    (Finding.tiles_found r t.value).exists_append (Finding.mem_found_split r hw)
  rw [Token.value_adopt, Token.offset_adopt]
  exact ⟨hsolid, hcovers⟩

/-- Tokens that were found come one after the other, without overlap. -/
theorem pairwise_search :
    (t.search r mode keepProperties).Pairwise fun u v =>
      u.index < v.index ∧ u.index + u.offset ≤ v.index := by
  have hordered : (t.search r mode keepProperties).Pairwise fun u v => u.index + u.offset ≤ v.index := by
    refine List.pairwise_map.2 ((Finding.ordered_found r mode t.value).pairwise.imp ?_)
    intro u v hle
    simp only [Token.index_adopt, Token.offset_adopt]
    omega
  -- no token is empty, so the next one starts behind its start
  refine hordered.imp_of_mem fun hu _ hle => ?_
  obtain ⟨hsolid, hcovers⟩ := solid_of_mem_search hu
  have hpos : 0 < _ := Nat.pos_of_ne_zero (mt String.utf8ByteSize_eq_zero_iff.1 hsolid)
  exact ⟨by omega, hle⟩

end Searches

/-! ## §4. Both modes. -/

section Modes

variable [Regex.Engine]

/-- The pass finds the matches of an expression in a mode. -/
inductive Settings.Searches (s : Settings) : Mode → {flags : Flags} → Regex flags → Pass → Prop where
  /-- Finding the matches of an expression. -/
  | find (mode : Mode) {flags : Flags} (r : Regex flags) : s.Searches mode r (s.find r mode)
  /-- Finding the matches of its pattern. -/
  | findPattern {mode : Mode} {r : Regex {}} {p : Pass}
      (h : s.findPattern r.pattern mode = .ok p) : s.Searches mode r p
  /-- A preset finds the matches of its expression. -/
  | preset (q : Preset) : s.Searches .matches q.regex (s.preset q)

/-- The pass of a pattern is the stored search of its expression. -/
theorem Settings.findPattern_pattern (s : Settings) (r : Regex {}) (mode : Mode) :
    s.findPattern r.pattern mode = .ok (s.findStored r mode) := by
  unfold Settings.findPattern compile
  rw [r.ofPattern?_pattern]
  rfl

/-- All passes that search for an expression in a mode answer alike. -/
theorem Settings.Searches.answer {s : Settings} {mode : Mode} {flags : Flags} {r : Regex flags}
    {p : Pass} (h : s.Searches mode r p) {ts : List Token}
    (hts : ∀ t ∈ ts, t.index + t.value.utf8ByteSize < positionBound) (recording : Bool) :
    (p.run ts).answer recording = .ok (ts.flatMap (Token.search r mode s.keepProperties)) := by
  cases h with
  | find mode r => exact answer_find_pass r mode s hts recording
  | @findPattern mode r p h =>
      cases (s.findPattern_pattern r mode).symm.trans h
      exact answer_findStored_pass mode s r hts recording
  | preset q => exact answer_findStored_pass .matches s q.regex hts recording

/--
Match mode gives those tokens of split mode that carry match data, for each token by itself.  They are
not empty, come one after the other without overlap, and their match data is true.
-/
theorem match_mode_agrees_with_split_mode {s : Settings} {flags : Flags} {r : Regex flags}
    {p q : Pass} (hp : s.Searches .matches r p) (hq : s.Searches .split r q) {ts : List Token}
    (hts : ∀ t ∈ ts, t.index + t.value.utf8ByteSize < positionBound) (recording : Bool) :
    ∃ hits parts : Token → List Token,
      ((p.run ts).exec recording Cache.off).result = .ok (ts.flatMap hits) ∧
      ((q.run ts).exec recording Cache.off).result = .ok (ts.flatMap parts) ∧
      ∀ t ∈ ts,
        ((p.run [t]).exec recording Cache.off).result = .ok (hits t) ∧
        ((q.run [t]).exec recording Cache.off).result = .ok (parts t) ∧
        hits t = (parts t).filter (·.matched.isSome) ∧
        (hits t).Pairwise (fun u v => u.index < v.index ∧ u.index + u.offset ≤ v.index) ∧
        ∀ u ∈ hits t, u.value ≠ "" ∧ u.offset = u.value.utf8ByteSize ∧
          ∃ m, u.matched = some m ∧ m.TrueOf r t u := by
  refine ⟨Token.search r .matches s.keepProperties, Token.search r .split s.keepProperties,
    hp.answer hts recording, hq.answer hts recording, fun t ht => ?_⟩
  -- alone, a token gives what it gives in the sequence
  have hone : ∀ u ∈ [t], u.index + u.value.utf8ByteSize < positionBound :=
    List.forall_mem_singleton.2 (hts t ht)
  refine ⟨?_, ?_, search_matches, pairwise_search, fun u hu => ?_⟩
  · rw [← List.flatMap_singleton (Token.search r .matches s.keepProperties) t]
    exact hp.answer hone recording
  · rw [← List.flatMap_singleton (Token.search r .split s.keepProperties) t]
    exact hq.answer hone recording
  · obtain ⟨hsolid, hcovers⟩ := solid_of_mem_search hu
    rw [search_matches] at hu
    obtain ⟨m, hm⟩ := Option.isSome_iff_exists.1 (List.mem_filter.1 hu).2
    exact ⟨hsolid, hcovers, m, hm, trueOf_search (List.mem_of_mem_filter hu) hm⟩

end Modes

/-- Groups that need not take part, two of them named, in texts of letters of one byte and of two. -/
theorem optional_groups_agree_in_both_modes :
    let r : Regex {} := .ofValid "(?P<sign>ü)?([0-9])*(?<mark>x)?" (by decide +kernel)
    let ts := [Token.ofText "aü12é3x" 3, .ofText "" 40]
    r.search.names = [(1, "sign"), (3, "mark")] ∧
    ({} : Settings).Searches .matches r (({} : Settings).findStored r .matches) ∧
    ({} : Settings).Searches .split r (({} : Settings).find r .split) ∧
    (∀ t ∈ ts, t.index + t.value.utf8ByteSize < positionBound) ∧
    ∃ hits parts : Token → List Token,
      (((({} : Settings).findStored r .matches).run ts).exec true Cache.off).result = .ok (ts.flatMap hits) ∧
      (((({} : Settings).find r .split).run ts).exec true Cache.off).result = .ok (ts.flatMap parts) ∧
      ∀ t ∈ ts,
        (((({} : Settings).findStored r .matches).run [t]).exec true Cache.off).result = .ok (hits t) ∧
        (((({} : Settings).find r .split).run [t]).exec true Cache.off).result = .ok (parts t) ∧
        hits t = (parts t).filter (·.matched.isSome) ∧
        (hits t).Pairwise (fun u v => u.index < v.index ∧ u.index + u.offset ≤ v.index) ∧
        ∀ u ∈ hits t, u.value ≠ "" ∧ u.offset = u.value.utf8ByteSize ∧
          ∃ m, u.matched = some m ∧ m.TrueOf r t u := by
  intro r ts
  have hmatches : ({} : Settings).Searches .matches r (({} : Settings).findStored r .matches) :=
    .findPattern (Settings.findPattern_pattern {} r .matches)
  have hsplit : ({} : Settings).Searches .split r (({} : Settings).find r .split) := .find .split r
  have hts : ∀ t ∈ ts, t.index + t.value.utf8ByteSize < positionBound := by decide +kernel
  exact ⟨by decide +kernel, hmatches, hsplit, hts,
    match_mode_agrees_with_split_mode hmatches hsplit hts true⟩

end TokenSpan
