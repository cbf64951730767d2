/-
  TokenSpan.Proofs.Merging
  ────────────────────────
  Sequences in order, and what merging makes of them.

  Tokens are in order between two positions if they come one after the other, without
  overlap, and none of them holds more text than it covers.  Filled with at most one byte
  for each position, a run of such tokens merges into a token that holds no more text than
  it covers either, and that stays between the same two positions.

  Main results:
  * `ordered_append` — a sequence in order is in order on both sides of each of its positions;
  * `flatten_runsBetweenCuts` — runs keep all tokens, in order;
  * `merge?_ordered` — a run in order merges into one token between the same positions;
  * `mergeSegments_ordered` — merging between cuts keeps the order and does not fail.
-/
import TokenSpan.Proofs.Placing

namespace TokenSpan

/-! ## §1. Sequences in order. -/

/-- The tokens come one after the other between two positions, none with more text than it covers. -/
def Ordered : Nat → List Token → Nat → Prop
  | lo, [], hi => lo ≤ hi
  | lo, t :: rest, hi =>
      lo ≤ t.index ∧ t.value.utf8ByteSize ≤ t.offset ∧ Ordered (t.index + t.offset) rest hi

theorem ordered_singleton {lo hi : Nat} {t : Token} (hlo : lo ≤ t.index)
    (hvalue : t.value.utf8ByteSize ≤ t.offset) (hhi : t.index + t.offset ≤ hi) :
    Ordered lo [t] hi :=
  ⟨hlo, hvalue, hhi⟩

namespace Ordered

variable {lo mid hi : Nat} {ts us : List Token}

/-- The two positions are in order themselves. -/
theorem le (h : Ordered lo ts hi) : lo ≤ hi := by
  induction ts generalizing lo with
  | nil => exact h
  | cons t rest ih =>
      obtain ⟨hlo, _, hrest⟩ := h
      have hend := ih hrest
      omega

/-- There may be more room before the tokens. -/
theorem of_le (h : Ordered mid ts hi) (hle : lo ≤ mid) : Ordered lo ts hi := by
  cases ts with
  | nil => exact Nat.le_trans hle h
  | cons t rest =>
      obtain ⟨hmid, hvalue, hrest⟩ := h
      exact ⟨Nat.le_trans hle hmid, hvalue, hrest⟩

/-- There may be more room behind the tokens. -/
theorem le_of (h : Ordered lo ts mid) (hle : mid ≤ hi) : Ordered lo ts hi := by
  induction ts generalizing lo with
  | nil => exact Nat.le_trans h hle
  | cons t rest ih =>
      obtain ⟨hlo, hvalue, hrest⟩ := h
      exact ⟨hlo, hvalue, ih hrest⟩

/-- Each token stands between the two positions. -/
theorem mem (h : Ordered lo ts hi) {t : Token} (ht : t ∈ ts) :
    lo ≤ t.index ∧ t.value.utf8ByteSize ≤ t.offset ∧ t.index + t.offset ≤ hi := by
  induction ts generalizing lo with
  | nil => cases ht
  | cons u rest ih =>
      obtain ⟨hlo, hvalue, hrest⟩ := h
      rcases List.mem_cons.1 ht with rfl | ht
      · exact ⟨hlo, hvalue, hrest.le⟩
      · obtain ⟨hafter, htail⟩ := ih hrest ht
        exact ⟨by omega, htail⟩

/-- Each token ends before all later ones start. -/
theorem pairwise (h : Ordered lo ts hi) :
    ts.Pairwise fun t u => t.index + t.offset ≤ u.index := by
  induction ts generalizing lo with
  | nil => exact .nil
  | cons t rest ih =>
      obtain ⟨_, _, hrest⟩ := h
      refine .cons (fun u hu => ?_) (ih hrest)
      exact (hrest.mem hu).1

/-- Leaving out tokens keeps the order. -/
theorem filter (h : Ordered lo ts hi) (q : Token → Bool) :
    Ordered lo (ts.filter q) hi := by
  induction ts generalizing lo with
  | nil => exact h
  | cons t rest ih =>
      obtain ⟨hlo, hvalue, hrest⟩ := h
      by_cases hq : q t
      · rw [List.filter_cons_of_pos hq]
        exact ⟨hlo, hvalue, ih hrest⟩
      · rw [List.filter_cons_of_neg hq]
        exact (ih hrest).of_le (by omega)

/-- The order depends on texts and places alone; places may all be moved by the same distance. -/
theorem map (h : Ordered lo ts hi) (g : Token → Token) (shift : Nat)
    (hg : ∀ t, (g t).value = t.value ∧ (g t).index = shift + t.index ∧ (g t).offset = t.offset) :
    Ordered (shift + lo) (ts.map g) (shift + hi) := by
  induction ts generalizing lo with
  | nil => exact Nat.add_le_add_left h shift
  | cons t rest ih =>
      obtain ⟨hlo, hvalue, hrest⟩ := h
      obtain ⟨hv, hi, ho⟩ := hg t
      rw [List.map_cons]
      refine ⟨by omega, by rw [hv, ho]; exact hvalue, ?_⟩
      rw [hi, ho, Nat.add_assoc]
      exact ih hrest

end Ordered

/-- A sequence is in order if both its parts are, on the two sides of some position. -/
theorem ordered_append {lo hi : Nat} {ts us : List Token} :
    Ordered lo (ts ++ us) hi ↔ ∃ mid, Ordered lo ts mid ∧ Ordered mid us hi := by
  induction ts generalizing lo with
  | nil =>
      constructor
      · intro h
        exact ⟨lo, Nat.le_refl lo, h⟩
      · rintro ⟨mid, hlo, hrest⟩
        exact hrest.of_le hlo
  | cons t rest ih =>
      rw [List.cons_append]
      constructor
      · rintro ⟨hlo, hvalue, hrest⟩
        obtain ⟨mid, hleft, hright⟩ := ih.1 hrest
        exact ⟨mid, ⟨hlo, hvalue, hleft⟩, hright⟩
      · rintro ⟨mid, ⟨hlo, hvalue, hleft⟩, hright⟩
        exact ⟨hlo, hvalue, ih.2 ⟨mid, hleft, hright⟩⟩

/-! ## §2. Runs between cuts. -/

/-- The runs hold all tokens, in order. -/
theorem flatten_runsBetweenCuts (current : List Token) (items : List (Option Token)) :
    (runsBetweenCuts current items).flatten = current ++ items.filterMap id := by
  induction items generalizing current with
  | nil => cases current <;> simp [runsBetweenCuts]
  | cons item rest ih =>
      cases item with
      | some t =>
          unfold runsBetweenCuts
          rw [ih]
          simp
      | none =>
          -- a cut with nothing before it closes no run
          unfold runsBetweenCuts
          cases current with
          | nil => simp [ih]
          | cons t more => simp [ih]

/-- No run is empty. -/
theorem ne_nil_of_mem_runs {current : List Token} {items : List (Option Token)} {run : List Token}
    (h : run ∈ runsBetweenCuts current items) : run ≠ [] := by
  induction items generalizing current with
  | nil =>
      cases current with
      | nil => simp [runsBetweenCuts] at h
      | cons t more =>
          have hrun : run = t :: more := by simpa [runsBetweenCuts] using h
          simp [hrun]
  | cons item rest ih =>
      cases item with
      | some t => exact ih h
      | none =>
          unfold runsBetweenCuts at h
          cases current with
          | nil => exact ih h
          | cons t more =>
              rcases List.mem_cons.1 h with rfl | h
              · exact List.cons_ne_nil t more
              · exact ih h

/-! ## §3. Merging step by step. -/

theorem mergeOnto_cons_eq_ok_iff {filler : String} {start : Nat} {prev : Option Token}
    {text : String} {span : Nat} {t : Token} {rest : List Token} {merged : String × Nat} :
    mergeOnto filler start prev text span (t :: rest) = .ok merged ↔
      ∃ gap, bridge filler prev t = .ok gap ∧
        t.index - start + t.offset < positionBound ∧
        mergeOnto filler start (some t) (text ++ gap ++ t.value)
          (max span (t.index - start + t.offset)) rest = .ok merged := by
  show (bridge filler prev t).bind _ = _ ↔ _
  rw [bind_eq_ok_iff]
  refine exists_congr fun gap => and_congr_right fun _ => ?_
  show (addPositions (t.index - start) t.offset).bind _ = _ ↔ _
  rw [bind_eq_ok_iff]
  constructor
  · rintro ⟨reach, hreach, hmore⟩
    obtain ⟨rfl, hfit⟩ := addPositions_eq_ok_iff.1 hreach
    exact ⟨hfit, hmore⟩
  · rintro ⟨hfit, hmore⟩
    exact ⟨_, addPositions_eq_ok hfit, hmore⟩

theorem merge?_cons_eq_ok_iff {filler : String} {first : Token} {rest : List Token}
    {merged : Option Token} :
    merge? filler (first :: rest) = .ok merged ↔
      ∃ value span, mergeOnto filler first.index none "" 0 (first :: rest) = .ok (value, span) ∧
        merged = some { value, index := first.index, offset := max span value.utf8ByteSize } := by
  show (mergeOnto filler first.index none "" 0 (first :: rest)).bind _ = _ ↔ _
  rw [bind_eq_ok_iff]
  constructor
  · rintro ⟨⟨value, span⟩, hmerge, hmerged⟩
    exact ⟨value, span, hmerge, (Except.ok.inj hmerged).symm⟩
  · rintro ⟨value, span, hmerge, rfl⟩
    exact ⟨(value, span), hmerge, rfl⟩

theorem mergeAll_cons_eq_ok_iff {filler : String} {run : List Token} {rest : List (List Token)}
    {out : List Token} :
    mergeAll filler (run :: rest) = .ok out ↔
      ∃ merged more, merge? filler run = .ok merged ∧ mergeAll filler rest = .ok more ∧
        out = merged.toList ++ more := by
  show (merge? filler run).bind _ = _ ↔ _
  rw [bind_eq_ok_iff]
  constructor
  · rintro ⟨merged, hmerged, hrest⟩
    obtain ⟨more, hmore, hout⟩ := bind_eq_ok_iff.1 hrest
    exact ⟨merged, more, hmerged, hmore, (Except.ok.inj hout).symm⟩
  · rintro ⟨merged, more, hmerged, hmore, rfl⟩
    exact ⟨merged, hmerged, bind_eq_ok_iff.2 ⟨more, hmore, rfl⟩⟩

/-- The span of joined tokens reaches from their start to the end of each of them. -/
theorem reach_le_of_mergeOnto {filler : String} {start : Nat} {prev : Option Token} {text : String}
    {span : Nat} {ts : List Token} {value : String} {reach : Nat}
    (h : mergeOnto filler start prev text span ts = .ok (value, reach)) :
    span ≤ reach ∧ ∀ t ∈ ts, t.index - start + t.offset ≤ reach := by
  induction ts generalizing prev text span with
  | nil =>
      cases h
      exact ⟨Nat.le_refl _, fun t ht => absurd ht List.not_mem_nil⟩
  | cons t rest ih =>
      obtain ⟨gap, -, hmore⟩ := mergeOnto_cons_eq_ok_iff.1 h
      obtain ⟨hspan, hrest⟩ := ih hmore.2
      refine ⟨by omega, fun u hu => ?_⟩
      rcases List.mem_cons.1 hu with rfl | hu
      · omega
      · exact hrest u hu

/-- No token of a run ends behind the token that the run merges into. -/
theorem merge?_stop_le {filler : String} {run : List Token} {merged : Option Token}
    (h : merge? filler run = .ok merged) {t : Token} (ht : t ∈ run) :
    ∃ m ∈ merged, t.index + t.offset ≤ m.index + m.offset := by
  cases run with
  | nil => cases ht
  | cons first rest =>
      obtain ⟨value, span, hmerge, rfl⟩ := merge?_cons_eq_ok_iff.1 h
      refine ⟨_, rfl, ?_⟩
      have hreach := (reach_le_of_mergeOnto hmerge).2 t ht
      show t.index + t.offset ≤ first.index + max span value.utf8ByteSize
      omega

theorem mergeAll_stop_le {filler : String} {runs : List (List Token)} {out : List Token}
    (h : mergeAll filler runs = .ok out) {t : Token} (ht : t ∈ runs.flatten) :
    ∃ m ∈ out, t.index + t.offset ≤ m.index + m.offset := by
  induction runs generalizing out with
  | nil => cases ht
  | cons run rest ih =>
      obtain ⟨merged, more, hmerged, hmore, rfl⟩ := mergeAll_cons_eq_ok_iff.1 h
      rcases List.mem_append.1 (List.flatten_cons ▸ ht) with ht | ht
      · obtain ⟨m, hm, hstop⟩ := merge?_stop_le hmerged ht
        exact ⟨m, List.mem_append_left _ (Option.mem_toList.2 hm), hstop⟩
      · obtain ⟨m, hm, hstop⟩ := ih hmore ht
        exact ⟨m, List.mem_append_right _ hm, hstop⟩

theorem mergeSegments_stop_le {filler : String} {items : List (Option Token)} {out : List Token}
    (h : mergeSegments filler items = .ok out) {t : Token} (ht : t ∈ items.filterMap id) :
    ∃ m ∈ out, t.index + t.offset ≤ m.index + m.offset := by
  refine mergeAll_stop_le h ?_
  rw [flatten_runsBetweenCuts]
  exact ht

/-! ## §4. Gaps. -/

/-- The size of a text several times in a row. -/
theorem utf8ByteSize_repeatText (s : String) (count : Nat) :
    (repeatText s count).utf8ByteSize = s.utf8ByteSize * count := by
  unfold repeatText
  by_cases hs : s.isEmpty
  · -- nothing is repeated, however often
    have hempty : s = "" := by simpa using hs
    subst hempty
    simp
  · rw [if_neg hs]
    induction count with
    | zero => simp
    | succ n ih =>
        rw [List.replicate_succ, String.join_cons, String.utf8ByteSize_append, ih, Nat.mul_succ]
        omega

section Small

variable {filler : String} (hfiller : filler.utf8ByteSize ≤ 1)

include hfiller

/-- A filler of at most one byte fills a gap with no more bytes than the gap has positions. -/
theorem fillGap_eq_ok (gap : Nat) (hgap : gap < textBound) :
    ∃ filling, fillGap filler gap = .ok filling ∧ filling.utf8ByteSize ≤ gap := by
  have hsize : filler.utf8ByteSize * gap ≤ gap := by
    have hmul := Nat.mul_le_mul_right gap hfiller
    omega
  unfold fillGap
  rw [if_pos (by omega)]
  refine ⟨_, rfl, ?_⟩
  rw [utf8ByteSize_repeatText]
  exact hsize

/-- What stands between two tokens in order is filled with no more bytes than there are positions. -/
theorem bridge_eq_ok {prev : Option Token} {stop : Nat}
    (hprev : ∀ p ∈ prev, p.index + p.offset = stop) {t : Token} (ht : t.index < textBound)
    (hstop : stop ≤ t.index) :
    ∃ filling, bridge filler prev t = .ok filling ∧ filling.utf8ByteSize ≤ t.index - stop := by
  cases prev with
  | none => exact ⟨"", rfl, by simp⟩
  | some p =>
      have hlarge := textBound_lt_positionBound
      have hp : p.index + p.offset = stop := hprev p rfl
      have hend : p.stop = .ok stop := by
        rw [← hp]
        exact addPositions_eq_ok (by omega)
      obtain ⟨filling, hfill, hsize⟩ := fillGap_eq_ok hfiller (t.index - stop) (by omega)
      refine ⟨filling, ?_, hsize⟩
      show (p.stop).bind _ = _
      rw [hend]
      exact hfill

/-! ## §5. Merging in order. -/

/--
Joining tokens in order to a text that is no longer than the positions behind it: the whole text is no
longer than the positions up to the end.
-/
theorem mergeOnto_eq_ok {start stop hi : Nat} {ts : List Token} (prev : Option Token)
    (text : String) (span : Nat) (hhi : hi < textBound)
    (hprev : ∀ p ∈ prev, p.index + p.offset = stop) (hstart : start ≤ stop)
    (htext : text.utf8ByteSize ≤ stop - start) (hspan : span ≤ stop - start)
    (h : Ordered stop ts hi) :
    ∃ value reach, mergeOnto filler start prev text span ts = .ok (value, reach) ∧
      value.utf8ByteSize ≤ hi - start ∧ reach ≤ hi - start := by
  -- what is kept: text and span reach no farther than the end of the token joined last
  induction ts generalizing stop prev text span with
  | nil =>
      have hle : stop ≤ hi := h
      exact ⟨text, span, rfl, by omega, by omega⟩
  | cons t rest ih =>
      obtain ⟨hlo, hvalue, hrest⟩ := h
      have hend := hrest.le
      have hlarge := textBound_lt_positionBound
      obtain ⟨filling, hbridge, hfilling⟩ := bridge_eq_ok hfiller hprev (by omega) hlo
      have hreach : addPositions (t.index - start) t.offset = .ok (t.index - start + t.offset) :=
        addPositions_eq_ok (by omega)
      -- the text now reaches at most to the end of the token
      have hlonger : (text ++ filling ++ t.value).utf8ByteSize ≤ t.index + t.offset - start := by
        rw [String.utf8ByteSize_append, String.utf8ByteSize_append]
        omega
      have hnext : ∀ p ∈ some t, p.index + p.offset = t.index + t.offset := by
        intro p hp
        rw [← Option.some.inj hp]
      obtain ⟨value, reach, hmerge, hbounds⟩ :=
        ih (some t) (text ++ filling ++ t.value) (max span (t.index - start + t.offset)) hnext (by omega)
          hlonger (by omega) hrest
      refine ⟨value, reach, ?_, hbounds⟩
      unfold mergeOnto
      show (bridge filler prev t).bind _ = _
      rw [hbridge]
      show (addPositions _ _).bind _ = _
      rw [hreach]
      exact hmerge

/-- A run in order merges into one token between the same positions. -/
theorem merge?_ordered {lo hi : Nat} {run : List Token} (hhi : hi < textBound) (hrun : run ≠ [])
    (h : Ordered lo run hi) :
    ∃ t, merge? filler run = .ok (some t) ∧ Ordered lo [t] hi := by
  cases run with
  | nil => exact absurd rfl hrun
  | cons first rest =>
      have hlo : lo ≤ first.index := h.1
      have hfrom : Ordered first.index (first :: rest) hi := ⟨Nat.le_refl _, h.2⟩
      obtain ⟨value, reach, hmerge, hvalue, hreach⟩ :=
        mergeOnto_eq_ok hfiller none "" 0 hhi (by simp) (Nat.le_refl first.index) (by simp) (by simp)
          hfrom
      -- text and span both end between the first token and the upper position
      have hle := hfrom.le
      refine ⟨{ value, index := first.index, offset := max reach value.utf8ByteSize }, ?_, ?_⟩
      · show (mergeOnto _ _ _ _ _ _).bind _ = _
        rw [hmerge]
        rfl
      · refine ordered_singleton hlo (Nat.le_max_right _ _) ?_
        show first.index + max reach value.utf8ByteSize ≤ hi
        omega

/-- Merging each of several runs in order keeps the order. -/
theorem mergeAll_ordered {lo hi : Nat} {runs : List (List Token)} (hhi : hi < textBound)
    (hruns : ∀ run ∈ runs, run ≠ []) (h : Ordered lo runs.flatten hi) :
    ∃ out, mergeAll filler runs = .ok out ∧ Ordered lo out hi := by
  induction runs generalizing lo with
  | nil => exact ⟨[], rfl, h⟩
  | cons run rest ih =>
      rw [List.flatten_cons] at h
      obtain ⟨mid, hleft, hright⟩ := ordered_append.1 h
      have hmid : mid < textBound := Nat.lt_of_le_of_lt hright.le hhi
      obtain ⟨t, hmerge, ht⟩ := merge?_ordered hfiller hmid (hruns run List.mem_cons_self) hleft
      obtain ⟨out, hout, hrest⟩ := ih (fun r hr => hruns r (List.mem_cons_of_mem _ hr)) hright
      refine ⟨t :: out, ?_, ordered_append.2 ⟨mid, ht, hrest⟩⟩
      unfold mergeAll
      show (merge? _ _).bind _ = _
      rw [hmerge]
      show (mergeAll _ _).bind _ = _
      rw [hout]
      rfl

/-- Merging between cuts keeps the order of the tokens and does not fail. -/
theorem mergeSegments_ordered {lo hi : Nat} {items : List (Option Token)} (hhi : hi < textBound)
    (h : Ordered lo (items.filterMap id) hi) :
    ∃ out, mergeSegments filler items = .ok out ∧ Ordered lo out hi := by
  refine mergeAll_ordered hfiller hhi (fun run hrun => ne_nil_of_mem_runs hrun) ?_
  rw [flatten_runsBetweenCuts]
  exact h

end Small

end TokenSpan
