/-
  TokenSpan.Proofs.WordsInSections
  ────────────────────────────────
  Words are the same whether a text is cut into sections first or not.

  Every character that ends a section ends a word, too.  So no word reaches over the end of a
  section: the words of a text are those of its sections, one section after the other, and no
  word stands between two sections.  Inside a section positions count from its start; placing
  moves them back to where they are in the text.

  Main results:
  * `flatMap_stretchesFrom` — stretches of a smaller set are stretches inside those of a larger one;
  * `words_in_sections_eq_words` — sections first, in one chain or in nested ones, or words at once.
-/
import TokenSpan.Proofs.Presets

namespace TokenSpan

open TokenSpan.Finding (found stretchToken)

variable {small large : Char → Bool} {keepProperties : Bool}

/-! ## §1. Stretches inside stretches. -/

/-- A text that starts later has its stretches as much later. -/
theorem stretchesFrom_add (begins follows : Char → Bool) (shift position : Nat) (text : List Char) :
    stretchesFrom begins follows (shift + position) text
      = (stretchesFrom begins follows position text).map fun x => (shift + x.1, x.2) := by
  induction position, text using stretchesFrom.induct begins follows with
  | case1 position =>
      rw [stretchesFrom_nil, stretchesFrom_nil]
      rfl
  | case2 position c rest hc ih =>
      rw [stretchesFrom_cons_of_pos hc, stretchesFrom_cons_of_pos hc, List.map_cons, ← ih,
        Nat.add_assoc]
  | case3 position c rest hc ih =>
      have hc : begins c = false := by simpa using hc
      rw [stretchesFrom_cons_of_neg hc, stretchesFrom_cons_of_neg hc, ← ih, Nat.add_assoc]

/-- The stretches of a set can be cut out of those of a larger one. -/
theorem flatMap_stretchesFrom (hsub : ∀ c, small c → large c) (position : Nat) (text : List Char) :
    (stretchesFrom large large position text).flatMap (fun x => stretchesFrom small small x.1 x.2)
      = stretchesFrom small small position text := by
  induction position, text using stretchesFrom.induct large large with
  | case1 position =>
      rw [stretchesFrom_nil, stretchesFrom_nil]
      rfl
  | case2 position c rest hc ih =>
      have hsplit : c :: rest = (c :: rest.takeWhile large) ++ rest.dropWhile large := by
        rw [List.cons_append, List.takeWhile_append_dropWhile]
      -- the character behind the large stretch is in no small one either
      have hborder : Border small small (c :: rest.takeWhile large) (rest.dropWhile large) := by
        intro d hd hsmall
        have hlarge := hsub d hsmall
        rw [head?_dropWhile rest d hd] at hlarge
        cases hlarge
      rw [stretchesFrom_cons_of_pos hc, List.flatMap_cons, ih]
      conv_rhs => rw [hsplit]
      exact (stretchesFrom_append (fun _ h => h) hborder position).symm
  | case3 position c rest hc ih =>
      have hlarge : large c = false := by simpa using hc
      have hsmall : small c = false := by
        by_contra h
        exact hc (hsub c (by simpa using h))
      rw [stretchesFrom_cons_of_neg hlarge, stretchesFrom_cons_of_neg hsmall, ih]

/-- What ends a section ends a word. -/
theorem keeps_sections_of_keeps_words {c : Char} (h : Preset.words.keeps c) :
    Preset.sections.keeps c := by
  have hall : Preset.sectionBoundaryChars.all Preset.wordBoundaryChars.toList.contains = true := by
    decide +kernel
  have hboundary : c ∈ Preset.sectionBoundaryChars → c ∈ Preset.wordBoundaryChars.toList := by
    intro hc
    exact List.contains_iff_mem.1 (List.all_eq_true.1 hall c hc)
  simp only [Preset.keeps, Bool.not_eq_true', List.contains_eq_mem, decide_eq_false_iff_not] at h ⊢
  exact fun hc => h (hboundary hc)

/-! ## §2. Words found inside sections. -/

/-- The words of each section: where the section starts, where the word does in it, and its text. -/
def wordsOfSections (text : List Char) : List (Nat × Nat × List Char) :=
  (stretchesFrom Preset.sections.keeps Preset.sections.keeps 0 text).flatMap fun x =>
    (stretchesFrom Preset.words.keeps Preset.words.keeps 0 x.2).map fun y => (x.1, y)

theorem found_words (text : String) :
    found Preset.words.regex .matches text
      = (wordsOfSections text.toList).map fun w => stretchToken (w.1 + w.2.1, w.2.2) := by
  have hwords := found_preset .words text
  have hcut : stretchesFrom Preset.words.keeps Preset.words.keeps 0 text.toList
      = (wordsOfSections text.toList).map fun w => (w.1 + w.2.1, w.2.2) := by
    rw [← flatMap_stretchesFrom (fun _ => keeps_sections_of_keeps_words)]
    unfold wordsOfSections
    rw [List.map_flatMap]
    congr 1
    funext x
    have hshift := stretchesFrom_add Preset.words.keeps Preset.words.keeps x.1 0 x.2
    rw [Nat.add_zero] at hshift
    rw [hshift, List.map_map]
    rfl
  rw [hwords, show Preset.words.joins = Preset.words.keeps from rfl, hcut, List.map_map]
  rfl

/-- The words found in the sections that are found stand where the text has them. -/
theorem emitAll_words_sections (text : String) :
    emitAll keepProperties (found Preset.words.regex .matches)
        (found Preset.sections.regex .matches text)
      = (wordsOfSections text.toList).map fun w =>
          { stretchToken (w.2.1, w.2.2) with index := w.1 + w.2.1 } := by
  unfold emitAll wordsOfSections
  rw [found_preset, show Preset.sections.joins = Preset.sections.keeps from rfl, List.flatMap_map,
    List.map_flatMap]
  congr 1
  funext x
  rw [found_preset, show Preset.words.joins = Preset.words.keeps from rfl, List.map_map, List.map_map]
  have hvalue : (stretchToken x).value.toList = x.2 := String.toList_ofList
  rw [hvalue]
  refine List.map_congr_left fun y _ => ?_
  -- neither token carries values, so keeping them or not makes no difference
  cases keepProperties <;> rfl

/-! ## §3. Three ways to the words of a text. -/

/-- Equal tokens, apart from the position in which their matches are counted. -/
structure Token.EqUpToMatchIndex (t u : Token) : Prop where
  value : t.value = u.value
  index : t.index = u.index
  offset : t.offset = u.offset
  properties : t.properties = u.properties
  matched : (t.matched.map fun m => (m.groups, m.named)) = u.matched.map fun m => (m.groups, m.named)

/--
Without a cache, the words of a text and the words of its sections are the same tokens, whether the words
are found in the same chain as the sections or in one of their own; only where matches are counted from
differs.
-/
theorem words_in_sections_eq_words (s : Settings) {text : String}
    (htext : text.utf8ByteSize < textBound) (recording : Bool) :
    ∃ words inSections,
      (((s.preset .words).runText text).exec recording Cache.off).result = .ok words ∧
      (((s.chain [s.preset .sections, s.preset .words]).runText text).exec recording Cache.off).result
        = .ok inSections ∧
      (((s.chain [s.preset .sections, s.chain [s.preset .words]]).runText text).exec recording
        Cache.off).result = .ok inSections ∧
      List.Forall₂ Token.EqUpToMatchIndex inSections words := by
  have hfit : text.utf8ByteSize < positionBound := htext.trans textBound_lt_positionBound
  have hsections := runsLocally_preset s .sections recording
  have hwords := runsLocally_preset s .words recording
  have hnested := runsLocally_chain s (runsLocally_singleton hwords)
  -- each chain cuts into sections and then makes the words of each of them
  have hchain := runsLocally_chain s
    (runsLocally_append (runsLocally_singleton hsections) (runsLocally_singleton hwords))
  have hchains := runsLocally_chain s
    (runsLocally_append (runsLocally_singleton hsections) (runsLocally_singleton hnested))
  refine ⟨_, _, hwords.root hfit, hchain.root hfit, hchains.root hfit, ?_⟩
  rw [found_words, emitAll_words_sections, List.forall₂_map_left_iff, List.forall₂_map_right_iff]
  exact List.forall₂_same.2 fun w _ => ⟨rfl, rfl, rfl, rfl, rfl⟩

/-- Sections that touch, blanks at their edges, and words with longer characters. -/
theorem words_in_sections_of_sentences :
    "Größe?! Maß\u00a0— gut,\nnicht schlecht".utf8ByteSize < textBound ∧
      ∃ words inSections,
        (((({} : Settings).preset .words).runText
            "Größe?! Maß\u00a0— gut,\nnicht schlecht").exec false Cache.off).result = .ok words ∧
        (((({} : Settings).chain [({} : Settings).preset .sections, ({} : Settings).preset .words]).runText
            "Größe?! Maß\u00a0— gut,\nnicht schlecht").exec false Cache.off).result = .ok inSections ∧
        (((({} : Settings).chain [({} : Settings).preset .sections,
            ({} : Settings).chain [({} : Settings).preset .words]]).runText
            "Größe?! Maß\u00a0— gut,\nnicht schlecht").exec false Cache.off).result = .ok inSections ∧
        List.Forall₂ Token.EqUpToMatchIndex inSections words :=
  have htext : "Größe?! Maß\u00a0— gut,\nnicht schlecht".utf8ByteSize < textBound := by
    decide +kernel
  ⟨htext, words_in_sections_eq_words {} htext false⟩

end TokenSpan
