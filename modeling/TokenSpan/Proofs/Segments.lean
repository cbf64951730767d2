/-
  TokenSpan.Proofs.Segments
  ─────────────────────────
  Merging between cuts, as cutting first and merging then.

  A pass that merges runs gathers tokens up to the next cut and merges what it gathered.  It does
  what one would expect who sees the whole sequence: the sequence falls into parts at its
  cuts, the parts that hold no token are left out, and each other one is merged.  The tokens
  gathered so far count as the start of what is still to come, and that is the invariant of the
  loop.

  Main results:
  * `exists_parts` — every sequence falls into parts at its cuts;
  * `runsBetweenCuts_eq` — the gathered runs are the segments;
  * `merging_runs_eq_merging_segments` — a pass merges each segment of what its transform leaves.
-/
import Mathlib.Data.List.Forall2
import TokenSpan.Pass.Settings
import TokenSpan.Proofs.MergedText
import TokenSpan.Regex.Standard

namespace TokenSpan

/-! ## §1. Segments. -/

/-- The longest parts of a sequence that have no cut; parts without a token are left out. -/
def segmentsOf (items : List (Option Token)) : List (List Token) :=
  ((items.splitOn none).map (·.filterMap id)).filter (!·.isEmpty)

/-- Parts with a cut between each two of them. -/
def joinParts (parts : List (List Token)) : List (Option Token) :=
  [none].intercalate (parts.map (·.map some))

/-- Every sequence falls into parts at its cuts. -/
theorem exists_parts (items : List (Option Token)) :
    ∃ parts, parts ≠ [] ∧ items = joinParts parts := by
  induction items with
  | nil => exact ⟨[[]], List.cons_ne_nil _ _, rfl⟩
  | cons item rest ih =>
      obtain ⟨parts, hparts, rfl⟩ := ih
      obtain ⟨part, more, rfl⟩ := List.exists_cons_of_ne_nil hparts
      cases item with
      | none =>
          -- a cut in front of everything has an empty part before it
          exact ⟨[] :: part :: more, List.cons_ne_nil _ _, by simp [joinParts, List.intercalate]⟩
      | some t =>
          refine ⟨(t :: part) :: more, List.cons_ne_nil _ _, ?_⟩
          cases more <;> simp [joinParts, List.intercalate]

/-- The segments of joined parts are the parts that hold a token. -/
theorem segmentsOf_joinParts {parts : List (List Token)} (h : parts ≠ []) :
    segmentsOf (joinParts parts) = parts.filter (!·.isEmpty) := by
  have hsplit : (joinParts parts).splitOn none = parts.map (·.map some) := by
    refine List.splitOn_intercalate none (fun part hpart => ?_) (by simpa using h)
    obtain ⟨tokens, -, rfl⟩ := List.mem_map.1 hpart
    simp
  unfold segmentsOf
  rw [hsplit, List.map_map]
  congr 1
  simp [Function.comp_def]

/-- No part of a sequence is a segment unless it holds a token. -/
theorem ne_nil_of_mem_segmentsOf {items : List (Option Token)} {segment : List Token}
    (h : segment ∈ segmentsOf items) : segment ≠ [] := by
  simpa using (List.mem_filter.1 h).2

/-- The gathered runs are the segments; what was gathered so far comes before all that follows. -/
theorem runsBetweenCuts_eq (current : List Token) (items : List (Option Token)) :
    runsBetweenCuts current items = segmentsOf (current.map some ++ items) := by
  induction items generalizing current with
  | nil =>
      unfold runsBetweenCuts segmentsOf
      rw [List.append_nil, List.splitOn_eq_singleton (by simp)]
      cases current <;> simp
  | cons item rest ih =>
      cases item with
      | some t =>
          unfold runsBetweenCuts
          rw [ih]
          simp
      | none =>
          -- the cut ends the part that was gathered, and the next one starts with nothing
          unfold runsBetweenCuts segmentsOf
          rw [List.splitOn_append_cons_self_of_not_mem (by simp), ih]
          cases current <;> simp [segmentsOf]

theorem flatten_segmentsOf (items : List (Option Token)) :
    (segmentsOf items).flatten = items.filterMap id := by
  have hruns := flatten_runsBetweenCuts [] items
  rwa [runsBetweenCuts_eq] at hruns

/-! ## §2. Merging segments. -/

/-- Merging several runs succeeds if merging each of them does, and gives one token for each. -/
theorem mergeAll_eq_ok {filler : String} {runs : List (List Token)} (hruns : ∀ run ∈ runs, run ≠ [])
    (hmerge : ∀ run ∈ runs, ∃ merged, merge? filler run = .ok merged) :
    ∃ out, mergeAll filler runs = .ok out ∧
      List.Forall₂ (fun run t => merge? filler run = .ok (some t)) runs out := by
  induction runs with
  | nil => exact ⟨[], rfl, .nil⟩
  | cons run rest ih =>
      obtain ⟨merged, hmerged⟩ := hmerge run List.mem_cons_self
      obtain ⟨out, hout, hall⟩ := ih (fun r hr => hruns r (List.mem_cons_of_mem _ hr))
        fun r hr => hmerge r (List.mem_cons_of_mem _ hr)
      -- a run that holds a token merges into a token
      obtain ⟨first, more, rfl⟩ := List.exists_cons_of_ne_nil (hruns run List.mem_cons_self)
      obtain ⟨value, span, -, rfl⟩ := merge?_cons_eq_ok_iff.1 hmerged
      exact ⟨_, mergeAll_cons_eq_ok_iff.2 ⟨_, _, hmerged, hout, rfl⟩, .cons hmerged hall⟩

/-- Without a filler the texts of tokens are all that is read of them. -/
theorem textFrom_empty (stop : Nat) (ts : List Token) :
    textFrom "" stop ts = String.join (ts.map (·.value)) := by
  induction ts generalizing stop with
  | nil => rfl
  | cons t rest ih =>
      rw [textFrom, ih, List.map_cons, String.join_cons]
      simp [repeatText]

/-- Merged without a filler, tokens spell what the tokens of the runs spelt. -/
theorem join_values_of_merged {runs : List (List Token)} {out : List Token}
    (h : List.Forall₂ (fun run t => merge? "" run = .ok (some t)) runs out) :
    String.join (out.map (·.value)) = String.join (runs.flatten.map (·.value)) := by
  induction h with
  | nil => rfl
  | @cons run t runs out hmerge _ ih =>
      rw [List.map_cons, String.join_cons, ih, List.flatten_cons, List.map_append, String.join_append]
      congr 1
      cases run with
      | nil => cases hmerge
      | cons first rest =>
          rw [Option.some.inj (merge?_eq_of_ok hmerge)]
          exact textFrom_empty _ _

/-! ## §3. Passes that merge runs. -/

/--
A pass that merges runs gives one token for each segment of what its transform leaves: the token that the
segment merges into.  Segments are the parts between cuts that hold a token.  Without a filler the tokens
spell what the transform alone makes of the sequence.
-/
theorem merging_runs_eq_merging_segments [Regex.Engine] {σ : Type} [ResultStore σ] (s : Settings)
    (f : Transform) (filler : String) {ts : List Token} {items : List (Option Token)} {recording : Bool}
    {cache : σ}
    (hdrive : ((transformEach s.keepProperties f.run ts).exec recording cache).result = .ok items)
    (hmerge : ∀ segment ∈ segmentsOf items, ∃ merged, merge? filler segment = .ok merged) :
    (∃ parts, items = joinParts parts ∧ segmentsOf items = parts.filter (!·.isEmpty)) ∧
      ∃ out, (((s.mergeRuns f filler).run ts).exec recording cache).result = .ok out ∧
        List.Forall₂ (fun segment t => merge? filler segment = .ok (some t)) (segmentsOf items) out ∧
        (filler = "" →
          ∃ flat, ((transformSalted s.keepProperties none f.run ts).exec recording cache).result = .ok flat ∧
            String.join (out.map (·.value)) = String.join (flat.map (·.value))) := by
  constructor
  · obtain ⟨parts, hparts, rfl⟩ := exists_parts items
    exact ⟨parts, rfl, segmentsOf_joinParts hparts⟩
  · obtain ⟨out, hout, hall⟩ := mergeAll_eq_ok (fun _ h => ne_nil_of_mem_segmentsOf h) hmerge
    refine ⟨out, ?_, hall, fun hempty => ⟨items.filterMap id, ?_, ?_⟩⟩
    · have hsegments : mergeSegments filler items = .ok out := by
        unfold mergeSegments
        rw [runsBetweenCuts_eq]
        exact hout
      unfold Settings.mergeRuns Pass.run
      rw [Run.exec_bind_of_ok hdrive]
      exact hsegments
    · unfold transformSalted transformFlat
      rw [Run.exec_bind_of_ok hdrive]
      rfl
    · subst hempty
      rw [join_values_of_merged hall, flatten_segmentsOf]

/-- Two cuts in the middle of what is made of each token: a segment goes over from one token to the next. -/
theorem exclamations_merge_with_what_follows :
    let f := Transform.function fun cx => .ok (.sequence [.text cx.value, .cut, .cut, .text "!"])
    let ts := [Token.ofText "ab" 0, Token.ofText "ç" 5]
    let items := [some (Token.ofText "ab" 0), none, none, some (Token.ofText "!" 2),
      some (Token.ofText "ç" 5), none, none, some (Token.ofText "!" 7)]
    ((transformEach true f.run ts).exec true Cache.off).result = .ok items ∧
    (∀ segment ∈ segmentsOf items, ∃ merged, merge? "" segment = .ok merged) ∧
    (∃ parts, items = joinParts parts ∧ segmentsOf items = parts.filter (!·.isEmpty)) ∧
      ∃ out, (((({} : Settings).mergeRuns f "").run ts).exec true Cache.off).result = .ok out ∧
        List.Forall₂ (fun segment t => merge? "" segment = .ok (some t)) (segmentsOf items) out ∧
        ∃ flat, ((transformSalted true none f.run ts).exec true Cache.off).result = .ok flat ∧
          String.join (out.map (·.value)) = String.join (flat.map (·.value)) := by
  intro f ts items
  have hdrive : ((transformEach true f.run ts).exec true Cache.off).result = .ok items := rfl
  have hsegments : segmentsOf items
      = [[.ofText "ab" 0], [.ofText "!" 2, .ofText "ç" 5], [.ofText "!" 7]] := by
    decide +kernel
  have hmerge : ∀ segment ∈ segmentsOf items, ∃ merged, merge? "" segment = .ok merged := by
    rw [hsegments]
    simp only [List.forall_mem_cons]
    exact ⟨⟨_, rfl⟩, ⟨_, rfl⟩, ⟨_, rfl⟩, List.forall_mem_nil _⟩
  obtain ⟨hparts, out, hout, hall, hspelt⟩ := merging_runs_eq_merging_segments {} f "" hdrive hmerge
  exact ⟨hdrive, hmerge, hparts, out, hout, hall, hspelt rfl⟩

end TokenSpan
