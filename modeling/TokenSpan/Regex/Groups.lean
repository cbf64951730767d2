/-
  TokenSpan.Regex.Groups
  ──────────────────────
  The groups of a pattern and their names.

  The reader numbers groups as it opens them and refuses a name that it has seen.  So at any
  time of the reading, inside nested groups and behind changes of flags, the names so far are
  distinct and stand at the numbers of groups that were opened (`Scope.Named`).  A program
  keeps those names whose groups are left in it.

  Main results:
  * `Node.le_groupCount_iff` — a node counts up to the largest number of its groups;
  * `readBranches_named` — reading keeps names in order;
  * `Program.wellNamed` — each name of a program belongs to one of its groups, and to no other.
-/
import TokenSpan.Regex.Pattern

namespace TokenSpan

namespace Regex

/-! ## §1. The groups of a node. -/

namespace Node

/-- No group has a number above the largest one. -/
theorem le_groupCount_of_hasGroup {i : Nat} {r : Node} (h : r.hasGroup i = true) :
    i ≤ r.groupCount := by
  induction r with
  | empty | set _ | look _ => cases h
  | seq a b iha ihb | alt a b iha ihb =>
      simp only [hasGroup, Bool.or_eq_true] at h
      simp only [groupCount]
      rcases h with h | h
      · have := iha h; omega
      · have := ihb h; omega
  | plus greedy r ih => exact ih h
  | group index r ih =>
      simp only [hasGroup, Bool.or_eq_true, beq_iff_eq] at h
      simp only [groupCount]
      rcases h with h | h
      · omega
      · have := ih h; omega

/-- If there are groups, the largest number belongs to one of them. -/
theorem hasGroup_groupCount {r : Node} (h : 0 < r.groupCount) : r.hasGroup r.groupCount = true := by
  induction r with
  | empty | set _ | look _ => exact absurd h (Nat.lt_irrefl 0)
  | seq a b iha ihb | alt a b iha ihb =>
      simp only [groupCount] at h ⊢
      simp only [hasGroup, Bool.or_eq_true]
      rcases Nat.le_total a.groupCount b.groupCount with hle | hle
      · rw [Nat.max_eq_right hle] at h ⊢
        exact .inr (ihb h)
      · rw [Nat.max_eq_left hle] at h ⊢
        exact .inl (iha h)
  | plus greedy r ih => exact ih h
  | group index r ih =>
      simp only [groupCount] at h ⊢
      simp only [hasGroup, Bool.or_eq_true, beq_iff_eq]
      rcases Nat.le_total r.groupCount index with hle | hle
      · exact .inl (Nat.max_eq_left hle).symm
      · rw [Nat.max_eq_right hle] at h ⊢
        exact .inr (ih h)

/-- A node counts from 0 up to the largest number of its groups. -/
theorem le_groupCount_iff {i : Nat} {r : Node} :
    i ≤ r.groupCount ↔ i = 0 ∨ ∃ j, i ≤ j ∧ r.hasGroup j = true := by
  constructor
  · intro h
    rcases Nat.eq_zero_or_pos i with hi | hi
    · exact .inl hi
    · exact .inr ⟨_, h, hasGroup_groupCount (Nat.lt_of_lt_of_le hi h)⟩
  · rintro (rfl | ⟨j, hij, hj⟩)
    · exact Nat.zero_le _
    · exact Nat.le_trans hij (le_groupCount_of_hasGroup hj)

end Node

/-! ## §2. Names while reading. -/

/-- The names so far are distinct, and they stand at numbers of groups that were opened. -/
structure Scope.Named (scope : Scope) : Prop where
  /-- Groups are numbered from 1 on. -/
  numbered : ∀ n ∈ scope.names, 1 ≤ n.1 ∧ n.1 ≤ scope.groups
  /-- A group that was opened later has a larger number. -/
  ordered : scope.names.Pairwise fun m n => n.1 < m.1
  /-- No name was given twice. -/
  distinct : scope.names.Pairwise fun m n => m.2 ≠ n.2

namespace Scope.Named

variable {scope : Scope}

/-- Before anything is read there are no names. -/
theorem start (flags : Flags) : Scope.Named { flags } where
  numbered := fun _ hn => absurd hn List.not_mem_nil
  ordered := .nil
  distinct := .nil

/-- Flags have nothing to do with names. -/
theorem withFlags (h : scope.Named) (flags : Flags) : Scope.Named { scope with flags } :=
  ⟨h.numbered, h.ordered, h.distinct⟩

/-- A group without a name may be opened. -/
theorem opened (h : scope.Named) : Scope.Named { scope with groups := scope.groups + 1 } where
  numbered n hn := ⟨(h.numbered n hn).1, Nat.le_succ_of_le (h.numbered n hn).2⟩
  ordered := h.ordered
  distinct := h.distinct

/-- A group may be opened under a name that is new. -/
theorem openedAs (h : scope.Named) {name : String} (hnew : ∀ n ∈ scope.names, n.2 ≠ name) :
    Scope.Named
      { scope with
        groups := scope.groups + 1
        names := (scope.groups + 1, name) :: scope.names } where
  numbered := by
    simp only [List.forall_mem_cons]
    exact ⟨⟨Nat.le_add_left _ _, Nat.le_refl _⟩, h.opened.numbered⟩
  ordered := .cons (fun n hn => Nat.lt_succ_of_le (h.numbered n hn).2) h.ordered
  distinct := .cons (fun n hn => (hnew n hn).symm) h.distinct

end Scope.Named

theorem readNamedGroup_named {scope scope' : Scope} {cs rest : List Char} {opening : Opening}
    (h : scope.Named) (hread : readNamedGroup scope cs = .ok (opening, scope', rest)) :
    scope'.Named := by
  unfold readNamedGroup at hread
  simp only at hread
  split at hread
  · cases hread
  · split at hread
    · cases hread
    · split at hread
      · cases hread
      · rename_i hseen
        cases hread
        -- the name was compared with all earlier ones
        refine h.openedAs fun n hn heq => hseen (List.any_eq_true.2 ⟨n, hn, ?_⟩)
        rw [heq, String.toList_ofList]
        exact beq_self_eq_true _

theorem readOpeningGroup_named {scope scope' : Scope} {cs rest : List Char} {opening : Opening}
    (h : scope.Named) (hread : readOpeningGroup scope cs = .ok (opening, scope', rest)) :
    scope'.Named := by
  unfold readOpeningGroup at hread
  split at hread
  · cases hread
  · cases hread
  · cases hread
  · cases hread
  · exact readNamedGroup_named h hread
  · exact readNamedGroup_named h hread
  · -- flags alone name no group
    split at hread
    · cases hread
    · split at hread
      · cases hread
        exact h
      · split at hread
        · cases hread
        · cases hread
          exact h
  · cases hread
    exact h.opened

/-- Whatever is read, the names so far stay distinct. -/
theorem readBranches_named {fuel : Nat} {scope scope' : Scope} {branches items : List Piece}
    {cs rest : List Char} {piece : Piece} (h : scope.Named)
    (hread : readBranches fuel scope branches items cs = .ok (piece, scope', rest)) :
    scope'.Named := by
  induction fuel generalizing scope scope' branches items cs rest piece with
  | zero => cases hread
  | succ fuel ih =>
      unfold readBranches at hread
      split at hread
      · cases hread
        exact h
      · cases hread
        exact h
      · exact ih h hread
      · -- an opening parenthesis: what it opens, what is inside, and what comes after
        split at hread
        · cases hread
        · rename_i hopening
          exact ih ((readOpeningGroup_named h hopening).withFlags _) hread
        · rename_i hopening
          have hopened := readOpeningGroup_named h hopening
          split at hread
          · rename_i hinner
            exact ih ((ih (hopened.withFlags _) hinner).withFlags _) hread
          · cases hread
          · cases hread
      · split at hread
        · cases hread
        · exact ih h hread

/-! ## §3. Names of programs. -/

/-- The names of a program are those of different groups that occur in it. -/
structure Program.WellNamed (p : Program) : Prop where
  /-- A name stands at the number of a group that occurs. -/
  occurs : ∀ n ∈ p.names, 1 ≤ n.1 ∧ p.root.hasGroup n.1 = true
  /-- No group has two names. -/
  ordered : p.names.Pairwise fun m n => m.1 < n.1
  /-- No two groups have one name. -/
  distinct : p.names.Pairwise fun m n => m.2 ≠ n.2

theorem Program.ofPattern?_eq_ok {flags : Flags} {pattern : List Char} {p : Program}
    (h : Program.ofPattern? flags pattern = .ok p) :
    ∃ piece scope, readBranches (pattern.length + 1) { flags } [] [] pattern = .ok (piece, scope, []) ∧
      p = { root := piece.node
            groups := piece.node.groupCount
            names := scope.names.reverse.filter fun n => piece.node.hasGroup n.1 } := by
  unfold Program.ofPattern? at h
  split at h
  · cases h
  · rename_i piece scope hread
    split at h
    · cases h
    · split at h
      · cases h
      · exact ⟨piece, scope, hread, (Except.ok.inj h).symm⟩
  · cases h

theorem Program.wellNamed {flags : Flags} {pattern : List Char} {p : Program}
    (h : Program.ofPattern? flags pattern = .ok p) : p.WellNamed := by
  obtain ⟨piece, scope, hread, rfl⟩ := Program.ofPattern?_eq_ok h
  have hnamed : scope.Named := readBranches_named (.start flags) hread
  constructor
  · intro n hn
    obtain ⟨hmem, hgroup⟩ := List.mem_filter.1 hn
    exact ⟨(hnamed.numbered n (List.mem_reverse.1 hmem)).1, hgroup⟩
  · exact (List.pairwise_reverse.2 hnamed.ordered).filter _
  · refine List.Pairwise.filter _ (List.pairwise_reverse.2 ?_)
    exact hnamed.distinct.imp Ne.symm

/-- The groups of a program are those of its node. -/
theorem Program.groups_eq {flags : Flags} {pattern : List Char} {p : Program}
    (h : Program.ofPattern? flags pattern = .ok p) : p.groups = p.root.groupCount := by
  obtain ⟨piece, scope, -, rfl⟩ := Program.ofPattern?_eq_ok h
  rfl

end Regex

end TokenSpan
