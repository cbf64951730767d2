/-
  TokenSpan.Proofs.KeyMaps
  ────────────────────────
  Maps as what their look-ups say.

  The entries of a map stand in one order only, so a map is rebuilt from its entries, and maps
  that answer every look-up alike are the same map.  What one map adds to another is then
  told key by key.

  Main results:
  * `KeyMap.ofList_entries` — a map is rebuilt from its entries;
  * `KeyMap.ext_get?` — maps that answer every look-up alike are equal;
  * `KeyMap.get?_ofList` — a map of any entries has the last one of each key;
  * `KeyMap.get?_ofList_eq_some_iff` — a map of entries with distinct keys has just these entries;
  * `KeyMap.get?_override`, `KeyMap.get?_completeWith` — look-ups in two maps put together;
  * `KeyMap.override_override` — putting three maps over one another.
-/
import TokenSpan.KeyMap

namespace TokenSpan

namespace KeyMap

variable {α : Type}

/-! ## §1. Entries. -/

/-- An entry above all others goes to the end. -/
theorem put_of_above {key : String} {value : α} {l : List (String × α)}
    (h : ∀ e ∈ l, e.1 < key) : put key value l = l ++ [(key, value)] := by
  induction l with
  | nil => rfl
  | cons e rest ih =>
      have he : e.1 < key := h e List.mem_cons_self
      have hlt : ¬ key < e.1 := fun hgt => String.lt_irrefl _ (String.lt_trans he hgt)
      have hne : key ≠ e.1 := by
        rintro rfl
        exact String.lt_irrefl _ he
      unfold put
      rw [if_neg hlt, if_neg hne, ih fun d hd => h d (List.mem_cons_of_mem e hd)]
      rfl

theorem entries_insertAll {m : KeyMap α} {l : List (String × α)}
    (h : (m.entries ++ l).Pairwise fun a b => a.1 < b.1) :
    (m.insertAll l).entries = m.entries ++ l := by
  induction l generalizing m with
  | nil => exact (List.append_nil _).symm
  | cons e rest ih =>
      have habove : ∀ d ∈ m.entries, d.1 < e.1 :=
        fun d hd => (List.pairwise_append.1 h).2.2 d hd e List.mem_cons_self
      have hput : (m.insert e.1 e.2).entries = m.entries ++ [e] := put_of_above habove
      show ((m.insert e.1 e.2).insertAll rest).entries = _
      rw [ih (by rw [hput, List.append_assoc]; exact h), hput, List.append_assoc]
      rfl

theorem entries_ofList {l : List (String × α)} (h : l.Pairwise fun a b => a.1 < b.1) :
    (ofList l).entries = l :=
  entries_insertAll (m := empty) h

/-- A map is rebuilt from its entries. -/
theorem ofList_entries (m : KeyMap α) : ofList m.entries = m :=
  KeyMap.ext (entries_ofList m.ordered)

/-! ## §2. Look-ups. -/

/-- The keys of a list are distinct. -/
def DistinctKeys (l : List (String × α)) : Prop := l.Pairwise fun a b => a.1 ≠ b.1

/-- The keys of a map are distinct. -/
theorem distinctKeys_entries (m : KeyMap α) : DistinctKeys m.entries := by
  refine m.ordered.imp ?_
  intro a b hlt heq
  exact String.lt_irrefl _ (heq ▸ hlt)

/-- A key that no entry has is not found. -/
theorem lookup_eq_none_of_ne {key : String} {l : List (String × α)} (h : ∀ e ∈ l, key ≠ e.1) :
    l.lookup key = none := by
  rw [List.lookup_eq_none_iff]
  intro e he
  simpa using h e he

/-- In a list whose keys are distinct, look-ups and membership say the same. -/
theorem lookup_eq_some_iff_mem {key : String} {value : α} {l : List (String × α)}
    (h : DistinctKeys l) : l.lookup key = some value ↔ (key, value) ∈ l := by
  induction l with
  | nil => simp
  | cons e rest ih =>
      obtain ⟨hfirst, hrest⟩ := List.pairwise_cons.1 h
      rw [lookup_cons_eq, List.mem_cons]
      by_cases hk : key = e.1
      · -- behind its own entry the key does not occur again
        have hnone : (key, value) ∉ rest := fun hmem => hfirst _ hmem hk.symm
        rw [if_pos hk, Option.some.injEq, or_iff_left hnone]
        constructor
        · rintro rfl
          exact Prod.ext hk rfl
        · intro heq
          exact (Prod.ext_iff.1 heq).2.symm
      · have hne : (key, value) ≠ e := fun heq => hk (Prod.ext_iff.1 heq).1
        rw [if_neg hk, ih hrest, or_iff_right hne]

/-- Maps that answer every look-up alike are equal. -/
theorem ext_get? {m n : KeyMap α} (h : ∀ key, m.get? key = n.get? key) : m = n := by
  have hnodup : ∀ o : KeyMap α, o.entries.Nodup := by
    intro o
    refine o.ordered.imp ?_
    rintro a b hlt rfl
    exact String.lt_irrefl _ hlt
  have hmem : ∀ e, e ∈ m.entries ↔ e ∈ n.entries := by
    intro e
    rw [← lookup_eq_some_iff_mem m.distinctKeys_entries,
      ← lookup_eq_some_iff_mem n.distinctKeys_entries]
    show m.get? e.1 = some e.2 ↔ n.get? e.1 = some e.2
    rw [h]
  apply KeyMap.ext
  -- both lists have the same members, and the order leaves no choice
  refine List.Perm.eq_of_pairwise ?_ m.ordered n.ordered
    ((List.perm_ext_iff_of_nodup (hnodup m) (hnodup n)).2 hmem)
  intro a b _ _ hab hba
  exact absurd (String.lt_trans hab hba) (String.lt_irrefl _)

/-- The last value under a key in a list whose keys may repeat. -/
def last? (key : String) (l : List (String × α)) : Option α :=
  ((l.filter (·.1 == key)).map (·.2)).getLast?

theorem last?_cons (key : String) (e : String × α) (rest : List (String × α)) :
    last? key (e :: rest) = (last? key rest).or (if key = e.1 then some e.2 else none) := by
  unfold last?
  by_cases hk : key = e.1
  · rw [if_pos hk, List.filter_cons_of_pos (by simp [hk]), List.map_cons, List.getLast?_cons]
    cases ((rest.filter (·.1 == key)).map (·.2)).getLast? <;> rfl
  · rw [if_neg hk, List.filter_cons_of_neg (by simp [Ne.symm hk]), Option.or_none]

theorem last?_map {β : Type} (f : α → β) (key : String) (l : List (String × α)) :
    last? key (l.map fun e => (e.1, f e.2)) = (last? key l).map f := by
  unfold last?
  rw [List.filter_map, List.map_map, ← List.getLast?_map, List.map_map]
  rfl

/-- Where keys do not repeat, the last value under a key is the only one. -/
theorem last?_eq_lookup {key : String} {l : List (String × α)} (h : DistinctKeys l) :
    last? key l = l.lookup key := by
  induction l with
  | nil => rfl
  | cons e rest ih =>
      obtain ⟨hfirst, hrest⟩ := List.pairwise_cons.1 h
      rw [last?_cons, ih hrest, lookup_cons_eq]
      by_cases hk : key = e.1
      · have hnone : rest.lookup key = none := lookup_eq_none_of_ne fun d hd => hk ▸ hfirst d hd
        rw [if_pos hk, if_pos hk, hnone]
        rfl
      · rw [if_neg hk, if_neg hk, Option.or_none]

/-- Of inserted entries with one key, the last one counts. -/
theorem get?_insertAll_eq_last? (m : KeyMap α) (l : List (String × α)) (key : String) :
    (m.insertAll l).get? key = (last? key l).or (m.get? key) := by
  induction l generalizing m with
  | nil => rfl
  | cons e rest ih =>
      show ((m.insert e.1 e.2).insertAll rest).get? key = _
      rw [ih, get?_insert, last?_cons, Option.or_assoc]
      by_cases hk : key = e.1
      · rw [if_pos hk, if_pos hk]
        rfl
      · rw [if_neg hk, if_neg hk]
        rfl

theorem get?_insertAll (m : KeyMap α) {l : List (String × α)}
    (h : DistinctKeys l) (key : String) :
    (m.insertAll l).get? key = (l.lookup key).or (m.get? key) := by
  rw [get?_insertAll_eq_last?, last?_eq_lookup h]

/-- A map of any entries has the last one of each key. -/
theorem get?_ofList (l : List (String × α)) (key : String) : (ofList l).get? key = last? key l := by
  unfold ofList
  rw [get?_insertAll_eq_last?, get?_empty, Option.or_none]

/-- A map of entries with distinct keys has just these entries. -/
theorem get?_ofList_eq_some_iff {l : List (String × α)} (h : DistinctKeys l) {key : String}
    {value : α} : (ofList l).get? key = some value ↔ (key, value) ∈ l := by
  rw [get?_ofList, last?_eq_lookup h, lookup_eq_some_iff_mem h]

/-- Where both maps have a key, that of the second one counts. -/
theorem get?_override (m n : KeyMap α) (key : String) :
    (m.override n).get? key = (n.get? key).or (m.get? key) :=
  get?_insertAll m n.distinctKeys_entries key

/-- The second map counts only for the keys that the first one lacks. -/
theorem get?_completeWith (m n : KeyMap α) (key : String) :
    (m.completeWith n).get? key = (m.get? key).or (n.get? key) :=
  get?_override n m key

/-- An empty map adds nothing. -/
@[simp] theorem completeWith_empty (m : KeyMap α) : m.completeWith empty = m :=
  ofList_entries m

/-- A map gains nothing from one that has none but its keys. -/
theorem completeWith_eq_self {m n : KeyMap α} (h : ∀ key, m.get? key = none → n.get? key = none) :
    m.completeWith n = m := by
  refine ext_get? fun key => ?_
  rw [get?_completeWith]
  cases hm : m.get? key with
  | none => rw [h key hm, Option.none_or]
  | some value => rw [Option.some_or]

/-- Overriding twice is overriding once, with the second map put over the first one. -/
theorem override_override (m n o : KeyMap α) : (m.override n).override o = m.override (n.override o) := by
  refine ext_get? fun key => ?_
  rw [get?_override, get?_override, get?_override, get?_override, Option.or_assoc]

end KeyMap

end TokenSpan
