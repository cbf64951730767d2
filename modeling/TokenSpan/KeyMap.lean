/-
  TokenSpan.KeyMap
  ────────────────
  Finite maps from names to values, kept as a list whose keys strictly increase.

  The order is that of the characters' code points, so a map has exactly one form:
  two maps that answer every look-up alike are equal.  Properties of tokens, named
  groups of a match and the exact result store are maps of this kind.

  Main results:
  * `ordered_put` — putting an entry keeps the keys in order;
  * `get?_insert` — what a look-up sees after an insertion;
  * `mem_entries_ofList` — building a map from a list invents no entry.
-/

namespace TokenSpan

/-- A finite map from names to values with its entries in increasing order of their keys. -/
structure KeyMap (α : Type) where
  /-- The entries, each key once, in increasing order. -/
  entries : List (String × α) := []
  /-- The keys strictly increase. -/
  ordered : entries.Pairwise (fun a b => a.1 < b.1) := by exact List.Pairwise.nil

namespace KeyMap

variable {α β : Type}

/-! ## §1. Putting an entry into a sorted list. -/

/-- Puts an entry at its place in a sorted list, instead of the entry of the same key if there is one. -/
def put (key : String) (value : α) : List (String × α) → List (String × α)
  | [] => [(key, value)]
  | e :: rest =>
      if key < e.1 then (key, value) :: e :: rest
      else if key = e.1 then (key, value) :: rest
      else e :: put key value rest

/-- Each entry of the result is the new one or an old one. -/
theorem mem_put {key : String} {value : α} {e : String × α} :
    {l : List (String × α)} → e ∈ put key value l → e = (key, value) ∨ e ∈ l
  | [], h => by simpa [put] using h
  | d :: rest, h => by
      unfold put at h
      split at h
      · simpa using h
      · split at h
        · rcases List.mem_cons.1 h with h | h
          · exact .inl h
          · exact .inr (List.mem_cons_of_mem _ h)
        · rcases List.mem_cons.1 h with h | h
          · exact .inr (h ▸ List.mem_cons_self)
          · exact (mem_put h).imp_right (List.mem_cons_of_mem _)

/-- A key that is neither below nor equal to another is above it. -/
theorem lt_of_not_lt_of_ne {a b : String} (h : ¬a < b) (hne : a ≠ b) : b < a := by
  rcases String.le_total a b with hab | hba
  · exact absurd (String.le_antisymm hab (String.not_lt.1 h)) hne
  · exact Decidable.byContradiction fun hn => hne (String.le_antisymm (String.not_lt.1 hn) hba)

/-- Putting an entry keeps the keys in order. -/
theorem ordered_put (key : String) (value : α) :
    {l : List (String × α)} → l.Pairwise (fun a b => a.1 < b.1) →
      (put key value l).Pairwise (fun a b => a.1 < b.1)
  | [], _ => by simp [put]
  | d :: rest, h => by
      have hd := (List.pairwise_cons.1 h).1
      have hr := (List.pairwise_cons.1 h).2
      unfold put
      split
      · rename_i hlt
        refine List.pairwise_cons.2 ⟨fun e he => ?_, h⟩
        rcases List.mem_cons.1 he with rfl | he
        · exact hlt
        · exact String.lt_trans hlt (hd e he)
      · split
        · rename_i heq
          exact List.pairwise_cons.2 ⟨fun e he => heq ▸ hd e he, hr⟩
        · rename_i hnlt hne
          refine List.pairwise_cons.2 ⟨fun e he => ?_, ordered_put key value hr⟩
          rcases mem_put he with rfl | he
          · exact lt_of_not_lt_of_ne hnlt hne
          · exact hd e he

/-- A look-up sees the first entry if it has the key, and the rest otherwise. -/
theorem lookup_cons_eq (k key : String) (value : α) (rest : List (String × α)) :
    ((key, value) :: rest).lookup k = if k = key then some value else rest.lookup k := by
  rw [List.lookup_cons]
  by_cases hk : k = key
  · simp [hk]
  · simp [hk, beq_eq_false_iff_ne.2 hk]

/-- A look-up in the list after an entry was put. -/
theorem lookup_put (key k : String) (value : α) :
    (l : List (String × α)) → l.Pairwise (fun a b => a.1 < b.1) →
      (put key value l).lookup k = if k = key then some value else l.lookup k
  | [], _ => lookup_cons_eq k key value []
  | (key', value') :: rest, h => by
      have hr := (List.pairwise_cons.1 h).2
      unfold put
      split
      · exact lookup_cons_eq k key value _
      · split
        · rename_i heq
          have heq : key = key' := heq
          subst heq
          rw [lookup_cons_eq, lookup_cons_eq]
          by_cases hk : k = key
          · simp [hk]
          · simp [hk]
        · rename_i hne
          have hne : key ≠ key' := hne
          rw [lookup_cons_eq, lookup_cons_eq, lookup_put key k value rest hr]
          by_cases hk : k = key
          · subst hk
            simp [hne]
          · simp [hk]

/-! ## §2. The map. -/

/-- The map without entries. -/
def empty : KeyMap α := {}

instance : Inhabited (KeyMap α) := ⟨empty⟩
instance : EmptyCollection (KeyMap α) := ⟨empty⟩

@[ext] theorem ext {m n : KeyMap α} (h : m.entries = n.entries) : m = n := by
  cases m; cases n; cases h; rfl

instance [DecidableEq α] : DecidableEq (KeyMap α) := fun m n =>
  if h : m.entries = n.entries then isTrue (ext h) else isFalse fun e => h (e ▸ rfl)

/-- The value under a key. -/
def get? (m : KeyMap α) (key : String) : Option α := m.entries.lookup key

/-- Whether a key has a value. -/
def contains (m : KeyMap α) (key : String) : Bool := (m.get? key).isSome

/-- Whether there is no entry. -/
def isEmpty (m : KeyMap α) : Bool := m.entries.isEmpty

/-- Puts a value under a key, instead of an older one. -/
def insert (m : KeyMap α) (key : String) (value : α) : KeyMap α :=
  ⟨put key value m.entries, ordered_put key value m.ordered⟩

/-- Inserts the entries of a list from left to right, so that of equal keys the last one counts. -/
def insertAll (m : KeyMap α) (entries : List (String × α)) : KeyMap α :=
  entries.foldl (fun m e => m.insert e.1 e.2) m

/-- The map of a list of entries; of equal keys the last one counts. -/
def ofList (entries : List (String × α)) : KeyMap α := empty.insertAll entries

/-- All entries of both maps; where both have a key, that of the second map counts. -/
def override (m n : KeyMap α) : KeyMap α := m.insertAll n.entries

/-- The map with the entries of another one added for the keys it lacks. -/
def completeWith (m n : KeyMap α) : KeyMap α := n.override m

/-- Applies a function to each value. -/
def map (f : α → β) (m : KeyMap α) : KeyMap β where
  entries := m.entries.map fun e => (e.1, f e.2)
  ordered := by
    rw [List.pairwise_map]
    exact m.ordered

@[simp] theorem get?_empty (k : String) : (empty : KeyMap α).get? k = none := rfl

/-- After an insertion its key has the new value and every other key what it had. -/
theorem get?_insert (m : KeyMap α) (key k : String) (value : α) :
    (m.insert key value).get? k = if k = key then some value else m.get? k :=
  lookup_put key k value m.entries m.ordered

/-- Inserting entries invents none. -/
theorem mem_entries_insertAll {e : String × α} {l : List (String × α)} :
    {m : KeyMap α} → e ∈ (m.insertAll l).entries → e ∈ m.entries ∨ e ∈ l := by
  induction l with
  | nil => exact fun h => .inl h
  | cons d rest ih =>
      intro m h
      rcases ih (m := m.insert d.1 d.2) h with h | h
      · rcases mem_put h with h | h
        · exact .inr (h ▸ List.mem_cons_self)
        · exact .inl h
      · exact .inr (List.mem_cons_of_mem _ h)

/-- Building a map from a list invents no entry. -/
theorem mem_entries_ofList {e : String × α} {l : List (String × α)}
    (h : e ∈ (ofList l).entries) : e ∈ l := by
  rcases mem_entries_insertAll h with h | h
  · cases h
  · exact h

end KeyMap

end TokenSpan
