/-
  TokenSpan.Cache.Recent
  ──────────────────────
  A store of bounded size that forgets what was not used for the longest time.

  The entries stand in the order of their last use.  Storing an entry uses it, and so does
  a look-up that finds it.

  Main results: the type keeps that there is at least room for one entry, that the entries
  fit the room, and that no key occurs twice.
-/

namespace TokenSpan

/-- A store of at most `capacity` entries, the one used last first. -/
structure RecentStore (α : Type) where
  /-- The room for entries. -/
  capacity : Nat
  /-- The entries by their last use, the latest first. -/
  entries : List (String × α) := []
  /-- There is room for one entry. -/
  capacity_pos : 0 < capacity
  /-- The entries fit the room. -/
  length_le : entries.length ≤ capacity
  /-- No key occurs twice. -/
  nodup : (entries.map (·.1)).Nodup

namespace RecentStore

variable {α : Type}

/-- The room of a store for which no room is asked for. -/
def defaultCapacity : Nat := 4096

/-- The empty store with room for `capacity` entries, and at least for one. -/
def ofCapacity (capacity : Nat) : RecentStore α where
  capacity := max capacity 1
  capacity_pos := by omega
  length_le := Nat.zero_le _
  nodup := by simp

/-- The entries of all other keys. -/
def others (key : String) (entries : List (String × α)) : List (String × α) :=
  entries.filter (·.1 != key)

/-- The keys of the other entries do not hold the key. -/
theorem not_mem_keys_others (key : String) (entries : List (String × α)) :
    key ∉ (others key entries).map (·.1) := by
  simp [others]

/-- Leaving a key out leaves the keys distinct. -/
theorem nodup_keys_others {key : String} {entries : List (String × α)}
    (h : (entries.map (·.1)).Nodup) : ((others key entries).map (·.1)).Nodup :=
  h.sublist (List.filter_sublist.map _)

/-- Puts an entry first; if there is no room for all, the one used last of all is forgotten. -/
def moveToFront (s : RecentStore α) (key : String) (value : α) : RecentStore α where
  capacity := s.capacity
  entries := ((key, value) :: others key s.entries).take s.capacity
  capacity_pos := s.capacity_pos
  length_le := List.length_take_le _ _
  nodup := by
    refine List.Nodup.sublist ((List.take_sublist _ _).map _) ?_
    exact List.nodup_cons.2 ⟨not_mem_keys_others key s.entries, nodup_keys_others s.nodup⟩

/-- Stores a value under a key, instead of an older one. -/
def insert (s : RecentStore α) (key : String) (value : α) : RecentStore α := s.moveToFront key value

/-- The value under a key, and the store in which that entry was used last. -/
def get? (s : RecentStore α) (key : String) : Option α × RecentStore α :=
  match s.entries.lookup key with
  | some value => (some value, s.moveToFront key value)
  | none => (none, s)

/-- The number of entries. -/
def size (s : RecentStore α) : Nat := s.entries.length

/-- The store without its entries. -/
def clear (s : RecentStore α) : RecentStore α :=
  { s with entries := [], length_le := Nat.zero_le _, nodup := by simp }

@[simp] theorem capacity_moveToFront (s : RecentStore α) (key : String) (value : α) :
    (s.moveToFront key value).capacity = s.capacity := rfl

end RecentStore

end TokenSpan
