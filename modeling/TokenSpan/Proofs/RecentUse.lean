/-
  TokenSpan.Proofs.RecentUse
  ──────────────────────────
  What a store of bounded size holds, told from what was asked of it.

  Looking, storing and clearing make a history.  Imagine a store without bound that is used
  alike: its entries by their last use, none forgotten.  The real store always holds the first
  of them, as many as there is room for.  An entry is therefore held exactly as long as the
  entries before it, which are those of the keys used since, leave room for it.

  Histories are lists with the latest action first.

  Main results:
  * `RecentStore.lookup_take` — what is found among the first entries of a list;
  * `RecentStore.Recency.use` — what one use does to the store without bound;
  * `RecentStore.Tracks.step`, `RecentStore.exists_tracks` — the real store holds its first entries, after
    one more action and after every history;
  * `RecentStore.size_and_hits_of_history` — how many entries are held, and which.
-/
import Mathlib.Data.Finset.Card
import TokenSpan.Proofs.CacheContents

namespace TokenSpan

/-! ## §1. Histories. -/

/-- Something that is asked of a store. -/
inductive StoreAction (α : Type) where
  /-- Looks for the value under a key. -/
  | get (key : String)
  /-- Stores a value under a key. -/
  | set (key : String) (value : α)
  /-- Forgets all entries. -/
  | clear

/-- What was stored since all entries were forgotten, the latest first. -/
def setsSinceClear {α : Type} : (history : List (StoreAction α)) → List (String × α)
  | [] => []
  | .set key value :: earlier => (key, value) :: setsSinceClear earlier
  | .get _ :: earlier => setsSinceClear earlier
  | .clear :: _ => []

/-- The other keys that were used since the last use of a key; of the uses the latest comes first. -/
def othersSince (key : String) (uses : List String) : Finset String :=
  (uses.takeWhile (· != key)).toFinset

/-- A key was stored, and fewer than `capacity` other keys were used since its last use. -/
def InReach (capacity : Nat) (key : String) (stored uses : List String) : Prop :=
  key ∈ stored ∧ (othersSince key uses).card < capacity

instance (capacity : Nat) (key : String) (stored uses : List String) :
    Decidable (InReach capacity key stored uses) :=
  inferInstanceAs (Decidable (_ ∧ _))

/--
The keys used since all entries were forgotten, the latest first: storing uses a key, and so does looking
for one that is in reach.
-/
def usesSinceClear {α : Type} (capacity : Nat) : (history : List (StoreAction α)) → List String
  | [] => []
  | .set key _ :: earlier => key :: usesSinceClear capacity earlier
  | .get key :: earlier =>
      if InReach capacity key ((setsSinceClear earlier).map (·.1)) (usesSinceClear capacity earlier) then
        key :: usesSinceClear capacity earlier
      else usesSinceClear capacity earlier
  | .clear :: _ => []

namespace RecentStore

variable {α : Type}

/-- The store after an action. -/
def perform (s : RecentStore α) : StoreAction α → RecentStore α
  | .get key => (s.get? key).2
  | .set key value => s.insert key value
  | .clear => s.clear

/-- The store after a history, empty at first and with the room that was asked for. -/
def after (capacity : Nat) : (history : List (StoreAction α)) → RecentStore α
  | [] => .ofCapacity capacity
  | action :: earlier => (after capacity earlier).perform action

/-! ## §2. The first entries of a list. -/

/-- The keys of a list are those that are found in it. -/
theorem mem_keys_iff (key : String) (entries : List (String × α)) :
    key ∈ entries.map (·.1) ↔ (entries.lookup key).isSome := by
  rw [List.lookup_isSome_iff, List.mem_map]
  refine exists_congr fun e => and_congr_right fun _ => ?_
  rw [beq_iff_eq]
  exact eq_comm

/-- Among the first entries a key is found if fewer entries stand before it. -/
theorem lookup_take (n : Nat) (key : String) (entries : List (String × α)) :
    (entries.take n).lookup key
      = if ((entries.map (·.1)).takeWhile (· != key)).length < n then entries.lookup key else none := by
  induction entries generalizing n with
  | nil => simp
  | cons e rest ih =>
      obtain ⟨key', value⟩ := e
      cases n with
      | zero => simp
      | succ n =>
          rw [List.take_succ_cons, KeyMap.lookup_cons_eq, KeyMap.lookup_cons_eq, List.map_cons]
          by_cases hk : key = key'
          · subst hk
            simp
          · have hne : (key' != key) = true := by simpa using Ne.symm hk
            rw [List.takeWhile_cons_of_pos (by exact hne), if_neg hk, if_neg hk, ih, List.length_cons]
            simp only [Nat.add_lt_add_iff_right]

/-- Where keys are distinct, leaving one out takes at most one entry away. -/
theorem length_le_length_others_add_one {entries : List (String × α)}
    (h : (entries.map (·.1)).Nodup) (key : String) :
    entries.length ≤ (others key entries).length + 1 := by
  induction entries with
  | nil => exact Nat.zero_le _
  | cons e rest ih =>
      obtain ⟨hnot, hrest⟩ := List.nodup_cons.1 h
      by_cases he : e.1 = key
      · -- no other entry has that key
        have hall : others key rest = rest := by
          refine List.filter_eq_self.2 fun d hd => ?_
          have hne : d.1 ≠ e.1 := by
            intro heq
            exact hnot (List.mem_map.2 ⟨d, hd, heq⟩)
          simpa [← he] using hne
        have hskip : others key (e :: rest) = others key rest := by simp [others, he]
        rw [hskip, hall]
        exact Nat.le_refl _
      · have hkeep : others key (e :: rest) = e :: others key rest := by simp [others, he]
        have hlength := ih hrest
        rw [hkeep, List.length_cons, List.length_cons]
        omega

/-- Putting an entry first commutes with forgetting the last ones. -/
theorem take_cons_others_take {entries : List (String × α)} (h : (entries.map (·.1)).Nodup)
    (n : Nat) (key : String) (value : α) :
    ((key, value) :: others key (entries.take n)).take n
      = ((key, value) :: others key entries).take n := by
  cases n with
  | zero => rfl
  | succ n =>
      rw [List.take_succ_cons, List.take_succ_cons]
      congr 1
      have hsplit : others key entries
          = others key (entries.take (n + 1)) ++ others key (entries.drop (n + 1)) := by
        unfold others
        rw [← List.filter_append, List.take_append_drop]
      rw [hsplit]
      by_cases hlength : n + 1 ≤ entries.length
      · -- at most one of the first entries is left out, so `n` of them remain
        have hnodup : ((entries.take (n + 1)).map (·.1)).Nodup :=
          h.sublist ((List.take_sublist _ _).map _)
        have hrest := length_le_length_others_add_one hnodup key
        rw [List.length_take, Nat.min_eq_left hlength] at hrest
        rw [List.take_append_of_le_length (by omega)]
      · have hdrop : entries.drop (n + 1) = [] := List.drop_eq_nil_of_le (by omega)
        rw [hdrop]
        simp [others]

/-- The keys before a key, once another one was put first. -/
theorem takeWhile_keys_cons_others {key k : String} (h : key ≠ k) (value : α)
    (entries : List (String × α)) :
    ((((k, value) :: others k entries).map (·.1)).takeWhile (· != key))
      = k :: ((entries.map (·.1)).takeWhile (· != key)).filter (· != k) := by
  have hkeys : (others k entries).map (·.1) = (entries.map (·.1)).filter (· != k) := by
    unfold others
    rw [List.filter_map]
    rfl
  have hk : (k != key) = true := by simpa using Ne.symm h
  rw [List.map_cons, List.takeWhile_cons_of_pos (by exact hk), hkeys, List.takeWhile_filter]
  congr 3
  funext a
  by_cases ha : a = k
  · simp [ha, Ne.symm h]
  · simp [ha]

/-! ## §3. The store without bound. -/

/-- All entries by their last use, the latest first, of what was stored and used since all were forgotten. -/
structure Recency (sets : List (String × α)) (uses : List String) (entries : List (String × α)) :
    Prop where
  nodup : (entries.map (·.1)).Nodup
  lookup : ∀ key, entries.lookup key = sets.lookup key
  /-- Before a key stand the keys used since. -/
  before : ∀ key ∈ entries.map (·.1),
    ((entries.map (·.1)).takeWhile (· != key)).toFinset = othersSince key uses

namespace Recency

variable {sets : List (String × α)} {uses : List String} {entries : List (String × α)}

theorem nil : Recency (α := α) [] [] [] :=
  ⟨List.nodup_nil, fun _ => rfl, fun _ h => absurd h List.not_mem_nil⟩

theorem mem_keys_iff (h : Recency sets uses entries) (key : String) :
    key ∈ entries.map (·.1) ↔ key ∈ sets.map (·.1) := by
  rw [RecentStore.mem_keys_iff, RecentStore.mem_keys_iff, h.lookup]

/-- Each key that was stored has one entry. -/
theorem length_eq (h : Recency sets uses entries) :
    entries.length = (sets.map (·.1)).toFinset.card := by
  have hkeys : (entries.map (·.1)).toFinset = (sets.map (·.1)).toFinset := by
    ext key
    rw [List.mem_toFinset, List.mem_toFinset]
    exact h.mem_keys_iff key
  rw [← hkeys, List.toFinset_card_of_nodup h.nodup, List.length_map]

/-- Among the first entries are those of the keys in reach. -/
theorem lookup_take (h : Recency sets uses entries) (capacity : Nat) (key : String) :
    (entries.take capacity).lookup key
      = if InReach capacity key (sets.map (·.1)) uses then sets.lookup key else none := by
  rw [RecentStore.lookup_take, h.lookup]
  by_cases hkey : key ∈ entries.map (·.1)
  · have hcard : ((entries.map (·.1)).takeWhile (· != key)).length = (othersSince key uses).card := by
      rw [← h.before key hkey]
      exact (List.toFinset_card_of_nodup (h.nodup.sublist (List.takeWhile_sublist _))).symm
    simp only [hcard, InReach, (h.mem_keys_iff key).1 hkey, true_and]
  · have hnone : sets.lookup key = none := by
      rw [h.mem_keys_iff, RecentStore.mem_keys_iff] at hkey
      exact Option.not_isSome_iff_eq_none.1 hkey
    simp [hnone]

/-- A use puts the entry of the key first. -/
theorem use (h : Recency sets uses entries) {sets' : List (String × α)} {k : String} {value : α}
    (hsets : ∀ key, sets'.lookup key = if key = k then some value else sets.lookup key) :
    Recency sets' (k :: uses) ((k, value) :: others k entries) where
  nodup := List.nodup_cons.2 ⟨not_mem_keys_others k entries, nodup_keys_others h.nodup⟩
  lookup := by
    intro key
    rw [hsets, KeyMap.lookup_cons_eq, lookup_others, h.lookup]
    by_cases hk : key = k
    · simp [hk]
    · simp [hk]
  before := by
    intro key hkey
    by_cases hk : key = k
    · simp [hk, othersSince]
    · have hbefore : key ∈ entries.map (·.1) := by
        rw [RecentStore.mem_keys_iff] at hkey ⊢
        rwa [KeyMap.lookup_cons_eq, if_neg hk, lookup_others, if_neg hk] at hkey
      have hskip : (k != key) = true := by simpa using Ne.symm hk
      unfold othersSince
      rw [takeWhile_keys_cons_others hk, List.takeWhile_cons_of_pos (by exact hskip),
        List.toFinset_cons, List.toFinset_cons, List.toFinset_filter, h.before key hbefore]
      -- whether the key used now was used before makes no difference
      ext other
      by_cases hother : other = k
      · simp [hother]
      · simp [hother, othersSince]

end Recency

/-! ## §4. The store after a history. -/

@[simp] theorem capacity_perform (s : RecentStore α) (action : StoreAction α) :
    (s.perform action).capacity = s.capacity := by
  cases action with
  | get key =>
      show (s.get? key).2.capacity = s.capacity
      unfold get?
      cases s.entries.lookup key <;> rfl
  | set key value => rfl
  | clear => rfl

theorem capacity_after (n : Nat) (history : List (StoreAction α)) :
    (after n history).capacity = max n 1 := by
  induction history with
  | nil => rfl
  | cons action earlier ih =>
      show ((after n earlier).perform action).capacity = _
      rw [capacity_perform, ih]

/-- A look-up that finds a value puts its entry first. -/
theorem snd_get?_of_some {s : RecentStore α} {key : String} {value : α}
    (h : (s.get? key).1 = some value) : (s.get? key).2 = s.moveToFront key value := by
  rw [fst_get?] at h
  unfold get?
  rw [h]

/-- A look-up that finds nothing changes nothing. -/
theorem snd_get?_of_none {s : RecentStore α} {key : String} (h : (s.get? key).1 = none) :
    (s.get? key).2 = s := by
  rw [fst_get?] at h
  unfold get?
  rw [h]

/-- The entries of the store without bound, of which the store after a history holds the first ones. -/
structure Tracks (n : Nat) (history : List (StoreAction α)) (entries : List (String × α)) : Prop where
  recency : Recency (setsSinceClear history) (usesSinceClear (max n 1) history) entries
  held : (after n history).entries = entries.take (max n 1)

namespace Tracks

variable {n : Nat} {history : List (StoreAction α)} {entries : List (String × α)}

/-- What a look-up finds then. -/
theorem get? (h : Tracks n history entries) (key : String) :
    ((after n history).get? key).1
      = if InReach (max n 1) key ((setsSinceClear history).map (·.1)) (usesSinceClear (max n 1) history)
        then (setsSinceClear history).lookup key else none := by
  rw [fst_get?, h.held]
  exact h.recency.lookup_take _ key

/-- An entry that is put first in the store is put first in the one without bound. -/
theorem moveToFront (h : Tracks n history entries) (key : String) (value : α) :
    ((after n history).moveToFront key value).entries
      = ((key, value) :: others key entries).take (max n 1) := by
  show ((key, value) :: others key (after n history).entries).take (after n history).capacity = _
  rw [h.held, capacity_after]
  exact take_cons_others_take h.recency.nodup _ key value

/-- What one action does. -/
theorem step (h : Tracks n history entries) (action : StoreAction α) :
    ∃ entries', Tracks n (action :: history) entries' := by
  cases action with
  | clear => exact ⟨[], .nil, List.take_nil.symm⟩
  | set key value =>
      exact ⟨_, h.recency.use fun k => KeyMap.lookup_cons_eq k key value _, h.moveToFront key value⟩
  | get key =>
      have hfound := h.get? key
      by_cases hreach : InReach (max n 1) key ((setsSinceClear history).map (·.1))
          (usesSinceClear (max n 1) history)
      · -- the key is found, and so used
        obtain ⟨value, hvalue⟩ := Option.isSome_iff_exists.1 ((mem_keys_iff key _).1 hreach.1)
        rw [if_pos hreach, hvalue] at hfound
        refine ⟨(key, value) :: others key entries, ?_, ?_⟩
        · show Recency _ (if InReach (max n 1) key _ _ then _ else _) _
          rw [if_pos hreach]
          refine h.recency.use fun k => ?_
          show (setsSinceClear history).lookup k = _
          by_cases hk : k = key
          · rw [if_pos hk, hk, hvalue]
          · rw [if_neg hk]
        · show ((after n history).get? key).2.entries = _
          rw [snd_get?_of_some hfound]
          exact h.moveToFront key value
      · -- nothing is found, and nothing changes
        rw [if_neg hreach] at hfound
        refine ⟨entries, ?_, ?_⟩
        · show Recency _ (if InReach (max n 1) key _ _ then _ else _) _
          rw [if_neg hreach]
          exact h.recency
        · show ((after n history).get? key).2.entries = _
          rw [snd_get?_of_none hfound]
          exact h.held

end Tracks

/-- After every history the store holds the first entries of the store without bound. -/
theorem exists_tracks (n : Nat) (history : List (StoreAction α)) :
    ∃ entries, Tracks n history entries := by
  induction history with
  | nil => exact ⟨[], .nil, List.take_nil.symm⟩
  | cons action earlier ih =>
      obtain ⟨entries, h⟩ := ih
      exact h.step action

/-- A look-up finds what was stored last under a key in reach, and nothing under other keys. -/
theorem get?_after (n : Nat) (history : List (StoreAction α)) (key : String) :
    ((after n history).get? key).1
      = if InReach (max n 1) key ((setsSinceClear history).map (·.1)) (usesSinceClear (max n 1) history)
        then (setsSinceClear history).lookup key else none := by
  obtain ⟨entries, h⟩ := exists_tracks n history
  exact h.get? key

theorem isSome_get?_after (n : Nat) (history : List (StoreAction α)) (key : String) :
    ((after n history).get? key).1.isSome ↔
      InReach (max n 1) key ((setsSinceClear history).map (·.1)) (usesSinceClear (max n 1) history) := by
  rw [get?_after]
  by_cases h : InReach (max n 1) key ((setsSinceClear history).map (·.1))
      (usesSinceClear (max n 1) history)
  · rw [if_pos h]
    exact iff_of_true ((mem_keys_iff key _).1 h.1) h
  · rw [if_neg h]
    exact iff_of_false Bool.false_ne_true h

/--
After any history a store holds as many entries as keys were stored since it was cleared, up to its room.  A
look-up finds a key exactly if it was stored since then and, since its last use, fewer other keys were used
than there is room for; it finds what was stored last under that key, and uses the key exactly if it finds
something.
-/
theorem size_and_hits_of_history (n : Nat) (history : List (StoreAction α)) :
    let s := after n history
    let sets := setsSinceClear history
    let uses := usesSinceClear (max n 1) history
    s.size = min (max n 1) (sets.map (·.1)).toFinset.card ∧
      ∀ key, ((s.get? key).1.isSome ↔ key ∈ sets.map (·.1) ∧ (othersSince key uses).card < max n 1) ∧
        (∀ value, (s.get? key).1 = some value → sets.lookup key = some value) ∧
          usesSinceClear (max n 1) (.get key :: history)
            = if (s.get? key).1.isSome then key :: uses else uses := by
  intro s sets uses
  refine ⟨?_, fun key => ⟨isSome_get?_after n history key, ?_, ?_⟩⟩
  · obtain ⟨entries, h⟩ := exists_tracks n history
    show s.entries.length = _
    rw [h.held, List.length_take, h.recency.length_eq]
  · intro value hvalue
    have hreach := (isSome_get?_after n history key).1 (Option.isSome_of_eq_some hvalue)
    rwa [get?_after, if_pos hreach] at hvalue
  · show (if InReach (max n 1) key _ _ then key :: uses else uses) = _
    rw [if_congr (isSome_get?_after n history key) rfl rfl]

/-- In a store for two entries, a hit between two stores keeps the older entry and gives up the other one. -/
theorem hit_saves_older_entry :
    let history : List (StoreAction Nat) := [.set "c" 3, .get "a", .set "b" 2, .set "a" 1]
    let s := after 2 history
    s.size = 2 ∧ (s.get? "a").1 = some 1 ∧ (s.get? "b").1 = none := by
  intro history s
  obtain ⟨hsize, hfound⟩ := size_and_hits_of_history 2 history
  refine ⟨hsize.trans (by decide), ?_, ?_⟩
  · have hhit : (s.get? "a").1.isSome := (hfound "a").1.2 (by decide)
    obtain ⟨value, hvalue⟩ := Option.isSome_iff_exists.1 hhit
    rw [hvalue, ← (hfound "a").2.1 value hvalue]
    decide
  · refine Option.not_isSome_iff_eq_none.1 fun hhit => ?_
    exact absurd ((hfound "b").1.1 hhit).2 (by decide)

end RecentStore

end TokenSpan
