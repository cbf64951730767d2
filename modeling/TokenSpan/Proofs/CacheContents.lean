/-
  TokenSpan.Proofs.CacheContents
  ──────────────────────────────
  What a cache holds, and how looking and storing change it.

  `ResultStore.find?` shows the tokens under a key and leaves the order of use aside.  A look-up
  may change that order, but not what is held.  Storing puts the new entry in and may
  throw others out; it never changes the tokens under another key.

  Main results:
  * `RecentStore.lookup_moveToFront` — what a store of bounded size holds after storing;
  * `LawfulResultStore Cache` — look-ups change no contents, and nothing is held but what was stored.
-/
import TokenSpan.Cache.Basic

namespace TokenSpan

/-- The tokens that a store answers under a key. -/
def ResultStore.find? {σ : Type} [ResultStore σ] (c : σ) (key : String) : Option (List Token) :=
  (ResultStore.get? c key).1

open ResultStore (find?)

/-! ## §1. Stores of bounded size. -/

namespace RecentStore

variable {α : Type}

/-- Among the entries of the other keys, only the key itself is missing. -/
theorem lookup_others (key k : String) (entries : List (String × α)) :
    (others key entries).lookup k = if k = key then none else entries.lookup k := by
  induction entries with
  | nil => simp [others]
  | cons e rest ih =>
      obtain ⟨key', value⟩ := e
      unfold others at ih ⊢
      by_cases hkey : key' = key
      · -- the entry is left out, and no other key sees it
        rw [List.filter_cons_of_neg (by simp [hkey]), ih, KeyMap.lookup_cons_eq, hkey]
        by_cases hk : k = key
        · simp [hk]
        · simp [hk]
      · rw [List.filter_cons_of_pos (by simp [hkey]), KeyMap.lookup_cons_eq, KeyMap.lookup_cons_eq, ih]
        by_cases hk : k = key'
        · simp [hk, hkey]
        · simp [hk]

/-- Leaving out a key that occurs leaves fewer entries. -/
theorem length_others_lt {key : String} {value : α} {entries : List (String × α)}
    (h : entries.lookup key = some value) : (others key entries).length < entries.length := by
  obtain ⟨before, after, hsplit, _⟩ := List.lookup_eq_some_iff.1 h
  unfold others
  refine List.length_filter_lt_length_iff_exists.2 ⟨(key, value), ?_, by simp⟩
  rw [hsplit]
  exact List.mem_append_right _ List.mem_cons_self

/-- What is found after an entry was put first was put there just now, or was found before. -/
theorem lookup_moveToFront {s : RecentStore α} {key k : String} {value found : α}
    (h : (s.moveToFront key value).entries.lookup k = some found) :
    (k = key ∧ found = value) ∨ s.entries.lookup k = some found := by
  -- forgetting entries only shortens the list, so what is found was found in the whole list
  have hall : ((key, value) :: others key s.entries).lookup k = some found :=
    (List.take_prefix _ _).lookup_eq_some h
  rw [KeyMap.lookup_cons_eq, lookup_others] at hall
  by_cases hk : k = key
  · rw [if_pos hk] at hall
    exact .inl ⟨hk, (Option.some.inj hall).symm⟩
  · rw [if_neg hk, if_neg hk] at hall
    exact .inr hall

/-- Putting an entry first that was there already changes the order only. -/
theorem lookup_moveToFront_of_found {s : RecentStore α} {key : String} {value : α}
    (h : s.entries.lookup key = some value) (k : String) :
    (s.moveToFront key value).entries.lookup k = s.entries.lookup k := by
  have hlength := length_others_lt h
  have hroom := s.length_le
  -- one entry less and one more: nothing is forgotten
  have hentries : (s.moveToFront key value).entries = (key, value) :: others key s.entries :=
    List.take_of_length_le (by rw [List.length_cons]; omega)
  rw [hentries, KeyMap.lookup_cons_eq, lookup_others]
  by_cases hk : k = key
  · rw [if_pos hk, hk, h]
  · rw [if_neg hk, if_neg hk]

/-- What a look-up finds. -/
theorem fst_get? (s : RecentStore α) (key : String) : (s.get? key).1 = s.entries.lookup key := by
  unfold get?
  cases s.entries.lookup key <;> rfl

/-- The entries after a look-up, up to their order. -/
theorem lookup_snd_get? (s : RecentStore α) (key k : String) :
    (s.get? key).2.entries.lookup k = s.entries.lookup k := by
  unfold get?
  cases h : s.entries.lookup key with
  | none => rfl
  | some value => exact lookup_moveToFront_of_found h k

end RecentStore

/-! ## §2. Stores that hold what they were handed. -/

/-- A store that answers nothing but what it was handed, or forgets it. -/
class LawfulResultStore (σ : Type) [ResultStore σ] : Prop where
  /-- A look-up leaves the contents as they are. -/
  find?_get? (c : σ) (key k : String) : find? (ResultStore.get? c key).2 k = find? c k
  /-- What is held after storing was stored just now, or was held before. -/
  find?_insert {c : σ} {key k : String} {tokens found : List Token}
      (h : find? (ResultStore.insert c key tokens) k = some found) :
    (k = key ∧ found = tokens) ∨ find? c k = some found

/-- The store holds nothing. -/
def ResultStore.Empty {σ : Type} [ResultStore σ] (c : σ) : Prop := ∀ key, find? c key = none

/-! ## §3. All caches. -/

namespace Cache

theorem find?_recent (s : RecentStore (List Token)) (key : String) :
    find? (Cache.recent s) key = s.entries.lookup key :=
  s.fst_get? key

theorem find?_exact (entries : KeyMap (List Token)) (key : String) :
    find? (Cache.exact entries) key = entries.get? key := rfl

theorem find?_get? (c : Cache) (key k : String) : find? (ResultStore.get? c key).2 k = find? c k := by
  cases c with
  | off => rfl
  | recent s =>
      show find? (Cache.recent (s.get? key).2) k = _
      rw [find?_recent, find?_recent, s.lookup_snd_get?]
  | exact entries => rfl

theorem find?_insert {c : Cache} {key k : String} {tokens found : List Token}
    (h : find? (ResultStore.insert c key tokens) k = some found) :
    (k = key ∧ found = tokens) ∨ find? c k = some found := by
  cases c with
  | off => exact .inr h
  | recent s =>
      have h' : find? (Cache.recent (s.insert key tokens)) k = some found := h
      rw [find?_recent] at h' ⊢
      exact RecentStore.lookup_moveToFront h'
  | exact entries =>
      have h' : (entries.insert key tokens).get? k = some found := h
      rw [KeyMap.get?_insert] at h'
      by_cases hk : k = key
      · rw [if_pos hk] at h'
        exact .inl ⟨hk, (Option.some.inj h').symm⟩
      · rw [if_neg hk] at h'
        exact .inr h'

instance : LawfulResultStore Cache := ⟨find?_get?, find?_insert⟩

theorem empty_recent (capacity : Nat) :
    ResultStore.Empty (Cache.recent (.ofCapacity capacity)) := by
  intro key
  rw [find?_recent]
  rfl

theorem empty_exact : ResultStore.Empty (Cache.exact .empty) := fun _ => rfl

end Cache

end TokenSpan
