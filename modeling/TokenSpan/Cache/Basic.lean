/-
  TokenSpan.Cache.Basic
  ─────────────────────
  Where results of passes are kept.

  Passes ask a store for the result under a key and hand it results; what a store makes of that
  is its own affair (`ResultStore`).  Sessions know three kinds of stores (`Cache`): none at all,
  a store of bounded size that forgets the entries not used for the longest time, and a store
  that keeps everything.
-/
import TokenSpan.Cache.Recent
import TokenSpan.Token.Basic

namespace TokenSpan

/-! ## §1. Stores. -/

/--
A store for results of passes.  Nothing is asked of it: it may forget what it was handed, answer what it was
never handed, or answer differently from one look-up to the next.
-/
class ResultStore (σ : Type) where
  /-- The tokens under a key, if there are any, and the store after the look-up. -/
  get? : σ → (key : String) → Option (List Token) × σ
  /-- The store after it was handed tokens under a key. -/
  insert : σ → (key : String) → List Token → σ
  /-- The store after it was asked to forget its entries. -/
  clear : σ → σ

/-- A store that sees digests of keys only; keys of one digest are one key to it. -/
structure Digested (digest : String → String) (σ : Type) where
  /-- The store of what is kept under digests. -/
  store : σ

instance {digest : String → String} {σ : Type} [ResultStore σ] : ResultStore (Digested digest σ) where
  get? d key :=
    let (found, store) := ResultStore.get? d.store (digest key)
    (found, { store })
  insert d key tokens := { store := ResultStore.insert d.store (digest key) tokens }
  clear d := { store := ResultStore.clear d.store }

/-! ## §2. Caches. -/

/-- A store of one of the kinds that sessions know. -/
inductive Cache where
  /-- Keeps nothing. -/
  | off
  /-- Keeps the entries used last. -/
  | recent (store : RecentStore (List Token))
  /-- Keeps everything. -/
  | exact (entries : KeyMap (List Token))

namespace Cache

instance : Inhabited Cache := ⟨.off⟩

/-- The tokens under a key, and the cache after the look-up. -/
def get? (c : Cache) (key : String) : Option (List Token) × Cache :=
  match c with
  | .off => (none, .off)
  | .recent store => let (found, store) := store.get? key; (found, .recent store)
  | .exact entries => (entries.get? key, .exact entries)

/-- The cache with tokens under a key, instead of older ones. -/
def insert (c : Cache) (key : String) (tokens : List Token) : Cache :=
  match c with
  | .off => .off
  | .recent store => .recent (store.insert key tokens)
  | .exact entries => .exact (entries.insert key tokens)

/-- Forgets the entries; a cache that keeps everything keeps them. -/
def clear : Cache → Cache
  | .recent store => .recent store.clear
  | c => c

@[default_instance]
instance : ResultStore Cache := ⟨get?, insert, clear⟩

/-- The room of a cache of bounded size. -/
def capacity? : Cache → Option Nat
  | .recent store => some store.capacity
  | _ => none

end Cache

end TokenSpan
