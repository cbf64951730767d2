/-
  TokenSpan.Json.Basic
  ────────────────────
  JSON documents, and the values that properties hold.

  A document (`Json`) keeps the members of an object as they stand in its text, repeated
  names included.  A value (`Value`) is a document in canonical form: at every level each
  name occurs once and the names are in order, so equal values are the same document.

  Main results:
  * `isCanonical_normalize` — normalising a document (of equal names the last one counts)
    gives a canonical one.
-/
import TokenSpan.Decimal.Double
import TokenSpan.KeyMap

namespace TokenSpan

/-! ## §1. Documents. -/

/-- A number: an integer of 64 bits, or a double. -/
inductive Number where
  /-- An integer from 0 up to 2^64 - 1. -/
  | natural (n : UInt64)
  /-- The integer `-(n + 1)`, down to -2^63. -/
  | negSucc (n : Fin 9223372036854775808)
  /-- A number written with a point or an exponent, or an integer beyond 64 bits. -/
  | double (d : Double)
  deriving DecidableEq

/-- Equality as numbers of the same kind: only the two zeros among the doubles are merged. -/
def Number.same : Number → Number → Bool
  | .double a, .double b => a.same b
  | a, b => a == b

/-- A JSON document, with the members of objects in the order of the text. -/
inductive Json where
  /-- The literal for nothing. -/
  | null
  /-- A truth value. -/
  | bool (b : Bool)
  /-- A number. -/
  | number (n : Number)
  /-- A text. -/
  | string (s : String)
  /-- A list of documents. -/
  | array (items : List Json)
  /-- Named documents. -/
  | object (members : List (String × Json))

namespace Json

instance : Inhabited Json := ⟨.null⟩

/-- The document of a natural number of at most 64 bits; larger numbers are taken modulo 2^64. -/
def ofNat (n : Nat) : Json := .number (.natural (UInt64.ofNat n))

mutual

/-- Whether two documents are the same. -/
def eqb : Json → Json → Bool
  | .null, .null => true
  | .bool a, .bool b => a == b
  | .number a, .number b => a == b
  | .string a, .string b => a == b
  | .array a, .array b => eqbItems a b
  | .object a, .object b => eqbMembers a b
  | _, _ => false

/-- Whether two lists of documents are the same. -/
def eqbItems : List Json → List Json → Bool
  | [], [] => true
  | a :: as, b :: bs => eqb a b && eqbItems as bs
  | _, _ => false

/-- Whether two lists of members are the same. -/
def eqbMembers : List (String × Json) → List (String × Json) → Bool
  | [], [] => true
  | (k, a) :: as, (l, b) :: bs => k == l && eqb a b && eqbMembers as bs
  | _, _ => false

end

mutual

/-- Whether two documents are equal with numbers compared as numbers. -/
def same : Json → Json → Bool
  | .null, .null => true
  | .bool a, .bool b => a == b
  | .number a, .number b => a.same b
  | .string a, .string b => a == b
  | .array a, .array b => sameItems a b
  | .object a, .object b => sameMembers a b
  | _, _ => false

/-- Equality of lists of documents with numbers compared as numbers. -/
def sameItems : List Json → List Json → Bool
  | [], [] => true
  | a :: as, b :: bs => same a b && sameItems as bs
  | _, _ => false

/-- Equality of members with numbers compared as numbers. -/
def sameMembers : List (String × Json) → List (String × Json) → Bool
  | [], [] => true
  | (k, a) :: as, (l, b) :: bs => k == l && same a b && sameMembers as bs
  | _, _ => false

end

mutual

/-- How many lists and objects are open at the deepest place of a document. -/
def depth : Json → Nat
  | .array items => depthItems items + 1
  | .object members => depthMembers members + 1
  | _ => 0

/-- The greatest depth of the items. -/
def depthItems : List Json → Nat
  | [] => 0
  | j :: rest => max (depth j) (depthItems rest)

/-- The greatest depth of the members. -/
def depthMembers : List (String × Json) → Nat
  | [] => 0
  | (_, j) :: rest => max (depth j) (depthMembers rest)

end

/-! ## §2. Equality is decidable. -/

mutual

/-- The test tells exactly the same documents. -/
theorem eqb_iff : (a b : Json) → (eqb a b = true ↔ a = b)
  | .null, b => by cases b <;> simp [eqb]
  | .bool a, b => by cases b <;> simp [eqb]
  | .number a, b => by cases b <;> simp [eqb]
  | .string a, b => by cases b <;> simp [eqb]
  | .array a, b => by cases b <;> simp [eqb, eqbItems_iff a]
  | .object a, b => by cases b <;> simp [eqb, eqbMembers_iff a]

/-- The test tells exactly the same items. -/
theorem eqbItems_iff : (a b : List Json) → (eqbItems a b = true ↔ a = b)
  | [], b => by cases b <;> simp [eqbItems]
  | a :: as, b => by cases b <;> simp [eqbItems, eqb_iff a, eqbItems_iff as]

/-- The test tells exactly the same members. -/
theorem eqbMembers_iff : (a b : List (String × Json)) → (eqbMembers a b = true ↔ a = b)
  | [], b => by cases b <;> simp [eqbMembers]
  | (k, a) :: as, [] => by simp [eqbMembers]
  | (k, a) :: as, (l, b) :: bs => by simp [eqbMembers, eqb_iff a, eqbMembers_iff as, and_assoc]

end

instance : DecidableEq Json := fun a b => decidable_of_iff _ (eqb_iff a b)

/-! ## §3. The canonical form. -/

mutual

/-- Whether every object of the document has its names in order, each once. -/
def isCanonical : Json → Bool
  | .array items => areCanonical items
  | .object members => decide (members.Pairwise fun a b => a.1 < b.1) && membersCanonical members
  | _ => true

/-- Whether all items are canonical. -/
def areCanonical : List Json → Bool
  | [] => true
  | j :: rest => isCanonical j && areCanonical rest

/-- Whether the documents of all members are canonical. -/
def membersCanonical : List (String × Json) → Bool
  | [] => true
  | (_, j) :: rest => isCanonical j && membersCanonical rest

end

/-- All members are canonical exactly if each one is. -/
theorem membersCanonical_iff :
    (members : List (String × Json)) →
      (membersCanonical members = true ↔ ∀ e ∈ members, isCanonical e.2 = true)
  | [] => by simp [membersCanonical]
  | (k, j) :: rest => by simp [membersCanonical, membersCanonical_iff rest]

mutual

/-- The canonical form of a document; of members of one name the last one counts. -/
def normalize : Json → Json
  | .array items => .array (normalizeItems items)
  | .object members => .object (KeyMap.ofList (normalizeMembers members)).entries
  | .null => .null
  | .bool b => .bool b
  | .number n => .number n
  | .string s => .string s

/-- The canonical forms of the items. -/
def normalizeItems : List Json → List Json
  | [] => []
  | j :: rest => normalize j :: normalizeItems rest

/-- The members with their documents in canonical form. -/
def normalizeMembers : List (String × Json) → List (String × Json)
  | [] => []
  | (k, j) :: rest => (k, normalize j) :: normalizeMembers rest

end

mutual

/-- The normal form of a document is canonical. -/
theorem isCanonical_normalize : (j : Json) → isCanonical (normalize j) = true
  | .null => rfl
  | .bool _ => rfl
  | .number _ => rfl
  | .string _ => rfl
  | .array items => by simpa [normalize, isCanonical] using areCanonical_normalizeItems items
  | .object members => by
      simp only [normalize, isCanonical, Bool.and_eq_true, decide_eq_true_eq]
      refine ⟨(KeyMap.ofList (normalizeMembers members)).ordered, ?_⟩
      refine (membersCanonical_iff _).2 fun e he => ?_
      exact isCanonical_normalizeMembers members e (KeyMap.mem_entries_ofList he)

/-- The normal forms of items are canonical. -/
theorem areCanonical_normalizeItems : (items : List Json) → areCanonical (normalizeItems items) = true
  | [] => rfl
  | j :: rest => by
      simp [normalizeItems, areCanonical, isCanonical_normalize j, areCanonical_normalizeItems rest]

/-- The normal forms of members are canonical. -/
theorem isCanonical_normalizeMembers :
    (members : List (String × Json)) → ∀ e ∈ normalizeMembers members, isCanonical e.2 = true
  | [], e, he => by simp [normalizeMembers] at he
  | (k, j) :: rest, e, he => by
      rcases List.mem_cons.1 he with rfl | he
      · exact isCanonical_normalize j
      · exact isCanonical_normalizeMembers rest e he

end

end Json

/-! ## §4. Values. -/

/-- A value: a document in canonical form. -/
structure Value where
  /-- The document. -/
  json : Json
  /-- Each name occurs once, in order. -/
  canonical : json.isCanonical = true
  deriving DecidableEq

namespace Value

instance : Inhabited Value := ⟨.null, rfl⟩

/-- The value that a document stands for. -/
def ofJson (j : Json) : Value := ⟨j.normalize, j.isCanonical_normalize⟩

/-- The value of a natural number of at most 64 bits. -/
def ofNat (n : Nat) : Value := ⟨.ofNat n, rfl⟩

/-- The value of a text. -/
def ofString (s : String) : Value := ⟨.string s, rfl⟩

/-- Equality with numbers compared as numbers. -/
def same (a b : Value) : Bool := a.json.same b.json

@[ext] theorem ext {a b : Value} (h : a.json = b.json) : a = b := by
  cases a; cases b; cases h; rfl

end Value

end TokenSpan
