/-
  TokenSpan.Proofs.WireObjects
  ────────────────────────────
  The objects that are tokens.

  A token's object holds its fixed members once each, in any order, and every other member is a
  property.  Three rules meet in it: a fixed member must not be repeated, of repeated properties the
  last one counts, and inside captures a member of any other name is passed over.  The conditions of
  §1 say which documents are read, the relations of §2 what they are read as.

  Main results:
  * `MatchInfo.exists_ofJson?_iff`, `MatchInfo.ofJson?_eq_some_iff` — captures;
  * `Token.exists_ofJson?_iff`, `Token.ofJson?_eq_some_iff` — tokens;
  * `Token.ofJson?_congr` — the order of members with different names does not count;
  * `tokens_are_the_documented_objects` — all of it for the objects of texts.
-/
import TokenSpan.Proofs.Wire

namespace TokenSpan

/-! ## §1. Which documents are read. -/

/-- A name occurs exactly once, with a document of a kind. -/
def Once (name : String) (members : List (String × Json)) (kind : Json → Prop) : Prop :=
  ∃ j, membersNamed name members = [j] ∧ kind j

/-- A name does not occur, or exactly once with a document of a kind. -/
def AtMostOnce (name : String) (members : List (String × Json)) (kind : Json → Prop) : Prop :=
  membersNamed name members = [] ∨ Once name members kind

namespace Json

/-- The document is a text. -/
def IsText (j : Json) : Prop := ∃ s, j = .string s

/-- The document is an integer from 0 up to 2^64 - 1. -/
def IsPosition (j : Json) : Prop := ∃ n : UInt64, j = .number (.natural n)

/-- The document is a list of texts and nulls. -/
def IsGroups : Json → Prop
  | .array items => ∀ j ∈ items, j.IsText ∨ j = .null
  | _ => False

/-- The document is an object of texts. -/
def IsNamed : Json → Prop
  | .object members => ∀ e ∈ members, e.2.IsText
  | _ => False

/-- The document is an object of captures with members of any other names, or a list of their parts. -/
def IsCaptures : Json → Prop
  | .object members =>
      Once "index" members IsPosition ∧ Once "groups" members IsGroups ∧
        AtMostOnce "named" members IsNamed
  | .array [index, groups] => index.IsPosition ∧ groups.IsGroups
  | .array [index, groups, named] => index.IsPosition ∧ groups.IsGroups ∧ named.IsNamed
  | _ => False

theorem exists_asString?_iff {j : Json} : (∃ s, j.asString? = some s) ↔ j.IsText :=
  exists_congr fun _ => asString?_eq_some_iff

theorem exists_asNat?_iff {j : Json} : (∃ n, j.asNat? = some n) ↔ j.IsPosition := by
  constructor
  · intro h
    obtain ⟨n, hn⟩ := h
    exact ⟨UInt64.ofNat n, (asNat?_eq_some_iff.1 hn).2⟩
  · intro h
    obtain ⟨n, rfl⟩ := h
    exact ⟨n.toNat, rfl⟩

theorem exists_readGroups?_iff {j : Json} : (∃ groups, readGroups? j = some groups) ↔ j.IsGroups := by
  simp only [readGroups?_eq_some_iff]
  constructor
  · rintro ⟨groups, rfl⟩ j hj
    obtain ⟨group, -, rfl⟩ := List.mem_map.1 hj
    cases group with
    | none => exact .inr rfl
    | some s => exact .inl ⟨s, rfl⟩
  · intro h
    cases j with
    | array items =>
        -- the groups are put together item by item
        induction items with
        | nil => exact ⟨[], rfl⟩
        | cons j rest ih =>
            obtain ⟨groups, hgroups⟩ := ih fun k hk => h k (List.mem_cons_of_mem _ hk)
            rcases h j List.mem_cons_self with ⟨s, rfl⟩ | rfl
            · refine ⟨some s :: groups, ?_⟩
              rw [Json.array.inj hgroups]
              rfl
            · refine ⟨none :: groups, ?_⟩
              rw [Json.array.inj hgroups]
              rfl
    | null => cases h
    | bool b => cases h
    | number n => cases h
    | string s => cases h
    | object members => cases h

theorem exists_readNamed?_iff {j : Json} : (∃ named, readNamed? j = some named) ↔ j.IsNamed := by
  simp only [readNamed?_eq_some_iff]
  constructor
  · rintro ⟨named, texts, rfl, -⟩ e he
    obtain ⟨d, -, rfl⟩ := List.mem_map.1 he
    exact ⟨d.2, rfl⟩
  · intro h
    cases j with
    | object members =>
        let texts := members.map fun e => (e.1, e.2.asString?.getD "")
        refine ⟨.ofList texts, texts, ?_, KeyMap.get?_ofList texts⟩
        have hsame : ∀ e ∈ members, e = (e.1, Json.string (e.2.asString?.getD "")) := by
          intro e he
          obtain ⟨s, hs⟩ := h e he
          exact Prod.ext rfl (by rw [hs]; rfl)
        unfold textsJson
        rw [List.map_map]
        exact congrArg Json.object ((List.map_id _).symm.trans (List.map_congr_left hsame))
    | null => cases h
    | bool b => cases h
    | number n => cases h
    | string s => cases h
    | array items => cases h

end Json

/-- A member that must occur once is read exactly if it does, with a document that is read. -/
theorem exists_bind_exactlyOne_iff {α : Type} {name : String} {members : List (String × Json)}
    {read : Json → Option α} {kind : Json → Prop} (h : ∀ j, (∃ a, read j = some a) ↔ kind j) :
    (∃ a, (exactlyOne name members).bind read = some a) ↔ Once name members kind := by
  unfold Once
  simp only [bind_exactlyOne_eq_some_iff, ← h]
  constructor
  · rintro ⟨a, j, hj, ha⟩
    exact ⟨j, hj, a, ha⟩
  · rintro ⟨j, hj, a, ha⟩
    exact ⟨a, j, hj, ha⟩

theorem exists_readNamedMembers?_iff {members : List (String × Json)} :
    (∃ named, readNamedMembers? (membersNamed "named" members) = some named) ↔
      AtMostOnce "named" members Json.IsNamed := by
  unfold AtMostOnce Once
  cases membersNamed "named" members with
  | nil => exact ⟨fun _ => .inl rfl, fun _ => ⟨.empty, rfl⟩⟩
  | cons j more =>
      cases more with
      | nil => simpa [readNamedMembers?] using Json.exists_readNamed?_iff
      | cons k more => simp [readNamedMembers?]

namespace MatchInfo

/-- Captures of their parts, if all of them were read. -/
def assemble? (index : Option Nat) (groups : Option (List (Option String)))
    (named : Option (KeyMap String)) : Option MatchInfo :=
  index.bind fun index => groups.bind fun groups => named.map fun named => { index, groups, named }

theorem assemble?_eq_some_iff {index : Option Nat} {groups : Option (List (Option String))}
    {named : Option (KeyMap String)} {m : MatchInfo} :
    assemble? index groups named = some m ↔
      index = some m.index ∧ groups = some m.groups ∧ named = some m.named := by
  unfold assemble?
  constructor
  · intro h
    obtain ⟨i, hindex, h⟩ := Option.bind_eq_some_iff.1 h
    obtain ⟨g, hgroups, h⟩ := Option.bind_eq_some_iff.1 h
    obtain ⟨n, hnamed, rfl⟩ := Option.map_eq_some_iff.1 h
    exact ⟨hindex, hgroups, hnamed⟩
  · rintro ⟨rfl, rfl, rfl⟩
    rfl

theorem exists_assemble?_iff {index : Option Nat} {groups : Option (List (Option String))}
    {named : Option (KeyMap String)} :
    (∃ m, assemble? index groups named = some m) ↔
      (∃ a, index = some a) ∧ (∃ b, groups = some b) ∧ ∃ c, named = some c := by
  simp only [assemble?_eq_some_iff]
  constructor
  · rintro ⟨m, hindex, hgroups, hnamed⟩
    exact ⟨⟨m.index, hindex⟩, ⟨m.groups, hgroups⟩, m.named, hnamed⟩
  · rintro ⟨⟨index, hindex⟩, ⟨groups, hgroups⟩, named, hnamed⟩
    exact ⟨⟨index, groups, named⟩, hindex, hgroups, hnamed⟩

theorem ofJson?_members (members : List (String × Json)) :
    ofJson? (.object members)
      = assemble? ((exactlyOne "index" members).bind Json.asNat?)
          ((exactlyOne "groups" members).bind readGroups?)
          (readNamedMembers? (membersNamed "named" members)) :=
  ofJson?_object members

theorem ofJson?_pair (index groups : Json) :
    ofJson? (.array [index, groups])
      = assemble? index.asNat? (readGroups? groups) (some .empty) := rfl

theorem ofJson?_triple (index groups named : Json) :
    ofJson? (.array [index, groups, named])
      = assemble? index.asNat? (readGroups? groups) (readNamed? named) := by
  show index.asNat?.bind (fun _ => (readGroups? groups).bind fun _ => (readNamed? named).bind _) = _
  unfold assemble?
  congr 1
  funext index
  congr 1
  funext groups
  cases readNamed? named <;> rfl

theorem ofJson?_eq_none {j : Json} (hobject : ∀ members, j ≠ .object members)
    (hpair : ∀ index groups, j ≠ .array [index, groups])
    (htriple : ∀ index groups named, j ≠ .array [index, groups, named]) : ofJson? j = none := by
  unfold ofJson?
  split
  · exact absurd rfl (hobject _)
  · exact absurd rfl (hpair _ _)
  · exact absurd rfl (htriple _ _ _)
  · rfl

/-- Captures are read exactly from the documents of captures. -/
theorem exists_ofJson?_iff (j : Json) : (∃ m, ofJson? j = some m) ↔ j.IsCaptures := by
  unfold Json.IsCaptures
  split
  · rw [ofJson?_members, exists_assemble?_iff,
      exists_bind_exactlyOne_iff fun _ => Json.exists_asNat?_iff,
      exists_bind_exactlyOne_iff fun _ => Json.exists_readGroups?_iff, exists_readNamedMembers?_iff]
  · rw [ofJson?_pair, exists_assemble?_iff, Json.exists_asNat?_iff, Json.exists_readGroups?_iff]
    simp
  · rw [ofJson?_triple, exists_assemble?_iff, Json.exists_asNat?_iff, Json.exists_readGroups?_iff,
      Json.exists_readNamed?_iff]
  · rename_i hobject hpair htriple
    rw [ofJson?_eq_none hobject hpair htriple]
    simp

end MatchInfo

/-- The document of captures, or of none. -/
def Json.IsMatch (j : Json) : Prop := j = .null ∨ j.IsCaptures

theorem readMatchMembers?_singleton {j : Json} (h : j ≠ .null) :
    readMatchMembers? [j] = (MatchInfo.ofJson? j).map some := by
  cases j <;> first | rfl | exact absurd rfl h

theorem exists_readMatchMembers?_iff {members : List (String × Json)} :
    (∃ matched, readMatchMembers? (membersNamed "match" members) = some matched) ↔
      AtMostOnce "match" members Json.IsMatch := by
  have hread : ∀ j : Json, (∃ matched, readMatchMembers? [j] = some matched) ↔ j.IsMatch := by
    intro j
    by_cases hnull : j = .null
    · rw [hnull]
      exact ⟨fun _ => .inl rfl, fun _ => ⟨none, rfl⟩⟩
    · rw [readMatchMembers?_singleton hnull, Json.IsMatch, or_iff_right hnull,
        ← MatchInfo.exists_ofJson?_iff]
      cases MatchInfo.ofJson? j <;> simp
  unfold AtMostOnce Once
  cases membersNamed "match" members with
  | nil => exact ⟨fun _ => .inl rfl, fun _ => ⟨none, rfl⟩⟩
  | cons j more =>
      cases more with
      | nil => simpa using hread j
      | cons k more => simp [readMatchMembers?]

namespace Token

/-- The members are those of a token: three fixed ones, and captures or none. -/
structure Documented (members : List (String × Json)) : Prop where
  value : Once "value" members Json.IsText
  index : Once "index" members Json.IsPosition
  offset : Once "offset" members Json.IsPosition
  matched : AtMostOnce "match" members Json.IsMatch

/-- No property is nested deeper than the reader goes. -/
def Shallow (members : List (String × Json)) : Prop :=
  ∀ e ∈ propertyMembers members, e.2.depth ≤ maxPropertyDepth

/-- A token is read exactly if its parts are, and then it is made of them. -/
theorem ofJson?_object_eq_some_iff {members : List (String × Json)} {t : Token} :
    ofJson? (.object members) = some t ↔
      (exactlyOne "value" members).bind Json.asString? = some t.value ∧
        (exactlyOne "index" members).bind Json.asNat? = some t.index ∧
        (exactlyOne "offset" members).bind Json.asNat? = some t.offset ∧
        readMatchMembers? (membersNamed "match" members) = some t.matched ∧
        Shallow members ∧
        t.properties = .ofList ((propertyMembers members).map fun e => (e.1, Value.ofJson e.2)) := by
  have hshallow : ((propertyMembers members).all fun e => decide (e.2.depth ≤ maxPropertyDepth)) = true ↔
      Shallow members := by
    simp [Shallow]
  rw [ofJson?_object]
  constructor
  · intro h
    obtain ⟨value, hvalue, h⟩ := Option.bind_eq_some_iff.1 h
    obtain ⟨index, hindex, h⟩ := Option.bind_eq_some_iff.1 h
    obtain ⟨offset, hoffset, h⟩ := Option.bind_eq_some_iff.1 h
    obtain ⟨matched, hmatched, h⟩ := Option.bind_eq_some_iff.1 h
    obtain ⟨hdepth, h⟩ := Option.ite_none_right_eq_some.1 h
    cases h
    exact ⟨hvalue, hindex, hoffset, hmatched, hshallow.1 hdepth, rfl⟩
  · rintro ⟨hvalue, hindex, hoffset, hmatched, hdepth, hproperties⟩
    rw [hvalue, hindex, hoffset, hmatched]
    simp only [Option.bind_some, if_pos (hshallow.2 hdepth), ← hproperties]

/-- Tokens are read exactly from the documented objects that are not nested too deep. -/
theorem exists_ofJson?_iff {members : List (String × Json)} :
    (∃ t, ofJson? (.object members) = some t) ↔ Documented members ∧ Shallow members := by
  simp only [ofJson?_object_eq_some_iff]
  constructor
  · rintro ⟨t, hvalue, hindex, hoffset, hmatched, hdepth, -⟩
    refine ⟨⟨?_, ?_, ?_, ?_⟩, hdepth⟩
    · exact (exists_bind_exactlyOne_iff fun _ => Json.exists_asString?_iff).1 ⟨_, hvalue⟩
    · exact (exists_bind_exactlyOne_iff fun _ => Json.exists_asNat?_iff).1 ⟨_, hindex⟩
    · exact (exists_bind_exactlyOne_iff fun _ => Json.exists_asNat?_iff).1 ⟨_, hoffset⟩
    · exact exists_readMatchMembers?_iff.1 ⟨_, hmatched⟩
  · rintro ⟨hdocumented, hdepth⟩
    obtain ⟨value, hvalue⟩ :=
      (exists_bind_exactlyOne_iff fun _ => Json.exists_asString?_iff).2 hdocumented.value
    obtain ⟨index, hindex⟩ :=
      (exists_bind_exactlyOne_iff fun _ => Json.exists_asNat?_iff).2 hdocumented.index
    obtain ⟨offset, hoffset⟩ :=
      (exists_bind_exactlyOne_iff fun _ => Json.exists_asNat?_iff).2 hdocumented.offset
    obtain ⟨matched, hmatched⟩ := exists_readMatchMembers?_iff.2 hdocumented.matched
    let properties := KeyMap.ofList ((propertyMembers members).map fun e => (e.1, Value.ofJson e.2))
    exact ⟨{ value, index, offset, properties, matched }, hvalue, hindex, hoffset, hmatched, hdepth, rfl⟩

end Token

/-! ## §2. What they are read as. -/

theorem bind_exactlyOne_asString?_eq_some_iff {name : String} {members : List (String × Json)}
    {s : String} :
    (exactlyOne name members).bind Json.asString? = some s ↔
      membersNamed name members = [.string s] := by
  rw [bind_exactlyOne_eq_some_iff]
  simp only [Json.asString?_eq_some_iff, exists_eq_right]

theorem bind_exactlyOne_asNat?_eq_some_iff {name : String} {members : List (String × Json)} {n : Nat} :
    (exactlyOne name members).bind Json.asNat? = some n ↔
      membersNamed name members = [.ofNat n] ∧ n < positionBound := by
  rw [bind_exactlyOne_eq_some_iff]
  simp only [Json.asNat?_eq_some_iff]
  constructor
  · rintro ⟨j, hj, hlt, rfl⟩
    exact ⟨hj, hlt⟩
  · rintro ⟨hj, hlt⟩
    exact ⟨_, hj, hlt, rfl⟩

theorem bind_exactlyOne_readGroups?_eq_some_iff {name : String} {members : List (String × Json)}
    {groups : List (Option String)} :
    (exactlyOne name members).bind readGroups? = some groups ↔
      membersNamed name members = [groupsJson groups] := by
  rw [bind_exactlyOne_eq_some_iff]
  simp only [readGroups?_eq_some_iff, exists_eq_right]

/-- Named groups from the documents of their name: none if there is no document. -/
def NamedFrom (docs : List Json) (named : KeyMap String) : Prop :=
  (docs = [] ∧ named = .empty) ∨
    ∃ texts, docs = [textsJson texts] ∧ ∀ key, named.get? key = KeyMap.last? key texts

theorem readNamedMembers?_eq_some_iff {docs : List Json} {named : KeyMap String} :
    readNamedMembers? docs = some named ↔ NamedFrom docs named := by
  unfold NamedFrom
  cases docs with
  | nil => simp [readNamedMembers?, eq_comm]
  | cons j more =>
      cases more with
      | nil =>
          show readNamed? j = some named ↔ _
          rw [readNamed?_eq_some_iff]
          simp
      | cons k more => simp [readNamedMembers?]

/-- The captures have the parts of a document: their object, or the list of two or three of them. -/
def MatchInfo.ReadFrom (m : MatchInfo) : Json → Prop
  | .object members =>
      (membersNamed "index" members = [.ofNat m.index] ∧ m.index < positionBound) ∧
        membersNamed "groups" members = [groupsJson m.groups] ∧
        NamedFrom (membersNamed "named" members) m.named
  | .array [index, groups] =>
      (m.index < positionBound ∧ index = .ofNat m.index) ∧ groups = groupsJson m.groups ∧
        m.named = .empty
  | .array [index, groups, named] =>
      (m.index < positionBound ∧ index = .ofNat m.index) ∧ groups = groupsJson m.groups ∧
        NamedFrom [named] m.named
  | _ => False

theorem MatchInfo.ofJson?_eq_some_iff {j : Json} {m : MatchInfo} :
    ofJson? j = some m ↔ m.ReadFrom j := by
  unfold MatchInfo.ReadFrom
  split
  · rw [ofJson?_members, assemble?_eq_some_iff, bind_exactlyOne_asNat?_eq_some_iff,
      bind_exactlyOne_readGroups?_eq_some_iff, readNamedMembers?_eq_some_iff]
  · rw [ofJson?_pair, assemble?_eq_some_iff, Json.asNat?_eq_some_iff, readGroups?_eq_some_iff,
      Option.some.injEq, eq_comm (a := KeyMap.empty)]
  · rename_i index groups named
    rw [ofJson?_triple, assemble?_eq_some_iff, Json.asNat?_eq_some_iff, readGroups?_eq_some_iff,
      ← readNamedMembers?_eq_some_iff]
    rfl
  · rename_i hobject hpair htriple
    rw [ofJson?_eq_none hobject hpair htriple]
    simp

/-- What was captured from the documents of its name: nothing without a document or from a null. -/
def MatchFrom (docs : List Json) (matched : Option MatchInfo) : Prop :=
  ((docs = [] ∨ docs = [.null]) ∧ matched = none) ∨ ∃ j m, docs = [j] ∧ matched = some m ∧ m.ReadFrom j

theorem readMatchMembers?_eq_some_iff {docs : List Json} {matched : Option MatchInfo} :
    readMatchMembers? docs = some matched ↔ MatchFrom docs matched := by
  unfold MatchFrom
  simp only [← MatchInfo.ofJson?_eq_some_iff]
  cases docs with
  | nil => simp [readMatchMembers?, eq_comm]
  | cons j more =>
      cases more with
      | nil =>
          by_cases hnull : j = .null
          · rw [hnull]
            constructor
            · intro h
              exact .inl ⟨.inr rfl, (Option.some.inj h).symm⟩
            · rintro (⟨-, rfl⟩ | ⟨_, m, hdoc, -, hread⟩)
              · rfl
              · cases hdoc
                cases hread
          · rw [readMatchMembers?_singleton hnull, Option.map_eq_some_iff]
            constructor
            · rintro ⟨m, hread, rfl⟩
              exact .inr ⟨j, m, rfl, rfl, hread⟩
            · rintro (⟨hdoc | hdoc, -⟩ | ⟨_, m, hdoc, rfl, hread⟩)
              · cases hdoc
              · exact absurd (List.head_eq_of_cons_eq hdoc) hnull
              · cases hdoc
                exact ⟨m, hread, rfl⟩
      | cons k more => simp [readMatchMembers?]

/-- What a name of a property has last is what the whole object has; a fixed name is no property. -/
theorem last?_propertyMembers (key : String) (members : List (String × Json)) :
    KeyMap.last? key (propertyMembers members)
      = if key ∈ reservedNames then none else KeyMap.last? key members := by
  unfold KeyMap.last? propertyMembers
  rw [List.filter_filter]
  by_cases hkey : key ∈ reservedNames
  · have hnone : members.filter (fun e => e.1 == key && !reservedNames.contains e.1) = [] := by
      rw [List.filter_eq_nil_iff]
      intro e _ he
      simp only [Bool.and_eq_true, beq_iff_eq, Bool.not_eq_true', List.contains_eq_mem,
        decide_eq_false_iff_not] at he
      exact he.2 (he.1 ▸ hkey)
    rw [if_pos hkey, hnone]
    rfl
  · have hsame : ∀ e ∈ members,
        (e.1 == key && !reservedNames.contains e.1) = (e.1 == key) := by
      intro e _
      by_cases he : e.1 = key
      · simp [he, hkey]
      · simp [he]
    rw [if_neg hkey, List.filter_congr hsame]

/-- The properties that are made of the members hold the last document of each name that is not fixed. -/
theorem get?_ofList_propertyMembers (members : List (String × Json)) (key : String) :
    (KeyMap.ofList ((propertyMembers members).map fun e => (e.1, Value.ofJson e.2))).get? key
      = if key ∈ reservedNames then none else (KeyMap.last? key members).map Value.ofJson := by
  rw [KeyMap.get?_ofList, KeyMap.last?_map, last?_propertyMembers]
  split <;> rfl

namespace Token

/--
The token has the fixed members of an object, and every other member as a property, with the last document
of its name.
-/
structure ReadFrom (t : Token) (members : List (String × Json)) : Prop where
  value : membersNamed "value" members = [.string t.value]
  index : membersNamed "index" members = [.ofNat t.index] ∧ t.index < positionBound
  offset : membersNamed "offset" members = [.ofNat t.offset] ∧ t.offset < positionBound
  matched : MatchFrom (membersNamed "match" members) t.matched
  properties : ∀ key, t.property key =
    if key ∈ reservedNames then none else (KeyMap.last? key members).map Value.ofJson

theorem ofJson?_eq_some_iff {members : List (String × Json)} {t : Token} :
    ofJson? (.object members) = some t ↔ t.ReadFrom members ∧ Shallow members := by
  have hproperties :
      t.properties = .ofList ((propertyMembers members).map fun e => (e.1, Value.ofJson e.2)) ↔
        ∀ key, t.property key =
          if key ∈ reservedNames then none else (KeyMap.last? key members).map Value.ofJson := by
    constructor
    · intro h key
      show t.properties.get? key = _
      rw [h, get?_ofList_propertyMembers]
    · intro h
      refine KeyMap.ext_get? fun key => ?_
      rw [get?_ofList_propertyMembers]
      exact h key
  rw [ofJson?_object_eq_some_iff, bind_exactlyOne_asString?_eq_some_iff,
    bind_exactlyOne_asNat?_eq_some_iff, bind_exactlyOne_asNat?_eq_some_iff,
    readMatchMembers?_eq_some_iff, hproperties]
  constructor
  · rintro ⟨hvalue, hindex, hoffset, hmatched, hdepth, hall⟩
    exact ⟨⟨hvalue, hindex, hoffset, hmatched, hall⟩, hdepth⟩
  · rintro ⟨hread, hdepth⟩
    exact ⟨hread.value, hread.index, hread.offset, hread.matched, hdepth, hread.properties⟩

end Token

/-! ## §3. The order of the members. -/

/-- The objects have the same members up to an order that keeps those of one name as they stand. -/
def SameByName (members others : List (String × Json)) : Prop :=
  ∀ name, membersNamed name others = membersNamed name members

namespace SameByName

variable {members others : List (String × Json)}

theorem mem_iff (h : SameByName members others) (e : String × Json) : e ∈ others ↔ e ∈ members := by
  have hmem : ∀ l : List (String × Json), e ∈ l ↔ e.2 ∈ membersNamed e.1 l := by
    intro l
    unfold membersNamed
    simp
  rw [hmem, hmem, h]

theorem shallow_iff (h : SameByName members others) :
    Token.Shallow others ↔ Token.Shallow members := by
  unfold Token.Shallow propertyMembers
  simp only [List.mem_filter, h.mem_iff]

theorem symm (h : SameByName members others) : SameByName others members :=
  fun name => (h name).symm

/-- Two members with different names may change places. -/
theorem swap {a b : String × Json} (h : a.1 ≠ b.1) (rest : List (String × Json)) :
    SameByName (a :: b :: rest) (b :: a :: rest) := by
  intro name
  unfold membersNamed
  by_cases ha : a.1 = name
  · have hb : b.1 ≠ name := fun hb => h (ha.trans hb.symm)
    simp [ha, hb]
  · simp [List.filter_cons, ha]

theorem readFrom (h : SameByName members others) {t : Token} (hread : t.ReadFrom members) :
    t.ReadFrom others := by
  refine ⟨?_, ?_, ?_, ?_, fun key => ?_⟩
  · rw [h]
    exact hread.value
  · rw [h]
    exact hread.index
  · rw [h]
    exact hread.offset
  · rw [h]
    exact hread.matched
  · have hlast : KeyMap.last? key others = KeyMap.last? key members := congrArg List.getLast? (h key)
    rw [hlast]
    exact hread.properties key

end SameByName

/-- The order of members with different names does not count. -/
theorem Token.ofJson?_congr {members others : List (String × Json)} (h : SameByName members others) :
    ofJson? (.object others) = ofJson? (.object members) := by
  refine Option.ext fun t => ?_
  rw [ofJson?_eq_some_iff, ofJson?_eq_some_iff, h.shallow_iff]
  exact and_congr_left fun _ => ⟨h.symm.readFrom, h.readFrom⟩

/--
An object is read as a token exactly if it is a documented one that is not nested too deep.  The token
then has its fixed members and, of every other name, the last document.  The order of members with
different names does not count, and texts are read as the objects they hold.
-/
theorem tokens_are_the_documented_objects (members : List (String × Json)) :
    ((∃ t, Token.ofJson? (.object members) = some t) ↔
      Token.Documented members ∧ Token.Shallow members) ∧
    (∀ t, Token.ofJson? (.object members) = some t ↔ t.ReadFrom members ∧ Token.Shallow members) ∧
    (∀ others, SameByName members others →
      Token.ofJson? (.object others) = Token.ofJson? (.object members)) ∧
    ∀ text, Json.parse? text = some (.object members) →
      Token.ofWireText? text = Token.ofJson? (.object members) := by
  exact ⟨Token.exists_ofJson?_iff, fun t => Token.ofJson?_eq_some_iff,
    fun others h => Token.ofJson?_congr h, fun text h => Token.ofWireText?_of_parse? h⟩

/-- A text with a repeated property and listed captures, its first two members exchanged; and a repeated position. -/
theorem repeated_members_of_objects :
    (let text := "\x7b\"k\":1,\"offset\":1,\"match\":[0,[\"a\",null]],\"index\":7,\"k\":[],\"value\":\"a\"\x7d"
      let captured := Json.array [.ofNat 0, .array [.string "a", .null]]
      let rest := [("match", captured), ("index", .ofNat 7), ("k", .array []), ("value", .string "a")]
      let members := ("k", Json.ofNat 1) :: ("offset", .ofNat 1) :: rest
      let others := ("offset", Json.ofNat 1) :: ("k", .ofNat 1) :: rest
      let t :=
        { Token.ofText "a" 7 with
          properties := .ofList [("k", .ofJson (.array []))]
          matched := some { index := 0, groups := [some "a", none], named := .empty } };
      Json.parse? text = some (.object members) ∧ Token.ofJson? (.object members) = some t ∧
        SameByName members others ∧ t.ReadFrom members ∧
        Token.Documented members ∧ Token.Shallow members ∧
        Token.ofJson? (.object others) = Token.ofJson? (.object members) ∧
        Token.ofWireText? text = Token.ofJson? (.object members)) ∧
    (let members := [("value", Json.string "a"), ("index", .ofNat 0), ("offset", .ofNat 1), ("index", .ofNat 0)];
      ¬ (Token.Documented members ∧ Token.Shallow members)) := by
  constructor
  · intro text captured rest members others t
    have hparse : Json.parse? text = some (.object members) := by decide +kernel
    have hread : Token.ofJson? (.object members) = some t := by decide +kernel
    have hsame : SameByName members others := SameByName.swap (by decide) rest
    obtain ⟨haccepted, hfrom, hordered, htext⟩ := tokens_are_the_documented_objects members
    obtain ⟨hdocumented, hdepth⟩ := haccepted.1 ⟨t, hread⟩
    exact ⟨hparse, hread, hsame, ((hfrom t).1 hread).1, hdocumented, hdepth, hordered others hsame,
      htext text hparse⟩
  · intro members hdocumented
    obtain ⟨t, ht⟩ := (tokens_are_the_documented_objects members).1.2 hdocumented
    have hnone : Token.ofJson? (.object members) = none := by decide +kernel
    rw [hnone] at ht
    cases ht

end TokenSpan
