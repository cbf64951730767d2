/-
  TokenSpan.Proofs.Wire
  ─────────────────────
  Which tokens survive being written as text and read back.

  Properties stand beside the fixed members of a token's object under their own names.  A
  property named like a fixed member collides with it, and the reader never makes such a
  property.  Nothing else is lost: all texts, positions of 64 bits, captures with groups that
  took no part, and nested values come back.

  Main results:
  * `Value.ofJson_json` — values are rebuilt from their documents;
  * `MatchInfo.ofJson?_toJson`, `Token.ofJson?_toJson` — so are captures and tokens;
  * `Token.unreserved_of_ofJson?` — no token that was read has a property of a reserved name;
  * `Token.ofJson?_trim` — what is not wanted of a token's document does not matter;
  * `wire_round_trip` — the texts of tokens.
-/
import TokenSpan.Fault
import TokenSpan.Proofs.JsonText
import TokenSpan.Proofs.KeyMaps
import TokenSpan.Proofs.WantedParts
import TokenSpan.Token.Wire

namespace TokenSpan

/-! ## §1. Values. -/

namespace Json

mutual

/-- A canonical document is its own normal form. -/
theorem normalize_eq_self : (j : Json) → j.isCanonical = true → j.normalize = j
  | .null, _ => rfl
  | .bool _, _ => rfl
  | .number _, _ => rfl
  | .string _, _ => rfl
  | .array items, h => by
      have hitems : areCanonical items = true := by simpa [isCanonical] using h
      unfold normalize
      rw [normalizeItems_eq_self items hitems]
  | .object members, h => by
      simp only [isCanonical, Bool.and_eq_true, decide_eq_true_eq] at h
      unfold normalize
      rw [normalizeMembers_eq_self members h.2, KeyMap.entries_ofList h.1]

theorem normalizeItems_eq_self : (items : List Json) → areCanonical items = true →
    normalizeItems items = items
  | [], _ => rfl
  | j :: rest, h => by
      simp only [areCanonical, Bool.and_eq_true] at h
      unfold normalizeItems
      rw [normalize_eq_self j h.1, normalizeItems_eq_self rest h.2]

theorem normalizeMembers_eq_self : (members : List (String × Json)) →
    membersCanonical members = true → normalizeMembers members = members
  | [], _ => rfl
  | (k, j) :: rest, h => by
      simp only [membersCanonical, Bool.and_eq_true] at h
      unfold normalizeMembers
      rw [normalize_eq_self j h.1, normalizeMembers_eq_self rest h.2]

end

end Json

theorem Value.ofJson_json (v : Value) : Value.ofJson v.json = v :=
  Value.ext (Json.normalize_eq_self v.json v.canonical)

theorem Json.asNat?_ofNat {n : Nat} (h : n < positionBound) : (Json.ofNat n).asNat? = some n := by
  show some (UInt64.ofNat n).toNat = some n
  rw [UInt64.toNat_ofNat']
  exact congrArg some (Nat.mod_eq_of_lt h)

/-- A number that is read has 64 bits. -/
theorem Json.asNat?_lt {j : Json} {n : Nat} (h : j.asNat? = some n) : n < positionBound := by
  unfold Json.asNat? at h
  split at h
  · rename_i m
    rw [← Option.some.inj h]
    exact m.toNat_lt
  · cases h

theorem Json.asString?_eq_some_iff {j : Json} {s : String} : j.asString? = some s ↔ j = .string s := by
  cases j <;> simp [asString?]

theorem Json.asNat?_eq_some_iff {j : Json} {n : Nat} :
    j.asNat? = some n ↔ n < positionBound ∧ j = .ofNat n := by
  constructor
  · intro h
    refine ⟨asNat?_lt h, ?_⟩
    unfold asNat? at h
    split at h
    · rename_i m
      rw [← Option.some.inj h]
      show _ = Json.number (.natural (UInt64.ofNat m.toNat))
      rw [UInt64.ofNat_toNat]
    · cases h
  · intro h
    rw [h.2]
    exact asNat?_ofNat h.1

/-! ## §2. Members by their names. -/

theorem membersNamed_append (name : String) (a b : List (String × Json)) :
    membersNamed name (a ++ b) = membersNamed name a ++ membersNamed name b := by
  unfold membersNamed
  rw [List.filter_append, List.map_append]

theorem membersNamed_eq_nil {name : String} {members : List (String × Json)}
    (h : ∀ e ∈ members, e.1 ≠ name) : membersNamed name members = [] := by
  unfold membersNamed
  rw [List.map_eq_nil_iff, List.filter_eq_nil_iff]
  intro e he
  simpa using h e he

theorem exactlyOne_eq_some {name : String} {members : List (String × Json)} {j : Json}
    (h : membersNamed name members = [j]) : exactlyOne name members = some j := by
  unfold exactlyOne
  rw [h]

/-- A name that must occur once does, and its document is read. -/
theorem bind_exactlyOne_eq_some_iff {α : Type} {name : String} {members : List (String × Json)}
    {read : Json → Option α} {a : α} :
    (exactlyOne name members).bind read = some a ↔
      ∃ j, membersNamed name members = [j] ∧ read j = some a := by
  unfold exactlyOne
  split
  · rename_i j heq
    simp [heq]
  · rename_i hne
    constructor
    · intro h
      cases h
    · rintro ⟨j, hj, -⟩
      exact absurd hj (hne j)

/-! ## §3. Captures. -/

/-- The document of groups. -/
def groupsJson (groups : List (Option String)) : Json :=
  .array (groups.map fun
    | some s => .string s
    | none => .null)

/-- The document of named groups. -/
def namedJson (named : KeyMap String) : Json :=
  .object (named.entries.map fun e => (e.1, .string e.2))

/-- Reading each item is undone by writing each, if reading one is. -/
theorem mapM_eq_some_iff {α β : Type} {read : α → Option β} {write : β → α}
    (h : ∀ a b, read a = some b ↔ a = write b) {l : List α} {out : List β} :
    l.mapM read = some out ↔ l = out.map write := by
  induction l generalizing out with
  | nil => cases out <;> simp
  | cons a rest ih =>
      rw [List.mapM_cons]
      show (read a).bind (fun b => (rest.mapM read).bind fun more => some (b :: more)) = some out ↔ _
      constructor
      · intro hread
        obtain ⟨b, hb, hread⟩ := Option.bind_eq_some_iff.1 hread
        obtain ⟨more, hmore, hout⟩ := Option.bind_eq_some_iff.1 hread
        rw [← Option.some.inj hout, List.map_cons, ← (h a b).1 hb, ← ih.1 hmore]
      · intro hwritten
        cases out with
        | nil => cases hwritten
        | cons b more =>
            obtain ⟨ha, hrest⟩ := List.cons.inj hwritten
            rw [(h a b).2 ha, ih.2 hrest]
            rfl

theorem readGroups?_eq_some_iff {j : Json} {groups : List (Option String)} :
    readGroups? j = some groups ↔ j = groupsJson groups := by
  unfold groupsJson
  cases j with
  | array items =>
      rw [Json.array.injEq]
      refine mapM_eq_some_iff fun j group => ?_
      cases j <;> cases group <;> simp
  | null => simp [readGroups?]
  | bool b => simp [readGroups?]
  | number n => simp [readGroups?]
  | string s => simp [readGroups?]
  | object members => simp [readGroups?]

theorem readGroups?_groupsJson (groups : List (Option String)) :
    readGroups? (groupsJson groups) = some groups :=
  readGroups?_eq_some_iff.2 rfl

/-- The object of texts under names that may repeat. -/
def textsJson (texts : List (String × String)) : Json :=
  .object (texts.map fun e => (e.1, .string e.2))

theorem readNamed?_eq_some_iff {j : Json} {named : KeyMap String} :
    readNamed? j = some named ↔
      ∃ texts, j = textsJson texts ∧ ∀ key, named.get? key = KeyMap.last? key texts := by
  have hread : ∀ (e : String × Json) (d : String × String),
      (e.2.asString?.map fun s => (e.1, s)) = some d ↔ e = (d.1, .string d.2) := by
    intro e d
    rw [Option.map_eq_some_iff]
    constructor
    · rintro ⟨s, hs, rfl⟩
      exact Prod.ext rfl (Json.asString?_eq_some_iff.1 hs)
    · rintro rfl
      exact ⟨d.2, rfl, rfl⟩
  have hnamed : ∀ texts, KeyMap.ofList texts = named ↔
      ∀ key, named.get? key = KeyMap.last? key texts := by
    intro texts
    constructor
    · rintro rfl key
      exact KeyMap.get?_ofList texts key
    · intro h
      refine KeyMap.ext_get? fun key => ?_
      rw [KeyMap.get?_ofList, h]
  unfold textsJson
  cases j with
  | object members =>
      show Option.map KeyMap.ofList _ = some named ↔ _
      rw [Option.map_eq_some_iff]
      refine exists_congr fun texts => ?_
      rw [mapM_eq_some_iff hread, hnamed, Json.object.injEq]
  | null => simp [readNamed?]
  | bool b => simp [readNamed?]
  | number n => simp [readNamed?]
  | string s => simp [readNamed?]
  | array items => simp [readNamed?]

theorem readNamed?_namedJson (named : KeyMap String) :
    readNamed? (namedJson named) = some named := by
  refine readNamed?_eq_some_iff.2 ⟨named.entries, rfl, fun key => ?_⟩
  rw [← KeyMap.get?_ofList, KeyMap.ofList_entries]

/-- The named groups of a match, from the members of that name. -/
def readNamedMembers? : List Json → Option (KeyMap String)
  | [] => some .empty
  | [j] => readNamed? j
  | _ => none

namespace MatchInfo

theorem ofJson?_object (members : List (String × Json)) :
    ofJson? (.object members)
      = ((exactlyOne "index" members).bind Json.asNat?).bind fun index =>
          ((exactlyOne "groups" members).bind readGroups?).bind fun groups =>
            (readNamedMembers? (membersNamed "named" members)).map fun named =>
              { index, groups, named } := by
  unfold ofJson?
  simp only [Option.bind_eq_bind, Option.bind_assoc]
  iterate 4
    congr 1
    funext _
  -- the three ways to give named groups go on in the same way
  cases membersNamed "named" members with
  | nil => rfl
  | cons j more =>
      cases more with
      | nil => show (readNamed? j).bind _ = (readNamed? j).map _; cases readNamed? j <;> rfl
      | cons k more => rfl

theorem toJson_eq (m : MatchInfo) :
    m.toJson = .object ([("index", .ofNat m.index), ("groups", groupsJson m.groups)] ++
      if m.named.entries.isEmpty then [] else [("named", namedJson m.named)]) := by
  unfold toJson
  simp only [List.isEmpty_map]
  rfl

/-- Captures are read back from their object. -/
theorem ofJson?_toJson {m : MatchInfo} (h : m.index < positionBound) :
    ofJson? m.toJson = some m := by
  rw [toJson_eq, ofJson?_object]
  by_cases hempty : m.named.entries = []
  · have hnamed : m.named = .empty := KeyMap.ext hempty
    simp only [hempty, List.isEmpty_nil, if_true, List.append_nil]
    show ((Json.ofNat m.index).asNat?).bind _ = _
    rw [Json.asNat?_ofNat h]
    show (readGroups? (groupsJson m.groups)).bind _ = _
    rw [readGroups?_groupsJson]
    show some (MatchInfo.mk m.index m.groups .empty) = _
    rw [← hnamed]
  · simp only [List.isEmpty_iff, hempty, if_false]
    show ((Json.ofNat m.index).asNat?).bind _ = _
    rw [Json.asNat?_ofNat h]
    show (readGroups? (groupsJson m.groups)).bind _ = _
    rw [readGroups?_groupsJson]
    show (readNamed? (namedJson m.named)).map _ = _
    rw [readNamed?_namedJson]
    rfl

/-- Where a match was found fits 64 bits if it was read. -/
theorem index_lt_of_ofJson? {j : Json} {m : MatchInfo} (h : ofJson? j = some m) :
    m.index < positionBound := by
  cases j with
  | object members =>
      rw [ofJson?_object] at h
      obtain ⟨index, hindex, h⟩ := Option.bind_eq_some_iff.1 h
      obtain ⟨groups, -, h⟩ := Option.bind_eq_some_iff.1 h
      obtain ⟨named, -, rfl⟩ := Option.map_eq_some_iff.1 h
      obtain ⟨k, -, hk⟩ := Option.bind_eq_some_iff.1 hindex
      exact Json.asNat?_lt hk
  | array items =>
      unfold ofJson? at h
      split at h
      · rename_i heq
        cases heq
      · obtain ⟨index, hindex, h⟩ := Option.bind_eq_some_iff.1 h
        obtain ⟨groups, -, h⟩ := Option.bind_eq_some_iff.1 h
        cases h
        exact Json.asNat?_lt hindex
      · obtain ⟨index, hindex, h⟩ := Option.bind_eq_some_iff.1 h
        obtain ⟨groups, -, h⟩ := Option.bind_eq_some_iff.1 h
        obtain ⟨named, -, h⟩ := Option.bind_eq_some_iff.1 h
        cases h
        exact Json.asNat?_lt hindex
      · cases h
  | null => cases h
  | bool b => cases h
  | number n => cases h
  | string s => cases h

end MatchInfo

theorem isIntegral_groupsJson (groups : List (Option String)) :
    (groupsJson groups).isIntegral = true := by
  show Json.areIntegral (groups.map _) = true
  induction groups with
  | nil => rfl
  | cons g rest ih =>
      rw [List.map_cons]
      refine Json.areIntegral_cons.2 ⟨?_, ih⟩
      cases g <;> rfl

theorem isIntegral_namedJson (named : KeyMap String) : (namedJson named).isIntegral = true := by
  show Json.membersIntegral (named.entries.map _) = true
  refine (Json.membersIntegral_iff _).2 fun e he => ?_
  obtain ⟨d, -, rfl⟩ := List.mem_map.1 he
  rfl

/-- Captures hold no number but a position. -/
theorem MatchInfo.isIntegral_toJson (m : MatchInfo) : m.toJson.isIntegral = true := by
  rw [toJson_eq]
  show Json.membersIntegral _ = true
  refine (Json.membersIntegral_iff _).2 fun e he => ?_
  rcases List.mem_append.1 he with he | he
  · simp only [List.mem_cons, List.not_mem_nil, or_false] at he
    rcases he with rfl | rfl
    · rfl
    · exact isIntegral_groupsJson m.groups
  · split at he
    · cases he
    · rw [List.mem_singleton.1 he]
      exact isIntegral_namedJson m.named

/-! ## §4. Tokens. -/

/-- What was captured, from the members of that name. -/
def readMatchMembers? : List Json → Option (Option MatchInfo)
  | [] | [.null] => some none
  | [j] => (MatchInfo.ofJson? j).map some
  | _ => none

/-- The members that are properties. -/
def propertyMembers (members : List (String × Json)) : List (String × Json) :=
  members.filter fun e => !reservedNames.contains e.1

namespace Token

/-- No property has the name of a fixed member. -/
def Unreserved (t : Token) : Prop := ∀ e ∈ t.properties.entries, e.1 ∉ reservedNames

/-- The positions of a token fit 64 bits. -/
structure PositionsFit (t : Token) : Prop where
  index : t.index < positionBound
  offset : t.offset < positionBound
  matched : ∀ m ∈ t.matched, m.index < positionBound

theorem ofJson?_object (members : List (String × Json)) :
    ofJson? (.object members)
      = ((exactlyOne "value" members).bind Json.asString?).bind fun value =>
          ((exactlyOne "index" members).bind Json.asNat?).bind fun index =>
            ((exactlyOne "offset" members).bind Json.asNat?).bind fun offset =>
              (readMatchMembers? (membersNamed "match" members)).bind fun matched =>
                if (propertyMembers members).all fun e => decide (e.2.depth ≤ maxPropertyDepth) then
                  some
                    { value, index, offset, matched
                      properties := .ofList
                        ((propertyMembers members).map fun e => (e.1, Value.ofJson e.2)) }
                else none := by
  unfold ofJson?
  simp only [Option.bind_eq_bind, Option.bind_assoc]
  iterate 6
    congr 1
    funext _
  -- the ways to give captures go on in the same way
  cases membersNamed "match" members with
  | nil => rfl
  | cons j more => cases more <;> cases j <;> rfl

/-- A token that was read has no property of a reserved name, and its positions fit. -/
theorem unreserved_of_ofJson? {j : Json} {t : Token} (h : ofJson? j = some t) :
    t.Unreserved ∧ t.PositionsFit := by
  cases j with
  | object members =>
      rw [ofJson?_object] at h
      obtain ⟨value, -, h⟩ := Option.bind_eq_some_iff.1 h
      obtain ⟨index, hindex, h⟩ := Option.bind_eq_some_iff.1 h
      obtain ⟨offset, hoffset, h⟩ := Option.bind_eq_some_iff.1 h
      obtain ⟨matched, hmatched, h⟩ := Option.bind_eq_some_iff.1 h
      obtain ⟨-, h⟩ := Option.ite_none_right_eq_some.1 h
      cases h
      refine ⟨?_, ?_, ?_, ?_⟩
      · intro e he
        -- an entry of the map was a member that is no fixed one
        obtain ⟨d, hd, rfl⟩ := List.mem_map.1 (KeyMap.mem_entries_ofList he)
        have hname := (List.mem_filter.1 hd).2
        simpa using hname
      · obtain ⟨k, -, hk⟩ := Option.bind_eq_some_iff.1 hindex
        exact Json.asNat?_lt hk
      · obtain ⟨k, -, hk⟩ := Option.bind_eq_some_iff.1 hoffset
        exact Json.asNat?_lt hk
      · intro m hm
        have hsome : matched = some m := hm
        rw [hsome] at hmatched
        unfold readMatchMembers? at hmatched
        split at hmatched
        · cases hmatched
        · cases hmatched
        · obtain ⟨n, hn, heq⟩ := Option.map_eq_some_iff.1 hmatched
          cases heq
          exact MatchInfo.index_lt_of_ofJson? hn
        · cases hmatched
  | null => cases h
  | bool b => cases h
  | number n => cases h
  | string s => cases h
  | array items => cases h

/-- The fixed members before the properties. -/
def fixedMembers (t : Token) : List (String × Json) :=
  [("value", .string t.value), ("index", .ofNat t.index), ("offset", .ofNat t.offset)]

/-- The properties as members. -/
def carriedMembers (t : Token) : List (String × Json) :=
  t.properties.entries.map fun e => (e.1, e.2.json)

/-- The member behind the properties, if there is one. -/
def matchMembers (t : Token) : List (String × Json) :=
  match t.matched with
  | some m => [("match", m.toJson)]
  | none => []

theorem toJson_eq (t : Token) :
    t.toJson = .object (t.fixedMembers ++ t.carriedMembers ++ t.matchMembers) := rfl

/-- Properties that are no reserved names leave the fixed members alone. -/
theorem membersNamed_toJson {t : Token} (h : t.Unreserved) {name : String}
    (hname : name ∈ reservedNames) :
    membersNamed name (t.fixedMembers ++ t.carriedMembers ++ t.matchMembers)
      = membersNamed name t.fixedMembers ++ membersNamed name t.matchMembers := by
  have hcarried : membersNamed name t.carriedMembers = [] := by
    refine membersNamed_eq_nil fun e he heq => ?_
    obtain ⟨d, hd, rfl⟩ := List.mem_map.1 he
    exact h d hd (heq ▸ hname)
  rw [membersNamed_append, membersNamed_append, hcarried, List.append_nil]

theorem propertyMembers_toJson {t : Token} (h : t.Unreserved) :
    propertyMembers (t.fixedMembers ++ t.carriedMembers ++ t.matchMembers) = t.carriedMembers := by
  have hfixed : propertyMembers t.fixedMembers = [] := by
    simp [propertyMembers, fixedMembers, reservedNames]
  have hmatch : propertyMembers t.matchMembers = [] := by
    unfold matchMembers
    split <;> simp [propertyMembers, reservedNames]
  have hcarried : propertyMembers t.carriedMembers = t.carriedMembers := by
    refine List.filter_eq_self.2 fun e he => ?_
    obtain ⟨d, hd, rfl⟩ := List.mem_map.1 he
    simpa using h d hd
  unfold propertyMembers at *
  rw [List.filter_append, List.filter_append, hfixed, hmatch, hcarried, List.nil_append,
    List.append_nil]

theorem membersNamed_matchMembers (t : Token) {name : String} (hname : name ≠ "match") :
    membersNamed name t.matchMembers = [] := by
  refine membersNamed_eq_nil fun e he heq => ?_
  unfold matchMembers at he
  split at he
  · rw [List.mem_singleton.1 he] at heq
    exact hname heq.symm
  · cases he

theorem readMatchMembers?_toJson {t : Token} (h : ∀ m ∈ t.matched, m.index < positionBound) :
    readMatchMembers? (membersNamed "match" t.matchMembers) = some t.matched := by
  unfold matchMembers
  cases hmatched : t.matched with
  | none => rfl
  | some m =>
      have hread := MatchInfo.ofJson?_toJson (h m hmatched)
      show readMatchMembers? [m.toJson] = _
      rw [MatchInfo.toJson_eq] at hread ⊢
      show (MatchInfo.ofJson? _).map some = _
      rw [hread]
      rfl

/-- A token is read back from its object if no property collides with a fixed member. -/
theorem ofJson?_toJson {t : Token} (hfits : t.PositionsFit)
    (hdepth : ∀ e ∈ t.properties.entries, e.2.json.depth ≤ maxPropertyDepth) (h : t.Unreserved) :
    ofJson? t.toJson = some t := by
  have hone : ∀ {name : String} {j : Json}, name ∈ reservedNames → name ≠ "match" →
      membersNamed name t.fixedMembers = [j] →
      exactlyOne name (t.fixedMembers ++ t.carriedMembers ++ t.matchMembers) = some j := by
    intro name j hname hne hfixed
    refine exactlyOne_eq_some ?_
    rw [membersNamed_toJson h hname, hfixed, membersNamed_matchMembers t hne, List.append_nil]
  have hvalue := hone (show "value" ∈ reservedNames by decide) (by decide)
    (show membersNamed "value" t.fixedMembers = [.string t.value] from rfl)
  have hindex := hone (show "index" ∈ reservedNames by decide) (by decide)
    (show membersNamed "index" t.fixedMembers = [.ofNat t.index] from rfl)
  have hoffset := hone (show "offset" ∈ reservedNames by decide) (by decide)
    (show membersNamed "offset" t.fixedMembers = [.ofNat t.offset] from rfl)
  have hmatched : readMatchMembers?
      (membersNamed "match" (t.fixedMembers ++ t.carriedMembers ++ t.matchMembers))
        = some t.matched := by
    rw [membersNamed_toJson h (by decide)]
    exact readMatchMembers?_toJson hfits.matched
  have hshallow : t.carriedMembers.all (fun e => decide (e.2.depth ≤ maxPropertyDepth)) = true := by
    refine List.all_eq_true.2 fun e he => ?_
    obtain ⟨d, hd, rfl⟩ := List.mem_map.1 he
    exact decide_eq_true (hdepth d hd)
  have hproperties : KeyMap.ofList (t.carriedMembers.map fun e => (e.1, Value.ofJson e.2))
      = t.properties := by
    unfold carriedMembers
    rw [List.map_map]
    have hsame : (fun e : String × Json => (e.1, Value.ofJson e.2)) ∘ (fun e => (e.1, e.2.json))
        = fun e : String × Value => e := by
      funext e
      show (e.1, Value.ofJson e.2.json) = e
      rw [Value.ofJson_json]
    rw [hsame, List.map_id', KeyMap.ofList_entries]
  rw [toJson_eq, ofJson?_object, hvalue, hindex, hoffset, hmatched, propertyMembers_toJson h]
  simp only [Option.bind_some, Json.asString?, Json.asNat?_ofNat hfits.index,
    Json.asNat?_ofNat hfits.offset, hshallow, hproperties, if_true]

end Token

/-! ## §5. What is not wanted. -/

/-- The unwanted values under a name are null, and the others are wanted in the same way. -/
theorem membersNamed_trimMembers (i : Json.Interest) (name : String)
    (members : List (String × Json)) :
    membersNamed name (Json.trimMembers i members)
      = (membersNamed name members).map (Json.trimValue (i.of name)) := by
  unfold membersNamed
  induction members with
  | nil => rfl
  | cons e rest ih =>
      obtain ⟨key, j⟩ := e
      rw [Json.trimMembers_cons]
      by_cases hkey : key = name
      · rw [List.filter_cons_of_pos (by simpa using hkey), List.filter_cons_of_pos (by simpa using hkey),
          List.map_cons, List.map_cons, List.map_cons, ih, hkey]
      · rw [List.filter_cons_of_neg (by simpa using hkey), List.filter_cons_of_neg (by simpa using hkey),
          ih]

/-- Under a name of which all is wanted nothing is left out. -/
theorem membersNamed_trimMembers_of_all {i : Json.Interest} {name : String} (h : i.of name = some .all)
    (members : List (String × Json)) :
    membersNamed name (Json.trimMembers i members) = membersNamed name members := by
  have hsame : Json.trimValue (i.of name) = id := by
    funext j
    rw [h]
    exact Json.trim_all j
  rw [membersNamed_trimMembers, hsame, List.map_id]

theorem exactlyOne_trimMembers_of_all {i : Json.Interest} {name : String} (h : i.of name = some .all)
    (members : List (String × Json)) :
    exactlyOne name (Json.trimMembers i members) = exactlyOne name members := by
  unfold exactlyOne
  rw [membersNamed_trimMembers_of_all h]

/-- What is not wanted of the document of captures does not matter. -/
theorem MatchInfo.ofJson?_trim (j : Json) : ofJson? (j.trim interest) = ofJson? j := by
  cases j with
  | object members =>
      show ofJson? (.object (Json.trimMembers interest members)) = _
      rw [ofJson?_object, ofJson?_object, exactlyOne_trimMembers_of_all rfl,
        exactlyOne_trimMembers_of_all rfl, membersNamed_trimMembers_of_all rfl]
  | null | bool _ | number _ | string _ | array _ => rfl

theorem readMatchMembers?_trim (js : List Json) :
    readMatchMembers? (js.map (Json.trimValue (some MatchInfo.interest))) = readMatchMembers? js := by
  match js with
  | [] | [.null] | [.bool _] | [.number _] | [.string _] | [.array _] => rfl
  | [.object members] =>
      exact congrArg (Option.map some) (MatchInfo.ofJson?_trim (.object members))
  | j :: _ :: _ => cases j <;> rfl

namespace Token

theorem propertyMembers_trim (members : List (String × Json)) :
    propertyMembers (Json.trimMembers interest members) = propertyMembers members := by
  unfold propertyMembers
  induction members with
  | nil => rfl
  | cons e rest ih =>
      obtain ⟨key, j⟩ := e
      rw [Json.trimMembers_cons]
      by_cases hkey : key ∈ reservedNames
      · rw [List.filter_cons_of_neg (by simpa using hkey), List.filter_cons_of_neg (by simpa using hkey),
          ih]
      · -- a property is wanted as a whole
        have hne : key ≠ "match" := by
          rintro rfl
          exact hkey (by decide)
        have hwanted : Json.trimValue (interest.of key) j = j := by
          show Json.trimValue (if key = "match" then _ else _) j = j
          rw [if_neg hne]
          exact Json.trim_all j
        rw [List.filter_cons_of_pos (by simpa using hkey), List.filter_cons_of_pos (by simpa using hkey),
          ih, hwanted]

/-- What is not wanted of the document of a token does not matter. -/
theorem ofJson?_trim (j : Json) : ofJson? (j.trim interest) = ofJson? j := by
  cases j with
  | object members =>
      have hcaptures : interest.of "match" = some MatchInfo.interest := rfl
      show ofJson? (.object (Json.trimMembers interest members)) = _
      rw [ofJson?_object, ofJson?_object, exactlyOne_trimMembers_of_all rfl,
        exactlyOne_trimMembers_of_all rfl, exactlyOne_trimMembers_of_all rfl,
        membersNamed_trimMembers, hcaptures, readMatchMembers?_trim, propertyMembers_trim]
  | null | bool _ | number _ | string _ | array _ => rfl

/-- A text that holds a document is read as that document. -/
theorem ofWireText?_of_parse? {text : String} {j : Json} (h : Json.parse? text = some j) :
    ofWireText? text = ofJson? j := by
  unfold ofWireText?
  rw [Json.parseFor?_of_parse? interest h, Option.bind_some, ofJson?_trim]

/-- A number beyond all doubles does no harm under another name among the captures, but does as a property. -/
example :
    let text (before inside : String) : String :=
      "\x7b\"value\":\"a\",\"index\":0,\"offset\":1," ++ before ++ "\"match\":\x7b" ++ inside ++
        "\"index\":0,\"groups\":[\"a\"]\x7d\x7d"
    ofWireText? (text "" "\"k\":[1e999,\"\\ud800\"],") = ofWireText? (text "" "") ∧
      (ofWireText? (text "" "")).isSome ∧ ofWireText? (text "\"k\":1e999," "") = none := by
  decide +kernel

/-! ## §6. The text of a token. -/

/-- The properties hold integers only and are nested no deeper than the reader goes. -/
def Plain (t : Token) : Prop :=
  ∀ e ∈ t.properties.entries, e.2.json.isIntegral = true ∧ e.2.json.depth ≤ maxPropertyDepth

theorem isIntegral_toJson {t : Token} (h : t.Plain) : t.toJson.isIntegral = true := by
  rw [toJson_eq]
  show Json.membersIntegral _ = true
  refine (Json.membersIntegral_iff _).2 fun e he => ?_
  rcases List.mem_append.1 he with he | he
  · rcases List.mem_append.1 he with he | he
    · simp only [fixedMembers, List.mem_cons, List.not_mem_nil, or_false] at he
      rcases he with rfl | rfl | rfl <;> rfl
    · obtain ⟨d, hd, rfl⟩ := List.mem_map.1 he
      exact (h d hd).1
  · unfold matchMembers at he
    split at he
    · rw [List.mem_singleton.1 he]
      exact MatchInfo.isIntegral_toJson _
    · cases he

theorem ofWireText?_wireText {t : Token} (hfits : t.PositionsFit) (hplain : t.Plain) (h : t.Unreserved) :
    ofWireText? t.wireText = some t := by
  rw [wireText, ofWireText?_of_parse? (Json.parse?_text (isIntegral_toJson hplain))]
  exact ofJson?_toJson hfits (fun e he => (hplain e he).2) h

end Token

/--
Read back from its text, a token whose properties are plain is the same exactly if no property has a
reserved name; and a token that was read from any text has none, so from then on it stays the same.
-/
theorem wire_round_trip :
    (∀ t : Token, t.PositionsFit → t.Plain →
      (Token.ofWireText? t.wireText = some t ↔ t.Unreserved)) ∧
    ∀ (text : String) (t : Token), Token.ofWireText? text = some t →
      t.Unreserved ∧ (t.Plain → Token.ofWireText? t.wireText = some t) := by
  have hread : ∀ {text : String} {t : Token}, Token.ofWireText? text = some t →
      t.Unreserved ∧ t.PositionsFit := by
    intro text t h
    obtain ⟨j, -, hj⟩ := Option.bind_eq_some_iff.1 h
    exact Token.unreserved_of_ofJson? hj
  refine ⟨fun t hfits hplain => ⟨fun h => (hread h).1, Token.ofWireText?_wireText hfits hplain⟩,
    fun text t h => ?_⟩
  obtain ⟨hunreserved, hfits⟩ := hread h
  exact ⟨hunreserved, fun hplain => Token.ofWireText?_wireText hfits hplain hunreserved⟩

/-- A token with nested values and control characters, one whose property collides, and a text with blanks. -/
theorem wire_round_trip_of_tokens :
    (let t : Token :=
      { value := "Größe\n\"𝒳\\\x07", index := 3, offset := 18446744073709551615
        properties := .ofList
          [("kind", .ofJson (.array [.object [("b", .null), ("a", .number (.negSucc 4))], .ofNat 7])),
           ("", .ofString "\t")]
        matched := some { index := 1, groups := [some "B", none], named := .ofList [("n", "B")] } };
      t.PositionsFit ∧ t.Plain ∧ (Token.ofWireText? t.wireText = some t ↔ t.Unreserved)) ∧
    (let t := (Token.ofText "a" 0).withProperty "match" (.ofNat 1);
      t.PositionsFit ∧ t.Plain ∧ (Token.ofWireText? t.wireText = some t ↔ t.Unreserved)) ∧
    (let text := " \x7b\"offset\":1, \"index\" :0,\"value\":\"\\u0061\",\"z\":[-5,\x7b\"b\":1\x7d]\x7d";
      let t := (Token.ofText "a" 0).withProperty "z"
        (.ofJson (.array [.number (.negSucc 4), .object [("b", .ofNat 1)]]));
      Token.ofWireText? text = some t ∧ t.Plain ∧
        t.Unreserved ∧ (t.Plain → Token.ofWireText? t.wireText = some t)) := by
  refine ⟨?_, ?_, ?_⟩
  · intro t
    have hfits : t.PositionsFit := ⟨by decide +kernel, by decide +kernel, by decide +kernel⟩
    have hplain : t.Plain := by
      unfold Token.Plain
      decide +kernel
    exact ⟨hfits, hplain, wire_round_trip.1 t hfits hplain⟩
  · intro t
    have hfits : t.PositionsFit := ⟨by decide +kernel, by decide +kernel, by decide +kernel⟩
    have hplain : t.Plain := by
      unfold Token.Plain
      decide +kernel
    exact ⟨hfits, hplain, wire_round_trip.1 t hfits hplain⟩
  · intro text t
    have hread : Token.ofWireText? text = some t := by decide +kernel
    have hplain : t.Plain := by
      unfold Token.Plain
      decide +kernel
    exact ⟨hread, hplain, wire_round_trip.2 text t hread⟩

end TokenSpan
