/-
  TokenSpan.Proofs.Flows
  ──────────────────────
  Searches inside searches are searches one after the other.

  What a search makes of a token depends on the text of the token only, up to its place
  and the values it carries.  Passes with this property are local.  Local passes one after
  the other are local again, and applied to the text of each token alone they make what they
  make of the whole sequence.  So a tree of nested chains makes the same tokens as its leaves
  one after the other.

  Main results:
  * `Token.adopt_adopt` — a token found inside a found token;
  * `ActsLocally.bind` — local computations one after the other are local;
  * `runsLocally_chain` — inside each token local passes make what they make of the sequence;
  * `flow_eq_leaves_in_sequence` — trees of chains and their leaves.
-/
import TokenSpan.Proofs.Tiling

namespace TokenSpan

open TokenSpan.Regex (Flags)
open TokenSpan.Finding (Mode found)

/-! ## §1. Tokens found inside found tokens. -/

/-- A token as a search finds it in a text: inside the text, as long as its own text, and without values. -/
structure Token.FoundIn (text : String) (u : Token) : Prop where
  covers : u.offset = u.value.utf8ByteSize
  stop_le : u.index + u.offset ≤ text.utf8ByteSize
  bare : u.properties = .empty

theorem Finding.foundIn [Regex.Engine] {flags : Flags} (r : Regex flags) (mode : Mode) (text : String) :
    ∀ u ∈ found r mode text, u.FoundIn text := by
  intro u hu
  have htiles := tiles_found r text
  have hsplit := mem_found_split r hu
  refine ⟨(htiles.exists_append hsplit).1, ?_, ?_⟩
  · have hstop := htiles.stop_le hsplit
    omega
  · obtain ⟨s, _, rfl⟩ := List.mem_map.1 hu
    cases s <;> rfl

/-- A token found inside a found token, seen from outside at once or step by step. -/
theorem Token.adopt_adopt {w : Token} (h : w.properties = .empty) (keepProperties : Bool)
    (t u : Token) :
    (t.adopt keepProperties u).adopt keepProperties w
      = t.adopt keepProperties (u.adopt keepProperties w) := by
  obtain ⟨value, index, offset, properties, matched⟩ := w
  have hproperties : properties = .empty := h
  subst hproperties
  -- the inner token has no values, so what it inherits is what the outer ones hand down
  cases keepProperties with
  | false => simp [Token.adopt, Nat.add_assoc]
  | true =>
      simp only [Token.adopt, Token.inherit, Nat.add_assoc, if_true]
      rfl

theorem Token.FoundIn.adopt {text : String} {u w : Token} (hu : u.FoundIn text)
    (hw : w.FoundIn u.value) (keepProperties : Bool) :
    (u.adopt keepProperties w).FoundIn text := by
  have hinside := hu.stop_le
  have hcovers := hu.covers
  have hinner := hw.stop_le
  refine ⟨by simpa using hw.covers, ?_, ?_⟩
  · rw [Token.index_adopt, Token.offset_adopt]
    omega
  · unfold Token.adopt Token.inherit
    cases keepProperties with
    | false => exact hw.bare
    | true => simp only [hw.bare, hu.bare]; rfl

/-! ## §2. Local computations. -/

/-- The texts of the tokens end at positions that fit. -/
def AllFit (ts : List Token) : Prop := ∀ t ∈ ts, t.index + t.value.utf8ByteSize < positionBound

/-- What is found in the text of each token, as the whole text sees it. -/
def emitAll (keepProperties : Bool) (emit : String → List Token) (ts : List Token) : List Token :=
  ts.flatMap fun t => (emit t.value).map (t.adopt keepProperties)

/-- The computation replaces each token by what is found in its text, and does not fail. -/
structure ActsLocally (keepProperties : Bool) (emit : String → List Token)
    (run : List Token → Except Fault (List Token)) : Prop where
  foundIn : ∀ text, ∀ u ∈ emit text, u.FoundIn text
  run : ∀ ts, AllFit ts → run ts = .ok (emitAll keepProperties emit ts)

variable {keepProperties recording : Bool}

/-- What is found in tokens ends where they do, or before. -/
theorem allFit_emitAll {emit : String → List Token} (h : ∀ text, ∀ u ∈ emit text, u.FoundIn text)
    {ts : List Token} (hts : AllFit ts) : AllFit (emitAll keepProperties emit ts) := by
  intro v hv
  obtain ⟨t, ht, hv⟩ := List.mem_flatMap.1 hv
  obtain ⟨u, hu, rfl⟩ := List.mem_map.1 hv
  have hfit := hts t ht
  have hinside := (h _ u hu).stop_le
  have hcovers := (h _ u hu).covers
  rw [Token.index_adopt, Token.value_adopt]
  omega

namespace ActsLocally

variable {emit emit' : String → List Token} {run run' : List Token → Except Fault (List Token)}

/-- Local computations one after the other are local: what the second finds in what the first finds. -/
theorem bind (h : ActsLocally keepProperties emit run) (h' : ActsLocally keepProperties emit' run') :
    ActsLocally keepProperties (fun text => emitAll keepProperties emit' (emit text))
      (fun ts => (run ts).bind run') where
  foundIn := by
    intro text w hw
    obtain ⟨u, hu, hw⟩ := List.mem_flatMap.1 hw
    obtain ⟨v, hv, rfl⟩ := List.mem_map.1 hw
    exact (h.foundIn text u hu).adopt (h'.foundIn _ v hv) keepProperties
  run := by
    intro ts hts
    rw [h.run ts hts, Except.bind, h'.run _ (allFit_emitAll h.foundIn hts)]
    congr 1
    unfold emitAll
    rw [List.flatMap_assoc]
    congr 1
    funext t
    rw [List.flatMap_map, List.map_flatMap]
    -- for each token, what is found in what is found in it has the same place either way
    congr 1
    funext u
    rw [Token.value_adopt, List.map_map]
    exact List.map_congr_left fun w hw => Token.adopt_adopt (h'.foundIn _ w hw).bare _ _ _

/-- Applied to a whole text, a local computation answers what is found in it. -/
theorem root (h : ActsLocally keepProperties emit run) {text : String}
    (htext : text.utf8ByteSize < positionBound) : run [Token.root text] = .ok (emit text) := by
  have hroot : AllFit [Token.root text] := by
    intro t ht
    rw [List.mem_singleton.1 ht]
    show 0 + text.utf8ByteSize < positionBound
    omega
  rw [h.run _ hroot]
  unfold emitAll
  rw [List.flatMap_singleton]
  congr 1
  refine (List.map_congr_left fun u _ => ?_).trans (List.map_id _)
  exact Token.adopt_root _ u text

end ActsLocally

/-- Local replies make a local computation. -/
theorem actsLocally_expandAll {emit : String → List Token} {f : Context → Except Fault Reply}
    (hemit : ∀ text, ∀ u ∈ emit text, u.FoundIn text)
    (hf : ∀ cx, cx.value.utf8ByteSize < positionBound →
      f cx = .ok (.sequence ((emit cx.value).map fun u => .draft (.atOwnIndex u)))) :
    ActsLocally keepProperties emit fun ts =>
      (expandAll keepProperties f (contexts ts)).map (·.filterMap id) where
  foundIn := hemit
  run := by
    intro ts hts
    refine expandAll_locals (fun t ht u hu => ?_) fun cx hcx => hf cx ?_
    · have hfit := hts t ht
      have hinside := (hemit _ u hu).stop_le
      constructor <;> omega
    · have hfit := hts _ (Context.token_mem hcx)
      unfold Context.value
      omega

/-! ## §3. Local passes. -/

/-- A pass, or passes one after the other, that without a cache act locally. -/
abbrev RunsLocally (keepProperties recording : Bool) (emit : String → List Token)
    (run : List Token → Run (List Token)) : Prop :=
  ActsLocally keepProperties emit fun ts => (run ts).answer recording

section Passes

variable [Regex.Engine] {emit emit' : String → List Token}

theorem runsLocally_singleton {p : Pass} (hp : RunsLocally keepProperties recording emit p.run) :
    RunsLocally keepProperties recording emit (runChain [p]) where
  foundIn := hp.foundIn
  run := by
    intro ts hts
    show (runChain [p] ts).answer recording = _
    rw [answer_runChain_cons, show (p.run ts).answer recording = _ from hp.run ts hts]
    exact answer_runChain_nil _ recording

theorem answer_runChain_append (passes others : List Pass) (ts : List Token) :
    (runChain (passes ++ others) ts).answer recording
      = ((runChain passes ts).answer recording).bind fun out =>
          (runChain others out).answer recording := by
  rw [runChain_append, Run.answer_bind (uncached_runChain passes ts)]

theorem runsLocally_append {passes others : List Pass}
    (h : RunsLocally keepProperties recording emit (runChain passes))
    (h' : RunsLocally keepProperties recording emit' (runChain others)) :
    RunsLocally keepProperties recording (fun text => emitAll keepProperties emit' (emit text))
      (runChain (passes ++ others)) := by
  have hboth := ActsLocally.bind h h'
  unfold RunsLocally
  simp only [answer_runChain_append]
  exact hboth

/-- Local passes, applied to the text of each token alone, make what they make of the sequence. -/
theorem runsLocally_chain (s : Settings) {passes : List Pass}
    (h : RunsLocally s.keepProperties recording emit (runChain passes)) :
    RunsLocally s.keepProperties recording emit (s.chain passes).run := by
  unfold RunsLocally Settings.chain Settings.each
  simp only [answer_each]
  refine actsLocally_expandAll h.foundIn fun cx hcx => ?_
  -- inside, the only token is the root of the text
  rw [answer_chain, show (runChain passes [Token.root cx.value]).answer recording = _ from h.root hcx]
  rfl

end Passes

/-! ## §4. Trees of chains. -/

section Trees

variable [Regex.Engine]

/-- The passes that only search: for a pattern, for an expression, or for what a preset cuts out. -/
inductive Settings.SearchPass (s : Settings) : Pass → Prop where
  | findPattern {pattern : String} {mode : Mode} {p : Pass} (h : s.findPattern pattern mode = .ok p) :
      s.SearchPass p
  | find {flags : Flags} (r : Regex flags) (mode : Mode) : s.SearchPass (s.find r mode)
  | preset (p : Preset) : s.SearchPass (s.preset p)
  | presetNamed {name : String} {p : Pass} (h : s.presetNamed name = .ok p) : s.SearchPass p

mutual

/-- The pass is a tree of nested chains over the given searches, its leaves from left to right. -/
inductive SearchFlow (s : Settings) : Pass → List Pass → Prop where
  | search {p : Pass} (h : s.SearchPass p) : SearchFlow s p [p]
  | chain {passes leaves : List Pass} (h : SearchFlows s passes leaves) :
      SearchFlow s (s.chain passes) leaves

inductive SearchFlows (s : Settings) : List Pass → List Pass → Prop where
  | one {p : Pass} {leaves : List Pass} (h : SearchFlow s p leaves) : SearchFlows s [p] leaves
  | cons {p : Pass} {passes leaves others : List Pass} (h : SearchFlow s p leaves)
      (rest : SearchFlows s passes others) : SearchFlows s (p :: passes) (leaves ++ others)

end

theorem runsLocally_findStored (s : Settings) (r : Regex {}) (mode : Mode) (recording : Bool) :
    RunsLocally s.keepProperties recording (found r mode) (s.findStored r mode).run where
  foundIn := Finding.foundIn r mode
  run := fun _ hts => answer_findStored_pass mode s r hts recording

/-- Searches are local. -/
theorem Settings.SearchPass.runsLocally {s : Settings} {p : Pass} (h : s.SearchPass p)
    (recording : Bool) : ∃ emit, RunsLocally s.keepProperties recording emit p.run := by
  cases h with
  | @findPattern pattern mode p h =>
      obtain ⟨r, rfl⟩ := Settings.eq_findStored_of_findPattern h
      exact ⟨_, runsLocally_findStored s r mode recording⟩
  | find r mode =>
      exact ⟨_, Finding.foundIn r mode, fun ts hts => answer_find_pass r mode s hts recording⟩
  | preset p => exact ⟨_, runsLocally_findStored s p.regex .matches recording⟩
  | presetNamed h =>
      obtain ⟨q, rfl⟩ := Settings.eq_preset_of_presetNamed h
      exact ⟨_, runsLocally_findStored s q.regex .matches recording⟩

mutual

/-- A tree and its leaves one after the other find the same in every text. -/
theorem SearchFlow.runsLocally {s : Settings} {recording : Bool} : {p : Pass} → {leaves : List Pass} →
    SearchFlow s p leaves →
      ∃ emit, RunsLocally s.keepProperties recording emit p.run ∧
        RunsLocally s.keepProperties recording emit (runChain leaves)
  | _, _, .search h => by
      obtain ⟨emit, hemit⟩ := h.runsLocally recording
      exact ⟨emit, hemit, runsLocally_singleton hemit⟩
  | _, _, .chain h => by
      obtain ⟨emit, hpasses, hleaves⟩ := h.runsLocally
      exact ⟨emit, runsLocally_chain s hpasses, hleaves⟩

theorem SearchFlows.runsLocally {s : Settings} {recording : Bool} :
    {passes leaves : List Pass} → SearchFlows s passes leaves →
      ∃ emit, RunsLocally s.keepProperties recording emit (runChain passes) ∧
        RunsLocally s.keepProperties recording emit (runChain leaves)
  | _, _, .one h => by
      obtain ⟨emit, hp, hleaves⟩ := h.runsLocally
      exact ⟨emit, runsLocally_singleton hp, hleaves⟩
  | _, _, .cons h rest => by
      obtain ⟨emit, hp, hleaves⟩ := h.runsLocally
      obtain ⟨emit', hpasses, hothers⟩ := rest.runsLocally
      -- on both sides the others go on with what the first tree finds
      exact ⟨_, runsLocally_append (runsLocally_singleton hp) hpasses,
        runsLocally_append hleaves hothers⟩

end

/--
Without a cache, a tree of nested chains over searches succeeds and makes exactly the tokens that its leaves
make one after the other of the whole sequence.
-/
theorem flow_eq_leaves_in_sequence {s : Settings} {p : Pass} {leaves : List Pass}
    (h : SearchFlow s p leaves) {ts : List Token}
    (hts : ∀ t ∈ ts, t.index + t.value.utf8ByteSize < positionBound) (recording : Bool) :
    ∃ out, ((p.run ts).exec recording Cache.off).result = .ok out ∧
      ((runChain leaves ts).exec recording Cache.off).result = .ok out := by
  -- both sides replace each token by the same tokens found in its text
  obtain ⟨emit, hp, hleaves⟩ := h.runsLocally
  exact ⟨_, hp.run ts hts, hleaves.run ts hts⟩

end Trees

/-- Characters of words, found in a chain inside each section, on a token with a value. -/
theorem sections_words_characters_in_sequence :
    let s : Settings := {}
    let leaves := [s.preset .sections, s.preset .words, s.find Preset.characters.regex .split]
    let p := s.chain [s.preset .sections,
      s.chain [s.preset .words, s.chain [s.find Preset.characters.regex .split]]]
    let ts := [(Token.ofText "Maß nicht. Größe" 7).withProperty "kind" (.ofString "text")]
    SearchFlow s p leaves ∧ (∀ t ∈ ts, t.index + t.value.utf8ByteSize < positionBound) ∧
      ∃ out, ((p.run ts).exec true Cache.off).result = .ok out ∧
        ((runChain leaves ts).exec true Cache.off).result = .ok out := by
  intro s leaves p ts
  have hp : SearchFlow s p leaves :=
    .chain (.cons (.search (.preset .sections)) (.one (.chain (.cons (.search (.preset .words))
      (.one (.chain (.one (.search (.find _ .split)))))))))
  have hts : ∀ t ∈ ts, t.index + t.value.utf8ByteSize < positionBound := by
    intro t ht
    rw [List.mem_singleton.1 ht]
    decide +kernel
  exact ⟨hp, hts, flow_eq_leaves_in_sequence hp hts true⟩

end TokenSpan
