/-
  TokenSpan.Proofs.TokenByToken
  ─────────────────────────────
  Chains treat one token after the other, each on its own.

  Inside a chain the passes see the text of one token, as a root of its own.  What they make
  of it is moved to the place of the token and completed with its values; nothing else of the
  token, and nothing of its neighbours, plays a role.  So a run of a chain is one run for each
  token, in order, and stops at the first that fails.

  Main results:
  * `answer_forEachToken_eq_ok_iff`, `answer_forEachToken_eq_error_iff` — results and first faults;
  * `transformFlat_eq_forEachToken` — transforms that look at the token at hand only;
  * `run_chain` — a chain is a run for each token, caches and events included;
  * `chain_acts_token_by_token` — without a cache: results, faults, and sequences in parts.
-/
import TokenSpan.Proofs.KeyMaps
import TokenSpan.Proofs.Success
import TokenSpan.Regex.Standard

namespace TokenSpan

open Run (uncached_bind uncached_ofExcept answer_bind)

/-! ## §1. One run for each token. -/

/-- What a run makes of each token, one after the other. -/
def forEachToken (g : Token → Run (List Token)) : List Token → Run (List Token)
  | [] => pure []
  | t :: rest => do
      let first ← g t
      let more ← forEachToken g rest
      return first ++ more

section Runs

variable {g : Token → Run (List Token)}

theorem forEachToken_cons (t : Token) (rest : List Token) :
    forEachToken g (t :: rest) = do
      let first ← g t
      let more ← forEachToken g rest
      return first ++ more := rfl

theorem forEachToken_singleton (t : Token) : forEachToken g [t] = g t := by
  unfold forEachToken forEachToken
  simp

/-- A sequence may be treated in parts. -/
theorem forEachToken_append (ts us : List Token) :
    forEachToken g (ts ++ us) = do
      let first ← forEachToken g ts
      let more ← forEachToken g us
      return first ++ more := by
  induction ts with
  | nil =>
      show forEachToken g us = pure [] >>= _
      simp
  | cons t rest ih =>
      rw [List.cons_append, forEachToken_cons, forEachToken_cons, ih]
      simp only [bind_assoc, pure_bind, List.append_assoc]

theorem forEachToken_congr {h : Token → Run (List Token)} {ts : List Token}
    (hgh : ∀ t ∈ ts, g t = h t) : forEachToken g ts = forEachToken h ts := by
  induction ts with
  | nil => rfl
  | cons t rest ih =>
      rw [forEachToken_cons, forEachToken_cons, hgh t List.mem_cons_self,
        ih fun u hu => hgh u (List.mem_cons_of_mem _ hu)]

/-- If nothing is cached for one token, nothing is for all of them. -/
theorem uncached_forEachToken (hg : ∀ t, (g t).Uncached) (ts : List Token) :
    (forEachToken g ts).Uncached := by
  induction ts with
  | nil => exact uncached_composes.pure _
  | cons t rest ih =>
      unfold forEachToken
      refine uncached_bind (hg t) fun first => ?_
      exact uncached_bind ih fun more => uncached_composes.pure _

theorem answer_forEachToken (hg : ∀ t, (g t).Uncached) (recording : Bool) (ts : List Token) :
    (forEachToken g ts).answer recording = collect (fun t => (g t).answer recording) ts := by
  induction ts with
  | nil => rfl
  | cons t rest ih =>
      unfold forEachToken collect
      rw [answer_bind (hg t), ← ih]
      congr 1
      funext first
      rw [answer_bind (uncached_forEachToken hg rest)]
      cases (forEachToken g rest).answer recording <;> rfl

theorem answer_forEachToken_append (hg : ∀ t, (g t).Uncached) (recording : Bool) (ts us : List Token) :
    (forEachToken g (ts ++ us)).answer recording
      = ((forEachToken g ts).answer recording).bind fun first =>
          ((forEachToken g us).answer recording).map (first ++ ·) := by
  rw [answer_forEachToken hg, answer_forEachToken hg, answer_forEachToken hg, collect_append]

/-- The result is made of what is made of the tokens, in order. -/
theorem answer_forEachToken_eq_ok_iff (hg : ∀ t, (g t).Uncached) {recording : Bool}
    {ts out : List Token} :
    (forEachToken g ts).answer recording = .ok out ↔
      ∃ groups, List.Forall₂ (fun t group => (g t).answer recording = .ok group) ts groups ∧
        out = groups.flatten := by
  rw [answer_forEachToken hg, collect_eq_ok_iff]

/-- The run fails with the fault of the first token that fails. -/
theorem answer_forEachToken_eq_error_iff (hg : ∀ t, (g t).Uncached) {recording : Bool}
    {ts : List Token} {e : Fault} :
    (forEachToken g ts).answer recording = .error e ↔
      ∃ before t after, ts = before ++ t :: after ∧
        (∀ u ∈ before, ∃ group, (g u).answer recording = .ok group) ∧
          (g t).answer recording = .error e := by
  rw [answer_forEachToken hg, collect_eq_error_iff]

end Runs

/-! ## §2. Transforms that look at the token at hand only. -/

/-- The tokens that a reply for a token leads to, cuts left out. -/
def expandToken (keepProperties : Bool) (f : Token → Run Reply) (t : Token) : Run (List Token) := do
  let reply ← f t
  let items ← Run.ofExcept (placeReply keepProperties t reply)
  return items.filterMap id

/-- If a transform looks at the token at hand only, the tokens are treated one after the other. -/
theorem transformFlat_eq_forEachToken {f : Context → Run Reply} {g : Token → Run Reply}
    (h : ∀ cx, f cx = g cx.token) (keepProperties : Bool) (ts : List Token) :
    transformFlat keepProperties f ts = forEachToken (expandToken keepProperties g) ts := by
  -- the rest of a sequence is treated alike wherever it stands
  have hrest : ∀ (rest : List Token) (position : Nat) (prev : Option Token),
      (transformContexts keepProperties f (contextsFrom ts position prev rest) >>=
          fun items => pure (items.filterMap id))
        = forEachToken (expandToken keepProperties g) rest := by
    intro rest
    induction rest with
    | nil =>
        intro position prev
        unfold contextsFrom transformContexts forEachToken
        simp
    | cons t rest ih =>
        intro position prev
        unfold contextsFrom transformContexts
        rw [h, forEachToken_cons, ← ih (position + 1) (some t)]
        unfold expandToken
        simp only [bind_assoc, pure_bind, List.filterMap_append]
  exact hrest ts 0 none

/-! ## §3. Tokens of the text of a token. -/

instance (base u : Token) : Decidable (base.HasRoom u) :=
  inferInstanceAs (Decidable (_ ∧ _))

/-- Tokens of the text of a token as the whole text sees them, if all have room there. -/
def Token.adoptAll (keepProperties : Bool) (base : Token) (us : List Token) :
    Except Fault (List Token) :=
  if ∀ u ∈ us, base.HasRoom u then .ok (us.map (base.adopt keepProperties)) else .error .overflow

theorem Token.adoptAll_eq_ok_iff {keepProperties : Bool} {base : Token} {us out : List Token} :
    base.adoptAll keepProperties us = .ok out ↔
      (∀ u ∈ us, base.HasRoom u) ∧ out = us.map (base.adopt keepProperties) := by
  unfold Token.adoptAll
  split
  · rename_i h
    rw [Except.ok.injEq]
    exact ⟨fun heq => ⟨h, heq.symm⟩, fun heq => heq.2.symm⟩
  · rename_i h
    exact ⟨fun heq => absurd heq (by simp), fun heq => absurd heq.1 h⟩

theorem Token.adoptAll_eq_error_iff {keepProperties : Bool} {base : Token} {us : List Token}
    {e : Fault} :
    base.adoptAll keepProperties us = .error e ↔ e = .overflow ∧ ∃ u ∈ us, ¬ base.HasRoom u := by
  unfold Token.adoptAll
  split
  · rename_i h
    constructor
    · intro heq
      cases heq
    · rintro ⟨_, u, hu, hroom⟩
      exact absurd (h u hu) hroom
  · rename_i h
    rw [Except.error.injEq]
    exact ⟨fun heq => ⟨heq.symm, by simpa using h⟩, fun heq => heq.1.symm⟩

theorem placeAll_locals_of_not_hasRoom {base : Token} {us : List Token}
    (h : ∃ u ∈ us, ¬ base.HasRoom u) (cursor : Nat) :
    placeAll base cursor (us.map fun u => .draft (.atOwnIndex u)) = .error .overflow := by
  induction us generalizing cursor with
  | nil =>
      obtain ⟨u, hu, _⟩ := h
      cases hu
  | cons u rest ih =>
      rw [List.map_cons, placeAll_cons_draft]
      by_cases hroom : base.HasRoom u
      · -- the first one has room, so it is one of the others that has none
        have hrest : ∃ v ∈ rest, ¬ base.HasRoom v := by
          obtain ⟨v, hv, hnot⟩ := h
          rcases List.mem_cons.1 hv with rfl | hv
          · exact absurd hroom hnot
          · exact ⟨v, hv, hnot⟩
        rw [place_atOwnIndex hroom]
        show (placeAll base (u.index + u.offset) _).map _ = _
        rw [ih hrest]
        rfl
      · have hplace : (Draft.atOwnIndex u).place base cursor = .error .overflow :=
          Draft.place_eq_error hroom
        rw [hplace]
        rfl

/-- Tokens of the text of a token, placed inside that token. -/
theorem map_placeReply_locals (keepProperties : Bool) (base : Token) (us : List Token) :
    (placeReply keepProperties base
        (.sequence (us.map fun u => .draft (.atOwnIndex u)))).map (·.filterMap id)
      = base.adoptAll keepProperties us := by
  by_cases h : ∀ u ∈ us, base.HasRoom u
  · rw [placeReply_locals h, Token.adoptAll_eq_ok_iff.2 ⟨h, rfl⟩]
    show Except.ok (List.filterMap id (List.map _ us)) = _
    rw [List.filterMap_map]
    simp
  · have hnot : ∃ u ∈ us, ¬ base.HasRoom u := by simpa using h
    have hpieces : (Reply.sequence (us.map fun u => .draft (.atOwnIndex u))).pieces
        = us.map fun u => Piece.draft (.atOwnIndex u) := by
      simp only [Reply.pieces, List.map_map]
      rfl
    rw [Token.adoptAll_eq_error_iff.2 ⟨rfl, hnot⟩]
    unfold placeReply Reply.place
    rw [hpieces, placeAll_locals_of_not_hasRoom hnot]
    rfl

/--
A token of the text of another one as the whole text sees it: moved by the place of that one, and its values
completed with those of that one if values are kept.
-/
structure Token.SeenIn (keepProperties : Bool) (t u v : Token) : Prop where
  value : v.value = u.value
  index : v.index = t.index + u.index
  offset : v.offset = u.offset
  matched : v.matched = u.matched
  property : ∀ key, v.property key
    = if keepProperties then (u.property key).or (t.property key) else u.property key

theorem Token.ext_fields {t u : Token} (hvalue : t.value = u.value) (hindex : t.index = u.index)
    (hoffset : t.offset = u.offset) (hproperties : t.properties = u.properties)
    (hmatched : t.matched = u.matched) : t = u := by
  cases t
  cases u
  cases hvalue
  cases hindex
  cases hoffset
  cases hproperties
  cases hmatched
  rfl

/-- Seen so, a token is the adopted one. -/
theorem Token.seenIn_iff {keepProperties : Bool} {t u v : Token} :
    t.SeenIn keepProperties u v ↔ v = t.adopt keepProperties u := by
  have hproperty := t.property_adopt keepProperties u
  constructor
  · intro h
    have hproperties : v.properties = (t.adopt keepProperties u).properties :=
      KeyMap.ext_get? fun key => (h.property key).trans (hproperty key).symm
    exact Token.ext_fields (by rw [h.value, value_adopt]) (by rw [h.index, index_adopt])
      (by rw [h.offset, offset_adopt]) hproperties (by rw [h.matched, matched_adopt])
  · rintro rfl
    exact ⟨by simp, by simp, by simp, by simp, hproperty⟩

theorem forall₂_seenIn_iff {keepProperties : Bool} {t : Token} {us vs : List Token} :
    List.Forall₂ (t.SeenIn keepProperties) us vs ↔ vs = us.map (t.adopt keepProperties) := by
  rw [show t.SeenIn keepProperties = fun u v => t.adopt keepProperties u = v by
      funext u v
      exact propext (Token.seenIn_iff.trans eq_comm),
    ← List.forall₂_map_left_iff, List.forall₂_eq_eq_eq]
  exact eq_comm

/-! ## §4. Chains. -/

theorem ofExcept_bind_pure {α β : Type} (x : Except Fault α) (f : α → β) :
    (Run.ofExcept x >>= fun a => pure (f a)) = Run.ofExcept (x.map f) := by
  cases x <;> rfl

section Chains

variable [Regex.Engine]

/-- What passes make of the text of a token alone, as the whole text sees it. -/
def runInside (keepProperties : Bool) (passes : List Pass) (t : Token) : Run (List Token) := do
  let us ← runChain passes [Token.root t.value]
  Run.ofExcept (t.adoptAll keepProperties us)

/-- A chain runs its passes on the text of each token, one token after the other. -/
theorem run_chain (s : Settings) (passes : List Pass) (ts : List Token) :
    (s.chain passes).run ts = forEachToken (runInside s.keepProperties passes) ts := by
  let reply : Token → Run Reply := fun t => do
    let us ← runChain passes [Token.root t.value]
    return .sequence (us.map fun u => .draft (.atOwnIndex u))
  have hreply : ∀ cx, (Transform.chain passes).run cx = reply cx.token := by
    intro cx
    unfold Transform.run
    rfl
  unfold Settings.chain Settings.each Pass.run
  rw [transformFlat_eq_forEachToken hreply]
  congr 1
  funext t
  show (reply t >>= _) = _
  unfold runInside
  simp only [reply, bind_assoc, pure_bind, ofExcept_bind_pure, map_placeReply_locals]

theorem uncached_runInside (keepProperties : Bool) (passes : List Pass) (t : Token) :
    (runInside keepProperties passes t).Uncached :=
  uncached_bind (uncached_runChain passes _) fun _ => uncached_ofExcept _

theorem answer_runInside (keepProperties recording : Bool) (passes : List Pass) (t : Token) :
    (runInside keepProperties passes t).answer recording
      = ((runChain passes [Token.root t.value]).answer recording).bind
          (t.adoptAll keepProperties) := by
  unfold runInside
  rw [answer_bind (uncached_runChain passes _)]
  rfl

/-! ## §5. Results and faults of chains. -/

/-- The tokens made of the text of a token, if there are any and all have room. -/
theorem answer_runInside_eq_ok_iff {keepProperties recording : Bool} {passes : List Pass} {t : Token}
    {group : List Token} :
    (runInside keepProperties passes t).answer recording = .ok group ↔
      ∃ us, (runChain passes [Token.root t.value]).answer recording = .ok us ∧
        (∀ u ∈ us, t.HasRoom u) ∧ List.Forall₂ (t.SeenIn keepProperties) us group := by
  rw [answer_runInside, bind_eq_ok_iff]
  simp only [Token.adoptAll_eq_ok_iff, forall₂_seenIn_iff]

/-- There are such tokens if the passes succeed on the text and all they make has room. -/
theorem exists_answer_runInside_iff {keepProperties recording : Bool} {passes : List Pass} {t : Token} :
    (∃ group, (runInside keepProperties passes t).answer recording = .ok group) ↔
      ∃ us, (runChain passes [Token.root t.value]).answer recording = .ok us ∧
        ∀ u ∈ us, t.HasRoom u := by
  simp only [answer_runInside, bind_eq_ok_iff, Token.adoptAll_eq_ok_iff]
  constructor
  · rintro ⟨_, us, hus, hroom, _⟩
    exact ⟨us, hus, hroom⟩
  · rintro ⟨us, hus, hroom⟩
    exact ⟨_, us, hus, hroom, rfl⟩

/-- A token fails if the passes fail on its text, or one of their tokens has no room. -/
theorem answer_runInside_eq_error_iff {keepProperties recording : Bool} {passes : List Pass} {t : Token}
    {e : Fault} :
    (runInside keepProperties passes t).answer recording = .error e ↔
      (runChain passes [Token.root t.value]).answer recording = .error e ∨
        e = .overflow ∧ ∃ us, (runChain passes [Token.root t.value]).answer recording = .ok us ∧
          ∃ u ∈ us, ¬ t.HasRoom u := by
  rw [answer_runInside]
  cases (runChain passes [Token.root t.value]).answer recording with
  | error e' => simp [Except.bind]
  | ok us =>
      show t.adoptAll keepProperties us = .error e ↔ _
      rw [Token.adoptAll_eq_error_iff]
      simp

/--
Without a cache a chain treats one token after the other: its result is made of what the passes make of the
text of each token alone, its fault is that of the first token that fails, sequences may be treated in
parts, and the passes see nothing of a token but its text.
-/
theorem chain_acts_token_by_token (s : Settings) (passes : List Pass) (recording : Bool) :
    let flow := fun ts => (((s.chain passes).run ts).exec recording Cache.off).result
    let inside := fun t : Token => ((runChain passes [Token.root t.value]).exec recording Cache.off).result
    (∀ ts out, flow ts = .ok out ↔
      ∃ groups, List.Forall₂ (fun t group => ∃ us, inside t = .ok us ∧ (∀ u ∈ us, t.HasRoom u) ∧
        List.Forall₂ (t.SeenIn s.keepProperties) us group) ts groups ∧ out = groups.flatten) ∧
    (∀ ts e, flow ts = .error e ↔
      ∃ before t after, ts = before ++ t :: after ∧
        (∀ b ∈ before, ∃ us, inside b = .ok us ∧ ∀ u ∈ us, b.HasRoom u) ∧
        (inside t = .error e ∨ e = .overflow ∧ ∃ us, inside t = .ok us ∧ ∃ u ∈ us, ¬ t.HasRoom u)) ∧
    (∀ ts us, flow (ts ++ us) = (flow ts).bind fun first => (flow us).map (first ++ ·)) ∧
    ∀ cx cx' : Context, cx.value = cx'.value →
      (Transform.chain passes).run cx = (Transform.chain passes).run cx' := by
  intro flow inside
  have hinside := uncached_runInside s.keepProperties passes
  have hflow : ∀ ts, flow ts
      = (forEachToken (runInside s.keepProperties passes) ts).answer recording := by
    intro ts
    rw [← run_chain]
    rfl
  refine ⟨?_, ?_, ?_, ?_⟩
  · intro ts out
    rw [hflow, answer_forEachToken_eq_ok_iff hinside]
    simp only [answer_runInside_eq_ok_iff]
    rfl
  · intro ts e
    rw [hflow, answer_forEachToken_eq_error_iff hinside]
    simp only [exists_answer_runInside_iff, answer_runInside_eq_error_iff]
    rfl
  · intro ts us
    rw [hflow, hflow, hflow]
    exact answer_forEachToken_append hinside recording ts us
  · intro cx cx' h
    unfold Transform.run
    rw [h]

end Chains

/--
The words of two tokens, merged inside each: the values of the first token stay with its words, and a token
whose word is too far to the right is the first one to fail.
-/
theorem words_merged_token_by_token :
    let s : Settings := {}
    let passes := [s.preset .words, s.mergeAll]
    let flow := fun ts => (((s.chain passes).run ts).exec false Cache.off).result
    let tagged := (Token.ofText "ab cd" 7).withProperty "kind" (.ofString "x")
    let merged := ((Token.ofText "abcd" 7).withOffset 5).withProperty "kind" (.ofString "x")
    let plain := Token.ofText "ef" 20
    let far := Token.ofText " gh" (positionBound - 1)
    flow [tagged, plain] = .ok [merged, plain] ∧ flow [tagged, far, plain] = .error .overflow := by
  intro s passes flow tagged merged plain far
  obtain ⟨hok, herror, _⟩ := chain_acts_token_by_token s passes false
  have htagged : ((runChain passes [Token.root tagged.value]).exec false Cache.off).result
      = .ok [(Token.ofText "abcd" 0).withOffset 5] := by decide +kernel
  have hplain : ((runChain passes [Token.root plain.value]).exec false Cache.off).result
      = .ok [Token.ofText "ef" 0] := by decide +kernel
  have hfar : ((runChain passes [Token.root far.value]).exec false Cache.off).result
      = .ok [Token.ofText "gh" 1] := by decide +kernel
  constructor
  · refine (hok _ _).2 ⟨[[merged], [plain]], .cons ⟨_, htagged, by decide +kernel, ?_⟩
      (.cons ⟨_, hplain, by decide +kernel, ?_⟩ .nil), rfl⟩
    · exact .cons (Token.seenIn_iff.2 (by decide +kernel)) .nil
    · exact .cons (Token.seenIn_iff.2 (by decide +kernel)) .nil
  · refine (herror _ _).2 ⟨[tagged], far, [plain], rfl, ?_, .inr ⟨rfl, _, hfar, by decide +kernel⟩⟩
    intro b hb
    rw [List.mem_singleton.1 hb]
    exact ⟨_, htagged, by decide +kernel⟩

end TokenSpan
