/-
  TokenSpan.Proofs.Selection
  ──────────────────────────
  Passes that keep some tokens as they are.

  A filter keeps the tokens for which a condition holds, a test those in which a pattern
  matches, and a conditional pass those for which its condition does not hold.  Conditions
  see the tokens where they stand before the pass, and what is kept is kept with all its
  fields.  What a conditional pass does with the other tokens is what its transform, applied
  to all tokens, does with them.

  Main results:
  * `contexts_eq_ofFn` — the contexts of a sequence, position by position;
  * `run_filter`, `answer_stored_matching` — filters and tests select contexts;
  * `answer_onlyWhere` — a conditional pass, one context after the other;
  * `run_onlyWhere_congr` — its transform matters only where the condition holds;
  * `selection_keeps_tokens` — all of this for sequences of any tokens.
-/
import TokenSpan.Proofs.KeptTokens

namespace TokenSpan

/-! ## §1. Contexts, position by position. -/

/-- The token at a position of a sequence, with its neighbours there. -/
def contextAt (ts : List Token) (i : Fin ts.length) : Context where
  tokens := ts
  position := i
  token := ts[i]
  prev := if i.val = 0 then none else ts[i.val - 1]?
  next := ts[i.val + 1]?

theorem getElem?_contextsFrom (tokens : List Token) (position : Nat) (prev : Option Token)
    (rest : List Token) (i : Nat) :
    (contextsFrom tokens position prev rest)[i]? = rest[i]?.map fun t =>
      { tokens, position := position + i, token := t
        prev := if i = 0 then prev else rest[i - 1]?
        next := rest[i + 1]? } := by
  induction rest generalizing position prev i with
  | nil => rfl
  | cons t rest ih =>
      cases i with
      | zero =>
          show some _ = some _
          rw [List.head?_eq_getElem?]
          rfl
      | succ j =>
          show (contextsFrom tokens (position + 1) (some t) rest)[j]? = _
          rw [ih, Nat.add_right_comm]
          -- the token before the first one of the rest is the one at hand
          cases j <;> rfl

/-- The contexts of a sequence are those at its positions. -/
theorem contexts_eq_ofFn (ts : List Token) : contexts ts = List.ofFn (contextAt ts) := by
  refine List.ext_getElem? fun i => ?_
  unfold contexts
  rw [getElem?_contextsFrom, List.getElem?_ofFn]
  by_cases h : i < ts.length
  · rw [dif_pos h, List.getElem?_eq_getElem h, Nat.zero_add]
    rfl
  · rw [dif_neg h, List.getElem?_eq_none (Nat.not_lt.1 h)]
    rfl

theorem transformContexts_congr {keepProperties : Bool} {f g : Context → Run Reply} {cxs : List Context}
    (h : ∀ cx ∈ cxs, f cx = g cx) :
    transformContexts keepProperties f cxs = transformContexts keepProperties g cxs := by
  induction cxs with
  | nil => rfl
  | cons cx rest ih =>
      unfold transformContexts
      rw [h cx List.mem_cons_self, ih fun c hc => h c (List.mem_cons_of_mem _ hc)]

/-! ## §2. Filters and tests. -/

theorem collect_keepIf {keepProperties : Bool} {cxs : List Context} (hcxs : ∀ cx ∈ cxs, cx.token.Fits)
    (p : Context → Bool) :
    collect (expandContext keepProperties fun cx => .ok (keepIf (p cx) cx)) cxs
      = .ok ((cxs.filter p).map (·.token)) :=
  collect_select fun cx hcx => expandContext_keepIf (hcxs cx hcx) p

variable {ts : List Token}

theorem fits_of_mem_contexts (hts : ∀ t ∈ ts, t.Fits) {cx : Context} (hcx : cx ∈ contexts ts) :
    cx.token.Fits :=
  hts cx.token (Context.token_mem hcx)

section Passes

variable [Regex.Engine]

/-- A filter selects the tokens whose contexts it accepts, and does nothing else. -/
theorem run_filter (s : Settings) (hts : ∀ t ∈ ts, t.Fits) (p : Context → Bool) :
    (s.filter fun cx => .ok (p cx)).run ts = pure (((contexts ts).filter p).map (·.token)) := by
  have hselected : collect (expandContext s.keepProperties fun cx => .ok (keepIf (p cx) cx)) (contexts ts)
      = .ok (((contexts ts).filter p).map (·.token)) :=
    collect_keepIf (fun cx hcx => fits_of_mem_contexts hts hcx) p
  exact (run_each_function s.keepProperties _ ts).trans (congrArg Run.ofExcept hselected)

theorem Settings.matching_of_compile (s : Settings) {pattern : String} {r : Regex {}}
    (h : compile {} pattern = .ok r) :
    s.matching pattern = .ok (.stored s.keepProperties (.matching r)) := by
  unfold Settings.matching
  rw [h]
  rfl

/-- A test selects the tokens in whose text its pattern matches. -/
theorem answer_stored_matching (keepProperties : Bool) (r : Regex {}) (hts : ∀ t ∈ ts, t.Fits)
    (recording : Bool) :
    ((Pass.stored keepProperties (.matching r)).run ts).answer recording
      = .ok (((contexts ts).filter fun cx => r.isMatch cx.value.toList).map (·.token)) := by
  rw [answer_stored, expandAll_eq_collect]
  exact collect_keepIf (fun cx hcx => fits_of_mem_contexts hts hcx) fun cx => r.isMatch cx.value.toList

/-! ## §3. Conditional passes. -/

/-- What a transform, applied to each token of a sequence, makes of the token of a context. -/
def Settings.contribution (s : Settings) (recording : Bool) (f : Transform) :
    Context → Except Fault (List Token) :=
  expandContext s.keepProperties fun cx => (f.run cx).answer recording

/-- A transform applied to each token makes of them its contributions. -/
theorem answer_each_eq_collect (s : Settings) (f : Transform) (ts : List Token) (recording : Bool) :
    ((s.each f).run ts).answer recording = collect (s.contribution recording f) (contexts ts) := by
  unfold Settings.each
  rw [answer_each, expandAll_eq_collect]
  rfl

/-- A choice that does not fail runs one of the two transforms. -/
theorem run_choose_ok (c : Context → Bool) (yes no : Transform) (cx : Context) :
    (Transform.choose (fun cx => .ok (c cx)) yes no).run cx
      = if c cx then yes.run cx else no.run cx := by
  rw [Transform.run]
  exact pure_bind (c cx) _

theorem contribution_choose (s : Settings) (c : Context → Bool) (yes no : Transform) (recording : Bool)
    (cx : Context) :
    s.contribution recording (.choose (fun cx => .ok (c cx)) yes no) cx
      = if c cx then s.contribution recording yes cx else s.contribution recording no cx := by
  unfold Settings.contribution expandContext
  dsimp only
  rw [run_choose_ok]
  cases c cx <;> rfl

theorem contribution_keep (s : Settings) {cx : Context} (hcx : cx.token.Fits) (recording : Bool) :
    s.contribution recording .keep cx = .ok [cx.token] := by
  unfold Settings.contribution expandContext
  dsimp only
  rw [answer_keep]
  show (placeReply s.keepProperties cx.token _).map _ = _
  rw [placeReply_keep hcx]
  rfl

/-- A conditional pass makes the contributions where its condition holds, and keeps the other tokens. -/
theorem answer_onlyWhere (s : Settings) (hts : ∀ t ∈ ts, t.Fits) (c : Context → Bool) (f : Transform)
    (recording : Bool) :
    ((s.onlyWhere (fun cx => .ok (c cx)) f).run ts).answer recording
      = collect (fun cx => if c cx then s.contribution recording f cx else .ok [cx.token])
          (contexts ts) := by
  unfold Settings.onlyWhere
  rw [answer_each_eq_collect]
  refine collect_congr fun cx hcx => ?_
  rw [contribution_choose, contribution_keep s (fits_of_mem_contexts hts hcx)]

/-- The result is made of the contributions where the condition holds, and of the tokens elsewhere. -/
theorem answer_onlyWhere_eq_ok_iff (s : Settings) (hts : ∀ t ∈ ts, t.Fits) {c : Context → Bool}
    {f : Transform} {recording : Bool} {out : List Token} :
    ((s.onlyWhere (fun cx => .ok (c cx)) f).run ts).answer recording = .ok out ↔
      ∃ groups, List.Forall₂
          (fun cx group =>
            if c cx then s.contribution recording f cx = .ok group else group = [cx.token])
          (contexts ts) groups ∧
        out = groups.flatten := by
  have hgroup : ∀ cx (group : List Token),
      (if c cx then s.contribution recording f cx else .ok [cx.token]) = .ok group ↔
        if c cx then s.contribution recording f cx = .ok group else group = [cx.token] := by
    intro cx group
    cases c cx with
    | true => exact Iff.rfl
    | false => simpa using eq_comm
  rw [answer_onlyWhere s hts, collect_eq_ok_iff]
  simp only [hgroup]

/-- A fault is that of the first contribution that fails where the condition holds. -/
theorem answer_onlyWhere_eq_error_iff (s : Settings) (hts : ∀ t ∈ ts, t.Fits) {c : Context → Bool}
    {f : Transform} {recording : Bool} {e : Fault} :
    ((s.onlyWhere (fun cx => .ok (c cx)) f).run ts).answer recording = .error e ↔
      ∃ before cx after, contexts ts = before ++ cx :: after ∧
        (∀ b ∈ before, c b → ∃ group, s.contribution recording f b = .ok group) ∧
        c cx ∧ s.contribution recording f cx = .error e := by
  have hsome : ∀ cx, (∃ group : List Token,
      (if c cx then s.contribution recording f cx else .ok [cx.token]) = .ok group) ↔
        (c cx → ∃ group, s.contribution recording f cx = .ok group) := by
    intro cx
    cases c cx <;> simp
  have hfails : ∀ cx, (if c cx then s.contribution recording f cx else .ok [cx.token]) = .error e ↔
      c cx ∧ s.contribution recording f cx = .error e := by
    intro cx
    cases c cx <;> simp
  rw [answer_onlyWhere s hts, collect_eq_error_iff]
  simp only [hsome, hfails]

/-- Transforms that agree where the condition holds make the same pass, caches and events included. -/
theorem run_onlyWhere_congr (s : Settings) {c : Context → Bool} {f g : Transform}
    (h : ∀ cx ∈ contexts ts, c cx = true → f.run cx = g.run cx) :
    (s.onlyWhere (fun cx => .ok (c cx)) f).run ts = (s.onlyWhere (fun cx => .ok (c cx)) g).run ts := by
  have hchoice : ∀ cx ∈ contexts ts,
      (Transform.choose (fun cx => .ok (c cx)) f .keep).run cx
        = (Transform.choose (fun cx => .ok (c cx)) g .keep).run cx := by
    intro cx hcx
    rw [run_choose_ok, run_choose_ok]
    by_cases hc : c cx = true
    · rw [if_pos hc, if_pos hc, h cx hcx hc]
    · rw [if_neg hc, if_neg hc]
  unfold Settings.onlyWhere Settings.each Pass.run transformFlat transformEach
  rw [transformContexts_congr hchoice]

/-! ## §4. What is kept. -/

/--
Without a cache filters, tests and conditional passes keep tokens untouched, wherever these stand: filters and
tests never fail and keep just the tokens that are accepted in the context of the whole sequence; a conditional
pass keeps those for which its condition fails and puts in the place of the others what its transform, applied
to all tokens, contributes for them.  That transform plays no role, not even by failing, for the kept ones.
-/
theorem selection_keeps_tokens (s : Settings) {ts : List Token} (hts : ∀ t ∈ ts, t.Fits)
    (recording : Bool) :
    let cxs := List.ofFn (contextAt ts)
    (∀ p : Context → Bool,
      ((s.filter fun cx => .ok (p cx)).run ts).answer recording
        = .ok ((cxs.filter p).map (·.token))) ∧
    (∀ pattern r, compile {} pattern = .ok r → ∃ pass, s.matching pattern = .ok pass ∧
      (pass.run ts).answer recording
        = .ok ((cxs.filter fun cx => r.isMatch cx.value.toList).map (·.token))) ∧
    ∀ (c : Context → Bool) (f : Transform),
      let split := s.contribution recording f
      (∀ out, ((s.each f).run ts).answer recording = .ok out ↔
        ∃ groups, List.Forall₂ (fun cx group => split cx = .ok group) cxs groups ∧
          out = groups.flatten) ∧
      (∀ out, ((s.onlyWhere (fun cx => .ok (c cx)) f).run ts).answer recording = .ok out ↔
        ∃ groups, List.Forall₂
            (fun cx group => if c cx then split cx = .ok group else group = [cx.token]) cxs groups ∧
          out = groups.flatten) ∧
      (∀ e, ((s.onlyWhere (fun cx => .ok (c cx)) f).run ts).answer recording = .error e ↔
        ∃ before cx after, cxs = before ++ cx :: after ∧
          (∀ b ∈ before, c b → ∃ group, split b = .ok group) ∧ c cx ∧ split cx = .error e) ∧
      ∀ g : Transform, (∀ cx ∈ cxs, c cx → f.run cx = g.run cx) →
        (s.onlyWhere (fun cx => .ok (c cx)) f).run ts
          = (s.onlyWhere (fun cx => .ok (c cx)) g).run ts := by
  intro cxs
  have hcxs : cxs = contexts ts := (contexts_eq_ofFn ts).symm
  rw [hcxs]
  refine ⟨fun p => ?_, fun pattern r hr => ?_, fun c f => ?_⟩
  · rw [run_filter s hts]
    rfl
  · exact ⟨_, s.matching_of_compile hr, answer_stored_matching s.keepProperties r hts recording⟩
  · intro split
    refine ⟨fun out => ?_, fun out => ?_, fun e => ?_, fun g h => ?_⟩
    · rw [answer_each_eq_collect, collect_eq_ok_iff]
    · exact answer_onlyWhere_eq_ok_iff s hts
    · exact answer_onlyWhere_eq_error_iff s hts
    · exact run_onlyWhere_congr s h

end Passes

/--
Tokens out of order, the first one at the last position there is: a filter that looks ahead keeps that one, a
test keeps two, and a pass that acts on the last token only keeps the others although its transform fails on
them.
-/
theorem selection_at_the_last_position :
    let s : Settings := {}
    let far : Token :=
      { value := "ab", index := positionBound - 1, offset := positionBound - 1
        properties := KeyMap.empty.insert "kind" (.ofString "x")
        matched := some { index := 1, groups := [none], named := .empty } }
    let near := (Token.ofText "ab" 0).withOffset 7
    let last := Token.ofText "x" 1
    let backwards := fun cx : Context => cx.next.any fun next => next.index < cx.token.index
    let isLast := fun cx : Context => cx.next.isNone
    let failsEarly := Transform.function fun cx =>
      if cx.next.isNone then .ok (.text "yz") else .error .overflow
    ((s.filter fun cx => .ok (backwards cx)).run [far, near, last]).answer false = .ok [far] ∧
    (∃ pass, s.matching "b" = .ok pass ∧
      (pass.run [far, near, last]).answer false = .ok [far, near]) ∧
    ((s.onlyWhere (fun cx => .ok (isLast cx)) failsEarly).run [far, near, last]).answer false
      = .ok [far, near, Token.ofText "yz" 1] := by
  intro s far near last backwards isLast failsEarly
  have hts : ∀ t ∈ [far, near, last], t.Fits := by decide +kernel
  obtain ⟨hfilter, htest, hwhere⟩ := selection_keeps_tokens s hts false
  refine ⟨(hfilter backwards).trans (by decide +kernel), ?_, ?_⟩
  · let r : Regex {} := .ofValid "b" (by decide +kernel)
    have hr : compile {} "b" = .ok r := by
      have hread := Regex.ofPattern?_pattern r
      rw [Regex.pattern_ofValid] at hread
      unfold compile
      rw [hread]
      rfl
    obtain ⟨pass, hpass, hrun⟩ := htest "b" r hr
    exact ⟨pass, hpass, hrun.trans (by decide +kernel)⟩
  · refine ((hwhere isLast failsEarly).2.1 _).2 ⟨[[far], [near], [Token.ofText "yz" 1]], ?_, rfl⟩
    exact .cons (by decide +kernel) (.cons (by decide +kernel) (.cons (by decide +kernel) .nil))

end TokenSpan
