/-
  TokenSpan.Proofs.Moving
  ───────────────────────
  Passes on tokens that all start later by one distance.

  Where tokens start enters a pass through differences only: placing adds to the start of the
  token at hand, merging measures gaps and spans, and passes inside a token begin again at the
  start of its text.  So if no function in a pass looks at positions, moved tokens lead to
  moved tokens, as long as the positions still fit.

  Main results:
  * `Transform.Movable.answer_moveBy` — a moved token gets the reply it got before;
  * `placeReply_moveBy` — that reply then stands as much later;
  * `merge?_moveBy` — runs merge as before, since no token of a run ends behind the merged one;
  * `moved_tokens_lead_to_moved_tokens` — whole passes.
-/
import Mathlib.Control.Monad.Basic
import TokenSpan.Proofs.Merging
import TokenSpan.Proofs.Uncached
import TokenSpan.Regex.Standard

namespace TokenSpan

open TokenSpan.Regex (Flags)
open TokenSpan.Finding (Mode)

/-! ## §1. Moved tokens and contexts. -/

/-- The token, starting `d` positions later. -/
def Token.moveBy (d : Nat) (t : Token) : Token := { t with index := t.index + d }

/-- The context with all its tokens moved. -/
def Context.moveBy (d : Nat) (cx : Context) : Context where
  tokens := cx.tokens.map (Token.moveBy d)
  position := cx.position
  token := cx.token.moveBy d
  prev := cx.prev.map (Token.moveBy d)
  next := cx.next.map (Token.moveBy d)

variable {d : Nat} {recording : Bool}

theorem contextsFrom_moveBy (tokens : List Token) (position : Nat) (prev : Option Token)
    (rest : List Token) :
    contextsFrom (tokens.map (Token.moveBy d)) position (prev.map (Token.moveBy d))
        (rest.map (Token.moveBy d))
      = (contextsFrom tokens position prev rest).map (Context.moveBy d) := by
  induction rest generalizing position prev with
  | nil => rfl
  | cons t rest ih =>
      have hnext : (rest.map (Token.moveBy d)).head? = rest.head?.map (Token.moveBy d) := by
        cases rest <;> rfl
      simp only [List.map_cons, contextsFrom, hnext]
      rw [← ih (position + 1) (some t)]
      rfl

theorem contexts_moveBy (tokens : List Token) :
    contexts (tokens.map (Token.moveBy d)) = (contexts tokens).map (Context.moveBy d) :=
  contextsFrom_moveBy tokens 0 none tokens

section Transforms

variable [Regex.Engine]

/-! ## §2. Transforms that do not look at positions. -/

/--
The functions in the transform answer the same however far all tokens are moved.  Passes that it applies
to the text of a token may look at positions: those are positions in that text.
-/
inductive Transform.Movable : Transform → Prop where
  | function {f : Context → Except Fault Reply} (h : ∀ d cx, f (cx.moveBy d) = f cx) :
      Transform.Movable (.function f)
  | find (flags : Flags) (r : Regex flags) (mode : Mode) : Transform.Movable (.find flags r mode)
  | report (label : String) : Transform.Movable (.report label)
  | chain (passes : List Pass) : Transform.Movable (.chain passes)
  | choose {condition : Context → Except Fault Bool} {yes no : Transform}
      (h : ∀ d cx, condition (cx.moveBy d) = condition cx) (hyes : yes.Movable) (hno : no.Movable) :
      Transform.Movable (.choose condition yes no)
  | gather {items : List Transform} (h : ∀ f ∈ items, f.Movable) : Transform.Movable (.gather items)

/-- The transform that the pass applies to each token does not look at positions. -/
inductive Pass.Movable : Pass → Prop where
  | each (keepProperties : Bool) {f : Transform} (h : f.Movable) : Pass.Movable (.each keepProperties f)
  | stored (keepProperties : Bool) (job : StoredJob) : Pass.Movable (.stored keepProperties job)
  | mergeRuns (keepProperties : Bool) {f : Transform} (h : f.Movable) (filler : String) :
      Pass.Movable (.mergeRuns keepProperties f filler)

theorem Transform.Movable.keep : Transform.keep.Movable := .function fun _ _ => rfl

section Builders

variable (s : Settings)

theorem Settings.filter_movable {condition : Context → Except Fault Bool}
    (h : ∀ d cx, condition (cx.moveBy d) = condition cx) : (s.filter condition).Movable := by
  refine .each _ (.function fun d cx => ?_)
  show (condition (cx.moveBy d)).map _ = (condition cx).map _
  rw [h]
  rfl

theorem Settings.annotateWith_movable {values : Context → Except Fault Properties}
    (h : ∀ d cx, values (cx.moveBy d) = values cx) : (s.annotateWith values).Movable := by
  refine .each _ (.function fun d cx => ?_)
  show (values (cx.moveBy d)).map _ = (values cx).map _
  rw [h]
  rfl

theorem Settings.onlyWhere_movable {condition : Context → Except Fault Bool} {f : Transform}
    (h : ∀ d cx, condition (cx.moveBy d) = condition cx) (hf : f.Movable) :
    (s.onlyWhere condition f).Movable :=
  .each _ (.choose h hf .keep)

end Builders

/-! ## §3. Replies. -/

/-- A moved token gets the reply it got before, as long as its end can be told. -/
theorem Transform.Movable.answer_moveBy {f : Transform} (hf : f.Movable) {cx : Context}
    (hcx : cx.token.index + cx.token.offset + d < positionBound) :
    (f.run (cx.moveBy d)).answer recording = (f.run cx).answer recording := by
  induction hf with
  | function h => rw [answer_function, answer_function, h]
  | find flags r mode => rw [answer_find, answer_find]; rfl
  | report label =>
      have hstop : cx.token.stop = .ok (cx.token.index + cx.token.offset) :=
        addPositions_eq_ok_iff.2 ⟨rfl, by omega⟩
      have hmoved : (cx.moveBy d).token.stop
          = .ok (cx.token.index + d + cx.token.offset) :=
        addPositions_eq_ok_iff.2 ⟨rfl, by show cx.token.index + d + cx.token.offset < _; omega⟩
      rw [answer_report, answer_report, hstop, hmoved]
      rfl
  | chain passes => rw [answer_chain, answer_chain]; rfl
  | choose h hyes hno ihyes ihno => rw [answer_choose, answer_choose, h, ihyes, ihno]
  | @gather items h ih =>
      have hitems : (runItems items (cx.moveBy d)).answer recording
          = (runItems items cx).answer recording := by
        clear h
        induction items with
        | nil => rw [answer_runItems_nil, answer_runItems_nil]
        | cons f rest ihrest =>
            rw [answer_runItems_cons, answer_runItems_cons, ih f List.mem_cons_self,
              ihrest fun g hg => ih g (List.mem_cons_of_mem _ hg)]
      rw [answer_gather, answer_gather, hitems]

/-- A job sees the text of a token only. -/
theorem answer_job_moveBy (job : StoredJob) (cx : Context) :
    (job.run (cx.moveBy d)).answer recording = (job.run cx).answer recording := by
  cases job with
  | find r mode =>
      show (runFind r mode (cx.moveBy d)).answer recording = (runFind r mode cx).answer recording
      rw [answer_runFind, answer_runFind]
      rfl
  | matching r => rfl

end Transforms

/-! ## §4. Places. -/

/-- Pieces that have places in a token have them in the moved token, as much later. -/
theorem placeAll_moveBy {base : Token} {cursor : Nat} {pieces : List Piece}
    {items : List (Option Token)} (h : placeAll base cursor pieces = .ok items)
    (hfit : ∀ u, some u ∈ items → u.index + d < positionBound) :
    placeAll (base.moveBy d) cursor pieces = .ok (items.map (·.map (Token.moveBy d))) := by
  induction pieces generalizing cursor items with
  | nil =>
      cases h
      rfl
  | cons p rest ih =>
      cases p with
      | nested count => cases h
      | cut =>
          obtain ⟨more, hmore, rfl⟩ := placeAll_cut_eq_ok_iff.1 h
          exact placeAll_cut_eq_ok_iff.2 ⟨_, ih hmore fun u hu => hfit u (List.mem_cons_of_mem _ hu), rfl⟩
      | draft e =>
          obtain ⟨stop, u, more, hplace, hmore, rfl⟩ := placeAll_draft_eq_ok_iff.1 h
          refine placeAll_draft_eq_ok_iff.2 ⟨stop, u.moveBy d, _, ?_,
            ih hmore fun v hv => hfit v (List.mem_cons_of_mem _ hv), rfl⟩
          -- the relative end is the same, and the start is later by the distance
          have hu := hfit u List.mem_cons_self
          obtain ⟨hstop, hrel, -, rfl⟩ := Draft.place_eq_ok_iff.1 hplace
          have hsum : base.index + e.startAt cursor + d = base.index + d + e.startAt cursor := by omega
          refine Draft.place_eq_ok_iff.2 ⟨hstop, hrel, ?_, ?_⟩
          · show base.index + d + e.startAt cursor < positionBound
            rw [← hsum]
            exact hu
          · show Token.moveBy d _ = _
            unfold Token.moveBy
            dsimp only
            rw [hsum]

theorem placeReply_moveBy {keepProperties : Bool} {t : Token} {reply : Reply}
    {items : List (Option Token)} (h : placeReply keepProperties t reply = .ok items)
    (hfit : ∀ u, some u ∈ items → u.index + d < positionBound) :
    placeReply keepProperties (t.moveBy d) reply = .ok (items.map (·.map (Token.moveBy d))) := by
  unfold placeReply Reply.place at h ⊢
  cases hplace : placeAll t 0 reply.pieces with
  | error e => rw [hplace] at h; cases h
  | ok placed =>
      rw [hplace] at h
      have hitems : (if keepProperties then placed.map (·.map (·.inherit t)) else placed) = items :=
        Except.ok.inj h
      have hplaced : ∀ u, some u ∈ placed → u.index + d < positionBound := by
        intro u hu
        cases keepProperties with
        | false => exact hfit u (hitems ▸ hu)
        | true =>
            -- inheriting values leaves a token where it is
            refine hfit (u.inherit t) ?_
            rw [← hitems]
            exact List.mem_map.2 ⟨some u, hu, rfl⟩
      rw [placeAll_moveBy hplace hplaced, ← hitems]
      cases keepProperties with
      | false => rfl
      | true =>
          show Except.ok ((placed.map (·.map (Token.moveBy d))).map (·.map (·.inherit (t.moveBy d))))
            = Except.ok ((placed.map (·.map (·.inherit t))).map (·.map (Token.moveBy d)))
          rw [List.map_map, List.map_map]
          congr 2
          funext item
          cases item <;> rfl

/-- Moved tokens whose replies stay the same lead to moved tokens. -/
theorem expandAll_moveBy {keepProperties : Bool} {f : Context → Except Fault Reply}
    {cxs : List Context} {items : List (Option Token)} (h : expandAll keepProperties f cxs = .ok items)
    (hf : ∀ cx ∈ cxs, f (cx.moveBy d) = f cx)
    (hfit : ∀ u, some u ∈ items → u.index + d < positionBound) :
    expandAll keepProperties f (cxs.map (Context.moveBy d))
      = .ok (items.map (·.map (Token.moveBy d))) := by
  induction cxs generalizing items with
  | nil =>
      cases h
      rfl
  | cons cx rest ih =>
      obtain ⟨reply, first, more, hreply, hfirst, hmore, rfl⟩ := expandAll_cons_eq_ok_iff.1 h
      rw [List.map_cons]
      refine expandAll_cons_eq_ok_iff.2
        ⟨reply, _, _, (hf cx List.mem_cons_self).trans hreply,
          placeReply_moveBy hfirst fun u hu => hfit u (List.mem_append_left _ hu),
          ih hmore (fun c hc => hf c (List.mem_cons_of_mem _ hc))
            fun u hu => hfit u (List.mem_append_right _ hu), ?_⟩
      rw [List.map_append]

/-! ## §5. Merging. -/

/-- What stands between two tokens depends on the distance between them. -/
theorem bridge_moveBy (filler : String) {prev : Option Token}
    (hprev : ∀ p ∈ prev, p.index + p.offset + d < positionBound) (t : Token) :
    bridge filler (prev.map (Token.moveBy d)) (t.moveBy d) = bridge filler prev t := by
  cases prev with
  | none => rfl
  | some p =>
      have hp := hprev p rfl
      have hstop : p.stop = .ok (p.index + p.offset) := addPositions_eq_ok_iff.2 ⟨rfl, by omega⟩
      have hmoved : (p.moveBy d).stop = .ok (p.index + p.offset + d) :=
        addPositions_eq_ok_iff.2 ⟨by show p.index + d + p.offset = _; omega,
          by show p.index + d + p.offset < _; omega⟩
      show ((p.moveBy d).stop).bind _ = (p.stop).bind _
      rw [hstop, hmoved]
      show fillGap filler (t.index + d - (p.index + p.offset + d))
        = fillGap filler (t.index - (p.index + p.offset))
      congr 1
      omega

theorem mergeOnto_moveBy (filler : String) (start : Nat) {prev : Option Token}
    (hprev : ∀ p ∈ prev, p.index + p.offset + d < positionBound) (text : String) (span : Nat)
    {ts : List Token} (hts : ∀ t ∈ ts, t.index + t.offset + d < positionBound) :
    mergeOnto filler (start + d) (prev.map (Token.moveBy d)) text span (ts.map (Token.moveBy d))
      = mergeOnto filler start prev text span ts := by
  induction ts generalizing prev text span with
  | nil => rfl
  | cons t rest ih =>
      have ht := hts t List.mem_cons_self
      have hnext : ∀ p ∈ some t, p.index + p.offset + d < positionBound := by
        intro p hp
        rw [← Option.some.inj hp]
        exact ht
      have hreach : (t.moveBy d).index - (start + d) = t.index - start := by
        show t.index + d - (start + d) = _
        omega
      rw [List.map_cons]
      unfold mergeOnto
      rw [bridge_moveBy filler hprev, hreach]
      congr 1
      funext gap
      congr 1
      funext reach
      exact ih hnext _ _ fun u hu => hts u (List.mem_cons_of_mem _ hu)

theorem merge?_moveBy {filler : String} {run : List Token} {merged : Option Token}
    (h : merge? filler run = .ok merged)
    (hfit : ∀ m ∈ merged, m.index + m.offset + d < positionBound) :
    merge? filler (run.map (Token.moveBy d)) = .ok (merged.map (Token.moveBy d)) := by
  cases run with
  | nil =>
      cases h
      rfl
  | cons first rest =>
      -- no token of the run ends behind the merged one
      have hts : ∀ t ∈ first :: rest, t.index + t.offset + d < positionBound := by
        intro t ht
        obtain ⟨m, hm, hstop⟩ := merge?_stop_le h ht
        have hend := hfit m hm
        omega
      obtain ⟨value, span, hmerge, rfl⟩ := merge?_cons_eq_ok_iff.1 h
      have hprev : ∀ p ∈ (none : Option Token), p.index + p.offset + d < positionBound := by
        intro p hp
        cases hp
      have hmoved := mergeOnto_moveBy filler first.index hprev "" 0 hts
      rw [hmerge] at hmoved
      rw [List.map_cons]
      exact merge?_cons_eq_ok_iff.2 ⟨value, span, hmoved, rfl⟩

theorem mergeAll_moveBy {filler : String} {runs : List (List Token)} {out : List Token}
    (h : mergeAll filler runs = .ok out)
    (hfit : ∀ t ∈ out, t.index + t.offset + d < positionBound) :
    mergeAll filler (runs.map (·.map (Token.moveBy d))) = .ok (out.map (Token.moveBy d)) := by
  induction runs generalizing out with
  | nil =>
      cases h
      rfl
  | cons run rest ih =>
      obtain ⟨merged, more, hmerged, hmore, rfl⟩ := mergeAll_cons_eq_ok_iff.1 h
      have hfirst : ∀ m ∈ merged, m.index + m.offset + d < positionBound := by
        intro m hm
        exact hfit m (List.mem_append_left _ (Option.mem_toList.2 hm))
      rw [List.map_cons]
      refine mergeAll_cons_eq_ok_iff.2 ⟨_, _, merge?_moveBy hmerged hfirst,
        ih hmore fun t ht => hfit t (List.mem_append_right _ ht), ?_⟩
      rw [List.map_append]
      cases merged <;> rfl

/-- Cuts stand between the same tokens, wherever those start. -/
theorem runsBetweenCuts_moveBy (current : List Token) (items : List (Option Token)) :
    runsBetweenCuts (current.map (Token.moveBy d)) (items.map (·.map (Token.moveBy d)))
      = (runsBetweenCuts current items).map (·.map (Token.moveBy d)) := by
  induction items generalizing current with
  | nil => cases current <;> rfl
  | cons item rest ih =>
      cases item with
      | some t =>
          have hpush := ih (current ++ [t])
          rw [List.map_append] at hpush
          exact hpush
      | none =>
          have hfresh := ih []
          cases current with
          | nil => exact hfresh
          | cons t more => exact congrArg (_ :: ·) hfresh

theorem mergeSegments_moveBy {filler : String} {items : List (Option Token)} {out : List Token}
    (h : mergeSegments filler items = .ok out)
    (hfit : ∀ t ∈ out, t.index + t.offset + d < positionBound) :
    mergeSegments filler (items.map (·.map (Token.moveBy d))) = .ok (out.map (Token.moveBy d)) := by
  unfold mergeSegments
  have hruns := runsBetweenCuts_moveBy (d := d) [] items
  rw [List.map_nil] at hruns
  rw [hruns]
  exact mergeAll_moveBy h hfit

/-! ## §6. Passes. -/

theorem filterMap_moveBy (items : List (Option Token)) :
    (items.map (·.map (Token.moveBy d))).filterMap id
      = (items.filterMap id).map (Token.moveBy d) := by
  rw [List.filterMap_map, List.map_filterMap]
  rfl

/-- Replies that a pass makes of moved tokens, if it makes those of the tokens and all positions fit. -/
theorem expandAll_contexts_moveBy {keepProperties : Bool} {f : Context → Except Fault Reply}
    {ts : List Token} {items : List (Option Token)}
    (h : expandAll keepProperties f (contexts ts) = .ok items)
    (hf : ∀ cx, cx.token ∈ ts → f (cx.moveBy d) = f cx)
    (hfit : ∀ u ∈ items.filterMap id, u.index + u.offset + d < positionBound) :
    expandAll keepProperties f (contexts (ts.map (Token.moveBy d)))
      = .ok (items.map (·.map (Token.moveBy d))) := by
  rw [contexts_moveBy]
  refine expandAll_moveBy h (fun cx hcx => hf cx ?_) fun u hu => ?_
  · rw [← map_token_contexts ts]
    exact List.mem_map_of_mem hcx
  · have hend := hfit u (by simpa using hu)
    omega

/--
Without a cache, a pass whose functions do not look at positions makes of moved tokens what it makes of the
tokens, moved by the same distance, as long as the ends of the tokens and of the results still fit.
Tokens that are merged on the way need no such condition.
-/
theorem moved_tokens_lead_to_moved_tokens [Regex.Engine] {p : Pass} (hp : p.Movable)
    {ts out : List Token} {recording : Bool}
    (hrun : ((p.run ts).exec recording Cache.off).result = .ok out) {d : Nat}
    (hts : ∀ t ∈ ts, t.index + t.offset + d < positionBound)
    (hout : ∀ t ∈ out, t.index + t.offset + d < positionBound) :
    ((p.run (ts.map (Token.moveBy d))).exec recording Cache.off).result
      = .ok (out.map (Token.moveBy d)) := by
  have hanswer : (p.run ts).answer recording = .ok out := hrun
  show (p.run (ts.map (Token.moveBy d))).answer recording = .ok (out.map (Token.moveBy d))
  cases hp with
  | each keepProperties hf =>
      rw [answer_each] at hanswer ⊢
      obtain ⟨items, hitems, rfl⟩ := map_eq_ok_iff.1 hanswer
      rw [expandAll_contexts_moveBy hitems (fun cx hcx => hf.answer_moveBy (hts _ hcx)) hout]
      exact congrArg Except.ok (filterMap_moveBy items)
  | stored keepProperties job =>
      rw [answer_stored] at hanswer ⊢
      obtain ⟨items, hitems, rfl⟩ := map_eq_ok_iff.1 hanswer
      rw [expandAll_contexts_moveBy hitems (fun cx _ => answer_job_moveBy job cx) hout]
      exact congrArg Except.ok (filterMap_moveBy items)
  | mergeRuns keepProperties hf filler =>
      rw [answer_mergeRuns] at hanswer ⊢
      obtain ⟨items, hitems, hmerge⟩ := bind_eq_ok_iff.1 hanswer
      -- what is merged ends no later than what it is merged into
      have hmid : ∀ u ∈ items.filterMap id, u.index + u.offset + d < positionBound := by
        intro u hu
        obtain ⟨m, hm, hstop⟩ := mergeSegments_stop_le hmerge hu
        have hend := hout m hm
        omega
      rw [expandAll_contexts_moveBy hitems (fun cx hcx => hf.answer_moveBy (hts _ hcx)) hmid]
      exact mergeSegments_moveBy hmerge hout

/--
Four passes on three tokens, of which the later ones start before the first one, moved almost to the end of
all positions.
-/
theorem decreasing_tokens_moved_far :
    let s : Settings := {}
    let first (cx : Context) : Except Fault Bool := .ok cx.prev.isNone
    let number (cx : Context) : Except Fault Properties :=
      .ok (KeyMap.empty.insert "n" (.ofNat cx.position))
    let joinWords : Transform := .chain [s.preset .words, s.mergeRuns .keep "-"]
    let ts := [Token.ofText "der rote Faden" 40, .ofText "ab" 10, .ofText "zu" 15]
    let runs := [(s.filter first, [Token.ofText "der rote Faden" 40]),
      (s.annotateWith number, [(Token.ofText "der rote Faden" 40).withProperty "n" (.ofNat 0),
        (Token.ofText "ab" 10).withProperty "n" (.ofNat 1),
        (Token.ofText "zu" 15).withProperty "n" (.ofNat 2)]),
      (s.onlyWhere first joinWords,
        [Token.ofText "der-rote-Faden" 40, .ofText "ab" 10, .ofText "zu" 15]),
      (s.mergeRuns (.choose first joinWords (.gather [.report "kept"])) "+",
        [Token.ofText "der-rote-Fadenab+++zu" 40])]
    let d := positionBound - 100
    (∀ t ∈ ts, t.index + t.offset + d < positionBound) ∧
      ∀ e ∈ runs, e.1.Movable ∧ ((e.1.run ts).exec true Cache.off).result = .ok e.2 ∧
        (∀ t ∈ e.2, t.index + t.offset + d < positionBound) ∧
        ((e.1.run (ts.map (Token.moveBy d))).exec true Cache.off).result
          = .ok (e.2.map (Token.moveBy d)) := by
  intro s first number joinWords ts runs d
  have hfirst : ∀ d cx, first (cx.moveBy d) = first cx := by
    intro d cx
    show Except.ok (cx.prev.map (Token.moveBy d)).isNone = Except.ok cx.prev.isNone
    rw [Option.isNone_map]
  have hkept : (Transform.gather [.report "kept"]).Movable := by
    refine .gather fun f hf => ?_
    rw [List.mem_singleton.1 hf]
    exact .report _
  have hmovable : ∀ e ∈ runs, e.1.Movable := by
    simp only [runs, List.forall_mem_cons]
    exact ⟨s.filter_movable hfirst, s.annotateWith_movable fun _ _ => rfl,
      s.onlyWhere_movable hfirst (.chain _), .mergeRuns _ (.choose hfirst (.chain _) hkept) _,
      List.forall_mem_nil _⟩
  have hrun : ∀ e ∈ runs, ((e.1.run ts).exec true Cache.off).result = .ok e.2 := by decide +kernel
  have hts : ∀ t ∈ ts, t.index + t.offset + d < positionBound := by decide +kernel
  have hout : ∀ e ∈ runs, ∀ t ∈ e.2, t.index + t.offset + d < positionBound := by decide +kernel
  exact ⟨hts, fun e he => ⟨hmovable e he, hrun e he, hout e he,
    moved_tokens_lead_to_moved_tokens (hmovable e he) (hrun e he) hts (hout e he)⟩⟩

end TokenSpan
