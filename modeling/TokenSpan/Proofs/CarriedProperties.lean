/-
  TokenSpan.Proofs.CarriedProperties
  ──────────────────────────────────
  Where the values that tokens carry come from, and which of them stay.

  A token that was made for another one carries what its draft was given and, if its pass says so,
  what the other one carries under further names (`Token.MadeOf`).  A pass adds no value under
  a name if none of the functions in it puts one there that the tokens around it do not carry
  (`Pass.AddsNo`).  Inside a token nobody carries anything at first, and merging drops all values;
  so what such passes answer for a token leaves the name to the token, and a value that all
  tokens carry stays on all of them.

  Main results:
  * `answer_run_eq_ok` — the results of a pass, token by token and draft by draft;
  * `Pass.AddsNo.carried` — values under a name come from the tokens the pass was run on;
  * `properties_survive_passes` — what all tokens carry, the results of passes still carry.
-/
import TokenSpan.Proofs.Merging
import TokenSpan.Proofs.Success
import TokenSpan.Regex.Standard

namespace TokenSpan

open TokenSpan.Regex (Flags)
open TokenSpan.Finding (Mode)

/-! ## §1. Tokens made of drafts. -/

/-- The draft that a piece of a reply is. -/
def Piece.draft? : Piece → Option Draft
  | .cut => none
  | .draft d => some d
  | .nested _ => none

/-- The drafts of a reply, in order. -/
def Reply.drafts (r : Reply) : List Draft := r.pieces.filterMap Piece.draft?

/--
The token is made of a draft that was answered for another token: it has its text and its values and, if
values are kept, those of the other token under further names.
-/
structure Token.MadeOf (keepProperties : Bool) (source : Token) (d : Draft) (u : Token) : Prop where
  value : u.value = d.value
  property : ∀ key, u.property key =
    if keepProperties then (d.properties.get? key).or (source.property key) else d.properties.get? key

theorem forall₂_of_placeAll {base : Token} {cursor : Nat} {pieces : List Piece}
    {items : List (Option Token)} (h : placeAll base cursor pieces = .ok items) :
    List.Forall₂ (fun d u => u.value = d.value ∧ u.properties = d.properties)
      (pieces.filterMap Piece.draft?) (items.filterMap id) := by
  -- the place of a piece depends on those in front of it, its values do not
  induction pieces generalizing cursor items with
  | nil =>
      cases h
      exact .nil
  | cons p rest ih =>
      cases p with
      | cut =>
          obtain ⟨more, hmore, rfl⟩ := placeAll_cut_eq_ok_iff.1 h
          show List.Forall₂ _ (rest.filterMap Piece.draft?) (more.filterMap id)
          exact ih hmore
      | draft d =>
          obtain ⟨stop, t, more, hplace, hmore, rfl⟩ := placeAll_draft_eq_ok_iff.1 h
          obtain ⟨-, -, -, rfl⟩ := Draft.place_eq_ok_iff.1 hplace
          exact .cons ⟨rfl, rfl⟩ (ih hmore)
      | nested count => cases h

/-- Each draft of a reply that has a place becomes one token. -/
theorem forall₂_of_placeReply {keepProperties : Bool} {source : Token} {reply : Reply}
    {items : List (Option Token)} (h : placeReply keepProperties source reply = .ok items) :
    List.Forall₂ (Token.MadeOf keepProperties source) reply.drafts (items.filterMap id) := by
  obtain ⟨placed, hplaced, rfl⟩ := map_eq_ok_iff.1 h
  have hall := forall₂_of_placeAll hplaced
  cases keepProperties with
  | false =>
      refine hall.imp fun d u hu => ⟨hu.1, fun key => ?_⟩
      show u.properties.get? key = d.properties.get? key
      rw [hu.2]
  | true =>
      have hitems : (placed.map (·.map (·.inherit source))).filterMap id
          = (placed.filterMap id).map (·.inherit source) := by
        rw [List.filterMap_map, List.map_filterMap]
        rfl
      show List.Forall₂ _ _ ((placed.map (·.map (·.inherit source))).filterMap id)
      rw [hitems, List.forall₂_map_right_iff]
      refine hall.imp fun d u hu => ⟨hu.1, fun key => ?_⟩
      show (u.properties.completeWith source.properties).get? key
        = (d.properties.get? key).or (source.properties.get? key)
      rw [KeyMap.get?_completeWith, hu.2]

/-- The results for several tokens are those for each of them, in order. -/
theorem groups_of_expandAll {keepProperties : Bool} {f : Context → Except Fault Reply}
    {cxs : List Context} {items : List (Option Token)}
    (h : expandAll keepProperties f cxs = .ok items) :
    ∃ groups, items.filterMap id = groups.flatten ∧
      List.Forall₂ (fun cx group => ∃ reply, f cx = .ok reply ∧
        List.Forall₂ (Token.MadeOf keepProperties cx.token) reply.drafts group) cxs groups := by
  induction cxs generalizing items with
  | nil =>
      cases h
      exact ⟨[], rfl, .nil⟩
  | cons cx rest ih =>
      obtain ⟨reply, first, more, hreply, hfirst, hmore, rfl⟩ := expandAll_cons_eq_ok_iff.1 h
      obtain ⟨groups, hgroups, hall⟩ := ih hmore
      refine ⟨first.filterMap id :: groups, ?_,
        .cons ⟨reply, hreply, forall₂_of_placeReply hfirst⟩ hall⟩
      rw [List.filterMap_append, hgroups, List.flatten_cons]

/-! ## §2. The results of a pass. -/

/-- A merged token carries nothing. -/
theorem properties_of_merge? {filler : String} {run : List Token} {u : Token}
    (h : merge? filler run = .ok (some u)) : u.properties = .empty := by
  cases run with
  | nil => cases h
  | cons first rest =>
      obtain ⟨value, span, -, hu⟩ := merge?_cons_eq_ok_iff.1 h
      rw [Option.some.inj hu]

theorem properties_of_mem_mergeAll {filler : String} {runs : List (List Token)} {out : List Token}
    (h : mergeAll filler runs = .ok out) {u : Token} (hu : u ∈ out) : u.properties = .empty := by
  induction runs generalizing out with
  | nil =>
      cases h
      cases hu
  | cons run rest ih =>
      obtain ⟨merged, more, hmerged, hmore, rfl⟩ := mergeAll_cons_eq_ok_iff.1 h
      rcases List.mem_append.1 hu with hu | hu
      · have hsome : merged = some u := by simpa using hu
        rw [hsome] at hmerged
        exact properties_of_merge? hmerged
      · exact ih hmore hu

section Passes

variable [Regex.Engine]

namespace Pass

/-- Whether the results inherit the values of their token. -/
def keepsProperties : Pass → Bool
  | .each keepProperties _ => keepProperties
  | .stored keepProperties _ => keepProperties
  | .mergeRuns keepProperties _ _ => keepProperties

/-- The pass merges what it makes of its tokens. -/
def Merges : Pass → Prop
  | .each _ _ => False
  | .stored _ _ => False
  | .mergeRuns _ _ _ => True

/-- The reply that the pass has placed for a token in its context. -/
def replyFor (recording : Bool) : Pass → Context → Except Fault Reply
  | .each _ f, cx => (f.run cx).answer recording
  | .stored _ job, cx => (job.run cx).answer recording
  | .mergeRuns _ f _, cx => (f.run cx).answer recording

end Pass

/-- Where nothing is merged, the results of a pass are made of the drafts answered for its tokens, in order. -/
theorem answer_run_eq_ok {p : Pass} (hp : ¬ p.Merges) {recording : Bool} {ts out : List Token}
    (h : (p.run ts).answer recording = .ok out) :
    ∃ groups, out = groups.flatten ∧
      List.Forall₂ (fun cx group => ∃ reply, p.replyFor recording cx = .ok reply ∧
        List.Forall₂ (Token.MadeOf p.keepsProperties cx.token) reply.drafts group)
        (contexts ts) groups := by
  have hrun : (p.run ts).answer recording
      = (expandAll p.keepsProperties (p.replyFor recording) (contexts ts)).map (·.filterMap id) := by
    cases p with
    | each keepProperties f => exact answer_each keepProperties f ts recording
    | stored keepProperties job => exact answer_stored keepProperties job ts recording
    | mergeRuns keepProperties f filler => exact absurd trivial hp
  rw [hrun] at h
  obtain ⟨items, hitems, rfl⟩ := map_eq_ok_iff.1 h
  exact groups_of_expandAll hitems

/-- Each result of a pass that merges nothing was made of a draft answered for one of the tokens. -/
theorem exists_draft_of_mem {p : Pass} (hp : ¬ p.Merges) {recording : Bool} {ts out : List Token}
    (h : (p.run ts).answer recording = .ok out) {u : Token} (hu : u ∈ out) :
    ∃ cx ∈ contexts ts, ∃ reply, p.replyFor recording cx = .ok reply ∧
      ∃ d ∈ reply.drafts, Token.MadeOf p.keepsProperties cx.token d u := by
  obtain ⟨groups, rfl, hall⟩ := answer_run_eq_ok hp h
  obtain ⟨group, hgroup, hmem⟩ := List.mem_flatten.1 hu
  obtain ⟨cx, hcx, reply, hreply, hdrafts⟩ := exists_of_mem_forall₂ hall hgroup
  obtain ⟨d, hd, hmade⟩ := exists_of_mem_forall₂ hdrafts hmem
  exact ⟨cx, hcx, reply, hreply, d, hd, hmade⟩

end Passes

/-! ## §3. Passes that add no value under a name. -/

/-- One of the tokens carries the value under the name. -/
def Carried (key : String) (ts : List Token) (v : Value) : Prop := ∃ t ∈ ts, t.property key = some v

/-- The values under a name in a reply are those that some of the tokens carry. -/
def Reply.AddsNo (key : String) (ts : List Token) (r : Reply) : Prop :=
  ∀ d ∈ r.drafts, ∀ v, d.properties.get? key = some v → Carried key ts v

/-- As an element of another reply, a reply is one of its own drafts, or none. -/
theorem Reply.mem_drafts_of_element {r : Reply} {d : Draft}
    (h : (Reply.pieces.element r).draft? = some d) : d ∈ r.drafts := by
  cases r with
  | text value => exact List.mem_singleton.2 (Option.some.inj h).symm
  | draft e => exact List.mem_singleton.2 (Option.some.inj h).symm
  | cut => cases h
  | sequence items => cases h

namespace Reply.AddsNo

variable {key : String} {ts : List Token}

theorem draft {d : Draft} (h : ∀ v, d.properties.get? key = some v → Carried key ts v) :
    (Reply.draft d).AddsNo key ts := by
  intro e he
  rw [List.mem_singleton.1 he]
  exact h

theorem nothing : Reply.nothing.AddsNo key ts := by
  intro d hd
  cases hd

/-- A reply that keeps a token passes on what that token carries. -/
theorem keep {cx : Context} (hcx : cx ∈ contexts ts) : (Reply.keep cx.token).AddsNo key ts :=
  .draft fun _ hv => ⟨cx.token, Context.token_mem hcx, hv⟩

theorem keepIf {cx : Context} (hcx : cx ∈ contexts ts) (test : Bool) :
    (keepIf test cx).AddsNo key ts := by
  cases test with
  | true => exact keep hcx
  | false => exact nothing

theorem sequence {items : List Reply} (h : ∀ r ∈ items, r.AddsNo key ts) :
    (Reply.sequence items).AddsNo key ts := by
  intro d hd
  obtain ⟨p, hp, hdraft⟩ := List.mem_filterMap.1 hd
  obtain ⟨r, hr, rfl⟩ := List.mem_map.1 hp
  exact h r hr d (mem_drafts_of_element hdraft)

/-- Tokens found inside another one, given as they stand there. -/
theorem locals {us : List Token} (h : ∀ v, Carried key us v → Carried key ts v) :
    (Reply.sequence (us.map fun u => .draft (.atOwnIndex u))).AddsNo key ts := by
  refine sequence fun reply hreply => ?_
  obtain ⟨u, hu, rfl⟩ := List.mem_map.1 hreply
  exact draft fun v hv => h v ⟨u, hu, hv⟩

end Reply.AddsNo

section Sources

variable [Regex.Engine]

mutual

/--
No function in the pass puts a value under the name that the tokens around it do not carry.  Nothing is
asked of what is merged, since merging drops all values.
-/
inductive Pass.AddsNo (key : String) : Pass → Prop where
  | each (keepProperties : Bool) {f : Transform} (h : f.AddsNo key) :
      Pass.AddsNo key (.each keepProperties f)
  | stored (keepProperties : Bool) (job : StoredJob) : Pass.AddsNo key (.stored keepProperties job)
  | mergeRuns (keepProperties : Bool) (f : Transform) (filler : String) :
      Pass.AddsNo key (.mergeRuns keepProperties f filler)

inductive Transform.AddsNo (key : String) : Transform → Prop where
  /-- Functions that put no value under the name, or pass on one that they see. -/
  | function {f : Context → Except Fault Reply}
      (h : ∀ ts, ∀ cx ∈ contexts ts, ∀ reply, f cx = .ok reply → reply.AddsNo key ts) :
      Transform.AddsNo key (.function f)
  | find (flags : Flags) (r : Regex flags) (mode : Mode) : Transform.AddsNo key (.find flags r mode)
  | report (label : String) : Transform.AddsNo key (.report label)
  | chain {passes : List Pass} (h : ChainAddsNo key passes) : Transform.AddsNo key (.chain passes)
  | choose (condition : Context → Except Fault Bool) {yes no : Transform} (hyes : yes.AddsNo key)
      (hno : no.AddsNo key) : Transform.AddsNo key (.choose condition yes no)
  | gather {items : List Transform} (h : ItemsAddNo key items) : Transform.AddsNo key (.gather items)

inductive ChainAddsNo (key : String) : List Pass → Prop where
  | nil : ChainAddsNo key []
  | cons {p : Pass} {rest : List Pass} (h : p.AddsNo key) (hrest : ChainAddsNo key rest) :
      ChainAddsNo key (p :: rest)

inductive ItemsAddNo (key : String) : List Transform → Prop where
  | nil : ItemsAddNo key []
  | cons {f : Transform} {rest : List Transform} (h : f.AddsNo key) (hrest : ItemsAddNo key rest) :
      ItemsAddNo key (f :: rest)

end

/-- What is found in a text carries nothing. -/
theorem Finding.properties_of_mem_drafts {flags : Flags} {r : Regex flags} {mode : Mode} {text : String}
    {d : Draft} (h : d ∈ Finding.drafts r mode text) : d.properties = .empty := by
  obtain ⟨segment, -, hsegment⟩ := List.mem_filterMap.1 h
  cases segment with
  | gap position text =>
      obtain ⟨-, hgap⟩ := Option.ite_none_right_eq_some.1 hsegment
      rw [← Option.some.inj hgap]
      rfl
  | hit position c =>
      rw [← Option.some.inj hsegment]
      rfl

theorem Reply.AddsNo.found {key : String} {ts : List Token} {flags : Flags} (r : Regex flags)
    (mode : Mode) (text : String) :
    (Reply.sequence ((Finding.drafts r mode text).map .draft)).AddsNo key ts := by
  refine sequence fun reply hreply => ?_
  obtain ⟨d, hd, rfl⟩ := List.mem_map.1 hreply
  refine draft fun v hv => ?_
  rw [Finding.properties_of_mem_drafts hd] at hv
  cases hv

/-! ## §4. Where values come from. -/

section Results

variable {key : String} {recording : Bool}

/-- Results made of replies that add no value carry what their own tokens do, or others around them. -/
theorem carried_of_replies {p : Pass} (hp : ¬ p.Merges) {ts out : List Token}
    (hreply : ∀ cx ∈ contexts ts, ∀ reply, p.replyFor recording cx = .ok reply → reply.AddsNo key ts)
    (h : (p.run ts).answer recording = .ok out) {v : Value} (hv : Carried key out v) :
    Carried key ts v := by
  obtain ⟨u, hu, hv⟩ := hv
  obtain ⟨cx, hcx, reply, hanswer, d, hd, hmade⟩ := exists_draft_of_mem hp h hu
  have hdraft : ∀ w, d.properties.get? key = some w → Carried key ts w := hreply cx hcx reply hanswer d hd
  rw [hmade.property] at hv
  split at hv
  · rcases Option.or_eq_some_iff.1 hv with hv | ⟨-, hv⟩
    · exact hdraft v hv
    · exact ⟨cx.token, Context.token_mem hcx, hv⟩
  · exact hdraft v hv

mutual

theorem Transform.AddsNo.answered : {f : Transform} → f.AddsNo key → ∀ {ts : List Token} {cx : Context},
    cx ∈ contexts ts → ∀ {reply : Reply}, (f.run cx).answer recording = .ok reply →
      reply.AddsNo key ts
  | _, .function h, ts, cx, hcx, reply, hreply => by
      rw [answer_function] at hreply
      exact h ts cx hcx reply hreply
  | _, .find flags r mode, ts, cx, _, reply, hreply => by
      rw [answer_find] at hreply
      rw [← Except.ok.inj hreply]
      exact .found r mode cx.value
  | _, .report label, ts, cx, hcx, reply, hreply => by
      have hkeep : reply = .keep cx.token := by
        rw [answer_report] at hreply
        split at hreply
        · obtain ⟨stop, -, hkept⟩ := map_eq_ok_iff.1 hreply
          exact hkept.symm
        · exact (Except.ok.inj hreply).symm
      rw [hkeep]
      exact .keep hcx
  | _, .chain h, ts, cx, _, reply, hreply => by
      rw [answer_chain] at hreply
      obtain ⟨us, hus, rfl⟩ := map_eq_ok_iff.1 hreply
      refine .locals fun v hv => ?_
      -- inside a token everything starts from a root, which carries nothing
      obtain ⟨t, ht, hvalue⟩ := h.carried hus hv
      rw [List.mem_singleton.1 ht] at hvalue
      cases hvalue
  | _, .choose condition hyes hno, ts, cx, hcx, reply, hreply => by
      rw [answer_choose] at hreply
      obtain ⟨b, -, hreply⟩ := bind_eq_ok_iff.1 hreply
      cases b with
      | true => exact hyes.answered hcx hreply
      | false => exact hno.answered hcx hreply
  | _, .gather h, ts, cx, hcx, reply, hreply => by
      rw [answer_gather] at hreply
      obtain ⟨replies, hreplies, rfl⟩ := map_eq_ok_iff.1 hreply
      exact .sequence (h.answered hcx hreplies)

theorem ItemsAddNo.answered : {items : List Transform} → ItemsAddNo key items →
    ∀ {ts : List Token} {cx : Context}, cx ∈ contexts ts →
      ∀ {replies : List Reply}, (runItems items cx).answer recording = .ok replies →
        ∀ r ∈ replies, r.AddsNo key ts
  | _, .nil, ts, cx, _, replies, hreplies => by
      rw [answer_runItems_nil] at hreplies
      cases hreplies
      intro r hr
      cases hr
  | _, .cons h hrest, ts, cx, hcx, replies, hreplies => by
      rw [answer_runItems_cons] at hreplies
      obtain ⟨reply, hreply, hreplies⟩ := bind_eq_ok_iff.1 hreplies
      obtain ⟨more, hmore, rfl⟩ := map_eq_ok_iff.1 hreplies
      intro r hr
      rcases List.mem_cons.1 hr with rfl | hr
      · exact h.answered hcx hreply
      · exact hrest.answered hcx hmore r hr

/-- Passes one after the other that add no value leave none but those they started with. -/
theorem ChainAddsNo.carried : {passes : List Pass} → ChainAddsNo key passes → ∀ {ts out : List Token},
    (runChain passes ts).answer recording = .ok out → ∀ {v : Value}, Carried key out v →
      Carried key ts v
  | _, .nil, ts, out, hout, v, hv => by
      rw [answer_runChain_nil] at hout
      cases hout
      exact hv
  | _, .cons h hrest, ts, out, hout, v, hv => by
      rw [answer_runChain_cons] at hout
      obtain ⟨mid, hmid, hout⟩ := bind_eq_ok_iff.1 hout
      exact h.carried hmid (hrest.carried hout hv)

/-- A value under the name that a result carries was carried by one of the tokens. -/
theorem Pass.AddsNo.carried : {p : Pass} → p.AddsNo key → ∀ {ts out : List Token},
    (p.run ts).answer recording = .ok out → ∀ {v : Value}, Carried key out v → Carried key ts v
  | _, .each keepProperties h, ts, out, hout, v, hv =>
      carried_of_replies (p := .each keepProperties _) id (fun _ hcx _ hreply => h.answered hcx hreply)
        hout hv
  | _, .stored keepProperties job, ts, out, hout, v, hv => by
      refine carried_of_replies id (fun cx hcx reply hreply => ?_) hout hv
      cases job with
      | find r mode =>
          have hfound : (runFind r mode cx).answer recording = .ok reply := hreply
          rw [answer_runFind] at hfound
          rw [← Except.ok.inj hfound]
          exact .found r mode cx.value
      | matching r =>
          have hkept : Except.ok (keepIf (r.isMatch cx.value.toList) cx) = .ok reply := hreply
          rw [← Except.ok.inj hkept]
          exact .keepIf hcx _
  | _, .mergeRuns keepProperties f filler, ts, out, hout, v, hv => by
      rw [answer_mergeRuns] at hout
      obtain ⟨items, -, hmerge⟩ := bind_eq_ok_iff.1 hout
      obtain ⟨u, hu, hvalue⟩ := hv
      have hempty : u.properties = .empty := properties_of_mem_mergeAll hmerge hu
      unfold Token.property at hvalue
      rw [hempty] at hvalue
      cases hvalue

end

end Results

/-! ## §5. What is built without adding a value. -/

section Builders

variable {key : String} (s : Settings)

theorem Transform.AddsNo.keep : Transform.keep.AddsNo key :=
  .function fun _ cx hcx reply hreply => by
    rw [← Except.ok.inj hreply]
    exact .keep hcx

theorem Settings.filter_addsNo (condition : Context → Except Fault Bool) :
    (s.filter condition).AddsNo key := by
  refine .each _ (.function fun ts cx hcx reply hreply => ?_)
  obtain ⟨b, -, rfl⟩ := map_eq_ok_iff.1 hreply
  exact .keepIf hcx b

/-- Annotating adds a value under no name but those it hands out. -/
theorem Settings.annotateWith_addsNo {values : Context → Except Fault Properties}
    (h : ∀ cx more, values cx = .ok more → more.get? key = none) :
    (s.annotateWith values).AddsNo key := by
  refine .each _ (.function fun ts cx hcx reply hreply => ?_)
  obtain ⟨more, hmore, rfl⟩ := map_eq_ok_iff.1 hreply
  refine .draft fun v hv => ⟨cx.token, Context.token_mem hcx, ?_⟩
  have hboth : (cx.token.properties.override more).get? key = some v := hv
  rw [KeyMap.get?_override, h cx more hmore, Option.none_or] at hboth
  exact hboth

theorem Settings.annotate_addsNo {values : Properties} (h : values.get? key = none) :
    (s.annotate values).AddsNo key :=
  s.annotateWith_addsNo fun _ more hmore => by rw [← Except.ok.inj hmore, h]

theorem Settings.onlyWhere_addsNo (condition : Context → Except Fault Bool) {f : Transform}
    (h : f.AddsNo key) : (s.onlyWhere condition f).AddsNo key :=
  .each _ (.choose condition h .keep)

end Builders

/-! ## §6. What stays. -/

/-- What all tokens carry, the results of a pass that keeps values and adds none under the name carry, too. -/
theorem Pass.AddsNo.survives {p : Pass} {key : String} (h : p.AddsNo key) (hp : ¬ p.Merges)
    (hkeep : p.keepsProperties = true) {recording : Bool} {value : Value} {ts out : List Token}
    (hts : ∀ t ∈ ts, t.property key = some value) (hout : (p.run ts).answer recording = .ok out) :
    ∀ u ∈ out, u.property key = some value := by
  intro u hu
  obtain ⟨cx, hcx, reply, -, d, -, hmade⟩ := exists_draft_of_mem hp hout hu
  -- the token of the result carries the value, so the result has some value under the name
  have hsome : ∃ v, u.property key = some v := by
    rw [hmade.property, hkeep, if_pos rfl, hts cx.token (Context.token_mem hcx)]
    cases d.properties.get? key with
    | none => exact ⟨value, rfl⟩
    | some v => exact ⟨v, rfl⟩
  obtain ⟨v, hv⟩ := hsome
  obtain ⟨t, ht, htv⟩ := h.carried hout ⟨u, hu, hv⟩
  rw [hv, ← htv]
  exact hts t ht

/-- Passes one after the other keep what each of them keeps. -/
theorem chain_survives {key : String} {value : Value} {recording : Bool} {passes : List Pass}
    (hpasses : ∀ p ∈ passes, ¬ p.Merges ∧ p.keepsProperties = true ∧ p.AddsNo key)
    {ts out : List Token} (hts : ∀ t ∈ ts, t.property key = some value)
    (hout : (runChain passes ts).answer recording = .ok out) :
    ∀ u ∈ out, u.property key = some value := by
  induction passes generalizing ts with
  | nil =>
      rw [answer_runChain_nil] at hout
      cases hout
      exact hts
  | cons p rest ih =>
      rw [answer_runChain_cons] at hout
      obtain ⟨mid, hmid, hout⟩ := bind_eq_ok_iff.1 hout
      obtain ⟨hp, hkeep, hadds⟩ := hpasses p List.mem_cons_self
      exact ih (fun q hq => hpasses q (List.mem_cons_of_mem _ hq))
        (hadds.survives hp hkeep hts hmid) hout

/--
A value that all tokens carry is carried by all results of passes that keep values, merge nothing themselves
and add no value under its name, whatever happens inside tokens.  And the results of a single pass
that merges nothing are made of the drafts answered for its tokens, in order: they carry what
their draft was given and, if values are kept, what their token carries under further names.
-/
theorem properties_survive_passes (recording : Bool) :
    (∀ (key : String) (value : Value) (passes : List Pass) (ts out : List Token),
      (∀ p ∈ passes, ¬ p.Merges ∧ p.keepsProperties = true ∧ p.AddsNo key) →
      (∀ t ∈ ts, t.property key = some value) → (runChain passes ts).answer recording = .ok out →
        ∀ u ∈ out, u.property key = some value) ∧
    ∀ (p : Pass) (ts out : List Token), ¬ p.Merges → (p.run ts).answer recording = .ok out →
      ∃ groups, out = groups.flatten ∧
        List.Forall₂ (fun cx group => ∃ reply, p.replyFor recording cx = .ok reply ∧
          List.Forall₂ (Token.MadeOf p.keepsProperties cx.token) reply.drafts group)
          (contexts ts) groups :=
  ⟨fun _ _ _ _ _ hpasses hts hout => chain_survives hpasses hts hout,
    fun _ _ _ hp hout => answer_run_eq_ok hp hout⟩

end Sources

/--
Words are merged inside a token, where their own values are dropped, and the result is annotated: what the
token carried stays.  Without keeping values, words carry nothing.
-/
theorem property_kept_around_merged_words :
    let doc := Value.ofString "intro"
    let t := (Token.ofText "ab cd" 3).withProperty "doc" doc
    (let s : Settings := {}
      let replace := Transform.function fun cx =>
        .ok (.draft ((Draft.ofToken cx.token).withProperty "doc" (.ofNat 0)))
      let inside := Transform.chain [s.preset .words, s.mergeRuns replace "-"]
      let passes := [s.onlyWhere (fun cx => .ok cx.next.isNone) inside,
        s.annotate (.ofList [("n", .ofNat 1)]), s.filter fun _ => .ok true]
      let u := (((Token.ofText "ab-cd" 3).withProperty "doc" doc).withProperty "n" (.ofNat 1))
      (∀ p ∈ passes, ¬ p.Merges ∧ p.keepsProperties = true ∧ p.AddsNo "doc") ∧
        t.property "doc" = some doc ∧ (runChain passes [t]).answer false = .ok [u] ∧
        u.property "doc" = some doc) ∧
    (let tail := (Draft.ofText " cd").withProperty "n" (.ofNat 1)
      let cutUp := Transform.function fun _ => .ok (.sequence [.text "ab", .cut, .draft tail])
      let p := ({ keepProperties := false } : Settings).each cutUp
      let out := [Token.ofText "ab" 3, (Token.ofText " cd" 5).withProperty "n" (.ofNat 1)]
      ¬ p.Merges ∧ (p.run [t]).answer false = .ok out ∧
        ∃ groups, out = groups.flatten ∧
          List.Forall₂ (fun cx group => ∃ reply, p.replyFor false cx = .ok reply ∧
            List.Forall₂ (Token.MadeOf false cx.token) reply.drafts group)
            (contexts [t]) groups) := by
  intro doc t
  constructor
  · intro s replace inside passes u
    have hdoc : t.property "doc" = some doc := by decide +kernel
    have hrun : (runChain passes [t]).answer false = .ok [u] := by decide +kernel
    have hpasses : ∀ p ∈ passes, ¬ p.Merges ∧ p.keepsProperties = true ∧ p.AddsNo "doc" := by
      intro p hp
      simp only [passes, List.mem_cons, List.not_mem_nil, or_false] at hp
      rcases hp with rfl | rfl | rfl
      · have hinside : inside.AddsNo "doc" :=
          .chain (.cons (.stored _ _) (.cons (.mergeRuns _ _ _) .nil))
        exact ⟨id, rfl, s.onlyWhere_addsNo _ hinside⟩
      · exact ⟨id, rfl, s.annotate_addsNo (by decide +kernel)⟩
      · exact ⟨id, rfl, s.filter_addsNo _⟩
    have hts : ∀ t' ∈ [t], t'.property "doc" = some doc := by
      intro t' ht'
      rw [List.mem_singleton.1 ht']
      exact hdoc
    have hall := (properties_survive_passes false).1 "doc" doc passes [t] [u] hpasses hts hrun
    exact ⟨hpasses, hdoc, hrun, hall u List.mem_cons_self⟩
  · intro tail cutUp p out
    have hrun : (p.run [t]).answer false = .ok out := by decide +kernel
    exact ⟨id, hrun, (properties_survive_passes false).2 p [t] out id hrun⟩

end TokenSpan
