/-
  TokenSpan.Proofs.Success
  ────────────────────────
  When passes succeed, and what is true of their results.

  A pass fails only if the reply for one of its tokens does, or has no place.  So what a
  transform does with single tokens decides: `Leads` says that tokens of one kind get
  replies with places, and what is true of the tokens that stand there.

  Main results:
  * `expandAll_eq_ok` — a pass succeeds if it does on each token, and its result is made of
    what it makes of each token;
  * `Leads.report`, `Leads.keepIf`, `Leads.choose` — what replies are built from;
  * `collect_eq_ok_iff`, `collect_eq_error_iff` — results and first faults, one member after the other;
  * `runChain_keeps` — what each pass keeps is kept by passes one after the other.
-/
import Mathlib.Data.List.Forall2
import TokenSpan.Proofs.Placing
import TokenSpan.Proofs.Uncached

namespace TokenSpan

/-! ## §1. From tokens to sequences. -/

/--
A computation that answers a reply with a place for the token of each context makes something of
the whole sequence: what it makes of the tokens, in order.
-/
theorem expandAll_eq_ok {keepProperties : Bool} {f : Context → Except Fault Reply}
    {S : Token → List (Option Token) → Prop} {cxs : List Context}
    (h : ∀ cx ∈ cxs, ∃ reply items, f cx = .ok reply ∧
      placeReply keepProperties cx.token reply = .ok items ∧ S cx.token items) :
    ∃ groups, expandAll keepProperties f cxs = .ok groups.flatten ∧
      List.Forall₂ S (cxs.map (·.token)) groups := by
  induction cxs with
  | nil => exact ⟨[], rfl, .nil⟩
  | cons cx rest ih =>
      obtain ⟨reply, items, hf, hp, hS⟩ := h cx List.mem_cons_self
      obtain ⟨groups, hg, hall⟩ := ih fun c hc => h c (List.mem_cons_of_mem _ hc)
      refine ⟨items :: groups, ?_, .cons hS hall⟩
      unfold expandAll
      rw [hf, Except.bind, hp, Except.bind, hg]
      rfl

/-- What is made of a token comes from one of the tokens. -/
theorem exists_of_mem_forall₂ {α β : Type} {S : α → β → Prop} {as : List α} {bs : List β}
    (h : List.Forall₂ S as bs) {b : β} (hb : b ∈ bs) : ∃ a ∈ as, S a b := by
  induction h with
  | nil => cases hb
  | cons hS _ ih =>
      rcases List.mem_cons.1 hb with rfl | hb
      · exact ⟨_, List.mem_cons_self, hS⟩
      · obtain ⟨a, ha, hab⟩ := ih hb
        exact ⟨a, List.mem_cons_of_mem _ ha, hab⟩

/-- The same where the result for a token is told by its context. -/
theorem expandAll_eq_ok_of_contexts {keepProperties : Bool} {f : Context → Except Fault Reply}
    {g : Context → List (Option Token)} {cxs : List Context}
    (h : ∀ cx ∈ cxs, ∃ reply, f cx = .ok reply ∧
      placeReply keepProperties cx.token reply = .ok (g cx)) :
    expandAll keepProperties f cxs = .ok (cxs.flatMap g) := by
  induction cxs with
  | nil => rfl
  | cons cx rest ih =>
      obtain ⟨reply, hf, hp⟩ := h cx List.mem_cons_self
      have hrest := ih fun c hc => h c (List.mem_cons_of_mem _ hc)
      unfold expandAll
      rw [hf, Except.bind, hp, Except.bind, hrest]
      rfl

/-- The same where the result for a token depends on nothing but the token. -/
theorem expandAll_eq_ok_flatMap {keepProperties : Bool} {f : Context → Except Fault Reply}
    {g : Token → List (Option Token)} {cxs : List Context}
    (h : ∀ cx ∈ cxs, ∃ reply, f cx = .ok reply ∧
      placeReply keepProperties cx.token reply = .ok (g cx.token)) :
    expandAll keepProperties f cxs = .ok ((cxs.map (·.token)).flatMap g) := by
  rw [List.flatMap_map]
  exact expandAll_eq_ok_of_contexts h

theorem Context.token_mem {cx : Context} {tokens : List Token} (h : cx ∈ contexts tokens) :
    cx.token ∈ tokens := by
  rw [← map_token_contexts tokens]
  exact List.mem_map_of_mem h

/-- Replies made of tokens found in the texts of the tokens replace each token by those. -/
theorem expandAll_locals {keepProperties : Bool} {f : Context → Except Fault Reply}
    {emit : String → List Token} {ts : List Token}
    (hroom : ∀ t ∈ ts, ∀ u ∈ emit t.value, t.HasRoom u)
    (hf : ∀ cx ∈ contexts ts,
      f cx = .ok (.sequence ((emit cx.value).map fun u => .draft (.atOwnIndex u)))) :
    (expandAll keepProperties f (contexts ts)).map (·.filterMap id)
      = .ok (ts.flatMap fun t => (emit t.value).map (t.adopt keepProperties)) := by
  -- what a token leads to depends on that token alone
  have hall : ∀ cx ∈ contexts ts, ∃ reply, f cx = .ok reply ∧
      placeReply keepProperties cx.token reply
        = .ok (((emit cx.token.value).map (cx.token.adopt keepProperties)).map some) := by
    intro cx hcx
    refine ⟨_, hf cx hcx, ?_⟩
    rw [List.map_map]
    exact placeReply_locals (hroom cx.token (Context.token_mem hcx))
  rw [expandAll_eq_ok_flatMap
      (g := fun t => ((emit t.value).map (t.adopt keepProperties)).map some) hall,
    map_token_contexts]
  show Except.ok ((List.flatMap _ ts).filterMap id) = _
  rw [List.filterMap_flatMap]
  simp

/-! ## §2. Replies. -/

/-- Tokens of which `P` is true get replies with places, and `S` is true of what stands there. -/
def Leads (keepProperties : Bool) (P : Token → Prop) (S : Token → List (Option Token) → Prop)
    (f : Context → Except Fault Reply) : Prop :=
  ∀ cx, P cx.token → ∃ reply items, f cx = .ok reply ∧
    placeReply keepProperties cx.token reply = .ok items ∧ S cx.token items

namespace Leads

variable {keepProperties recording : Bool} {P : Token → Prop}
  {S : Token → List (Option Token) → Prop}

/-- What is made of a sequence is what is made of its tokens. -/
theorem expandAll {f : Context → Except Fault Reply} (hf : Leads keepProperties P S f)
    {ts : List Token} (hts : ∀ t ∈ ts, P t) :
    ∃ groups, expandAll keepProperties f (contexts ts) = .ok groups.flatten ∧
      List.Forall₂ S ts groups := by
  have hall := expandAll_eq_ok fun cx hcx => hf cx (hts cx.token (Context.token_mem hcx))
  rw [map_token_contexts] at hall
  exact hall

/-- Keeping some tokens and dropping the others. -/
theorem keepIf (hkeep : Leads keepProperties P S fun cx => .ok (.keep cx.token))
    (hdrop : Leads keepProperties P S fun _ => .ok .nothing) (condition : Context → Bool) :
    Leads keepProperties P S fun cx => .ok (keepIf (condition cx) cx) := by
  intro cx hcx
  cases hc : condition cx with
  | true => simpa [TokenSpan.keepIf, hc] using hkeep cx hcx
  | false => simpa [TokenSpan.keepIf, hc] using hdrop cx hcx

variable [Regex.Engine]

/-- A report does what keeping the token does, if the end of the token can be told. -/
theorem report (hkeep : Leads keepProperties P S fun cx => .ok (.keep cx.token))
    (hstop : ∀ t, P t → t.index + t.offset < positionBound) (label : String) :
    Leads keepProperties P S fun cx => ((Transform.report label).run cx).answer recording := by
  intro cx hcx
  have hend : cx.token.stop = .ok (cx.token.index + cx.token.offset) :=
    addPositions_eq_ok (hstop cx.token hcx)
  have hreply : ((Transform.report label).run cx).answer recording = .ok (.keep cx.token) := by
    rw [answer_report, hend]
    cases recording <;> rfl
  obtain ⟨reply, items, hr, hitems⟩ := hkeep cx hcx
  exact ⟨reply, items, hreply.trans hr, hitems⟩

/-- A choice between two transforms. -/
theorem choose {f g : Transform} (condition : Context → Bool)
    (hf : Leads keepProperties P S fun cx => (f.run cx).answer recording)
    (hg : Leads keepProperties P S fun cx => (g.run cx).answer recording) :
    Leads keepProperties P S fun cx =>
      ((Transform.choose (fun cx => .ok (condition cx)) f g).run cx).answer recording := by
  intro cx hcx
  simp only [answer_choose, Except.bind]
  by_cases hc : condition cx
  · rw [if_pos hc]
    exact hf cx hcx
  · rw [if_neg hc]
    exact hg cx hcx

end Leads

/-! ## §3. Results and first faults. -/

/-- What is made of the members of a list, one after the other, up to the first fault. -/
def collect {α β : Type} (g : α → Except Fault (List β)) : List α → Except Fault (List β)
  | [] => .ok []
  | a :: rest => (g a).bind fun first => (collect g rest).map (first ++ ·)

section Collect

variable {α β : Type} {g : α → Except Fault (List β)}

theorem collect_congr {h : α → Except Fault (List β)} {as : List α} (hgh : ∀ a ∈ as, g a = h a) :
    collect g as = collect h as := by
  induction as with
  | nil => rfl
  | cons a rest ih =>
      unfold collect
      rw [hgh a List.mem_cons_self, ih fun b hb => hgh b (List.mem_cons_of_mem _ hb)]

/-- One thing is made of each selected member, and nothing of the others. -/
theorem collect_select {p : α → Bool} {f : α → β} {as : List α}
    (h : ∀ a ∈ as, g a = .ok (if p a then [f a] else [])) :
    collect g as = .ok ((as.filter p).map f) := by
  induction as with
  | nil => rfl
  | cons a rest ih =>
      unfold collect
      rw [h a List.mem_cons_self, ih fun b hb => h b (List.mem_cons_of_mem _ hb), List.filter_cons]
      cases p a <;> rfl

/-- One thing is made of each member. -/
theorem collect_each {f : α → β} {as : List α} (h : ∀ a ∈ as, g a = .ok [f a]) :
    collect g as = .ok (as.map f) := by
  rw [collect_select (p := fun _ => true) h, List.filter_true]

theorem collect_append (as bs : List α) :
    collect g (as ++ bs) = (collect g as).bind fun first => (collect g bs).map (first ++ ·) := by
  induction as with
  | nil =>
      show collect g bs = (collect g bs).map fun more => [] ++ more
      cases collect g bs <;> rfl
  | cons a rest ih =>
      show (g a).bind _ = ((g a).bind _).bind _
      cases g a with
      | error e => rfl
      | ok first =>
          show (collect g (rest ++ bs)).map _ = ((collect g rest).map _).bind _
          rw [ih]
          cases collect g rest with
          | error e => rfl
          | ok mid =>
              show ((collect g bs).map _).map _ = (collect g bs).map _
              cases collect g bs with
              | error e => rfl
              | ok more => exact congrArg Except.ok (List.append_assoc first mid more).symm

/-- The result is made of what is made of the members, in order. -/
theorem collect_eq_ok_iff {as : List α} {out : List β} :
    collect g as = .ok out ↔
      ∃ groups, List.Forall₂ (fun a group => g a = .ok group) as groups ∧ out = groups.flatten := by
  induction as generalizing out with
  | nil =>
      constructor
      · intro h
        exact ⟨[], .nil, (Except.ok.inj h).symm⟩
      · rintro ⟨groups, hgroups, rfl⟩
        cases hgroups
        rfl
  | cons a rest ih =>
      show (g a).bind _ = _ ↔ _
      rw [bind_eq_ok_iff]
      constructor
      · rintro ⟨first, hfirst, hrest⟩
        obtain ⟨more, hmore, rfl⟩ := map_eq_ok_iff.1 hrest
        obtain ⟨groups, hgroups, rfl⟩ := ih.1 hmore
        exact ⟨first :: groups, .cons hfirst hgroups, rfl⟩
      · rintro ⟨groups, hgroups, rfl⟩
        obtain ⟨first, more, hfirst, hmore, rfl⟩ := List.forall₂_cons_left_iff.1 hgroups
        exact ⟨first, hfirst, map_eq_ok_iff.2 ⟨_, ih.2 ⟨more, hmore, rfl⟩, rfl⟩⟩

/-- The fault is that of the first member that fails. -/
theorem collect_eq_error_iff {as : List α} {e : Fault} :
    collect g as = .error e ↔
      ∃ before a after, as = before ++ a :: after ∧
        (∀ b ∈ before, ∃ group, g b = .ok group) ∧ g a = .error e := by
  induction as with
  | nil =>
      constructor
      · intro h
        cases h
      · rintro ⟨before, a, after, h, _⟩
        exact absurd h (by simp)
  | cons a rest ih =>
      show (g a).bind _ = _ ↔ _
      rw [bind_eq_error_iff]
      constructor
      · rintro (hfirst | ⟨first, hfirst, hrest⟩)
        · exact ⟨[], a, rest, rfl, List.forall_mem_nil _, hfirst⟩
        · obtain ⟨before, b, after, rfl, hbefore, hb⟩ := ih.1 (map_eq_error_iff.1 hrest)
          exact ⟨a :: before, b, after, rfl, List.forall_mem_cons.2 ⟨⟨first, hfirst⟩, hbefore⟩, hb⟩
      · rintro ⟨before, b, after, hsplit, hbefore, hb⟩
        cases before with
        | nil =>
            obtain ⟨rfl, rfl⟩ := List.cons.inj hsplit
            exact .inl hb
        | cons c before =>
            obtain ⟨rfl, rfl⟩ := List.cons.inj hsplit
            obtain ⟨⟨first, hfirst⟩, hbefore⟩ := List.forall_mem_cons.1 hbefore
            exact .inr ⟨first, hfirst, map_eq_error_iff.2 (ih.2 ⟨before, b, after, rfl, hbefore, hb⟩)⟩

end Collect

/-- What the reply for the token of a context leads to, cuts left out. -/
def expandContext (keepProperties : Bool) (f : Context → Except Fault Reply) (cx : Context) :
    Except Fault (List Token) :=
  (f cx).bind fun reply => (placeReply keepProperties cx.token reply).map (·.filterMap id)

/-- The tokens that replies lead to are those that each reply leads to, in order. -/
theorem expandAll_eq_collect (keepProperties : Bool) (f : Context → Except Fault Reply)
    (cxs : List Context) :
    (expandAll keepProperties f cxs).map (·.filterMap id)
      = collect (expandContext keepProperties f) cxs := by
  induction cxs with
  | nil => rfl
  | cons cx rest ih =>
      unfold expandAll collect
      rw [← ih]
      unfold expandContext
      cases f cx with
      | error e => rfl
      | ok reply =>
          show ((placeReply keepProperties cx.token reply).bind _).map _
            = ((placeReply keepProperties cx.token reply).map _).bind _
          cases placeReply keepProperties cx.token reply with
          | error e => rfl
          | ok items =>
              show ((expandAll keepProperties f rest).map _).map _
                = ((expandAll keepProperties f rest).map _).map _
              cases expandAll keepProperties f rest with
              | error e => rfl
              | ok more => exact congrArg Except.ok List.filterMap_append

/-! ## §4. Passes one after the other. -/

/-- What each of several passes keeps is kept by running them one after the other. -/
theorem runChain_keeps [Regex.Engine] {I : List Token → Prop} {passes : List Pass} {recording : Bool}
    (h : ∀ p ∈ passes, ∀ ts, I ts → ∃ out, (p.run ts).answer recording = .ok out ∧ I out)
    {ts : List Token} (hts : I ts) :
    ∃ out, (runChain passes ts).answer recording = .ok out ∧ I out := by
  -- the tokens change from pass to pass, what is kept does not
  induction passes generalizing ts with
  | nil => exact ⟨ts, answer_runChain_nil ts recording, hts⟩
  | cons p rest ih =>
      obtain ⟨mid, hmid, hkept⟩ := h p List.mem_cons_self ts hts
      obtain ⟨out, hout, hI⟩ := ih (fun q hq => h q (List.mem_cons_of_mem _ hq)) hkept
      refine ⟨out, ?_, hI⟩
      rw [answer_runChain_cons, hmid]
      exact hout

end TokenSpan
