/-
  TokenSpan.Proofs.AgreeingRuns
  ─────────────────────────────
  Runs that agree: the same faults, agreeing results, the same use of the cache.

  Two runs are compared from caches that hold agreeing tokens under the same keys, in the
  same order of use.  They agree if from any such caches they fail alike or lead to related
  results, leave such caches again, and make the same calls.  Composition keeps this, and so
  does everything that is built by composition from agreeing parts.

  Main results:
  * `Cache.Alike.get?`, `Cache.Alike.insert` — looking and storing keep caches alike;
  * `agrees_bind` — composed runs agree if their parts do;
  * `agrees_transformContexts`, `agrees_remember` — so do runs over sequences, and stored ones.
-/
import TokenSpan.Proofs.Agreement
import TokenSpan.Proofs.CacheContents

namespace TokenSpan

/-! ## §1. Caches. -/

/-- The tokens of both sequences differ in the values they carry, if at all. -/
abbrev AllAlike : List Token → List Token → Prop := List.Forall₂ Token.Alike

theorem AllAlike.refl (ts : List Token) : AllAlike ts ts :=
  List.forall₂_same.2 fun t _ => Token.Alike.refl t

/-- Entries with the same key, and tokens that differ in the values they carry, if at all. -/
def EntryAlike (a b : String × List Token) : Prop := a.1 = b.1 ∧ AllAlike a.2 b.2

/-- Caches of one kind and room that differ in the values of the tokens they hold, if at all. -/
inductive Cache.Alike : Cache → Cache → Prop where
  | off : Cache.Alike .off .off
  /-- Caches of the same room, with the same keys in the same order of use. -/
  | recent {s t : RecentStore (List Token)} (capacity : s.capacity = t.capacity)
      (entries : List.Forall₂ EntryAlike s.entries t.entries) : Cache.Alike (.recent s) (.recent t)
  /-- Caches that keep everything, with the same keys. -/
  | exact {m n : KeyMap (List Token)} (entries : List.Forall₂ EntryAlike m.entries n.entries) :
      Cache.Alike (.exact m) (.exact n)

section Entries

variable {l l' : List (String × List Token)}

theorem lookup_alike (h : List.Forall₂ EntryAlike l l') (key : String) :
    Option.Rel AllAlike (l.lookup key) (l'.lookup key) := by
  induction h with
  | nil => exact .none
  | @cons a b rest rest' hab _ ih =>
      obtain ⟨k, ts⟩ := a
      obtain ⟨k', us⟩ := b
      obtain ⟨hkey, htokens⟩ := hab
      have hkey : k = k' := hkey
      rw [KeyMap.lookup_cons_eq, KeyMap.lookup_cons_eq, hkey]
      by_cases hk : key = k'
      · rw [if_pos hk, if_pos hk]
        exact .some htokens
      · rw [if_neg hk, if_neg hk]
        exact ih

theorem put_alike (h : List.Forall₂ EntryAlike l l') (key : String) {ts us : List Token}
    (htu : AllAlike ts us) : List.Forall₂ EntryAlike (KeyMap.put key ts l) (KeyMap.put key us l') := by
  induction h with
  | nil => exact .cons ⟨rfl, htu⟩ .nil
  | @cons a b rest rest' hab hrest ih =>
      unfold KeyMap.put
      rw [hab.1]
      -- the new entry takes the same place in both lists
      split
      · exact .cons ⟨rfl, htu⟩ (.cons hab hrest)
      · split
        · exact .cons ⟨rfl, htu⟩ hrest
        · exact .cons hab ih

theorem others_alike (h : List.Forall₂ EntryAlike l l') (key : String) :
    List.Forall₂ EntryAlike (RecentStore.others key l) (RecentStore.others key l') := by
  unfold RecentStore.others
  refine List.rel_filter (fun a b hab => ?_) h
  show (a.1 != key) = true ↔ (b.1 != key) = true
  rw [hab.1]

end Entries

theorem moveToFront_alike {s t : RecentStore (List Token)} (hcapacity : s.capacity = t.capacity)
    (h : List.Forall₂ EntryAlike s.entries t.entries) (key : String) {ts us : List Token}
    (htu : AllAlike ts us) :
    List.Forall₂ EntryAlike (s.moveToFront key ts).entries (t.moveToFront key us).entries := by
  unfold RecentStore.moveToFront
  dsimp only
  -- the same number of entries is forgotten
  rw [hcapacity]
  exact List.forall₂_take _ (.cons ⟨rfl, htu⟩ (others_alike h key))

namespace Cache.Alike

theorem refl (c : Cache) : c.Alike c := by
  have hentries : ∀ l : List (String × List Token), List.Forall₂ EntryAlike l l := by
    intro l
    exact List.forall₂_same.2 fun e _ => ⟨rfl, AllAlike.refl e.2⟩
  cases c with
  | off => exact .off
  | recent s => exact .recent rfl (hentries _)
  | exact m => exact .exact (hentries _)

variable {c d : Cache} (h : c.Alike d)
include h

/-- A look-up finds alike tokens, or nothing in both caches, and leaves the caches alike. -/
theorem get? (key : String) :
    Option.Rel AllAlike (c.get? key).1 (d.get? key).1 ∧ (c.get? key).2.Alike (d.get? key).2 := by
  cases h with
  | off => exact ⟨.none, .off⟩
  | exact entries => exact ⟨lookup_alike entries key, .exact entries⟩
  | @recent s t capacity entries =>
      have hfound := lookup_alike entries key
      show Option.Rel AllAlike (s.get? key).1 (t.get? key).1
        ∧ Cache.Alike (.recent (s.get? key).2) (.recent (t.get? key).2)
      unfold RecentStore.get?
      generalize s.entries.lookup key = found at hfound
      generalize t.entries.lookup key = found' at hfound
      cases hfound with
      | none => exact ⟨.none, .recent capacity entries⟩
      | some htu =>
          -- what is found becomes the latest entry of both stores
          exact ⟨.some htu, .recent capacity (moveToFront_alike capacity entries key htu)⟩

/-- Storing alike tokens under the same key keeps caches alike. -/
theorem insert (key : String) {ts us : List Token} (htu : AllAlike ts us) :
    (c.insert key ts).Alike (d.insert key us) := by
  cases h with
  | off => exact .off
  | recent capacity entries => exact .recent capacity (moveToFront_alike capacity entries key htu)
  | exact entries => exact .exact (put_alike entries key htu)

theorem clear : c.clear.Alike d.clear := by
  cases h with
  | off => exact .off
  | recent capacity entries => exact .recent capacity .nil
  | exact entries => exact .exact entries

end Cache.Alike

/-! ## §2. Runs. -/

section Runs

variable {α β γ δ : Type}

/-- The outcomes agree: in result or fault, in the cache that is left, and in the calls to it. -/
structure Outcome.Agrees (R : α → β → Prop) (o : Outcome Cache α) (p : Outcome Cache β) : Prop where
  result : Agree R o.result p.result
  /-- The caches that are left are alike. -/
  cache : o.cache.Alike p.cache
  /-- The calls to the cache are the same: the keys, what was found, how many tokens were stored. -/
  calls : o.calls = p.calls

/-- From caches that are alike the runs lead to outcomes that agree. -/
def Run.Agrees (R : α → β → Prop) (x : Run α) (y : Run β) : Prop :=
  ∀ recording (c d : Cache), c.Alike d → (x.exec recording c).Agrees R (y.exec recording d)

variable {R : α → β → Prop} {S : γ → δ → Prop}

theorem agrees_ofExcept {r : Except Fault α} {s : Except Fault β} (h : Agree R r s) :
    (Run.ofExcept r).Agrees R (Run.ofExcept s) :=
  fun _ _ _ hcd => ⟨h, hcd, rfl⟩

theorem agrees_pure {a : α} {b : β} (h : R a b) : Run.Agrees R (Pure.pure a) (Pure.pure b) :=
  agrees_ofExcept (.ok h)

/-- Composed runs agree if their parts do. -/
theorem agrees_bind {x : Run α} {y : Run β} {f : α → Run γ} {g : β → Run δ} (h : x.Agrees R y)
    (hfg : ∀ a b, R a b → (f a).Agrees S (g b)) : Run.Agrees S (x >>= f) (y >>= g) := by
  intro recording c d hcd
  obtain ⟨hresult, hcache, hcalls⟩ := h recording c d hcd
  cases hx : (x.exec recording c).result with
  | error e =>
      rw [Run.exec_bind_of_error hx, Run.exec_bind_of_error (hresult.eq_error hx)]
      exact ⟨.error e, hcache, hcalls⟩
  | ok a =>
      obtain ⟨b, hy, hab⟩ := hresult.exists_ok hx
      -- the second runs start from the caches that the first ones left
      obtain ⟨hresult', hcache', hcalls'⟩ := hfg a b hab recording _ _ hcache
      rw [Run.exec_bind_of_ok hx, Run.exec_bind_of_ok hy]
      exact ⟨hresult', hcache', congrArg₂ (· ++ ·) hcalls hcalls'⟩

theorem agrees_record (e e' : Event) : (Run.record e).Agrees Eq (Run.record e') :=
  fun _ _ _ hcd => ⟨.ok rfl, hcd, rfl⟩

theorem agrees_recordAll (es es' : List Event) : (Run.recordAll es).Agrees Eq (Run.recordAll es') :=
  fun _ _ _ hcd => ⟨.ok rfl, hcd, rfl⟩

theorem agrees_isRecording : Run.isRecording.Agrees Eq Run.isRecording :=
  fun _ _ _ hcd => ⟨.ok rfl, hcd, rfl⟩

theorem agrees_lookup (key : String) :
    (Run.lookup key).Agrees (Option.Rel AllAlike) (Run.lookup key) := by
  intro recording c d hcd
  obtain ⟨hfound, hcache⟩ := hcd.get? key
  exact ⟨.ok hfound, hcache, congrArg (fun hit => [CacheCall.get key hit]) (isSome_eq_of_rel hfound)⟩

theorem agrees_store (key : String) {ts us : List Token} (h : AllAlike ts us) :
    (Run.store key ts).Agrees Eq (Run.store key us) := by
  intro recording c d hcd
  exact ⟨.ok rfl, hcd.insert key h, congrArg (fun count => [CacheCall.set key count]) h.length_eq⟩

end Runs

/-! ## §3. Sequences and stored results. -/

variable {M N : Option MatchInfo → Option MatchInfo → Prop}

/-- Agreeing contexts lead to agreeing tokens if they lead to agreeing replies. -/
theorem agrees_transformContexts (hN : ∀ m, N m m) {f g : Context → Run Reply}
    (hfg : ∀ cx cy, cx.Agrees M cy → (f cx).Agrees (Reply.Agrees N) (g cy))
    {cxs cys : List Context} (h : List.Forall₂ (Context.Agrees M) cxs cys)
    (keepProperties keepProperties' : Bool) :
    (transformContexts keepProperties f cxs).Agrees
      (List.Forall₂ (Option.Rel (Token.Agrees N))) (transformContexts keepProperties' g cys) := by
  induction h with
  | nil => exact agrees_pure .nil
  | cons hcx _ ih =>
      unfold transformContexts
      -- places depend on the reply and on where the token starts, not on what it carries
      refine agrees_bind (hfg _ _ hcx) fun reply reply' hreply => ?_
      have hplaces := placeReply_agrees hN hreply hcx.token.index keepProperties keepProperties'
      refine agrees_bind (agrees_ofExcept hplaces) fun items items' hitems => ?_
      refine agrees_bind ih fun more more' hmore => ?_
      exact agrees_pure (List.rel_append hitems hmore)

theorem agrees_transformFlat (hN : ∀ m, N m m) {f g : Context → Run Reply}
    (hfg : ∀ cx cy, cx.Agrees M cy → (f cx).Agrees (Reply.Agrees N) (g cy))
    {ts us : List Token} (h : List.Forall₂ (Token.Agrees M) ts us)
    (keepProperties keepProperties' : Bool) :
    (transformFlat keepProperties f ts).Agrees (List.Forall₂ (Token.Agrees N))
      (transformFlat keepProperties' g us) := by
  refine agrees_bind (agrees_transformContexts hN hfg (contexts_agree h) _ _) ?_
  intro items items' hitems
  exact agrees_pure (filterMap_agrees hitems)

/-- Stored results agree if they are looked for under the same key, and what is computed agrees. -/
theorem agrees_remember (salt : String) {ts us : List Token}
    (hkey : cacheKey salt ts = cacheKey salt us) {x y : Run (List Token)} (h : x.Agrees AllAlike y) :
    (remember salt ts x).Agrees AllAlike (remember salt us y) := by
  unfold remember
  rw [hkey]
  refine agrees_bind (agrees_lookup _) fun found found' hfound => ?_
  -- both sides hit, or both miss and then store agreeing results
  cases hfound with
  | some hfound => exact agrees_bind (agrees_record _ _) fun _ _ _ => agrees_pure hfound
  | none =>
      refine agrees_bind (agrees_record _ _) fun _ _ _ => ?_
      refine agrees_bind h fun out out' hout => ?_
      exact agrees_bind (agrees_store _ hout) fun _ _ _ => agrees_pure hout

section Searches

variable [Regex.Engine]

/-- A search sees the text of a token only. -/
theorem agrees_runFind (hN : ∀ m, N m m) {flags : Regex.Flags} (r : Regex flags)
    (mode : Finding.Mode) {cx cy : Context} (h : cx.value = cy.value) :
    (runFind r mode cx).Agrees (Reply.Agrees N) (runFind r mode cy) := by
  unfold runFind
  rw [h]
  refine agrees_bind (agrees_recordAll _ _) fun _ _ _ => agrees_pure (.sequence ?_)
  refine List.forall₂_same.2 fun reply hreply => ?_
  obtain ⟨d, _, rfl⟩ := List.mem_map.1 hreply
  exact .draft (.of_eq hN d)

/-- A job sees texts only; it keeps captures or makes its own. -/
theorem agrees_job (hM : ∀ m, M m m) (job : StoredJob) {cx cy : Context} (h : cx.Agrees M cy) :
    (job.run cx).Agrees (Reply.Agrees M) (job.run cy) := by
  have hvalue : cx.value = cy.value := h.token.value
  cases job with
  | find r mode => exact agrees_runFind hM r mode hvalue
  | matching r =>
      show Run.Agrees _ (pure (keepIf (r.isMatch cx.value.toList) cx)) (pure (keepIf _ cy))
      rw [hvalue]
      exact agrees_pure (.keepIf h _)

end Searches

end TokenSpan
