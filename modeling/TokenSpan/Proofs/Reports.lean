/-
  TokenSpan.Proofs.Reports
  ────────────────────────
  Reports of tokens.

  A reporting pass keeps each token and, if events are recorded, records one for it.  Only
  then it asks for the end of the token, which is a sum of positions and may not fit.  So
  recording changes nothing as long as all ends fit; otherwise the pass fails at the first
  token whose end does not, with the events of the tokens before it.

  Main results:
  * `run_report` — a reporting pass reports the tokens one after the other, and keeps them;
  * `exec_keepReported`, `exec_reports` — one report, and all of them, where ends fit;
  * `report_keeps_tokens_unless_ends_overflow` — what the pass answers and records, in all cases.
-/
import TokenSpan.Proofs.KeptTokens

namespace TokenSpan

/-! ## §1. One token. -/

/-- The event of a token. -/
def Token.reported (label : String) (t : Token) : Event :=
  .token label t.index (t.index + t.offset) t.value t.properties

/-- Reports a token and keeps it. -/
def keepReported (label : String) (t : Token) : Run (List Token) := do
  reportToken label t
  return [t]

variable {label : String} {t : Token} {ts : List Token} {recording : Bool}
variable {σ : Type} [ResultStore σ] {cache : σ}

/-- Where its end fits, or is not asked for, a token is kept, with an event if events are recorded. -/
theorem exec_keepReported (h : recording = true → t.index + t.offset < positionBound) :
    (keepReported label t).exec recording cache =
      { result := .ok [t], cache, events := if recording then [t.reported label] else [] } := by
  cases recording with
  | false => rfl
  | true =>
      have hend : t.stop = .ok (t.index + t.offset) := addPositions_eq_ok (h rfl)
      unfold keepReported reportToken
      rw [hend]
      rfl

/-- An end that is asked for and does not fit is a fault. -/
theorem exec_keepReported_of_overflow (h : positionBound ≤ t.index + t.offset) :
    (keepReported label t).exec true cache = { result := .error .overflow, cache } := by
  have hend : t.stop = .error .overflow := addPositions_eq_error_iff.2 ⟨rfl, h⟩
  unfold keepReported reportToken
  rw [hend]
  rfl

/-! ## §2. One token after the other. -/

/-- A reporting pass reports the tokens one after the other, and keeps them. -/
theorem run_report [Regex.Engine] (s : Settings) (label : String) (hts : ∀ t ∈ ts, t.Fits) :
    (s.report label).run ts = forEachToken (keepReported label) ts := by
  let reply : Token → Run Reply := fun t => do
    reportToken label t
    return .keep t
  have hreply : ∀ cx, (Transform.report label).run cx = reply cx.token := by
    intro cx
    unfold Transform.run
    rfl
  unfold Settings.report Settings.each Pass.run
  rw [transformFlat_eq_forEachToken hreply]
  refine forEachToken_congr fun t ht => ?_
  unfold expandToken keepReported
  simp only [reply, bind_assoc, pure_bind, placeReply_keep (hts t ht)]
  rfl

/-- Where ends fit, or no one asks for them, all tokens are kept. -/
theorem exec_reports (h : recording = true → ∀ t ∈ ts, t.index + t.offset < positionBound) :
    (forEachToken (keepReported label) ts).exec recording cache =
      { result := .ok ts, cache
        events := if recording then ts.map (·.reported label) else [] } := by
  induction ts with
  | nil => cases recording <;> rfl
  | cons t rest ih =>
      have hfirst : (keepReported label t).exec recording cache = _ :=
        exec_keepReported fun hr => h hr t List.mem_cons_self
      have hrest := ih fun hr u hu => h hr u (List.mem_cons_of_mem _ hu)
      rw [forEachToken_cons, Run.exec_bind_of_ok (by rw [hfirst]), hfirst,
        Run.exec_bind_of_ok (by rw [hrest]), hrest]
      cases recording with
      | false => rfl
      | true =>
          show ({ result := .ok (t :: rest), cache
                  events := t.reported label :: (rest.map (·.reported label) ++ []) } : Outcome _ _) = _
          rw [List.append_nil]
          rfl

/-- The first end that does not fit stops the reports; those before it are recorded. -/
theorem exec_reports_of_overflow {before after : List Token}
    (hbefore : ∀ u ∈ before, u.index + u.offset < positionBound)
    (ht : positionBound ≤ t.index + t.offset) :
    (forEachToken (keepReported label) (before ++ t :: after)).exec true cache =
      { result := .error .overflow, cache, events := before.map (·.reported label) } := by
  have hfirst : (forEachToken (keepReported label) before).exec true cache = _ :=
    exec_reports fun _ => hbefore
  have hstop : (forEachToken (keepReported label) (t :: after)).exec true cache
      = { result := .error .overflow, cache } := by
    have htoken : (keepReported label t).exec true cache = _ := exec_keepReported_of_overflow ht
    rw [forEachToken_cons, Run.exec_bind_of_error (by rw [htoken]), htoken]
  rw [forEachToken_append, Run.exec_bind_of_ok (by rw [hfirst]), hfirst,
    Run.exec_bind_of_error (by rw [hstop]), hstop]
  show ({ result := .error .overflow, cache
          events := before.map (·.reported label) ++ [] } : Outcome _ _) = _
  rw [List.append_nil]

/-! ## §3. Reporting passes. -/

/--
If no events are recorded, a reporting pass keeps all tokens.  If events are recorded and all ends fit, it still
does, and leaves one event of the level of reports for each token, in order.  If an end does not fit, the pass
fails at the first token with such an end, and leaves the events of the tokens before.
-/
theorem report_keeps_tokens_unless_ends_overflow [Regex.Engine] (s : Settings) (label : String)
    {ts : List Token} (hts : ∀ t ∈ ts, t.Fits) (cache : σ) :
    let run := (s.report label).run ts
    let event := fun t : Token => Event.token label t.index (t.index + t.offset) t.value t.properties
    run.exec false cache = { result := .ok ts, cache } ∧
    ((∀ t ∈ ts, t.index + t.offset < positionBound) →
      run.exec true cache = { result := .ok ts, cache, events := ts.map event } ∧
        ∀ e ∈ ts.map event, e.level = .debug) ∧
    ∀ before t after, ts = before ++ t :: after →
      (∀ u ∈ before, u.index + u.offset < positionBound) → positionBound ≤ t.index + t.offset →
      run.exec true cache = { result := .error .overflow, cache, events := before.map event } := by
  intro run event
  have hrun : run = forEachToken (keepReported label) ts := run_report s label hts
  rw [hrun]
  refine ⟨?_, fun hends => ⟨?_, ?_⟩, ?_⟩
  · exact exec_reports fun h => absurd h Bool.false_ne_true
  · exact exec_reports fun _ => hends
  · intro e he
    obtain ⟨t, -, rfl⟩ := List.mem_map.1 he
    rfl
  · rintro before t after rfl hbefore ht
    exact exec_reports_of_overflow hbefore ht

/-- A token that ends behind the last position is kept silently; with events recorded its report fails. -/
theorem report_fails_behind_the_last_position :
    let s : Settings := {}
    let t := Token.ofText "a" (positionBound - 1)
    (((s.report "p").run [t]).exec false Cache.off).result = .ok [t] ∧
    (((s.report "p").run [t]).exec true Cache.off).result = .error .overflow ∧
    (((s.report "p").run [t]).exec true Cache.off).events = [] := by
  decide +kernel

/-- The report of a token in front of one that ends behind the last position, alone and together with it. -/
theorem report_up_to_the_last_position :
    let s : Settings := {}
    let t := (Token.ofText "ab" 5).withProperty "kind" (.ofString "x")
    let far := (Token.ofText "c" 0).withOffset (positionBound - 1)
    let farther := Token.ofText "c" (positionBound - 1)
    let reported := fun u : Token => Event.token "p" u.index (u.index + u.offset) u.value u.properties
    ((s.report "p").run [t, farther]).exec false Cache.off = { result := .ok [t, farther], cache := .off } ∧
    ((s.report "p").run [t, far]).exec true Cache.off
      = { result := .ok [t, far], cache := .off, events := [reported t, reported far] } ∧
    ((s.report "p").run [t, farther]).exec true Cache.off
      = { result := .error .overflow, cache := .off, events := [reported t] } := by
  intro s t far farther reported
  have hfar : ∀ u ∈ [t, far], u.Fits := by decide +kernel
  have hfarther : ∀ u ∈ [t, farther], u.Fits := by decide +kernel
  obtain ⟨-, hends, -⟩ := report_keeps_tokens_unless_ends_overflow s "p" hfar Cache.off
  obtain ⟨hsilent, -, hoverflow⟩ := report_keeps_tokens_unless_ends_overflow s "p" hfarther Cache.off
  exact ⟨hsilent, (hends (by decide +kernel)).1,
    hoverflow [t] farther [] rfl (by decide +kernel) (by decide +kernel)⟩

end TokenSpan
