/-
  TokenSpan.Run
  ─────────────
  Computations that may fail, use the cache and record events.

  A run is told whether events are recorded and gets the cache; it answers a result or a
  fault together with the cache after it, the events in order, and the calls to the cache
  in order.  What was recorded before a fault stays recorded.  Any store can be the cache:
  a run knows nothing of it but that it can be asked and handed results.

  Main results:
  * `LawfulMonad Run` — runs compose associatively.
-/
import TokenSpan.Cache.Basic
import TokenSpan.Event

namespace TokenSpan

/-- What a run leads to. -/
structure Outcome (σ α : Type) where
  /-- The result, or why there is none. -/
  result : Except Fault α
  /-- The cache afterwards. -/
  cache : σ
  /-- The recorded events, in order. -/
  events : List Event := []
  /-- The calls to the cache, in order. -/
  calls : List CacheCall := []

/-- A computation that may fail, uses a cache of any kind and records events. -/
structure Run (α : Type) where
  /-- What the computation leads to, given whether events are recorded, and the cache. -/
  exec : {σ : Type} → [ResultStore σ] → (recording : Bool) → (cache : σ) → Outcome σ α

namespace Run

variable {α β γ σ : Type} [ResultStore σ]

/-- Runs are the same if they lead to the same from all caches. -/
theorem ext {x y : Run α} (h : ∀ {σ : Type} [ResultStore σ] (recording : Bool) (cache : σ),
    x.exec recording cache = y.exec recording cache) : x = y := by
  cases x; cases y
  congr
  funext σ store recording cache
  exact h recording cache

/-! ## §1. Composition. -/

/-- The run that answers a value and does nothing else. -/
def pure (a : α) : Run α := ⟨fun _ cache => { result := .ok a, cache }⟩

/-- The second run follows the first one if that succeeds. -/
def bind (x : Run α) (f : α → Run β) : Run β :=
  ⟨fun recording cache =>
    let first := x.exec recording cache
    match first.result with
    | .error e => { first with result := .error e }
    | .ok a =>
        let second := (f a).exec recording first.cache
        { second with
          events := first.events ++ second.events
          calls := first.calls ++ second.calls }⟩

instance : Monad Run where
  pure := pure
  bind := bind

/-- Nothing changes if the result is only passed on. -/
theorem bind_pure_self (x : Run α) : x.bind pure = x := by
  refine ext fun recording cache => ?_
  unfold bind
  dsimp only
  generalize x.exec recording cache = o
  obtain ⟨result, cache, events, calls⟩ := o
  cases result <;> simp [pure]

/-- Runs compose associatively. -/
theorem bind_bind (x : Run α) (f : α → Run β) (g : β → Run γ) :
    (x.bind f).bind g = x.bind fun a => (f a).bind g := by
  refine ext fun recording cache => ?_
  unfold bind
  dsimp only
  generalize x.exec recording cache = o
  obtain ⟨result, cache, events, calls⟩ := o
  cases result with
  | error e => rfl
  | ok a =>
      dsimp only
      generalize (f a).exec recording cache = p
      obtain ⟨result, cache, events', calls'⟩ := p
      cases result with
      | error e => rfl
      | ok b => simp [List.append_assoc]

instance : LawfulMonad Run := LawfulMonad.mk' Run
  (fun x => bind_pure_self x)
  (fun a f => by
    show bind (pure a) f = f a
    refine ext fun recording cache => ?_
    simp [bind, pure])
  (fun x f g => bind_bind x f g)

/-- Where the first run succeeds, the second one goes on with its result and its cache. -/
theorem exec_bind_of_ok {x : Run α} {recording : Bool} {cache : σ} {a : α}
    (h : (x.exec recording cache).result = .ok a) (f : α → Run β) :
    (x >>= f).exec recording cache =
      { result := ((f a).exec recording (x.exec recording cache).cache).result
        cache := ((f a).exec recording (x.exec recording cache).cache).cache
        events := (x.exec recording cache).events
          ++ ((f a).exec recording (x.exec recording cache).cache).events
        calls := (x.exec recording cache).calls
          ++ ((f a).exec recording (x.exec recording cache).cache).calls } := by
  show (bind x f).exec recording cache = _
  unfold bind
  simp only [h]

/-- Where the first run fails, the second one does not take place. -/
theorem exec_bind_of_error {x : Run α} {recording : Bool} {cache : σ} {e : Fault}
    (h : (x.exec recording cache).result = .error e) (f : α → Run β) :
    (x >>= f).exec recording cache = { x.exec recording cache with result := .error e } := by
  show (bind x f).exec recording cache = _
  unfold bind
  simp only [h]

/-- Runs that agree at a cache still do with what follows, if that agrees there too. -/
theorem exec_bind_congr {x y : Run α} {f g : α → Run β} {recording : Bool} {cache : σ}
    (hxy : x.exec recording cache = y.exec recording cache)
    (hfg : ∀ a, (y.exec recording cache).result = .ok a →
      (f a).exec recording (y.exec recording cache).cache
        = (g a).exec recording (y.exec recording cache).cache) :
    (x >>= f).exec recording cache = (y >>= g).exec recording cache := by
  cases hr : (y.exec recording cache).result with
  | error e => rw [exec_bind_of_error (hxy ▸ hr), exec_bind_of_error hr, hxy]
  | ok a => rw [exec_bind_of_ok (hxy ▸ hr), exec_bind_of_ok hr, hxy, hfg a hr]

/-! ## §2. Basic runs. -/

/-- The run with a given result. -/
def ofExcept (r : Except Fault α) : Run α := ⟨fun _ cache => { result := r, cache }⟩

instance : MonadLift (Except Fault) Run := ⟨ofExcept⟩

/-- The run that fails. -/
def fail (e : Fault) : Run α := ofExcept (.error e)

/-- Whether events are recorded. -/
def isRecording : Run Bool := ⟨fun recording cache => { result := .ok recording, cache }⟩

/-- Records an event, if events are recorded. -/
def record (e : Event) : Run Unit :=
  ⟨fun recording cache =>
    { result := .ok (), cache, events := if recording then [e] else [] }⟩

/-- Records events, if events are recorded. -/
def recordAll (es : List Event) : Run Unit :=
  ⟨fun recording cache => { result := .ok (), cache, events := if recording then es else [] }⟩

/-- Looks for tokens under a key. -/
def lookup (key : String) : Run (Option (List Token)) :=
  ⟨fun _ cache =>
    let (found, cache) := ResultStore.get? cache key
    { result := .ok found, cache, calls := [.get key found.isSome] }⟩

/-- Stores tokens under a key. -/
def store (key : String) (tokens : List Token) : Run Unit :=
  ⟨fun _ cache =>
    { result := .ok (), cache := ResultStore.insert cache key tokens, calls := [.set key tokens.length] }⟩

end Run

end TokenSpan
