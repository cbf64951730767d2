/-
  TokenSpan.Pass.Run
  ──────────────────
  Running passes.

  Each token is transformed in its context, the reply is placed inside the token, and the
  tokens so made inherit its values if the pass says so.  A stored pass first looks for
  its result under the key of the tokens; a result that was not there is stored once the
  whole sequence succeeded.

  Main definitions: `transformEach`, `mergeSegments`, `Transform.run`, `Pass.run`.

  Main results:
  * `runChain_append` — passes one after the other may be run in parts.
-/
import TokenSpan.Pass.Basic
import TokenSpan.Run
import TokenSpan.Token.CacheKey
import TokenSpan.Token.Merging

namespace TokenSpan

variable [Regex.Engine]

/-! ## §1. One token after the other. -/

/-- The tokens and cuts that a reply for a token leads to. -/
def placeReply (keepProperties : Bool) (token : Token) (reply : Reply) :
    Except Fault (List (Option Token)) :=
  (reply.place token).map fun items =>
    if keepProperties then items.map (·.map (·.inherit token)) else items

/-- Transforms the tokens of the contexts one after the other. -/
def transformContexts (keepProperties : Bool) (f : Context → Run Reply) :
    List Context → Run (List (Option Token))
  | [] => pure []
  | cx :: rest => do
      let reply ← f cx
      let items ← Run.ofExcept (placeReply keepProperties cx.token reply)
      let more ← transformContexts keepProperties f rest
      return items ++ more

/-- Transforms each token of a sequence; cuts stay in the result as `none`. -/
def transformEach (keepProperties : Bool) (f : Context → Run Reply) (tokens : List Token) :
    Run (List (Option Token)) :=
  transformContexts keepProperties f (contexts tokens)

/-- Transforms each token of a sequence and leaves the cuts out. -/
def transformFlat (keepProperties : Bool) (f : Context → Run Reply) (tokens : List Token) :
    Run (List Token) := do
  return (← transformEach keepProperties f tokens).filterMap id

/-- The stored result for tokens under a salt, or else that of a run, which is then stored. -/
def remember (salt : String) (tokens : List Token) (compute : Run (List Token)) : Run (List Token) := do
  let key := cacheKey salt tokens
  match ← Run.lookup key with
  | some found => do
      Run.record (.lookup true salt tokens.length)
      return found
  | none => do
      Run.record (.lookup false salt tokens.length)
      let out ← compute
      Run.store key out
      return out

/-- Transforms each token, under a salt if there is one. -/
def transformSalted (keepProperties : Bool) (salt : Option String) (f : Context → Run Reply)
    (tokens : List Token) : Run (List Token) :=
  match salt with
  | none => transformFlat keepProperties f tokens
  | some salt => remember salt tokens (transformFlat keepProperties f tokens)

/-! ## §2. Merging between cuts. -/

/-- The tokens between cuts, without empty runs; `current` holds the tokens since the last cut. -/
def runsBetweenCuts (current : List Token) : List (Option Token) → List (List Token)
  | [] => if current.isEmpty then [] else [current]
  | none :: rest =>
      if current.isEmpty then runsBetweenCuts [] rest else current :: runsBetweenCuts [] rest
  | some t :: rest => runsBetweenCuts (current ++ [t]) rest

/-- Merges each run of tokens. -/
def mergeAll (filler : String) : List (List Token) → Except Fault (List Token)
  | [] => .ok []
  | run :: rest => do
      let merged ← merge? filler run
      let more ← mergeAll filler rest
      return merged.toList ++ more

/-- Merges what stands between cuts. -/
def mergeSegments (filler : String) (items : List (Option Token)) : Except Fault (List Token) :=
  mergeAll filler (runsBetweenCuts [] items)

/-! ## §3. Transforms and passes. -/

/-- Finds matches and records the empty ones. -/
def runFind {flags : Regex.Flags} (r : Regex flags) (mode : Finding.Mode) (cx : Context) : Run Reply := do
  Run.recordAll (Finding.events r cx.value)
  return .sequence ((Finding.drafts r mode cx.value).map .draft)

/-- Keeps a token if a test holds. -/
def keepIf (test : Bool) (cx : Context) : Reply := if test then .keep cx.token else .nothing

/-- What a stored pass does with a token. -/
def StoredJob.run : StoredJob → Context → Run Reply
  | .find r mode, cx => runFind r mode cx
  | .matching r, cx => return keepIf (r.isMatch cx.value.toList) cx

/-- Records an event for a token; its end is only computed if events are recorded. -/
def reportToken (label : String) (t : Token) : Run Unit := do
  if ← Run.isRecording then
    let stop ← Run.ofExcept t.stop
    Run.record (.token label t.index stop t.value t.properties)

mutual

/-- The reply of a transform for a token in its context. -/
def Transform.run : Transform → Context → Run Reply
  | .function f, cx => Run.ofExcept (f cx)
  | .find _ r mode, cx => runFind r mode cx
  | .report label, cx => do
      reportToken label cx.token
      return .keep cx.token
  | .chain passes, cx => do
      let tokens ← runChain passes [Token.root cx.value]
      return .sequence (tokens.map fun t => .draft (.atOwnIndex t))
  | .choose condition yes no, cx => do
      if ← Run.ofExcept (condition cx) then yes.run cx else no.run cx
  | .gather items, cx => do
      return .sequence (← runItems items cx)

/-- The replies of several transforms. -/
def runItems : List Transform → Context → Run (List Reply)
  | [], _ => pure []
  | f :: rest, cx => do
      let reply ← f.run cx
      let more ← runItems rest cx
      return reply :: more

/-- The tokens that passes make of tokens one after the other. -/
def runChain : List Pass → List Token → Run (List Token)
  | [], tokens => pure tokens
  | p :: rest, tokens => do runChain rest (← p.run tokens)

/-- The tokens that a pass makes of tokens. -/
def Pass.run : Pass → List Token → Run (List Token)
  | .each keepProperties f, tokens => transformFlat keepProperties (fun cx => f.run cx) tokens
  | .stored keepProperties job, tokens =>
      remember job.salt tokens (transformFlat keepProperties job.run tokens)
  | .mergeRuns keepProperties f filler, tokens => do
      let items ← transformEach keepProperties (fun cx => f.run cx) tokens
      Run.ofExcept (mergeSegments filler items)

end

/-- The tokens that a pass makes of a text. -/
def Pass.runText (p : Pass) (text : String) : Run (List Token) := p.run [Token.root text]

/-! ## §4. Laws. -/

/-- Passes behind others go on with the tokens that those make. -/
theorem runChain_append (passes others : List Pass) (tokens : List Token) :
    runChain (passes ++ others) tokens = runChain passes tokens >>= runChain others := by
  induction passes generalizing tokens with
  | nil => simp only [List.nil_append, runChain, pure_bind]
  | cons p rest ih => simp only [List.cons_append, runChain, ih, bind_assoc]

end TokenSpan
