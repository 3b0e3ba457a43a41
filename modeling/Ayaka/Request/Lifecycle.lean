import Ayaka.Foundation.Invariant
import Ayaka.Executor.Ticket
import Ayaka.Request.States

/-!
# One request's progress

A request owns its tokens, a guarded state, and at most one unfinished slice.
Progress goes through `beginSlice`, `commitComputedRange` and `publishSample`; a
verified speculative slice settles in one call.  Each incarnation of a request has
an epoch of its own, drawn from a counter of the process, so every method runs on
the request together with that counter.

Latency marks, the bounded history and the preemption, swap and retry counters
are left out: no modelled method reads them.
-/

namespace Ayaka
namespace Request

open Foundation Sched Executor

/-! ## Requests -/

structure StopCriteria where
  maxTokens : Nat
  minTokens : Nat := 0
  stopTokenIds : List Nat := []
  ignoreEos : Bool := false
  maxTokens_pos : 1 ≤ maxTokens
  minTokens_le : minTokens ≤ maxTokens
  deriving Repr

end Request

open Executor Sched in
/-- The request as submitted; its fields carry the checks of the constructors. -/
structure Request where
  requestId : RequestId
  promptTokenIds : List Nat
  stop : Request.StopCriteria
  /-- `sampling.n`. -/
  n : Nat := 1
  /-- `sampling.prompt_logprobs`. -/
  promptLogprobs : Option Nat := none
  /-- `cache.prefix_cache`. -/
  prefixCache : Bool := true
  /-- `cache.store_kv`. -/
  storeKV : Bool := true
  priority : Int := 0
  arrivalNs : Int := 0
  deadlineNs : Option Int := none
  queueDeadlineNs : Option Int := none
  id_text : isBlank requestId = false
  prompt_nonempty : promptTokenIds ≠ []
  deriving Repr

namespace Request

open Foundation Sched Executor

def promptLen (request : Request) : Nat :=
  request.promptTokenIds.length

inductive FinishReason where
  | stop
  | length
  | eos
  | abort
  | error
  | timeout
  | queueTimeout
  deriving DecidableEq, Repr

structure RequestStateMachine where
  state : RequestState := .created
  numPromptTokens : Nat := 0
  sequenceEpoch : Nat
  numComputedTokens : Nat := 0
  numCachedTokens : Nat := 0
  numGeneratedTokens : Nat := 0
  cancelRequested : Bool := false
  failureReason : String := ""
  deriving DecidableEq, Repr

structure RequestLifecycle where
  request : Request
  machine : RequestStateMachine
  /-- `token.is_cancelled`. -/
  cancelled : Bool := false
  /-- `token.reason`. -/
  cancelReason : String := ""
  outputTokenIds : List Nat := []
  knownTokens : List Nat
  finishReason : Option FinishReason := none
  sequence : Option SequenceHandle := none
  bindingEpoch : Nat := 0
  stateVersion : Nat := 0
  inflight : Option (Nat × ScheduledSlice) := none
  inputSnapshot : Option RequestStepInput := none
  forwardCommitted : Bool := false
  lastScheduledStep : Int := -1
  deriving Repr

namespace RequestLifecycle

def new (request : Request) (epoch : Nat) : RequestLifecycle where
  request
  machine := { sequenceEpoch := epoch }
  knownTokens := request.promptTokenIds

section

variable (lc : RequestLifecycle)

def requestId : RequestId :=
  lc.request.requestId

def state : RequestState :=
  lc.machine.state

def isTerminal : Bool :=
  lc.machine.state.isTerminal

def sequenceEpoch : Nat :=
  lc.machine.sequenceEpoch

def computedTokens : Nat :=
  lc.machine.numComputedTokens

end

/-- `token.cancel`: the first reason stays. -/
def cancelToken (reason : String) (lc : RequestLifecycle) : RequestLifecycle :=
  if lc.cancelled then lc else { lc with cancelled := true, cancelReason := reason }

section

variable (lc : RequestLifecycle)

def clearSlice : RequestLifecycle :=
  { lc with inflight := none, inputSnapshot := none, forwardCommitted := false }

def ownsSlice (stepId : Nat) (scheduled : ScheduledSlice) : Bool :=
  decide (lc.inflight = some (stepId, scheduled))

def acceptsCompletion (stepId : Nat) (scheduled : ScheduledSlice) : Bool :=
  lc.ownsSlice stepId scheduled && decide (lc.sequenceEpoch = scheduled.sequenceEpoch)
    && !lc.isTerminal && !lc.cancelled

/-- The value `snapshot` and `bind_sequence` build from the current fields. -/
def inputWith (sequence : SequenceHandle) (stateVersion computed : Nat) : RequestStepInput where
  requestId := lc.requestId
  sequence
  sequenceEpoch := lc.sequenceEpoch
  stateVersion
  promptTokens := lc.request.promptLen
  knownTokens := lc.knownTokens
  computedTokens := computed
  maxOutputTokens := lc.request.stop.maxTokens

def snapshot : Except Failure RequestStepInput := do
  match lc.sequence with
  | none => .error (.valueError "request has no acquired sequence binding")
  | some sequence =>
    reject (lc.bindingEpoch ≠ lc.sequenceEpoch)
      (.valueError "sequence binding was invalidated; bind a validated KV snapshot")
    reject (lc.machine.numGeneratedTokens ≠ lc.outputTokenIds.length)
      (.valueError "sample counters were mutated outside publish_sample")
    let value := lc.inputWith sequence lc.stateVersion lc.computedTokens
    value.validate
    pure value

end

def allowedStates : Phase -> List RequestState
  | .prefill => [.admitted, .prefill]
  | .decode => [.admitted, .decoding, .streaming]

def validatePhaseState (lc : RequestLifecycle) (scheduled : ScheduledSlice) : Except Failure Unit :=
  reject (lc.state ∉ allowedStates scheduled.phase)
    (.valueError "request state is incompatible with the scheduled phase")

section

variable (lc : RequestLifecycle) (stepId : Nat) (scheduled : ScheduledSlice)

def validateBeginSlice : Except Failure RequestStepInput := do
  reject (lc.inflight.isSome = true) (.valueError "request already has an unfinished slice")
  reject (lc.isTerminal ∨ lc.cancelled) (.valueError "request is terminal or cancelled")
  reject ((stepId : Int) ≤ lc.lastScheduledStep)
    (.valueError "a new slice requires a fresh step identity")
  let value <- lc.snapshot
  value.validateSlice scheduled
  lc.validatePhaseState scheduled
  pure value

def requireSlice : Except Failure Unit := do
  reject (lc.inflight ≠ some (stepId, scheduled))
    (.valueError "slice does not match the unfinished step")
  reject (scheduled.sequenceEpoch ≠ lc.sequenceEpoch ∨ lc.isTerminal ∨ lc.cancelled)
    (.valueError "slice belongs to an invalidated or cancelled request")

def validateForwardCommit (committedStateVersion : Nat) : Except Failure Unit := do
  lc.requireSlice stepId scheduled
  reject (lc.forwardCommitted = true) (.valueError "forward range was already committed")
  reject (committedStateVersion ≠ scheduled.expectedStateVersion + 1)
    (.valueError "committed KV version must advance the reserved version once")
  lc.validatePhaseState scheduled
  let value <- lc.snapshot
  value.validateSlice scheduled
  reject (lc.inputSnapshot ≠ some value)
    (.valueError "request inputs or sequence binding changed during the step")

end

/-! ### What the checks establish -/

structure Snapshot (lc : RequestLifecycle) (value : RequestStepInput) : Prop where
  bound : exists sequence, lc.sequence = some sequence
    ∧ value = lc.inputWith sequence lc.stateVersion lc.computedTokens
  epoch : lc.bindingEpoch = lc.sequenceEpoch
  generated : lc.machine.numGeneratedTokens = lc.outputTokenIds.length
  valid : value.Valid

theorem snapshot_eq_ok_iff {lc : RequestLifecycle} {value : RequestStepInput} :
    lc.snapshot = .ok value <-> lc.Snapshot value := by
  unfold snapshot
  cases hsequence : lc.sequence with
  | none =>
    constructor
    · intro h
      cases h
    · rintro ⟨⟨sequence, hsome, _⟩, _, _, _⟩
      cases hsequence.symm.trans hsome
  | some sequence =>
    simp only [check_bind_eq_ok_iff, reject_eq_ok_iff, not_not, ne_eq,
      RequestStepInput.validate_eq_ok_iff]
    constructor
    · rintro ⟨hepoch, hgenerated, hvalid, hvalue⟩
      have heq := Except.ok.inj hvalue
      exact ⟨⟨sequence, hsequence, heq.symm⟩, hepoch, hgenerated, heq ▸ hvalid⟩
    · rintro ⟨⟨_, hfound, hvalue⟩, hepoch, hgenerated, hvalid⟩
      rw [hsequence] at hfound
      rw [<- Option.some.inj hfound] at hvalue
      exact ⟨hepoch, hgenerated, hvalue ▸ hvalid, congrArg Except.ok hvalue.symm⟩

/-- A forward commit that passed its checks. -/
structure MayCommit (lc : RequestLifecycle) (stepId : Nat) (scheduled : ScheduledSlice)
    (version : Nat) (value : RequestStepInput) : Prop where
  owned : lc.inflight = some (stepId, scheduled)
  epoch : scheduled.sequenceEpoch = lc.sequenceEpoch
  live : lc.isTerminal = false
  uncancelled : lc.cancelled = false
  uncommitted : lc.forwardCommitted = false
  version : version = scheduled.expectedStateVersion + 1
  state : lc.state ∈ allowedStates scheduled.phase
  snapshot : lc.Snapshot value
  fits : value.Fits scheduled
  baseline : lc.inputSnapshot = some value

theorem validateForwardCommit_eq_ok_iff {lc : RequestLifecycle} {stepId : Nat}
    {scheduled : ScheduledSlice} {version : Nat} {u : Unit} :
    lc.validateForwardCommit stepId scheduled version = .ok u <->
      exists value, lc.MayCommit stepId scheduled version value := by
  unfold validateForwardCommit requireSlice validatePhaseState
  simp only [reject_eq_ok_iff, except_bind_eq_ok_iff, exists_const, not_not, not_or, ne_eq,
    snapshot_eq_ok_iff, RequestStepInput.validateSlice_eq_ok_iff, Bool.not_eq_true]
  constructor
  · rintro ⟨⟨howned, hepoch, hlive, huncancelled⟩, huncommitted, hversion, hstate, value,
      hsnapshot, hfits, hbaseline⟩
    exact ⟨value, howned, hepoch, hlive, huncancelled, huncommitted, hversion, hstate, hsnapshot,
      hfits, hbaseline⟩
  · rintro ⟨value, h⟩
    exact ⟨⟨h.owned, h.epoch, h.live, h.uncancelled⟩, h.uncommitted, h.version, h.state, value,
      h.snapshot, h.fits, h.baseline⟩

end RequestLifecycle

/-! ## Methods

The request and the epoch counter of the process. -/

structure Cell where
  lifecycle : RequestLifecycle
  nextEpoch : Nat

abbrev LifecycleM := EStateM Failure Cell

namespace Cell

def withMachine (f : RequestStateMachine -> RequestStateMachine) (c : Cell) : Cell :=
  { c with lifecycle := { c.lifecycle with machine := f c.lifecycle.machine } }

def withLifecycle (f : RequestLifecycle -> RequestLifecycle) (c : Cell) : Cell :=
  { c with lifecycle := f c.lifecycle }

def renew (c : Cell) : Cell :=
  { withMachine (fun m => { m with sequenceEpoch := c.nextEpoch }) c with
    nextEpoch := c.nextEpoch + 1 }

end Cell

def renewsEpoch : RequestState -> Bool
  | .preempted | .swapped | .retrying
  | .cancelled | .failed => true
  | _ => false

/-- Enter a state: recompute preemption drops all progress. -/
def enter (dst : RequestState) (m : RequestStateMachine) : RequestStateMachine :=
  if dst = .preempted then
    { m with state := dst, numCachedTokens := 0, numComputedTokens := 0 }
  else
    { m with state := dst }

def illegalTransition (requestId : RequestId) (src dst : RequestState) : Failure :=
  let names := (src.legalTargets.map RequestState.value).mergeSort (fun a b => decide (a ≤ b))
  let allowed := if names = [] then "(terminal)" else ", ".intercalate names
  .illegalTransition (requestId ++ ": " ++ src.value ++ " -> " ++ dst.value
    ++ " is not a legal transition; from " ++ src.value ++ " the legal targets are: " ++ allowed)

def transition (dst : RequestState) : LifecycleM Unit := do
  let c <- get
  if c.lifecycle.state.isLegal dst = false then
    throw (illegalTransition c.lifecycle.requestId c.lifecycle.state dst)
  else
    modify (Cell.withMachine (enter dst))
    if renewsEpoch dst then
      modify Cell.renew

/-! ### The pipeline before the queue -/

def onTokenized (numPromptTokens : Nat) : LifecycleM Unit := do
  query fun _ => requireInt numPromptTokens "num_prompt_tokens" 1
  transition .cacheLookup
  modify (Cell.withMachine fun m => { m with numPromptTokens })

def onCacheLookedUp (numCachedTokens : Nat) : LifecycleM Unit := do
  let c <- get
  let m := c.lifecycle.machine
  if numCachedTokens > m.numPromptTokens + m.numGeneratedTokens then
    throw (.valueError "cached progress exceeds known tokens")
  else
    transition .waiting
    modify (Cell.withMachine fun m =>
      { m with numCachedTokens, numComputedTokens := numCachedTokens })

/-- `advance_to_queue`, on the request itself. -/
def advanceToQueue (deferToRemoteKV : Bool) : LifecycleM Unit := do
  transition .validating
  transition .tokenizing
  onTokenized (<- get).lifecycle.request.promptLen
  if deferToRemoteKV then
    transition .waitingRemoteKV
  else
    onCacheLookedUp 0

/-! ### Terminal exits -/

def onFinished : LifecycleM Unit :=
  transition .finished

def onCancelled : LifecycleM Unit := do
  modify (Cell.withMachine fun m => { m with cancelRequested := true })
  if (<- get).lifecycle.isTerminal then
    pure ()
  else
    transition .cancelled

def onFailed (reason : String) : LifecycleM Unit := do
  modify (Cell.withMachine fun m => { m with failureReason := reason })
  if (<- get).lifecycle.isTerminal then
    pure ()
  else
    transition .failed

/-! ### Bindings and slices -/

/-- The fields a binding writes. -/
def RequestLifecycle.attach (sequence : SequenceHandle) (stateVersion computedTokens : Nat)
    (lc : RequestLifecycle) : RequestLifecycle :=
  { lc with
    sequence := some sequence
    bindingEpoch := lc.sequenceEpoch
    stateVersion
    machine := { lc.machine with
      numComputedTokens := computedTokens, numCachedTokens := computedTokens } }

/-- `bind_sequence`: a rebound request starts a new incarnation. -/
def bindSequence (sequence : SequenceHandle) (stateVersion computedTokens : Nat) :
    LifecycleM Unit := do
  let c <- get
  let lc := c.lifecycle
  if lc.inflight.isSome then
    throw (.valueError "cannot rebind a request with an unfinished slice")
  else if lc.isTerminal ∨ lc.cancelled then
    throw (.valueError "cannot bind a terminal or cancelled request")
  else if lc.machine.numPromptTokens ≠ lc.request.promptLen then
    throw (.valueError "request must be tokenized before sequence binding")
  else
    query fun _ => (lc.inputWith sequence stateVersion computedTokens).validate
    modify fun c => if c.lifecycle.sequence.isSome then c.renew else c
    modify (Cell.withLifecycle (RequestLifecycle.attach sequence stateVersion computedTokens))

/-- The move an admitted request makes with its first slice. -/
def enterPhase (phase : Phase) : LifecycleM Unit := do
  if (<- get).lifecycle.state = .admitted then
    transition (match phase with
      | .prefill => .prefill
      | .decode => .decoding)

def RequestLifecycle.claim (stepId : Nat) (scheduled : ScheduledSlice)
    (value : RequestStepInput) (lc : RequestLifecycle) : RequestLifecycle :=
  { lc with
    inflight := some (stepId, scheduled)
    inputSnapshot := some value
    forwardCommitted := false
    lastScheduledStep := stepId }

def beginSlice (stepId : Nat) (scheduled : ScheduledSlice) : LifecycleM RequestStepInput := do
  let value <- query fun c => c.lifecycle.validateBeginSlice stepId scheduled
  enterPhase scheduled.phase
  modify (Cell.withLifecycle (RequestLifecycle.claim stepId scheduled value))
  pure value

/-- `RequestStateMachine.commit_computed_range`. -/
def creditRange (queryStart queryCount : Nat) : LifecycleM Unit := do
  query fun _ => requireInt queryCount "query_count" 1
  let m := (<- get).lifecycle.machine
  if m.state ∉ [.prefill, .decoding, .streaming] then
    throw (.valueError "forward progress requires an executing request")
  else if queryStart ≠ m.numComputedTokens then
    throw (.valueError "forward range must start at computed progress")
  else if queryStart + queryCount > m.numPromptTokens + m.numGeneratedTokens then
    throw (.valueError "forward range exceeds known tokens")
  else
    modify (Cell.withMachine fun m => { m with numComputedTokens := queryStart + queryCount })

/-- `on_token_generated(1)`. -/
def onTokenGenerated : LifecycleM Unit := do
  let c <- get
  let m := c.lifecycle.machine
  if m.state ∉ [.decoding, .streaming] then
    throw (illegalTransition c.lifecycle.requestId m.state .decoding)
  else if m.numComputedTokens ≠ m.numPromptTokens + m.numGeneratedTokens then
    throw (.valueError "sampling requires the completed known-token boundary")
  else
    modify (Cell.withMachine fun m => { m with numGeneratedTokens := m.numGeneratedTokens + 1 })

/-- A prompt that is fully computed is decoded from now on. -/
def leavePrefill (scheduled : ScheduledSlice) : LifecycleM Unit := do
  if scheduled.phase = .prefill
      ∧ scheduled.queryEnd = (<- get).lifecycle.request.promptLen then
    transition .decoding

/-- The slice stays until its sample is published, if it has one. -/
def RequestLifecycle.settleForward (scheduled : ScheduledSlice) (lc : RequestLifecycle) :
    RequestLifecycle :=
  if scheduled.sampleLastQuery then { lc with forwardCommitted := true } else lc.clearSlice

def commitComputedRange (stepId : Nat) (scheduled : ScheduledSlice)
    (committedStateVersion : Nat) : LifecycleM Unit := do
  query fun c => c.lifecycle.validateForwardCommit stepId scheduled committedStateVersion
  enterPhase scheduled.phase
  creditRange scheduled.queryStart scheduled.queryCount
  modify (Cell.withLifecycle fun lc => { lc with stateVersion := committedStateVersion })
  leavePrefill scheduled
  modify (Cell.withLifecycle (RequestLifecycle.settleForward scheduled))

def appendToken (token : Nat) (lc : RequestLifecycle) : RequestLifecycle :=
  { lc with
    outputTokenIds := lc.outputTokenIds ++ [token]
    knownTokens := lc.knownTokens ++ [token] }

def publishSample (stepId : Nat) (scheduled : ScheduledSlice) (tokenId : Int) :
    LifecycleM Unit := do
  query fun c => c.lifecycle.requireSlice stepId scheduled
  query fun _ => requireInt tokenId "sample token id" 0
  let lc := (<- get).lifecycle
  if lc.forwardCommitted = false ∨ scheduled.sampleLastQuery = false then
    throw (.valueError "no completed sampling row is awaiting publication")
  else if lc.outputTokenIds.length ≥ lc.request.stop.maxTokens then
    throw (.valueError "output token budget is exhausted")
  else
    onTokenGenerated
    modify (Cell.withLifecycle fun lc => (appendToken tokenId.toNat lc).clearSlice)

/-- One row and one token at a time, exactly as ordinary decode steps would. -/
def publishEach (position : Nat) : List Int -> LifecycleM Unit
  | [] => pure ()
  | token :: rest => do
    creditRange position 1
    onTokenGenerated
    modify (Cell.withLifecycle (appendToken token.toNat))
    publishEach (position + 1) rest

def commitSpeculativeRange (stepId : Nat) (scheduled : ScheduledSlice) (tokenIds : List Int)
    (committedStateVersion : Nat) : LifecycleM Unit := do
  query fun c => c.lifecycle.validateForwardCommit stepId scheduled committedStateVersion
  let lc := (<- get).lifecycle
  if scheduled.phase ≠ .decode ∨ scheduled.sampleLastQuery = false then
    throw (.valueError "only a sampling decode slice can settle speculative tokens")
  else if tokenIds = [] then
    throw (.valueError "a speculative settlement publishes at least one token")
  else
    query fun _ => tokenIds.forM fun token => requireInt token "sample token id" 0
    if lc.outputTokenIds.length + tokenIds.length > lc.request.stop.maxTokens then
      throw (.valueError "output token budget is exhausted")
    else
      enterPhase .decode
      publishEach scheduled.queryStart tokenIds
      modify (Cell.withLifecycle fun lc =>
        { lc with stateVersion := committedStateVersion }.clearSlice)

def discardSlice (stepId : Nat) (scheduled : ScheduledSlice) : LifecycleM Unit := do
  if (<- get).lifecycle.inflight ≠ some (stepId, scheduled) then
    throw (.valueError "slice does not match the unfinished step")
  else
    modify (Cell.withLifecycle RequestLifecycle.clearSlice)
    modify Cell.renew

end Request
end Ayaka
