import Ayaka.Executor.Base
import Ayaka.Request.Manager

/-!
# Completion

The coordinator owns the bindings of a ticket to its requests until the ticket
retires.  It validates and claims the slices of a step at adoption, and settles an
executor-authored outcome: physical commit, logical commit and publication for
each slice, then retirement.  Anything raised inside a settlement quarantines the
ticket.

Other threads may only signal cancellation tokens.  The model takes such signals
at every point where a method looks at a token: `signals` says which requests were
cancelled since the last look.  The publications are recorded for the proofs only.
-/

namespace Ayaka
namespace Completion

open Foundation Sched Executor Request

abbrev Binding := LifecycleRef × ScheduledSlice

structure PublishedSample where
  requestId : RequestId
  sequenceEpoch : Nat
  tokenId : Int
  outputIndex : Option Nat := none
  deriving DecidableEq, Repr

structure CompletionResult where
  ticketId : TicketId
  status : TerminalStatus
  published : List PublishedSample
  ignoredRequests : List RequestId
  error : String
  deriving Repr

structure Publication where
  ticket : TicketId
  sliceIndex : Nat
  ref : LifecycleRef
  tokens : List Int
  deriving DecidableEq, Repr

/-- The surroundings of a coordinator: those of its executor, and the threads that
signal cancellation. -/
structure Surroundings (world : Type) extends Backend world where
  signals : world -> List LifecycleRef × world

/-- `publication_limit`, when there is one. -/
abbrev PublicationLimit := Option (RequestId -> List Int -> Nat -> Except Failure Int)

end Completion

open Executor Request in
structure CompletionCoordinator (world : Type) where
  executor : Executor world
  requests : LifecycleManager
  bindings : Foundation.Dict TicketId (List Completion.Binding)
  publications : List Completion.Publication

namespace Completion

open Foundation Sched Executor Request

variable {world : Type}

abbrev CoordinatorM (world : Type) := EStateM Failure (CompletionCoordinator world)

def new (executor : Executor world) : CompletionCoordinator world where
  executor
  requests := LifecycleManager.new
  bindings := Dict.empty
  publications := []

def onExecutor {alpha : Type} (x : ExecutorM world alpha) : CoordinatorM world alpha :=
  zoom CompletionCoordinator.executor (fun e c => { c with executor := e }) x

def onRequests {alpha : Type} (x : ManagerM alpha) : CoordinatorM world alpha :=
  zoom CompletionCoordinator.requests (fun m c => { c with requests := m }) x

def onRequest {alpha : Type} (ref : LifecycleRef) (x : LifecycleM alpha) :
    CoordinatorM world alpha :=
  onRequests (LifecycleManager.onRequest ref x)

def ask {alpha : Type} (ref : LifecycleRef) (f : RequestLifecycle -> alpha) :
    CoordinatorM world alpha :=
  onRequest ref (query fun c => .ok (f c.lifecycle))

/-- Tokens cancelled by other threads since the last look. -/
def receiveSignals (env : Surroundings world) : CoordinatorM world Unit := do
  let c <- get
  let arrived := env.signals c.executor.world
  modify fun c => { c with executor := { c.executor with world := arrived.2 } }
  arrived.1.forM fun ref =>
    onRequest ref (modify (Cell.withLifecycle (RequestLifecycle.cancelToken "client disconnect")))

def accepts (env : Surroundings world) (stepId : Nat) (binding : Binding) :
    CoordinatorM world Bool := do
  receiveSignals env
  ask binding.1 fun lc => lc.acceptsCompletion stepId binding.2

def anyAccepts (env : Surroundings world) (stepId : Nat) :
    List Binding -> CoordinatorM world Bool
  | [] => pure false
  | binding :: rest => do
    if <- accepts env stepId binding then
      pure true
    else
      anyAccepts env stepId rest

/-! ## Adoption and launch -/

/-- Resolve each slice to the request object its id stands for now. -/
def bind : List ScheduledSlice -> CoordinatorM world (List Binding)
  | [] => pure []
  | scheduled :: rest => do
    let ref <- onRequests (LifecycleManager.get scheduled.requestId)
    let later <- bind rest
    pure ((ref, scheduled) :: later)

section

variable (env : Surroundings world)

/-- Preflight one slice against its request and its snapshot. -/
def preflight (stepId : Nat) (binding : Binding) (value : RequestStepInput) :
    CoordinatorM world Unit := do
  receiveSignals env
  let actual <- onRequest binding.1 (query fun c =>
    c.lifecycle.validateBeginSlice stepId binding.2)
  if actual ≠ value then
    throw (.valueError "prepared input snapshot is stale")

/-- Claim one slice; a request cancelled after the transfer is skipped. -/
def claim (stepId : Nat) (binding : Binding) : CoordinatorM world Unit := do
  receiveSignals env
  if <- ask binding.1 RequestLifecycle.cancelled then
    pure ()
  else
    receiveSignals env
    tryCatch
      (do
        let _ <- onRequest binding.1 (beginSlice stepId binding.2)
        pure ())
      (fun exc => do
        if exc.isValueError && (<- ask binding.1 RequestLifecycle.cancelled) then
          pure ()
        else
          throw exc)

/-- The part of `adopt` after the transfer. -/
def claimAll (id : TicketId) (stepId : Nat) (bindings : List Binding) : CoordinatorM world Unit :=
  tryCatch
    (do
      bindings.forM (claim env stepId)
      if (<- anyAccepts env stepId bindings) = false then
        onExecutor (Executor.cancel id "all requests cancelled during adoption"))
    (fun exc => do
      onExecutor (Executor.cancel id ("request adoption failed: " ++ exc.text))
      onExecutor (reraise exc ()))

def adopt (prepared : PreparedStep) : CoordinatorM world TicketId := do
  let bindings <- bind prepared.step.slices
  (bindings.zip prepared.step.inputs).forM fun bound =>
    preflight env prepared.step.stepId bound.1 bound.2
  let id <- onExecutor (Executor.adopt env.toBackend prepared)
  modify fun c => { c with bindings := c.bindings.set id bindings }
  claimAll env id prepared.step.stepId bindings
  pure id

def launch (id : TicketId) : CoordinatorM world Unit := do
  let c <- get
  match c.bindings.get? id, c.executor.tickets.get? id with
  | some bindings, some ticket =>
    if ticket.state ≠ .adopted then
      if ticket.terminal.any (fun outcome => outcome.status = .cancelled) then
        pure ()
      else
        throw (.valueError "ticket can be launched only once")
    else if <- anyAccepts env ticket.prepared.step.stepId bindings then
      onExecutor (Executor.launch env.toBackend id)
    else
      onExecutor (Executor.cancel id "all requests invalidated before launch")
  | _, _ => throw (.valueError "ticket was not adopted by this coordinator")

/-! ## Settlement -/

def endRequest (ticket : ExecutionTicket) (ref : LifecycleRef) (cancel fail : Bool) :
    CoordinatorM world Unit := do
  receiveSignals env
  if (<- ask ref RequestLifecycle.cancelled) || cancel then
    onRequest ref (modify (Cell.withLifecycle (RequestLifecycle.cancelToken
      (if ticket.error = "" then "cancelled" else ticket.error))))
    onRequest ref onCancelled
  else if fail then
    onRequest ref (onFailed (if ticket.error = "" then "execution failed" else ticket.error))

/-- `_discard`: forget the slice; end the request if this incarnation is current. -/
def discard (ticket : ExecutionTicket) (binding : Binding) (cancel fail : Bool) :
    CoordinatorM world Unit := do
  let stepId := ticket.prepared.step.stepId
  let current <- ask binding.1 fun lc =>
    decide (lc.sequenceEpoch = binding.2.sequenceEpoch) && !lc.isTerminal
  if <- ask binding.1 (fun lc => lc.ownsSlice stepId binding.2) then
    onRequest binding.1 (discardSlice stepId binding.2)
  if current then
    endRequest env ticket binding.1 cancel fail
  onRequests (LifecycleManager.retireTerminal binding.1)

/-- A failure in a live incarnation is a fault; otherwise the slice is ignored. -/
def invalidated (binding : Binding) : CoordinatorM world Bool := do
  receiveSignals env
  ask binding.1 fun lc =>
    lc.cancelled || lc.isTerminal || decide (lc.sequenceEpoch ≠ binding.2.sequenceEpoch)

def validateBinding (stepId : Nat) (binding : Binding) : CoordinatorM world Unit := do
  if <- accepts env stepId binding then
    receiveSignals env
    tryCatch
      (onRequest binding.1 (query fun c =>
        c.lifecycle.validateForwardCommit stepId binding.2
          (binding.2.expectedStateVersion + 1)))
      (fun exc => do
        if exc.isValueError && (<- invalidated env binding) then pure () else throw exc)

end

/-- The published tokens of each speculative slice, by slice index, and the KV
rows kept for every slice in packed order. -/
structure SpeculativeSettlement where
  written : List Nat
  emitted : List (Nat × List Int)

def SpeculativeSettlement.emittedAt (settlement : SpeculativeSettlement) (sliceIndex : Nat) :
    Option (List Int) :=
  (settlement.emitted.find? (fun entry => entry.1 = sliceIndex)).map Prod.snd

def publishable (limit : PublicationLimit) (requestId : RequestId) (candidate : List Int)
    (maxTokens generated : Nat) : Except Failure Nat := do
  let budget : Int := min candidate.length ((maxTokens : Int) - generated)
  let keep <- match limit with
    | some stopLimit =>
      if budget ≥ 1 then do
        let bound <- stopLimit requestId (candidate.take budget.toNat) generated
        pure (min budget bound)
      else
        pure budget
    | none => pure budget
  if keep < 1 then
    throw (.valueError "speculative settlement has no publishable token")
  else
    pure keep.toNat

section

variable (env : Surroundings world) (limit : PublicationLimit) (step : BatchStepPlan)
  (bindings : List Binding)

/-- The body of the loop of `_speculative_settlement`. -/
def settleDrafts (tokens : List Int) (plan : SpeculativeSlicePlan) (count : Int)
    (settlement : SpeculativeSettlement) : CoordinatorM world SpeculativeSettlement := do
  if ¬ (0 ≤ count ∧ count ≤ plan.effectiveK) then
    throw (.valueError "device acceptance count lies outside the draft length")
  else
    match bindings[plan.sliceIndex]? with
    | none => throw (.indexError "tuple index out of range")
    | some binding =>
      if <- accepts env step.stepId binding then
        let token <- query fun _ =>
          match tokens[sampleIndex step.slices plan.sliceIndex]? with
          | none => .error (.indexError "tuple index out of range")
          | some token => .ok token
        let candidate := (plan.draftTokenIds.take count.toNat).map (fun t => (t : Int)) ++ [token]
        let lc <- ask binding.1 (fun lc => lc)
        let keep <- query fun _ => publishable limit lc.requestId candidate
          lc.request.stop.maxTokens lc.outputTokenIds.length
        pure
          { written := settlement.written.set plan.sliceIndex keep
            emitted := settlement.emitted ++ [(plan.sliceIndex, candidate.take keep)] }
      else
        pure settlement

def settleAllDrafts (tokens : List Int) :
    List SpeculativeSlicePlan -> List Int -> SpeculativeSettlement ->
      CoordinatorM world SpeculativeSettlement
  | [], [], settlement => pure settlement
  | plan :: plans, count :: counts, settlement => do
    let next <- settleDrafts env limit step bindings tokens plan count settlement
    settleAllDrafts tokens plans counts next
  | _, _, _ => throw (.valueError "zip() arguments have different lengths")

def speculativeSettlement (samples : SampleOutputs) : CoordinatorM world SpeculativeSettlement :=
  match samples.speculative with
  | none =>
    throw (.runtimeError "speculative step completed without acceptance results")
  | some speculative =>
    settleAllDrafts env limit step bindings samples.tokenIds step.speculative
      speculative.accepted
      { written := bindings.map (fun binding => binding.2.queryCount), emitted := [] }

end

structure Progress where
  published : List PublishedSample := []
  ignored : List RequestId := []

def Progress.ignore (progress : Progress) (requestId : RequestId) : Progress :=
  { progress with ignored := progress.ignored ++ [requestId] }

def notePublication (publication : Publication) : CoordinatorM world Unit :=
  modify fun c => { c with publications := c.publications ++ [publication] }

def publishEmission (ticket : ExecutionTicket) (sliceIndex : Nat) (binding : Binding)
    (emitted : List Int) (version : Nat) (progress : Progress) : CoordinatorM world Progress := do
  let lc <- ask binding.1 (fun lc => lc)
  onRequest binding.1
    (commitSpeculativeRange ticket.prepared.step.stepId binding.2 emitted version)
  notePublication { ticket := ticket.id, sliceIndex, ref := binding.1, tokens := emitted }
  let samples := emitted.mapIdx fun offset token =>
    ({ requestId := lc.requestId
       sequenceEpoch := binding.2.sequenceEpoch
       tokenId := token
       outputIndex := some (lc.outputTokenIds.length + offset + 1) } : PublishedSample)
  pure { progress with published := progress.published ++ samples }

section

variable (env : Surroundings world)

section

variable (ticket : ExecutionTicket)

/-- Commit the range of an ordinary slice and publish its sample, if it has one. -/
def publishOrdinary (sliceIndex : Nat) (binding : Binding) (sample : Option Int) (version : Nat)
    (progress : Progress) : CoordinatorM world Progress := do
  let stepId := ticket.prepared.step.stepId
  onRequest binding.1 (commitComputedRange stepId binding.2 version)
  match sample with
  | none => pure progress
  | some token =>
    if <- accepts env stepId binding then
      receiveSignals env
      let requestId <- ask binding.1 RequestLifecycle.requestId
      onRequest binding.1 (publishSample stepId binding.2 token)
      notePublication { ticket := ticket.id, sliceIndex, ref := binding.1, tokens := [token] }
      let published : PublishedSample :=
        { requestId, sequenceEpoch := binding.2.sequenceEpoch, tokenId := token }
      pure { progress with published := progress.published ++ [published] }
    else
      pure progress

def ignoreSlice (binding : Binding) (cancel : Bool) (progress : Progress) :
    CoordinatorM world Progress := do
  discard env ticket binding cancel false
  let requestId <- ask binding.1 RequestLifecycle.requestId
  pure (progress.ignore requestId)

section

variable (settlement : Option SpeculativeSettlement) (sliceIndex : Nat) (binding : Binding)
  (sample : Option Int) (version : Nat) (progress : Progress)

/-- Publish a slice; if its request was ended meanwhile the slice is ignored, and
the first component is false. -/
def publishSlice : CoordinatorM world (Bool × Progress) :=
  tryCatch
    (do
      let next <- match settlement.bind (fun s => s.emittedAt sliceIndex) with
        | some emitted => publishEmission ticket sliceIndex binding emitted version progress
        | none => publishOrdinary env ticket sliceIndex binding sample version progress
      pure (true, next))
    (fun exc => do
      if exc.isValueError && (<- invalidated env binding) then
        let next <- ignoreSlice env ticket binding false progress
        pure (false, next)
      else
        throw exc)

/-- One round of the settlement loop. -/
def settleSlice : CoordinatorM world Progress := do
  if <- accepts env ticket.prepared.step.stepId binding then
    receiveSignals env
    let done <- publishSlice env ticket settlement sliceIndex binding sample version progress
    receiveSignals env
    if done.1 && (<- ask binding.1 RequestLifecycle.cancelled) then
      ignoreSlice env ticket binding true done.2
    else
      pure done.2
  else
    ignoreSlice env ticket binding false progress

end

/-- The settlement loop; `sampleIndex` counts the sampling slices passed. -/
def settleSlices (settlement : Option SpeculativeSettlement) (tokens : List Int) :
    Nat -> Nat -> List (Binding × Nat) -> Progress -> CoordinatorM world Progress
  | _, _, [], progress => pure progress
  | sliceIndex, sampleIndex, (binding, version) :: rest, progress => do
    if binding.2.sampleLastQuery then
      match tokens[sampleIndex]? with
      | none => throw (.indexError "tuple index out of range")
      | some sample =>
        let next <- settleSlice env ticket settlement sliceIndex binding (some sample) version
          progress
        settleSlices settlement tokens (sliceIndex + 1) (sampleIndex + 1) rest next
    else
      let next <- settleSlice env ticket settlement sliceIndex binding none version progress
      settleSlices settlement tokens (sliceIndex + 1) sampleIndex rest next

end

/-- The speculative settlement of a step, if it has draft rows. -/
def draftSettlement (limit : PublicationLimit) (step : BatchStepPlan) (bindings : List Binding)
    (samples : SampleOutputs) : CoordinatorM world (Option SpeculativeSettlement) :=
  if step.speculative = [] then
    pure none
  else
    some <$> speculativeSettlement env limit step bindings samples

def commitResources (ticket : ExecutionTicket) (written : Option (List Nat)) :
    CoordinatorM world (List Nat) := do
  let c <- get
  onExecutor (callResources (.commit ticket c.executor.answers)
    (env.commit ticket.id written))

/-- The success branch of `handle`. -/
def settleSuccess (limit : PublicationLimit) (ticket : ExecutionTicket) (outcome : TerminalOutcome)
    (bindings : List Binding) : CoordinatorM world Progress := do
  let step := ticket.prepared.step
  bindings.forM (validateBinding env step.stepId)
  match outcome.samples with
  | none =>
    throw (.runtimeError ("succeeded outcome without sampling results; the executor "
      ++ "must validate samples before completing a ticket"))
  | some samples =>
    let settlement <- draftSettlement env limit step bindings samples
    let versions <- commitResources env ticket
      (settlement.map SpeculativeSettlement.written)
    if versions ≠ bindings.map (fun binding => binding.2.expectedStateVersion + 1) then
      throw (.valueError "resource commit returned unexpected KV versions")
    else
      match samples.reportFault with
      | some exc => throw exc
      | none =>
        settleSlices env ticket settlement samples.tokenIds 0 0 (bindings.zip versions) {}

/-- The failure and cancellation branch of `handle`. -/
def settleFailure (ticket : ExecutionTicket) (outcome : TerminalOutcome) :
    List Binding -> Progress -> CoordinatorM world Progress
  | [], progress => pure progress
  | binding :: rest, progress => do
    discard env ticket binding (decide (outcome.status = .cancelled))
      (decide (outcome.status = .failed))
    let requestId <- ask binding.1 RequestLifecycle.requestId
    settleFailure ticket outcome rest (progress.ignore requestId)

def settleOutcome (limit : PublicationLimit) (ticket : ExecutionTicket) (outcome : TerminalOutcome)
    (bindings : List Binding) : CoordinatorM world Progress :=
  if outcome.status = .succeeded then
    settleSuccess env limit ticket outcome bindings
  else
    settleFailure env ticket outcome bindings {}

end

def discardedSequences (step : BatchStepPlan) (ignored : List RequestId) : List SequenceHandle :=
  (step.inputs.filter (fun value => value.requestId ∈ ignored)).map RequestStepInput.sequence

/-- The guarded body of `handle`. -/
def settle (env : Surroundings world) (limit : PublicationLimit) (ticket : ExecutionTicket)
    (outcome : TerminalOutcome) (bindings : List Binding) :
    CoordinatorM world CompletionResult := do
  let progress <- settleOutcome env limit ticket outcome bindings
  onExecutor (callResources (.retire ticket)
    (env.retire ticket.id (decide (outcome.status = .succeeded))
      (discardedSequences ticket.prepared.step progress.ignored)))
  onExecutor (completeRetirement ticket.id)
  onExecutor (acknowledgeRetired ticket.id)
  modify fun c => { c with bindings := c.bindings.erase ticket.id }
  pure
    { ticketId := ticket.id
      status := outcome.status
      published := progress.published
      ignoredRequests := progress.ignored
      error := outcome.error }

/-- What a raised settlement leaves: a ticket in quarantine. -/
def failSettlement (id : TicketId) (exc : Failure) :
    CoordinatorM world (Option CompletionResult) := do
  onExecutor (Executor.quarantine id ("completion settlement failed: " ++ exc.text) true)
  onExecutor (reraise exc none)

section

variable (env : Surroundings world) (limit : PublicationLimit)

/-- `handle`: settle an outcome once; duplicate and stale delivery are no-ops. -/
def handle (outcome : TerminalOutcome) : CoordinatorM world (Option CompletionResult) := do
  let c <- get
  match c.executor.tickets.get? outcome.ticketId with
  | none => pure none
  | some ticket =>
    if ticket.state ≠ .completed ∨ ticket.terminal ≠ some outcome then
      pure none
    else if ticket.settling then
      pure none
    else
      match c.bindings.get? ticket.id with
      | none =>
        onExecutor (Executor.quarantine ticket.id "missing request bindings" true)
        pure none
      | some bindings =>
        onExecutor (markSettling ticket.id)
        tryCatch (some <$> settle env limit ticket outcome bindings)
          (failSettlement ticket.id)

def handleEach :
    List TerminalOutcome -> CoordinatorM world (List CompletionResult)
  | [] => pure []
  | outcome :: rest => do
    let result <- handle env limit outcome
    let later <- handleEach rest
    pure (result.toList ++ later)

def poll : CoordinatorM world (List CompletionResult) := do
  let outcomes <- onExecutor (pollTerminal env.toBackend)
  handleEach env limit outcomes

def shutdown : CoordinatorM world (List CompletionResult) := do
  let _ <- onExecutor (Executor.shutdown env.toBackend)
  let results <- poll env limit
  let _ <- onExecutor (Executor.shutdown env.toBackend)
  pure results

end

end Completion
end Ayaka
