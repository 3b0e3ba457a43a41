import Ayaka.Foundation.Dict
import Ayaka.Foundation.IndexMap
import Ayaka.Request.Lifecycle

/-!
# The request registry

The manager owns the lifecycle objects of all requests and translates the
scheduler's reports into transitions.  An object outlives its place in the
registry: tickets and queue entries keep pointing at it after its id was forgotten
and given to a new request.  The registry therefore maps ids to references, and
the objects live in a heap of their own.
-/

namespace Ayaka
namespace Request

open Foundation Sched Executor

/-! ## Reports -/

inductive RequestOutcome where
  | queued
  | waitingOnKV
  | admitted
  | prefillChunk
  | prefillDone
  | decoded
  | streamed
  | preemptedRecompute
  | preemptedSwap
  | resumed
  | finished
  | aborted
  | failed
  deriving DecidableEq, Repr

namespace RequestOutcome

def isComputational : RequestOutcome -> Bool
  | prefillChunk | prefillDone | decoded => true
  | _ => false

/-- `_OUTCOME_STATE`. -/
def target : RequestOutcome -> Option RequestState
  | queued => some .waiting
  | waitingOnKV => some .waitingKV
  | admitted => some .admitted
  | prefillChunk => some .prefill
  | prefillDone => some .decoding
  | decoded => none
  | streamed => some .streaming
  | preemptedRecompute => some .preempted
  | preemptedSwap => some .swapped
  | resumed => some .waiting
  | finished => some .finished
  | aborted => some .cancelled
  | failed => some .failed

end RequestOutcome

structure ForwardEvidence where
  completedSlice : ScheduledSlice
  committedStateVersion : Nat
  newTokenIds : List Nat
  deriving DecidableEq, Repr

/-- An incarnation-bound observation.  Compute outcomes carry their evidence, the
others carry none, and a finish names its reason. -/
structure RequestReport where
  requestId : RequestId
  outcome : RequestOutcome
  sequenceEpoch : Nat
  evidence : Option ForwardEvidence := none
  finishReason : Option FinishReason := none
  detail : String := ""
  evidence_iff : evidence.isSome = outcome.isComputational := by rfl
  finish_reason : outcome = .finished -> finishReason.isSome = true := by decide
  deriving Repr

/-! ## The registry -/

abbrev LifecycleRef := Nat

structure LifecycleManager where
  heap : IndexMap RequestLifecycle
  nextRef : LifecycleRef
  active : Dict RequestId LifecycleRef
  finished : Dict RequestId LifecycleRef
  lastStepId : Int
  nextEpoch : Nat

abbrev ManagerM := EStateM Failure LifecycleManager

namespace LifecycleManager

def new : LifecycleManager where
  heap := IndexMap.empty
  nextRef := 0
  active := Dict.empty
  finished := Dict.empty
  lastStepId := -1
  nextEpoch := 1

def store (ref : LifecycleRef) (c : Cell) (m : LifecycleManager) : LifecycleManager :=
  { m with heap := m.heap.put ref c.lifecycle, nextEpoch := c.nextEpoch }

def onRequest {alpha : Type} (ref : LifecycleRef) (x : LifecycleM alpha) : ManagerM alpha :=
  fun m =>
    match m.heap.slot ref with
    | none => .error (.keyError "unknown lifecycle") m
    | some lc =>
      match x { lifecycle := lc, nextEpoch := m.nextEpoch } with
      | .ok a c => .ok a (m.store ref c)
      | .error e c => .error e (m.store ref c)

section

variable (m : LifecycleManager) (requestId : RequestId)

def find : Option LifecycleRef :=
  (m.active.get? requestId).or (m.finished.get? requestId)

def lookup : Option RequestLifecycle :=
  (m.find requestId).bind m.heap.slot

def contains : Bool :=
  (m.find requestId).isSome

end

def get (requestId : RequestId) : ManagerM LifecycleRef :=
  query fun m =>
    match m.find requestId with
    | some ref => .ok ref
    | none => .error (.keyError requestId)

def register (request : Request) (m : LifecycleManager) : LifecycleManager :=
  { m with
    heap := m.heap.put m.nextRef (RequestLifecycle.new request m.nextEpoch)
    nextRef := m.nextRef + 1
    active := m.active.set request.requestId m.nextRef
    nextEpoch := m.nextEpoch + 1 }

def create (request : Request) : ManagerM LifecycleRef := do
  let m <- MonadState.get
  if m.contains request.requestId then
    throw (.valueError ("duplicate request_id '" ++ request.requestId ++ "'"))
  else
    modify (register request)
    pure m.nextRef

/-- `retire_terminal`: this exact object, never a replacement with the same id. -/
def retireTerminal (ref : LifecycleRef) : ManagerM Unit :=
  modify fun m =>
    match m.heap.slot ref with
    | none => m
    | some lc =>
      if lc.isTerminal ∧ m.active.get? lc.requestId = some ref then
        { m with
          active := m.active.erase lc.requestId
          finished := m.finished.set lc.requestId ref }
      else
        m

def forget (requestId : RequestId) : ManagerM Unit := do
  let m <- MonadState.get
  if m.active.contains requestId then
    throw (.valueError "cannot forget an active request")
  else
    modify fun m => { m with finished := m.finished.erase requestId }

/-- `rollback`: undo an admission in progress. -/
def rollback (requestId : RequestId) : ManagerM Unit :=
  modify fun m => { m with active := m.active.erase requestId }

/-- `cancel`: signal the token of an active request. -/
def cancel (requestId : RequestId) (reason : String) : ManagerM Bool := do
  let m <- MonadState.get
  match m.active.get? requestId with
  | none => pure false
  | some ref =>
    onRequest ref do
      let c <- MonadState.get
      modify (Cell.withLifecycle (RequestLifecycle.cancelToken reason))
      pure (!c.lifecycle.cancelled)

/-! ## Applying reports -/

/-- A compute outcome: commit the range, then publish its sample. -/
def applyForward (stepId : Nat) (outcome : RequestOutcome) (evidence : ForwardEvidence) :
    LifecycleM Unit := do
  let scheduled := evidence.completedSlice
  let lc := (<- MonadState.get).lifecycle
  let expected :=
    if scheduled.queryEnd = lc.request.promptLen then
      .prefillDone
    else
      .prefillChunk
  if scheduled.phase = .prefill ∧ outcome ≠ expected then
    throw (.valueError "prefill outcome disagrees with its prompt boundary")
  else
    query fun c =>
      c.lifecycle.validateForwardCommit stepId scheduled evidence.committedStateVersion
    commitComputedRange stepId scheduled evidence.committedStateVersion
    match evidence.newTokenIds with
    | [] => pure ()
    | token :: _ => publishSample stepId scheduled token

/-- The transition a report of another outcome implies. -/
def applyState (entry : RequestReport) : LifecycleM Unit := do
  let lc := (<- MonadState.get).lifecycle
  match entry.outcome, entry.outcome.target with
  | _, none => pure ()
  | .finished, _ =>
    if lc.inflight.isSome then
      throw (.valueError "cannot finish a request with an unfinished slice")
    else
      modify (Cell.withLifecycle fun lc => { lc with finishReason := entry.finishReason })
      onFinished
  | .aborted, _ =>
    modify (Cell.withLifecycle (RequestLifecycle.cancelToken
      (if entry.detail = "" then "aborted by scheduler" else entry.detail)))
    if entry.finishReason.isSome then
      modify (Cell.withLifecycle fun lc => { lc with finishReason := entry.finishReason })
    onCancelled
  | .failed, _ =>
    onFailed (if entry.detail = "" then "scheduler reported failure" else entry.detail)
  | .streamed, _ =>
    if lc.state = .streaming then
      pure ()
    else
      transition .streaming
  | .queued, some dst =>
    if lc.state = .waiting then pure () else transition dst
  | _, some dst => transition dst

def applyOne (entry : RequestReport) (stepId : Nat) : ManagerM Unit := do
  let m <- MonadState.get
  match m.active.get? entry.requestId with
  | none =>
    if m.finished.contains entry.requestId then
      pure ()
    else
      throw (.keyError entry.requestId)
  | some ref =>
    let current <- onRequest ref (query fun c =>
      .ok (decide (entry.sequenceEpoch = c.lifecycle.sequenceEpoch)))
    if current then
      match entry.evidence with
      | some evidence => onRequest ref (applyForward stepId entry.outcome evidence)
      | none =>
        onRequest ref (applyState entry)
        retireTerminal ref
    else
      pure ()

end LifecycleManager

end Request
end Ayaka
