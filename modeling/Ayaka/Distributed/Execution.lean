import Ayaka.Foundation.Effect
import Ayaka.Executor.Failure

/-!
# Distributed steps

Every rank runs the same protocol around its local host: receive the envelope, admit
and prepare it, vote; launch, wait for the fence, vote; commit, vote; publish on one
rank; meet at the barrier.  A local failure never skips a vote, it turns it into a
refusal.

The host and the control plane are given by what their calls do in one attempt.  A
collective call may raise before the rank has voted, when its deadline has passed, or
after.  The trace is recorded for the proofs only: no method reads it.  Results of the
host are opaque and left out, and so is the shutdown handshake.
-/

namespace Ayaka
namespace Distributed

open Foundation
open Executor (Failure)

/-! ## Errors -/

inductive StepError where
  | refused (message : String)
  | failed (message : String)
  | collectiveTimeout (message : String)
  | other (exc : Failure)
  deriving DecidableEq, Repr

namespace StepError

/-- `str(exc)`. -/
def text : StepError -> String
  | refused message => message
  | failed message => message
  | collectiveTimeout message => message
  | other exc => exc.text

/-- `isinstance(exc, DistributedStepError)`. -/
def isDistributedStepError : StepError -> Bool
  | other _ => false
  | _ => true

/-- `isinstance(exc, DistributedStepRefused)`. -/
def isRefused : StepError -> Bool
  | refused _ => true
  | _ => false

end StepError

/-- What the control plane and a rollback raise: never the coordinator's own refusal. -/
inductive ControlError where
  | collectiveTimeout (message : String)
  | other (exc : Failure)
  deriving DecidableEq, Repr

def ControlError.toStepError : ControlError -> StepError
  | collectiveTimeout message => .collectiveTimeout message
  | other exc => .other exc

/-! ## The rank-local worker -/

inductive RankLocalKVWorkerState where
  | created
  | ready
  | running
  | failed
  | closed
  deriving DecidableEq, Repr

structure DistributedPlan where
  participatingRanks : List Int
  workerGeneration : Int
  deriving DecidableEq, Repr

/-- What the coordinator reads of an envelope; `plan` is `_resolve_identity` of its
payload, and `tampered` what `verify` raises. -/
structure DistributedStepEnvelope where
  stepId : Int
  sha256 : String
  plan : String -> Option String
  graphMode : String
  distributed : Option DistributedPlan
  tampered : Option Failure := none

structure RankLocalKVWorker where
  rank : Nat
  state : RankLocalKVWorkerState := .created
  activeStep : Option Int := none
  lastStep : Int := -1
  failure : Option String := none
  generation : Nat := 0
  deriving DecidableEq, Repr

namespace RankLocalKVWorker

abbrev WorkerM := EStateM StepError RankLocalKVWorker

def raise {alpha : Type} (text : String) : WorkerM alpha :=
  throw (.other (.runtimeError text))

/-- `begin`. -/
def beginStep (metadata : DistributedStepEnvelope) : WorkerM Unit := do
  let s <- get
  match metadata.tampered with
  | some exc => throw (.other exc)
  | none =>
    if s.state ≠ .ready then
      raise ("rank " ++ toString s.rank ++ " KV worker is not ready")
    else if metadata.stepId ≤ s.lastStep then
      raise ("rank " ++ toString s.rank ++ " received stale KV step "
        ++ toString metadata.stepId)
    else
      modify fun s => { s with
        activeStep := some metadata.stepId
        state := .running }

def complete (stepId : Int) : WorkerM Unit := do
  let s <- get
  if s.state ≠ .running then
    raise "KV worker has no running step"
  else if s.activeStep ≠ some stepId then
    raise "KV worker completion step mismatch"
  else
    modify fun s => { s with
      lastStep := stepId
      activeStep := none
      state := .ready }

def fail (error : String) (s : RankLocalKVWorker) : RankLocalKVWorker :=
  { s with
    failure := some error
    activeStep := none
    state := .failed }

/-- `recover`, with what the rebuilding raises. -/
def recover (reinitialized : Option StepError) : WorkerM Unit := do
  let s <- get
  if s.state ≠ .failed then
    raise "only a failed KV worker can recover"
  else
    match reinitialized with
    | some exc => throw exc
    | none => modify fun s => { s with
        generation := s.generation + 1
        failure := none
        state := .ready }

end RankLocalKVWorker

/-! ## One attempt -/

inductive Round where
  | prepare
  | proof
  | acknowledge
  deriving DecidableEq, Repr

/-- A collective call on one rank: its deadline passes first, or the rank takes part and
gets an answer or an error. -/
inductive Answer (alpha : Type) where
  | expired
  | answered (outcome : Except ControlError alpha)

/-- What the control plane does for one rank in one attempt. -/
structure Answers where
  broadcast : Answer DistributedStepEnvelope
  grant : Round -> Answer Bool
  barrier : Answer Unit

/-- What the host of one rank does in one attempt. -/
structure Host where
  planIdentity : Except StepError (List (String × Option String)) := .ok []
  prepare : Option StepError := none
  rollback : Option ControlError := none
  execute : Option StepError := none
  /-- Building the fence and waiting for it, within the deadline. -/
  fence : Except StepError Bool := .ok true
  commit : Option StepError := none
  publish : Option StepError := none
  fail : Option StepError := none

inductive StepAct where
  /-- The envelope of the step has arrived. -/
  | received
  | admitted
  | prepared
  | voted (round : Round) (localGrant : Bool)
  /-- The prepare round was answered with a refusal. -/
  | declined
  | rolledBack
  /-- The refusal is raised, with the step rolled back and ended. -/
  | refused
  | launched
  | fenced
  | committing
  | committed
  | publishing
  | published
  | barrierEntered
  | returned
  | failedClosed
  deriving DecidableEq, Repr

structure DistributedStepCoordinator where
  rank : Nat
  worldSize : Nat
  sourceRank : Nat := 0
  publisherRank : Nat := 0
  allowGraph : Bool := false
  lastAttempt : Int := -1
  worker : RankLocalKVWorker
  /-- The acts of the current attempt with their steps, the latest first. -/
  trace : List (Int × StepAct) := []

namespace DistributedStepCoordinator

abbrev StepM := EStateM StepError DistributedStepCoordinator

def note (stepId : Int) (act : StepAct) : StepM Unit :=
  modify fun s => { s with trace := (stepId, act) :: s.trace }

def raiseIf : Option StepError -> StepM Unit
  | some exc => throw exc
  | none => pure ()

def raise {alpha : Type} (text : String) : StepM alpha :=
  throw (.other (.runtimeError text))

/-- Run a part of the step and keep what it raises: `except BaseException as exc`. -/
def caught (x : StepM Unit) : StepM (Option StepError) :=
  tryCatch (do x; pure none) fun exc => pure (some exc)

def onWorker {alpha : Type} (x : RankLocalKVWorker.WorkerM alpha) : StepM alpha :=
  zoom (fun s => s.worker) (fun worker s => { s with worker }) x

/-- `_budget` when the deadline has passed. -/
def expired {alpha : Type} : StepM alpha := do
  let s <- get
  throw (.collectiveTimeout ("rank " ++ toString s.rank
    ++ " step watchdog expired before the collective"))

def answer {alpha : Type} : Except ControlError alpha -> StepM alpha
  | .ok a => pure a
  | .error exc => throw exc.toStepError

/-- `_agree`: one vote. -/
def agree (answers : Answers) (envelope : DistributedStepEnvelope) (round : Round)
    (localGrant : Bool) : StepM Bool :=
  match answers.grant round with
  | .expired => expired
  | .answered outcome => do
    note envelope.stepId (.voted round localGrant)
    answer outcome

/-- The collective of `_broadcast`. -/
def broadcastText (answers : Answers) : StepM DistributedStepEnvelope :=
  match answers.broadcast with
  | .expired => expired
  | .answered outcome => answer outcome

/-- What each rank may pass to `run`. -/
def checkPrepared (s : DistributedStepCoordinator) (prepared : Option DistributedStepEnvelope) :
    Option StepError :=
  if s.rank = s.sourceRank then
    if prepared.isNone then
      some (.other (.valueError "the source rank must provide a prepared step"))
    else
      none
  else if prepared.isSome then
    some (.other (.valueError "only the source rank may pass a prepared step"))
  else
    none

def broadcast (answers : Answers) (prepared : Option DistributedStepEnvelope) :
    StepM DistributedStepEnvelope := do
  let s <- get
  raiseIf (s.checkPrepared prepared)
  let envelope <- broadcastText answers
  if prepared.any (fun built => built.sha256 ≠ envelope.sha256) then
    raise "source envelope changed during broadcast"
  else
    modify fun s => { s with lastAttempt := envelope.stepId }
    note envelope.stepId .received
    pure envelope

/-! ## Admission -/

/-- A Python list of texts, as `f"{...}"` prints it. -/
def listText (items : List String) : String :=
  "[" ++ ", ".intercalate items ++ "]"

/-- The checks of `_admit` before the worker begins the step. -/
def checkAdmission (s : DistributedStepCoordinator) (envelope : DistributedStepEnvelope)
    (localIdentity : List (String × Option String)) : Option String :=
  let mismatched := localIdentity.filter fun entry => envelope.plan entry.1 ≠ entry.2
  if mismatched ≠ [] then
    some ("rank " ++ toString s.rank ++ " plan identity disagrees on "
      ++ listText (mismatched.map fun entry => "'" ++ entry.1 ++ "'"))
  else if (envelope.graphMode = "capture" ∨ envelope.graphMode = "replay")
      ∧ s.allowGraph = false then
    some ("rank " ++ toString s.rank ++ " rejects graph mode '" ++ envelope.graphMode
      ++ "': distributed graph replay is not certified")
  else
    envelope.distributed.bind fun distributed =>
      if ¬ (forall rank, rank ∈ distributed.participatingRanks ->
          0 ≤ rank ∧ rank < (s.worldSize : Int)) then
        some ("rank " ++ toString s.rank ++ " rejects ranks "
          ++ listText ((distributed.participatingRanks.dedup.mergeSort).map toString)
          ++ " outside the " ++ toString s.worldSize ++ "-rank group")
      else if distributed.workerGeneration ≠ (s.worker.generation : Int) then
        some ("rank " ++ toString s.rank ++ " holds generation "
          ++ toString s.worker.generation ++ " but step " ++ toString envelope.stepId
          ++ " targets " ++ toString distributed.workerGeneration)
      else
        none

/-- `_admit`. -/
def admitEnvelope (host : Host) (envelope : DistributedStepEnvelope) : StepM Unit := do
  let localIdentity <- query fun _ => host.planIdentity
  let s <- get
  raiseIf ((s.checkAdmission envelope localIdentity).map fun text =>
    .other (.runtimeError text))
  onWorker (RankLocalKVWorker.beginStep envelope)
  note envelope.stepId .admitted

def prepare (host : Host) (envelope : DistributedStepEnvelope) : StepM Unit := do
  admitEnvelope host envelope
  raiseIf host.prepare
  note envelope.stepId .prepared

/-! ## Failing and ending -/

def failBoth (host : Host) (exc : StepError) : StepM Unit := do
  modify fun s => { s with
    worker := s.worker.fail exc.text
    trace := (s.lastAttempt, .failedClosed) :: s.trace }
  raiseIf host.fail

def endStep (envelope : DistributedStepEnvelope) : StepM Unit := do
  let s <- get
  if s.worker.state = .running then
    onWorker (RankLocalKVWorker.complete envelope.stepId)
  else
    pure ()

def failedText (s : DistributedStepCoordinator) (stepId : Int) (exc : StepError) : String :=
  "rank " ++ toString s.rank ++ " failed step " ++ toString stepId ++ ": " ++ exc.text

def raiseFailed {alpha : Type} (stepId : Int) (exc : StepError) : StepM alpha := do
  let s <- get
  if exc.isDistributedStepError then
    throw exc
  else
    throw (.failed (s.failedText stepId exc))

def failClosed (host : Host) (exc : StepError) : StepM Unit := do
  failBoth host exc
  let s <- get
  raiseFailed s.lastAttempt exc

/-! ## The phases of `run` -/

section

variable (host : Host) (envelope : DistributedStepEnvelope)
include host

/-- The branch of a refused step. -/
def refuse (refusal : Option StepError) : StepM Unit := do
  note envelope.stepId .declined
  raiseIf (host.rollback.map ControlError.toStepError)
  note envelope.stepId .rolledBack
  endStep envelope
  note envelope.stepId .refused
  let s <- get
  throw (.refused (refusal.elim
    ("step " ++ toString envelope.stepId ++ " was refused by another rank; "
      ++ "no rank launched and every tentative reference is clean")
    fun exc => "rank " ++ toString s.rank ++ " refused step " ++ toString envelope.stepId
      ++ ": " ++ exc.text))

def launch : StepM Unit := do
  note envelope.stepId .launched
  raiseIf host.execute
  let proven <- query fun _ => host.fence
  if proven = true then
    note envelope.stepId .fenced
  else
    let s <- get
    throw (.failed ("rank " ++ toString s.rank
      ++ " completion timed out before the success proof"))

def commit : StepM Unit := do
  note envelope.stepId .committing
  raiseIf host.commit
  note envelope.stepId .committed

def publish : StepM Unit := do
  note envelope.stepId .publishing
  raiseIf host.publish
  note envelope.stepId .published

end

def enterBarrier (answers : Answers) (envelope : DistributedStepEnvelope) : StepM Unit :=
  match answers.barrier with
  | .expired => expired
  | .answered outcome => do
    note envelope.stepId .barrierEntered
    answer outcome

/-- Publication on the publisher's rank. -/
def publication (host : Host) (envelope : DistributedStepEnvelope) : StepM Unit := do
  let s <- get
  if s.rank = s.publisherRank then
    tryCatch (publish host envelope) (failClosed host)
  else
    pure ()

section

variable (host : Host) (answers : Answers) (envelope : DistributedStepEnvelope)
include host

/-- After the acknowledgements: publication and the barrier. -/
def finishStep : StepM Unit := do
  publication host envelope
  enterBarrier answers envelope
  endStep envelope
  note envelope.stepId .returned

/-- The commit phase and what follows it. -/
def commitPhase : StepM Unit := do
  let failure <- caught (commit host envelope)
  let granted <- agree answers envelope .acknowledge failure.isNone
  if granted = true then
    finishStep host answers envelope
  else
    let exc := failure.getD (.failed ("step " ++ toString envelope.stepId
      ++ " failed the group commit acknowledgement"))
    failBoth host exc
    let s <- get
    throw (.failed (s.failedText envelope.stepId exc))

/-- The launch phase and what follows it. -/
def launchPhase : StepM Unit := do
  let failure <- caught (launch host envelope)
  let granted <- agree answers envelope .proof failure.isNone
  if granted = true then
    commitPhase host answers envelope
  else
    let exc := failure.getD (.failed ("step " ++ toString envelope.stepId
      ++ " failed the global execution proof"))
    failBoth host exc
    raiseFailed envelope.stepId exc

end

/-- The body of the outer `try`. -/
def attempt (host : Host) (answers : Answers) (prepared : Option DistributedStepEnvelope) :
    StepM Unit := do
  let envelope <- broadcast answers prepared
  let refusal <- caught (prepare host envelope)
  let granted <- agree answers envelope .prepare refusal.isNone
  if granted = true then
    launchPhase host answers envelope
  else
    refuse host envelope refusal

/-- The outer handlers. -/
def handle (host : Host) (exc : StepError) : StepM Unit :=
  if exc.isRefused then
    throw exc
  else
    failClosed host exc

/-- `run`, in a new attempt. -/
def run (host : Host) (answers : Answers) (prepared : Option DistributedStepEnvelope) :
    StepM Unit := do
  modify fun s => { s with trace := [] }
  tryCatch (attempt host answers prepared) (handle host)

/-- `recover`; a replacement of the control plane says which rank and group it is for. -/
def recover (reinitialized : Except StepError (Option (Nat × Nat))) : StepM Unit := do
  onWorker (RankLocalKVWorker.recover
    (match reinitialized with
      | .ok _ => none
      | .error exc => some exc))
  let s <- get
  match reinitialized with
  | .ok (some (rank, worldSize)) =>
    if rank ≠ s.rank then do
      modify fun s => { s with
        worker := s.worker.fail "replacement control plane changed local rank" }
      raise "replacement control plane changed local rank"
    else
      modify fun s => { s with worldSize }
  | _ => pure ()

end DistributedStepCoordinator
end Distributed
end Ayaka
