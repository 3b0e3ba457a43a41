import Ayaka.Foundation.Dict
import Ayaka.Foundation.Effect
import Ayaka.Executor.Ticket

/-!
# The executor

The executor owns tickets before anything is enqueued and keeps them through
partial launch failures.  Its own state is the registry of live tickets; device
hooks and resource bundles belong to the surroundings, whose state is a parameter
here.  Every hook may answer or raise as that state decides, so a statement about
all surroundings is a statement about all fence answers and all injected faults.

Two records are kept for the proofs only: the answers the fences have given, and
the calls made to resource bundles.  No method reads them.
-/

namespace Ayaka
namespace Executor

open Foundation Sched

/-! ## The surroundings -/

/-- What the backend does to the ticket it enqueues. -/
inductive HookCall where
  | trackFence (fence : FenceId)
  | setSamples (samples : SampleOutputs)
  deriving DecidableEq, Repr

/-- One run of the enqueue hook: the calls it makes on its ticket, and what it
raises after them. -/
structure Submission where
  calls : List HookCall
  fault : Option Failure := none
  deriving DecidableEq, Repr

/-- The backend hooks of an executor and the callbacks of the bundle a ticket
owns, over the state `world` of everything outside the executor. -/
structure Backend (world : Type) where
  enqueue : ExecutionTicket -> world -> Submission × world
  beginDrain : TicketId -> EStateM Failure world FenceId
  query : FenceId -> EStateM Failure world FenceResult
  close : EStateM Failure world Unit
  adopt : TicketId -> PreparedStep -> EStateM Failure world Unit
  markSubmitted : TicketId -> EStateM Failure world Unit
  commit : TicketId -> Option (List Nat) -> EStateM Failure world (List Nat)
  retire : TicketId -> Bool -> List SequenceHandle -> EStateM Failure world Unit

/-- A call to a resource bundle; commit and retire keep the ticket as it was, a
commit the answers heard until then as well. -/
inductive ResourceCall where
  | adopt (ticket : TicketId)
  | markSubmitted (ticket : TicketId)
  | commit (ticket : ExecutionTicket) (heard : List (FenceId × FenceResult))
  | retire (ticket : ExecutionTicket)
  deriving DecidableEq, Repr

def ResourceCall.isSettlement : ResourceCall -> Bool
  | commit _ _ | retire _ => true
  | _ => false

end Executor

open Executor in
structure Executor (world : Type) where
  maxInflight : Nat
  executorId : Nat
  nextOrdinal : Nat
  lastStep : Int
  tickets : Foundation.Dict TicketId ExecutionTicket
  initialized : Bool
  stopping : Bool
  closed : Bool
  world : world
  answers : List (FenceId × FenceResult)
  calls : List ResourceCall

namespace Executor

open Foundation Sched

abbrev ExecutorM (world : Type) := EStateM Failure (Executor world)

/-! ## What a call does to one ticket -/

namespace ExecutionTicket

section

variable (ticket : ExecutionTicket)

def finish (status : TerminalStatus) : ExecutionTicket :=
  { ticket with
    terminal := some
      { ticketId := ticket.id
        status
        samples := if status = .succeeded then ticket.samples else none
        error := ticket.error
        samples_of_succeeded := fun h => if_neg h }
    state := .completed }

def hasSucceeded : Bool :=
  ticket.terminal.any (fun outcome => outcome.status = .succeeded)

def noteCancel (error : String) : ExecutionTicket :=
  { ticket with cancelled := true, error }

def noteMissing : ExecutionTicket :=
  { ticket with error := "sampling output missing for succeeded work" }

/-- `cancel`: publication stops, submitted work must still finish or drain. -/
def cancel (reason : String) : ExecutionTicket :=
  if ticket.settling ∨ ticket.state = .retired then
    ticket
  else if ticket.state = .completed then
    if ticket.hasSucceeded then
      (ticket.noteCancel reason).finish .cancelled
    else
      ticket
  else
    let noted := ticket.noteCancel (if ticket.error = "" then reason else ticket.error)
    if ticket.state = .adopted then
      noted.finish .cancelled
    else if ticket.state ≠ .quarantined then
      { noted with state := .draining }
    else
      noted

/-- `quarantine`: ownership is retained; an error never implies quiescence. -/
def quarantine (error : String) (hostFailure : Bool) : ExecutionTicket :=
  { ticket with
    error
    hostFailure := ticket.hostFailure || hostFailure
    state := .quarantined
    needsDrain := !(ticket.hostFailure || hostFailure) }

def submit : ExecutionTicket :=
  { ticket with state := .submitted, submitted := true }

/-- The launch handler: whatever the enqueue raised may hide submitted work. -/
def failLaunch (exc : Failure) : ExecutionTicket :=
  { ticket with
    error := "launch failed: " ++ exc.text
    needsDrain := true
    state := .draining }

def track (fence : FenceId) : ExecutionTicket :=
  { ticket with fences := ticket.fences ++ [fence] }

def noteFailure (error : String) : ExecutionTicket :=
  { ticket with
    executionFailed := true
    error := if ticket.error = "" then error else ticket.error }

def awaited : List FenceId :=
  if ticket.needsDrain then ticket.drainFence.toList else ticket.fences

/-- The last part of `_poll`, once every awaited fence is quiescent. -/
def conclude (failed : Bool) : ExecutionTicket :=
  if ticket.needsDrain || failed || ticket.executionFailed then
    ticket.finish .failed
  else if ticket.cancelled then
    ticket.finish .cancelled
  else if ticket.samples = none then
    ticket.noteMissing.finish .failed
  else
    ticket.finish .succeeded

end

end ExecutionTicket

/-! ## Methods -/

variable {world : Type}

/-- `__init__`. -/
def new (maxInflight executorId : Nat) (w : world) : Executor world where
  maxInflight
  executorId
  nextOrdinal := 1
  lastStep := -1
  tickets := Dict.empty
  initialized := false
  stopping := false
  closed := false
  world := w
  answers := []
  calls := []

def hasSubmissionCapacity (e : Executor world) : Bool :=
  e.initialized && !e.stopping && decide (e.tickets.size < e.maxInflight)
    && !e.tickets.values.any (fun ticket => ticket.state = .quarantined)

/-- Run a hook or callback of the surroundings. -/
def outside {alpha : Type} (x : EStateM Failure world alpha) : ExecutorM world alpha :=
  zoom Executor.world (fun w e => { e with world := w }) x

def callResources {alpha : Type} (call : ResourceCall) (x : EStateM Failure world alpha) :
    ExecutorM world alpha := do
  modify fun e => { e with calls := e.calls ++ [call] }
  outside x

def initializeHost : ExecutorM world Unit := do
  let e <- get
  if e.stopping ∨ e.closed then
    throw (.runtimeError "executor is stopping or closed")
  else
    modify fun e => { e with initialized := true }

/-- `_require_owned`, for a ticket named by its id. -/
def requireOwned (id : TicketId) : ExecutorM world ExecutionTicket :=
  query fun e =>
    match e.tickets.get? id with
    | some ticket => .ok ticket
    | none => .error (.valueError "ticket is not active in this executor")

def withTicket (id : TicketId) (f : ExecutionTicket -> ExecutionTicket) (e : Executor world) :
    Executor world :=
  { e with tickets := e.tickets.modify id f }

def update (id : TicketId) (f : ExecutionTicket -> ExecutionTicket) : ExecutorM world Unit :=
  modify (withTicket id f)

def register (prepared : PreparedStep) (e : Executor world) : Executor world :=
  let id : TicketId := { executor := e.executorId, ordinal := e.nextOrdinal }
  { e with
    nextOrdinal := e.nextOrdinal + 1
    tickets := e.tickets.set id { id, prepared } }

/-- Transfer a prepared bundle before any enqueue can occur.  When the bundle
refuses its owner the ticket is forgotten and the caller keeps the bundle. -/
def adopt (backend : Backend world) (prepared : PreparedStep) : ExecutorM world TicketId := do
  let e <- get
  if e.hasSubmissionCapacity = false then
    throw (.runtimeError "executor has no submission capacity")
  else if (prepared.step.stepId : Int) ≤ e.lastStep then
    throw (.valueError "adoption requires a fresh increasing step_id")
  else
    let id : TicketId := { executor := e.executorId, ordinal := e.nextOrdinal }
    modify (register prepared)
    tryCatch (callResources (.adopt id) (backend.adopt id prepared)) fun exc => do
      modify fun e => { e with tickets := e.tickets.erase id }
      throw exc
    modify fun e => { e with lastStep := prepared.step.stepId }
    pure id

def trackFence (id : TicketId) (fence : FenceId) : ExecutorM world Unit := do
  let ticket <- requireOwned id
  if ticket.state ≠ .submitted then
    throw (.valueError "fences can be registered only during submission")
  else
    update id (fun ticket => ticket.track fence)

/-- The agreement of a sampling result with its plan. -/
def checkSamples (step : BatchStepPlan) (samples : SampleOutputs) : Except Failure Unit := do
  reject (samples.tokenIds.length ≠ step.samplingRows.length)
    (.valueError ("sampling output has " ++ toString samples.tokenIds.length
      ++ " rows, prepared plan declares " ++ toString step.samplingRows.length))
  reject (samples.speculative.isNone ≠ step.speculative.isEmpty)
    (.valueError "speculative results disagree with the prepared step")
  match samples.speculative with
  | none => pure ()
  | some speculative =>
    reject
      (speculative.rows ≠ specPositions step ∨ speculative.draftCounts ≠ draftCounts step)
      (.valueError "speculative result rows disagree with the prepared plan")

def setSamples (id : TicketId) (samples : SampleOutputs) : ExecutorM world Unit := do
  let ticket <- requireOwned id
  if ticket.state ≠ .submitted ∧ ticket.state ≠ .draining then
    throw (.valueError "ticket is not awaiting execution output")
  else
    query fun _ => checkSamples ticket.prepared.step samples
    update id (fun ticket => { ticket with samples := some samples })

def cancel (id : TicketId) (reason : String) : ExecutorM world Unit := do
  let _ <- requireOwned id
  update id (fun ticket => ticket.cancel reason)

def quarantine (id : TicketId) (error : String) (hostFailure : Bool) : ExecutorM world Unit := do
  let _ <- requireOwned id
  update id (fun ticket => ticket.quarantine error hostFailure)

/-- Pass on what is not an `Exception`; anything else has been recorded. -/
def reraise {alpha : Type} (exc : Failure) (recorded : alpha) : ExecutorM world alpha :=
  if exc.isException then pure recorded else throw exc

def hookCall (id : TicketId) : HookCall -> ExecutorM world Unit
  | .trackFence fence => trackFence id fence
  | .setSamples samples => setSamples id samples

section

variable (backend : Backend world) (id : TicketId)

/-- `_enqueue` with the check that it left a fence behind. -/
def enqueue : ExecutorM world Unit := do
  let ticket <- requireOwned id
  let e <- get
  let ran := backend.enqueue ticket e.world
  modify fun e => { e with world := ran.2 }
  ran.1.calls.forM (hookCall id)
  match ran.1.fault with
  | some exc => throw exc
  | none =>
    let ticket <- requireOwned id
    if ticket.fences = [] then
      throw (.runtimeError "enqueue returned without any completion fence")
    else
      pure ()

/-- `mark_submitted`; a bundle that refuses leaves its accounting ambiguous. -/
def beginSubmission : ExecutorM world Bool :=
  tryCatch
    (do
      callResources (.markSubmitted id) (backend.markSubmitted id)
      pure true)
    (fun exc => do
      quarantine id ("resource submission failed: " ++ exc.text) true
      reraise exc false)

def launch : ExecutorM world Unit := do
  let ticket <- requireOwned id
  let e <- get
  if ticket.state ≠ .adopted then
    throw (.valueError "ticket can be launched only once")
  else if e.stopping then
    cancel id "executor is stopping"
  else
    let ready <- beginSubmission backend id
    if ready then
      update id ExecutionTicket.submit
      tryCatch (enqueue backend id) fun exc => do
        update id (fun ticket => ticket.failLaunch exc)
        reraise exc ()
    else
      pure ()

/-- `drain`: start a recovery proof if completion became uncertain. -/
def drain : ExecutorM world Unit := do
  let ticket <- requireOwned id
  if ticket.hostFailure ∨ ticket.needsDrain = false ∨ ticket.drainFence.isSome then
    pure ()
  else
    tryCatch
      (do
        let fence <- outside (backend.beginDrain id)
        update id (fun ticket => { ticket with drainFence := some fence }))
      (fun exc => do
        quarantine id ("cannot establish drain proof: " ++ exc.text) false
        reraise exc ())

/-- One fence query with its handler: an exception implies unknown completion. -/
def askFence (fence : FenceId) : ExecutorM world (Option FenceResult) :=
  tryCatch
    (do
      let result <- outside (backend.query fence)
      modify fun e => { e with answers := e.answers ++ [(fence, result)] }
      pure (some result))
    (fun exc => do
      quarantine id ("completion query failed: " ++ exc.text) false
      reraise exc none)

/-- The loop of `_poll` over the awaited fences, with `all_quiescent` and
`failed`.  No result means that the ticket was quarantined on the way. -/
def queryFences :
    List FenceId -> Bool -> Bool -> ExecutorM world (Option (Bool × Bool))
  | [], quiescent, failed => pure (some (quiescent, failed))
  | fence :: rest, quiescent, failed => do
    match <- askFence backend id fence with
    | none => pure none
    | some result =>
      if result.state = .failed then
        update id (fun ticket => ticket.noteFailure result.error)
        if result.quiescent then
          queryFences rest quiescent true
        else
          quarantine id result.error false
          pure none
      else
        queryFences rest (quiescent && result.quiescent) failed

/-- The part of `_poll` after the drain has been started. -/
def pollFences : ExecutorM world Unit := do
  let ticket <- requireOwned id
  if ticket.awaited = [] then
    pure ()
  else
    match <- queryFences backend id ticket.awaited true false with
    | none => pure ()
    | some (quiescent, failed) =>
      if quiescent then
        update id (fun ticket => ticket.conclude failed)
      else
        pure ()

def poll : ExecutorM world Unit := do
  let ticket <- requireOwned id
  if ticket.hostFailure ∨ ticket.state = .adopted
      ∨ ticket.state = .completed then
    pure ()
  else
    if ticket.needsDrain then
      drain backend id
    pollFences backend id

end

def delivered (id : TicketId) (e : Executor world) : List TerminalOutcome :=
  match e.tickets.get? id with
  | some ticket =>
    if ticket.state = .completed then ticket.terminal.toList else []
  | none => []

def pollEach (backend : Backend world) : List TicketId -> ExecutorM world (List TerminalOutcome)
  | [] => pure []
  | id :: rest => do
    poll backend id
    let e <- get
    let later <- pollEach backend rest
    pure (delivered id e ++ later)

def pollTerminal (backend : Backend world) : ExecutorM world (List TerminalOutcome) := do
  let e <- get
  pollEach backend e.tickets.keys

/-- The coordinator marks a ticket before it settles its outcome. -/
def markSettling (id : TicketId) : ExecutorM world Unit :=
  update id (fun ticket => { ticket with settling := true })

/-- The coordinator records that the bundle of a ticket was retired. -/
def completeRetirement (id : TicketId) : ExecutorM world Unit :=
  update id (fun ticket => { ticket with retirementComplete := true })

def acknowledgeRetired (id : TicketId) : ExecutorM world Unit := do
  let ticket <- requireOwned id
  if ticket.state ≠ .completed ∨ ticket.retirementComplete = false then
    throw (.valueError "only settled terminal work can retire")
  else
    modify fun e => { e with tickets := e.tickets.erase id }

/-- What `shutdown` does with one ticket. -/
def stop (backend : Backend world) (id : TicketId) : ExecutorM world Unit := do
  let ticket <- requireOwned id
  if ticket.state = .adopted then
    cancel id "shutdown before launch"
  else
    drain backend id

def closeIdle (backend : Backend world) : ExecutorM world Bool := do
  let e <- get
  if e.tickets.entries ≠ [] then
    pure false
  else if e.closed then
    pure true
  else
    outside backend.close
    modify fun e => { e with closed := true }
    pure true

def shutdown (backend : Backend world) : ExecutorM world Bool := do
  modify fun e => { e with stopping := true }
  let e <- get
  e.tickets.keys.forM (stop backend)
  closeIdle backend

end Executor
end Ayaka
