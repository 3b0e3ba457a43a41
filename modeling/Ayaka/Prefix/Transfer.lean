import Ayaka.Foundation.Stream
import Ayaka.Executor.Ticket
import Ayaka.Memory.Sequence

/-!
# Prefix transfers

A transfer spills a cached prefix to host memory or restores one.  Its copies are
enqueued layer by layer on one stream, each layer followed by an event of its own,
and the ticket settles once every layer has resolved.

The cache's backend lies outside this model: what a call on it answers is a
parameter, a call may fail with an ordinary exception, and the calls made are kept
in a list that the source does not have.
-/

namespace Ayaka
namespace Prefix

open Foundation
open Executor (TicketState Failure)
open Memory

/-!
## Credits
-/

/-- A byte semaphore shared by all transfers; the owner is the transfer's id. -/
structure TransferCredits where
  limit : Nat
  claims : IndexMap Nat

namespace TransferCredits

def held (credits : TransferCredits) : Nat :=
  credits.claims.values.sum

def acquire (owner nbytes : Nat) : EStateM Failure TransferCredits Unit := do
  let credits <- get
  if (credits.claims.slot owner).isSome then
    throw (.valueError "transfer owner already reserved credits")
  if credits.limit < credits.held + nbytes then
    throw (.transferCreditError "transfer credits exhausted")
  set { credits with claims := credits.claims.put owner nbytes }

/-- Hand back `nbytes` of a claim, or all of it. -/
def release (owner : Nat) (nbytes : Option Nat) : EStateM Failure TransferCredits Unit := do
  let credits <- get
  match credits.claims.slot owner with
  | none => throw (.valueError "unknown transfer owner")
  | some reserved =>
    match nbytes with
    | none => set { credits with claims := credits.claims.remove owner }
    | some n =>
      if reserved < n then
        throw (.valueError "release exceeds reserved credits")
      if reserved - n = 0 then
        set { credits with claims := credits.claims.remove owner }
      else
        set { credits with claims := credits.claims.put owner (reserved - n) }

end TransferCredits

/-!
## The host checkpoint
-/

/-- A host copy of a prefix.  `tensor` is the version counter of its tensor, gone
once the buffer was closed. -/
structure HostPrefix where
  cacheId : Nat
  tokenIds : List Nat
  tensor : Option Nat
  version : Option Nat
  borrowers : Nat
  ready : Bool
  closed : Bool

namespace HostPrefix

def make (cacheId : Nat) (tokenIds : List Nat) : HostPrefix where
  cacheId := cacheId
  tokenIds := tokenIds
  tensor := some 0
  version := none
  borrowers := 0
  ready := false
  closed := false

def validate (cacheId : Nat) (host : HostPrefix) : Except Failure Unit :=
  if host.closed ∨ ¬ host.ready ∨ cacheId ≠ host.cacheId ∨ host.tensor ≠ host.version then
    .error (.valueError
      "host prefix is pending, mutated, closed or from another cache")
  else
    .ok ()

/-- `close`; closing the buffer may fail. -/
def close (bufferFault : Option String) : EStateM Failure HostPrefix Unit := do
  let host <- get
  if host.closed then
    return
  if host.borrowers ≠ 0 then
    throw (.runtimeError "host prefix still belongs to an active transfer")
  set { host with tensor := none }
  match bufferFault with
  | some message => throw (.exception message)
  | none => modify fun host => { host with closed := true }

end HostPrefix

/-!
## Copies
-/

inductive PlaneKind where
  | key
  | value
  deriving DecidableEq, Repr

/-- One end of a copy: the first `count` rows of a page of a device plane, or a
range of the host tensor. -/
inductive Region where
  | device (layer : Nat) (kind : PlaneKind) (page count : Nat)
  | host (layer index start stop : Nat)
  deriving DecidableEq, Repr

structure Copy where
  layer : Nat
  destination : Region
  source : Region
  deriving DecidableEq, Repr

/-- Copies and fence of one layer; an event is a position of the stream. -/
structure LayerBatch where
  index : Nat
  copies : List Copy
  nbytes : Nat
  event : Option Nat
  done : Bool

structure TransferSpec where
  cacheId : Nat
  numLayers : Nat
  numKvHeadsLocal : Nat
  headDim : Nat
  itemsize : Nat
  pageSize : Nat
  cuda : Bool
  physicalId : KVPageHandle -> Nat

/-- The calls a transfer makes on the cache and its backend. -/
inductive BackendCall where
  | createSequence
  | beginTransaction
  | tryReserve
  | prepareStep
  | rollbackTransaction
  | buildExecutionView
  | pin
  | allocateBuffer
  | validateExecutionView
  | markStepInFlight
  | commitStep
  | retireStep
  | publish
  | failInFlightStep
  | abortPreparedStep
  | releaseSequence
  | unpinPrefix
  | advanceEpoch
  deriving DecidableEq, Repr

def BackendCall.Releases : BackendCall -> Bool
  | retireStep => true
  | failInFlightStep => true
  | abortPreparedStep => true
  | releaseSequence => true
  | unpinPrefix => true
  | _ => false

/-- The points of a call on the ticket at which the device side may raise. -/
inductive DevicePoint where
  | createStream
  | copy (layer index : Nat)
  | layerEvent (layer : Nat)
  | drainEvent
  | retriedDrainEvent
  | query (layer : Nat)
  deriving DecidableEq, Repr

/-- The failures injected into one call on the ticket.  The backend raises ordinary
exceptions only; a copy or an event may raise anything. -/
structure TransferFaults where
  backend : BackendCall -> Option Failure
  device : DevicePoint -> Option Failure
  closeBuffer : Option String
  backend_ordinary : forall call failure, backend call = some failure -> failure.isException = true

def TransferFaults.none : TransferFaults where
  backend := fun _ => .none
  device := fun _ => .none
  closeBuffer := .none
  backend_ordinary := fun _ _ h => nomatch h

/-!
## The ticket
-/

structure PrefixTransfer where
  spec : TransferSpec
  id : Nat
  restoring : Bool
  tokens : Nat
  credits : TransferCredits
  state : Option TicketState
  settlementFailed : Bool
  retired : Bool
  succeeded : Bool
  cancelled : Bool
  error : String
  stream : Option (Stream Copy)
  event : Option Nat
  sequence : Option SequenceHandle
  lease : Option StepMemoryLeaseHandle
  view : List Nat
  submitted : Bool
  pins : List PageTableEntry
  claimed : Bool
  layerBatches : List LayerBatch
  creditReleased : Nat
  host : Option HostPrefix
  hostBorrowed : Bool
  calls : List BackendCall

namespace PrefixTransfer

abbrev TransferM := EStateM Failure PrefixTransfer

def bytesPerLayer (t : PrefixTransfer) : Nat :=
  t.tokens * 2 * t.spec.numKvHeadsLocal * t.spec.headDim * t.spec.itemsize

def nbytes (t : PrefixTransfer) : Nat :=
  t.tokens * t.spec.numLayers * 2 * t.spec.numKvHeadsLocal * t.spec.headDim * t.spec.itemsize

def inCredits {alpha : Type} (x : EStateM Failure TransferCredits alpha) : TransferM alpha :=
  zoom credits (fun credits t => { t with credits := credits }) x

/-- A call on the backend, recorded whether it succeeds or not. -/
def callBackend (faults : TransferFaults) (call : BackendCall) : TransferM Unit := do
  modify fun t => { t with calls := t.calls ++ [call] }
  match faults.backend call with
  | some failure => throw failure
  | none => pure ()

def raiseAt (faults : TransferFaults) (point : DevicePoint) : TransferM Unit :=
  match faults.device point with
  | some failure => throw failure
  | none => pure ()

def modifyHost (f : HostPrefix -> HostPrefix) : TransferM Unit :=
  modify fun t => { t with host := t.host.map f }

/-- `self.host.validate(self.cache)`; a missing host fails the assertion before it. -/
def validateHost (t : PrefixTransfer) : Except Failure Unit :=
  match t.host with
  | none => .error (.exception "")
  | some host => host.validate t.spec.cacheId

/-!
## Launching
-/

/-- The copies of one plane, a page at a time; only the last page may be partial. -/
def planeCopies (t : PrefixTransfer) (layer index : Nat) (kind : PlaneKind)
    (pages : List Nat) : List Copy :=
  pages.zipIdx.map fun (page, block) =>
    let start := block * t.spec.pageSize
    let count := min t.spec.pageSize (t.tokens - start)
    let device := Region.device layer kind page count
    let host := Region.host layer index start (start + count)
    if t.restoring then
      { layer, destination := device, source := host }
    else
      { layer, destination := host, source := device }

def planLayers (t : PrefixTransfer) : List LayerBatch :=
  let pages :=
    if t.restoring then t.view else t.pins.map fun entry => t.spec.physicalId entry.page
  (List.range t.spec.numLayers).map fun layer =>
    { index := layer
      copies := planeCopies t layer 0 .key pages ++
        planeCopies t layer 1 .value pages
      nbytes := t.bytesPerLayer
      event := none
      done := false }

/-- One `copy_`.  Without a stream it is done when it returns. -/
def enqueueCopy (faults : TransferFaults) (layer : Nat) (copy : Copy × Nat) : TransferM Unit := do
  raiseAt faults (.copy layer copy.2)
  modify fun t => { t with stream := t.stream.map fun s => s.push copy.1 }

def enqueueLayer (faults : TransferFaults) (batch : LayerBatch) : TransferM Unit :=
  batch.copies.zipIdx.forM (enqueueCopy faults batch.index)

def modifyBatch (layer : Nat) (f : LayerBatch -> LayerBatch) (t : PrefixTransfer) :
    PrefixTransfer :=
  { t with layerBatches := t.layerBatches.modify layer f }

def recordLayerEvent (faults : TransferFaults) (batch : LayerBatch) : TransferM Unit := do
  match (<- get).stream with
  | none => pure ()
  | some s =>
    raiseAt faults (.layerEvent batch.index)
    modify (modifyBatch batch.index fun batch => { batch with event := some s.record })

def launchLayer (faults : TransferFaults) (batch : LayerBatch) : TransferM Unit := do
  enqueueLayer faults batch
  recordLayerEvent faults batch

def setEvent (event : Option Nat) (t : PrefixTransfer) : PrefixTransfer :=
  { t with event := event }

def recordEvent (faults : TransferFaults) (point : DevicePoint) : TransferM Unit := do
  match (<- get).stream with
  | none => pure ()
  | some s =>
    raiseAt faults point
    modify (setEvent (some s.record))

/-- `self.error or str(exc)`. -/
def noteError (failure : Failure) (t : PrefixTransfer) : PrefixTransfer :=
  { t with error := if t.error = "" then failure.text else t.error }

section

variable (faults : TransferFaults)

def drain (point : DevicePoint) : TransferM Unit := do
  modify fun t => { t with state := some .draining }
  tryCatch (recordEvent faults point) fun failure => do
    if failure.isException then
      modify fun t => noteError failure
        { t with event := none, state := some .quarantined }
    else
      throw failure

/-- The restoring half of `launch`: the lease goes in flight before any copy. -/
def submitLease : TransferM Unit := do
  if (<- get).restoring then
    query validateHost
    callBackend faults .validateExecutionView
    callBackend faults .markStepInFlight
    modify fun t => { t with submitted := true }

def openStream : TransferM Unit := do
  if (<- get).spec.cuda then
    raiseAt faults .createStream
    modify fun t => { t with stream := some Stream.empty }

def enqueueLayers : TransferM Unit := do
  modify fun t => { t with state := some .submitted, layerBatches := t.planLayers }
  (<- get).layerBatches.forM (launchLayer faults)

/-- The `try` block of `launch`. -/
def launchCopies : TransferM Unit := do
  submitLease faults
  openStream faults
  enqueueLayers faults

/-- What `launch` does with a failure: drain the stream, and pass on an interrupt. -/
def failLaunch (failure : Failure) : TransferM Unit := do
  modify fun t => { t with error := failure.text }
  drain faults .drainEvent
  if failure.isException then
    pure ()
  else
    throw failure

def launch : TransferM Unit := do
  let t <- get
  if t.state ≠ some .adopted ∨ t.retired = true then
    throw (.runtimeError "transfer can be launched exactly once after adoption")
  else
    tryCatch (launchCopies faults) (failLaunch faults)

/-!
## Settling
-/

/-- The lease part of `_cleanup`: a lease in flight fails, a prepared one aborts. -/
def dropLease : TransferM Unit := do
  let t <- get
  if t.lease.isSome then
    if t.submitted then
      callBackend faults .failInFlightStep
    else
      callBackend faults .abortPreparedStep
    modify fun t => { t with lease := none }

def dropSequence : TransferM Unit := do
  if (<- get).sequence.isSome then
    callBackend faults .releaseSequence
    modify fun t => { t with sequence := none }

def dropPins : TransferM Unit := do
  if (<- get).pins ≠ [] then
    callBackend faults .unpinPrefix
    modify fun t => { t with pins := [] }

end

def returnHost : TransferM Unit := do
  if (<- get).hostBorrowed then
    modifyHost fun host => { host with borrowers := host.borrowers - 1 }
    modify fun t => { t with hostBorrowed := false }

def closeHost (faults : TransferFaults) : TransferM Unit := do
  match (<- get).host with
  | none => pure ()
  | some host =>
    match HostPrefix.close faults.closeBuffer host with
    | .ok _ host => modify fun t => { t with host := some host }
    | .error failure host =>
      modify fun t => { t with host := some host }
      throw failure

def returnCredits : TransferM Unit := do
  let t <- get
  if t.claimed then
    inCredits (TransferCredits.release t.id none)
    modify fun t => { t with claimed := false }

def cleanup (faults : TransferFaults) (succeeded : Bool) : TransferM Unit := do
  dropLease faults
  dropSequence faults
  dropPins faults
  callBackend faults .advanceEpoch
  returnHost
  if ¬ (<- get).restoring ∧ succeeded = false then
    closeHost faults
  returnCredits

/-- What `_finish` does before the clean-up when the transfer succeeded. -/
def publishResult (faults : TransferFaults) : TransferM Unit := do
  if (<- get).restoring then
    callBackend faults .commitStep
    callBackend faults .retireStep
    modify fun t => { t with lease := none }
    callBackend faults .publish
  else
    modifyHost fun host => { host with version := host.tensor, ready := true }

/-- The `try` block of `_finish`. -/
def settle (faults : TransferFaults) (succeeded : Bool) : TransferM Bool := do
  if succeeded then
    publishResult faults
  cleanup faults succeeded
  pure true

/-- A settlement error is not repaired by repeating commit or clean-up. -/
def settlementFailure (failure : Failure) (t : PrefixTransfer) : PrefixTransfer :=
  { t with
    error := "transfer settlement failed: " ++ failure.text
    settlementFailed := true
    state := some .quarantined }

def failSettlement (failure : Failure) : TransferM Bool := do
  if failure.isException then
    modify (settlementFailure failure)
    pure false
  else
    throw failure

def finish (faults : TransferFaults) (succeeded : Bool) : TransferM Unit := do
  let settled <- tryCatch (settle faults succeeded) failSettlement
  if settled then
    modify fun t =>
      { t with succeeded := succeeded, retired := true, state := some .retired }

def cancel (faults : TransferFaults) : TransferM Unit := do
  let t <- get
  if t.retired then
    return
  modify fun t => { t with cancelled := true }
  if t.state = some .adopted then
    finish faults false

def markDone (layer : Nat) : PrefixTransfer -> PrefixTransfer :=
  modifyBatch layer fun batch => { batch with done := true, event := none }

/-- Once every byte went back the claim is gone and must not be released again. -/
def countReleased (nbytes : Nat) (t : PrefixTransfer) : PrefixTransfer :=
  { t with
    creditReleased := t.creditReleased + nbytes
    claimed := if t.nbytes ≤ t.creditReleased + nbytes then false else t.claimed }

def completeLayer (layer nbytes : Nat) : TransferM Unit := do
  modify (markDone layer)
  inCredits (TransferCredits.release (<- get).id (some nbytes))
  modify (countReleased nbytes)

section

variable (faults : TransferFaults)

/-- `batch.event is None or batch.event.query()`; the device may have come further
by the time it is asked. -/
def resolved (progress : Nat) (batch : LayerBatch) : TransferM Bool := do
  match batch.event with
  | none => pure true
  | some event =>
    modify fun t => { t with stream := t.stream.map fun s => s.advance progress }
    raiseAt faults (.query batch.index)
    match (<- get).stream with
    | none => pure true
    | some s => pure (s.query event)

def resolveLayer (progress : Nat -> Nat) (layer : Nat) : TransferM Unit := do
  match (<- get).layerBatches[layer]? with
  | none => pure ()
  | some batch =>
    if batch.done then
      pure ()
    else
      let finished <- resolved faults (progress layer) batch
      if finished then
        completeLayer layer batch.nbytes

def resolveLayers (progress : Nat -> Nat) : TransferM Unit := do
  (List.range (<- get).layerBatches.length).forM (resolveLayer faults progress)

/-- A layer that could not be resolved sends the ticket back to draining. -/
def failPoll (failure : Failure) : TransferM Bool := do
  if failure.isException then
    modify (noteError failure)
    drain faults .drainEvent
    pure false
  else
    throw failure

def settleResolved : TransferM Bool := do
  let t <- get
  if t.layerBatches.any fun batch => !batch.done then
    pure false
  else
    finish faults (t.error = "" ∧ t.cancelled = false)
    pure (<- get).retired

/-- What `poll` does with a ticket that is neither settled nor merely adopted. -/
def pollLayers (progress : Nat -> Nat) : TransferM Bool := do
  let resolved <- tryCatch
    (do
      resolveLayers faults progress
      pure true)
    (failPoll faults)
  if resolved then
    settleResolved faults
  else
    pure false

def poll (progress : Nat -> Nat) : TransferM Bool := do
  let t <- get
  if t.retired then
    return true
  if t.settlementFailed then
    return false
  if t.state = some .adopted then
    return false
  if t.state = some .quarantined then
    drain faults .retriedDrainEvent
    if (<- get).state = some .quarantined then
      return false
  pollLayers faults progress

end

/-!
## Adoption
-/

/-- What a transfer is made from: a resident prefix or a host checkpoint. -/
inductive TransferSource where
  | spill (tokenIds : List Nat)
  | restore (host : HostPrefix)

/-- What the backend answers while a transfer is set up. -/
structure AdmissionAnswers where
  sequence : SequenceHandle
  reserved : Except String Unit
  lease : StepMemoryLeaseHandle
  view : List Nat
  pins : List PageTableEntry

def start (spec : TransferSpec) (id : Nat) (credits : TransferCredits) :
    TransferSource -> PrefixTransfer
  | .spill tokenIds => blank spec id credits false tokenIds.length none
  | .restore host => blank spec id credits true host.tokenIds.length (some host)
where
  blank (spec : TransferSpec) (id : Nat) (credits : TransferCredits) (restoring : Bool)
      (tokens : Nat) (host : Option HostPrefix) : PrefixTransfer :=
    { spec, id, restoring, tokens, credits, host
      state := none
      settlementFailed := false
      retired := false
      succeeded := false
      cancelled := false
      error := ""
      stream := none
      event := none
      sequence := none
      lease := none
      view := []
      submitted := false
      pins := []
      claimed := false
      layerBatches := []
      creditReleased := 0
      hostBorrowed := false
      calls := [] }

def borrowHost : TransferM Unit := do
  modifyHost fun host => { host with borrowers := host.borrowers + 1 }
  modify fun t => { t with hostBorrowed := true }

section

variable (faults : TransferFaults) (answers : AdmissionAnswers)

/-- Reserve and prepare the destination pages; a rejected transaction is rolled
back, unless `prepare_step` did so itself. -/
def reservePages : TransferM Unit :=
  tryCatch
    (do
      callBackend faults .tryReserve
      match answers.reserved with
      | .error reason =>
        throw (.kvCapacityError ("restore reservation failed: " ++ reason))
      | .ok _ =>
        callBackend faults .prepareStep
        modify fun t => { t with lease := some answers.lease })
    fun failure => do
      tryCatch (callBackend faults .rollbackTransaction) fun
        | .invalidHandleError _ => pure ()
        | other => throw other
      throw failure

def admitRestore : TransferM Unit := do
  query validateHost
  borrowHost
  callBackend faults .createSequence
  modify fun t => { t with sequence := some answers.sequence }
  callBackend faults .beginTransaction
  reservePages faults answers
  callBackend faults .buildExecutionView
  modify fun t => { t with view := answers.view }

def admitSpill (tokenIds : List Nat) : TransferM Unit := do
  callBackend faults .pin
  modify fun t => { t with pins := answers.pins }
  callBackend faults .allocateBuffer
  modify fun t => { t with host := some (HostPrefix.make t.spec.cacheId tokenIds) }
  borrowHost

end

def claimCredits : TransferM Unit := do
  let t <- get
  inCredits (TransferCredits.acquire t.id t.nbytes)
  modify fun t => { t with claimed := true }

def admitSource (faults : TransferFaults) (answers : AdmissionAnswers) :
    TransferSource -> TransferM Unit
  | .spill tokenIds => do
    claimCredits
    admitSpill faults answers tokenIds
  | .restore _ => do
    claimCredits
    admitRestore faults answers

/-- The constructor: take everything, or give back what was taken and raise. -/
def adopt (faults : TransferFaults) (answers : AdmissionAnswers) (source : TransferSource) :
    TransferM Unit := do
  tryCatch (admitSource faults answers source) fun failure => do
    cleanup faults false
    throw failure
  modify fun t => { t with state := some .adopted }

end PrefixTransfer
end Prefix
end Ayaka
