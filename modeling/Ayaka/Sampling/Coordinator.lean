import Ayaka.Foundation.Dict
import Ayaka.Sampling.Metadata

/-!
# The sampling coordinator

The coordinator owns the sampling slots.  A request holds a slot from `add` to
`release`; each step `plan_for` pins the rows that sample and mirrors the staged
columns, and `sample` draws for every active row with the seed and the offset the
device holds, and counts the staged offsets up.

Penalty, bias and mask state are left out: they change logits and never an offset.
A fault of the plan build or of the sampler is an input.  Serial numbers, plans and
draws are recorded for the proofs only: no method reads them.
-/

namespace Ayaka
namespace Sampling

open Foundation
open Executor (Failure reject)

/-- What `plan_for` reads of a scheduled slice. -/
structure SamplingSlice where
  requestId : String
  sampleLastQuery : Bool
  deriving DecidableEq, Repr

structure SamplingPlan where
  numRows : Nat
  deriving DecidableEq, Repr

structure Draw (real : Type) where
  serial : Nat
  seed : Cell real
  offset : Cell real
  deriving DecidableEq, Repr

structure SamplingCoordinator (real : Type) where
  maxBatchSize : Nat
  md : SamplingMetadata real
  requestToSlot : Dict String Nat
  /-- Released slots, the latest first. -/
  freeSlots : List Nat
  nextSlot : Nat
  /-- The serial number of the request each slot was added for. -/
  serials : Nat -> Nat
  nextSerial : Nat
  /-- The requests of the active rows, by serial number. -/
  planned : List Nat
  /-- The active rows were not sampled since they were planned. -/
  unsampled : Bool
  draws : List (Draw real)

namespace SamplingCoordinator

variable {real : Type}

abbrev SamplingM (real : Type) := EStateM Failure (SamplingCoordinator real)

def new [Zero real] [One real] (maxBatchSize : Nat) : SamplingCoordinator real where
  maxBatchSize
  md := SamplingMetadata.new maxBatchSize
  requestToSlot := Dict.empty
  freeSlots := []
  nextSlot := 0
  serials := fun _ => 0
  nextSerial := 0
  planned := []
  unsampled := true
  draws := []

def withMetadata (md : SamplingMetadata real) (s : SamplingCoordinator real) :
    SamplingCoordinator real :=
  { s with md }

/-! ## Slots -/

def allocate : SamplingM real Nat := do
  let s <- get
  match s.freeSlots with
  | slot :: rest =>
    modify fun s => { s with freeSlots := rest }
    pure slot
  | [] =>
    if s.nextSlot ≥ s.maxBatchSize then
      throw (.runtimeError ("sampling slot capacity " ++ toString s.maxBatchSize
        ++ " exhausted; the scheduler must bound admission by max_batch_size"))
    else
      modify fun s => { s with nextSlot := s.nextSlot + 1 }
      pure s.nextSlot

def enter (requestId : String) (slot : Nat) (s : SamplingCoordinator real) :
    SamplingCoordinator real :=
  { s with
    requestToSlot := s.requestToSlot.set requestId slot
    serials := fun other => if other = slot then s.nextSerial else s.serials other
    nextSerial := s.nextSerial + 1 }

def add (requestId : String) (params : SamplingParams real) (requestIndex : Nat) :
    SamplingM real Nat := do
  let s <- get
  match s.requestToSlot.get? requestId with
  | some slot =>
    throw (.valueError ("request '" ++ requestId ++ "' already owns sampling slot "
      ++ toString slot))
  | none =>
    let slot <- allocate
    modify (enter requestId slot)
    let md <- query fun s => s.md.writeSlot slot params requestIndex
    modify (withMetadata md)
    pure slot

def release [Zero real] [One real] (requestId : String) : SamplingM real (Option Nat) := do
  let s <- get
  match s.requestToSlot.get? requestId with
  | none => pure none
  | some slot =>
    modify fun s => { s with requestToSlot := s.requestToSlot.erase requestId }
    let md <- query fun s => s.md.resetSlot slot
    modify (withMetadata md)
    modify fun s => { s with freeSlots := slot :: s.freeSlots }
    pure (some slot)

/-! ## Steps -/

def slotFor (s : SamplingCoordinator real) (requestId : String) : Except Failure Nat :=
  match s.requestToSlot.get? requestId with
  | some slot => .ok slot
  | none =>
    .error (.keyError ("request '" ++ requestId
      ++ "' has no sampling slot; the scheduler must call add() before it can appear in a step"))

def rowsFor (s : SamplingCoordinator real) (slices : List SamplingSlice) :
    Except Failure (List Nat) :=
  (slices.filter SamplingSlice.sampleLastQuery).mapM fun scheduled => s.slotFor scheduled.requestId

def flush : SamplingM real Nat := do
  let s <- get
  modify (withMetadata s.md.flush.1)
  pure s.md.flush.2

/-- `plan_for`; the flush runs whether the plan was built or not. -/
def planFor (slices : List SamplingSlice) (fault : Option Failure) :
    SamplingM real SamplingPlan := do
  let rows <- query fun s => s.rowsFor slices
  let md <- query fun s => s.md.setActiveRows rows
  modify fun s => { s with md, planned := rows.map s.serials, unsampled := true }
  let _ <- flush
  match fault with
  | some exc => throw exc
  | none => pure { numRows := rows.length }

/-- The draw for one row, keyed by what the device holds. -/
def drawRow (s : SamplingCoordinator real) (row serial : Nat) : Draw real :=
  { serial, seed := s.md.dev row .seed, offset := s.md.dev row .offset }

def drawRows (s : SamplingCoordinator real) : List (Draw real) :=
  (s.md.activeRows.zip s.planned).map fun pair => s.drawRow pair.1 pair.2

/-- `sample`; `logitsRows` is `logits.size(0)`. -/
def sample (logitsRows : Nat) (plan : SamplingPlan) (fault : Option Failure) :
    SamplingM real Unit := do
  if logitsRows ≠ plan.numRows then
    throw (.valueError ("logits has " ++ toString logitsRows
      ++ " rows but the plan declares " ++ toString plan.numRows
      ++ "; the runner must gather logits into packed sampling order"))
  else
    modify fun s => withMetadata s.md.syncRows s
    match fault with
    | some exc => throw exc
    | none =>
      modify fun s =>
        { s with draws := s.draws ++ s.drawRows, md := s.md.stepRng, unsampled := false }

/-! ## Runs -/

inductive SamplingStep (real : Type) where
  | add (requestId : String) (params : SamplingParams real) (requestIndex : Nat)
  | release (requestId : String)
  | planFor (slices : List SamplingSlice) (fault : Option Failure)
  | sample (logitsRows : Nat) (plan : SamplingPlan) (fault : Option Failure)

section Runs

variable [Zero real] [One real]

def perform : SamplingStep real -> SamplingM real Unit
  | .add requestId params requestIndex => do
    let _ <- add requestId params requestIndex
  | .release requestId => do let _ <- release requestId
  | .planFor slices fault => do let _ <- planFor slices fault
  | .sample logitsRows plan fault => sample logitsRows plan fault

def step (s : SamplingCoordinator real) (call : SamplingStep real) : SamplingCoordinator real :=
  finalState (perform call s)

def run (s : SamplingCoordinator real) (calls : List (SamplingStep real)) :
    SamplingCoordinator real :=
  calls.foldl step s

end Runs

end SamplingCoordinator

end Sampling
end Ayaka
