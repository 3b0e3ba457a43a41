import Ayaka.Memory.Ledger
import Ayaka.Utils.MathUtils

/-!
# The workspace manager

One growing buffer for backend scratch and one fixed buffer for activations, each
carved anew by every step.  A step that needs more scratch than the buffer holds
moves it to a new allocation; `prepare` reports that, because captured graphs keep
the old address.

The answers of the caching allocator are inputs of the call: the address of a new
region or a failure, and whether giving the old region back fails.  Statistics are
left out.  The successful calls are recorded for the proofs only.
-/

namespace Ayaka
namespace Workspace

open Foundation
open Executor (Failure reject)
open Ledger (MemoryOwner)
open MathUtils (alignUp)

/-- A scratch reservation; its constructor lets through powers of two only. -/
structure WorkspaceRequest where
  name : String
  nbytes : Nat
  owner : MemoryOwner
  alignment : Nat := 256
  power_of_two : exists k, alignment = 2 ^ k
  deriving DecidableEq

/-! ## Carving one region -/

structure Arena where
  basePtr : Nat
  nbytes : Nat
  offset : Nat := 0
  highWater : Nat := 0
  generation : Nat := 1
  deriving DecidableEq, Repr

/-- A slice handed out, as offsets into its arena. -/
structure Slice where
  owner : MemoryOwner
  start : Nat
  nbytes : Nat
  deriving DecidableEq, Repr

namespace Arena

def padding (arena : Arena) (alignment : Nat) : Nat :=
  ((-((arena.basePtr + arena.offset : Nat) : Int)) % (alignment : Int)).toNat

def mib (bytes : Nat) : String :=
  toString (bytes / 2 ^ 20)

/-- The arena and the slice after one allocation. -/
def allocate (owner : MemoryOwner) (arena : Arena) (request : WorkspaceRequest) :
    Except Failure (Arena × Slice) := do
  reject (request.nbytes = 0) (.valueError "nbytes must be positive")
  let start := arena.offset + arena.padding request.alignment
  reject (start + request.nbytes > arena.nbytes)
    (.memoryError ("arena for " ++ owner.value ++ " has "
      ++ toString ((arena.nbytes : Int) - start) ++ " B left, needs " ++ toString request.nbytes
      ++ " B (capacity " ++ mib arena.nbytes ++ " MiB, high water " ++ mib arena.highWater
      ++ " MiB) — the step is larger than the profile it was sized from"))
  let offset := start + request.nbytes
  pure ({ arena with offset, highWater := max arena.highWater offset },
    { owner, start, nbytes := request.nbytes })

def reset (arena : Arena) : Arena :=
  { arena with offset := 0, generation := arena.generation + 1 }

end Arena

/-! ## One buffer -/

structure Growth where
  allocated : Except Failure Nat
  /-- The failure of giving the old region back. -/
  freed : Option Failure := none

structure OwnedBuffer where
  owner : MemoryOwner
  mayGrow : Bool
  ceiling : Option Nat := none
  arena : Option Arena := none
  capacity : Nat := 0
  numGrowths : Nat := 0

namespace OwnedBuffer

abbrev BufferM := EStateM Failure OwnedBuffer

def generation (b : OwnedBuffer) : Nat :=
  b.arena.elim 0 Arena.generation

def basePtr (b : OwnedBuffer) : Option Nat :=
  b.arena.map Arena.basePtr

def usedBytes (b : OwnedBuffer) : Nat :=
  b.arena.elim 0 Arena.offset

def unit : Nat := 2 * 2 ^ 20

/-- The capacity `grow_to` asks for. -/
def target (required floor : Nat) (cap : Option Nat) : Nat :=
  let wanted := if floor = 0 then required + required / 2 else required
  let rounded := alignUp (max (max wanted floor) unit) unit
  cap.elim rounded fun cap => max required (min rounded cap)

def onto (basePtr capacity : Nat) (b : OwnedBuffer) : OwnedBuffer :=
  { b with
    arena := some { basePtr, nbytes := capacity }
    capacity
    numGrowths := b.numGrowths + 1 }

/-- The old region is given back after the new one is in place. -/
def giveBack (old : Option Arena) (freed : Option Failure) : BufferM Unit :=
  match old, freed with
  | some _, some exc => throw exc
  | _, _ => pure ()

def growTo (required floor : Nat) (cap : Option Nat) (growth : Growth) : BufferM Unit := do
  let basePtr <- query fun _ => growth.allocated
  let b <- get
  modify (onto basePtr (target required floor cap))
  giveBack b.arena growth.freed

def overflow (b : OwnedBuffer) (required : Nat) : Failure :=
  if b.capacity = 0 then
    .runtimeError ("a step asked for " ++ toString required ++ " bytes of "
      ++ b.owner.value ++ " but that buffer was never sized; call WorkspaceManager.initialize() "
      ++ "with the profiled activation peak before the first step")
  else
    .runtimeError ("step needs " ++ toString required ++ " bytes of " ++ b.owner.value
      ++ " but the budget fixed at initialize() is " ++ toString b.capacity
      ++ ". The KV page count was computed from that figure and cannot be revised now — the "
      ++ "profiling step did not reach the real worst case.")

def mayReserve (b : OwnedBuffer) (required : Nat) : Except Failure Unit := do
  reject (b.mayGrow = false) (b.overflow required)
  reject ((b.ceiling.any fun ceiling => decide (required > ceiling)) = true)
    (.runtimeError ("step needs " ++ toString required ++ " bytes of " ++ b.owner.value
      ++ " but the frozen ceiling is " ++ toString (b.ceiling.getD 0)
      ++ "; growth is refused so the KV budget computed at bootstrap stays valid. Rebuild with "
      ++ "a larger budget."))

/-- Ensure capacity; it returns whether the buffer moved. -/
def reserve (required : Nat) (growth : Growth) : BufferM Bool := do
  let b <- get
  if required ≤ b.capacity then
    pure false
  else
    query fun b => b.mayReserve required
    growTo required 0 b.ceiling growth
    pure true

def reset (b : OwnedBuffer) : OwnedBuffer :=
  { b with arena := b.arena.map Arena.reset }

def allocate (request : WorkspaceRequest) : BufferM Slice := do
  let b <- get
  match b.arena with
  | none =>
    throw (.runtimeError ("'" ++ request.name ++ "' is charged to " ++ b.owner.value
      ++ " but that buffer was never sized; call WorkspaceManager.initialize() with the "
      ++ "profiled activation peak before the first step"))
  | some arena =>
    let carved <- query fun b => arena.allocate b.owner request
    modify fun b => { b with arena := some carved.1 }
    pure carved.2

end OwnedBuffer

/-! ## The manager -/

/-- One successful `prepare`: the buffer in use and what the call reported. -/
structure Prepared where
  basePtr : Option Nat
  growths : Nat
  generation : Nat
  grew : Bool
  deriving DecidableEq, Repr

structure WorkspaceLease where
  leaseId : Nat
  regions : List (String × Slice)
  generation : Nat
  stepBytes : Nat
  deriving DecidableEq, Repr

structure WorkspaceManager where
  workspace : OwnedBuffer
  activation : OwnedBuffer
  numSteps : Nat := 0
  liveLease : Option Nat := none
  /-- The successful calls, the latest first. -/
  prepared : List Prepared := []

def requiredBytes (requests : List WorkspaceRequest) : Nat :=
  requests.foldl (fun total request => alignUp total request.alignment + request.nbytes) 0

namespace WorkspaceManager

abbrev ManagerM := EStateM Failure WorkspaceManager

def onWorkspace {alpha : Type} (x : OwnedBuffer.BufferM alpha) : ManagerM alpha :=
  zoom WorkspaceManager.workspace (fun workspace s => { s with workspace }) x

def onActivation {alpha : Type} (x : OwnedBuffer.BufferM alpha) : ManagerM alpha :=
  zoom WorkspaceManager.activation (fun activation s => { s with activation }) x

def blank (ceiling : Option Nat) : WorkspaceManager where
  workspace := { owner := .workspace, mayGrow := true, ceiling }
  activation := { owner := .activation, mayGrow := false }

/-- The constructor: the first buffer does not pass the ceiling to `grow_to`. -/
def init (initialBytes : Nat) (growth : Growth) : ManagerM Unit :=
  if initialBytes = 0 then
    pure ()
  else
    onWorkspace (OwnedBuffer.growTo initialBytes initialBytes none growth)

def initializeActivation (activationBytes : Nat) (growth : Growth) : ManagerM Unit := do
  query fun s =>
    reject (s.activation.capacity ≠ 0)
      (.runtimeError ("activation budget already fixed at "
        ++ toString s.activation.capacity
        ++ " bytes; re-profiling after KV pages are handed out cannot take them back"))
  if activationBytes = 0 then
    pure ()
  else
    onActivation (OwnedBuffer.growTo activationBytes activationBytes none growth)

/-! ## Preparing a step -/

/-- The requests the two buffers back, in plan order. -/
def checkPlan (requests : List WorkspaceRequest) : Except Failure Unit :=
  requests.zipIdx.forM fun indexed => do
    reject ((requests.take indexed.2).any fun earlier => earlier.name = indexed.1.name)
      (.valueError ("duplicate workspace name '" ++ indexed.1.name ++ "' in plan"))
    reject (indexed.1.owner ≠ .workspace ∧ indexed.1.owner ≠ .activation)
      (.valueError ("'" ++ indexed.1.name ++ "' is charged to " ++ indexed.1.owner.value
        ++ ", which the workspace manager does not back; it holds ['activation', 'workspace']"))

def requestsOf (owner : MemoryOwner) (requests : List WorkspaceRequest) : List WorkspaceRequest :=
  requests.filter fun request => request.owner = owner

def allocateAll : List WorkspaceRequest -> OwnedBuffer.BufferM (List (String × Slice))
  | [] => pure []
  | request :: rest => do
    let region <- OwnedBuffer.allocate request
    let regions <- allocateAll rest
    pure ((request.name, region) :: regions)

/-- Carve the requests of one owner out of its buffer, reset. -/
def carve (requests : List WorkspaceRequest) (growth : Growth) :
    OwnedBuffer.BufferM (Bool × List (String × Slice)) := do
  let grew <- OwnedBuffer.reserve (requiredBytes requests) growth
  modify OwnedBuffer.reset
  let regions <- allocateAll requests
  pure (grew, regions)

def record (generation : Nat) (grew : Bool) (s : WorkspaceManager) : WorkspaceManager :=
  { s with
    numSteps := s.numSteps + 1
    liveLease := some s.numSteps
    prepared :=
      { basePtr := s.workspace.basePtr
        growths := s.workspace.numGrowths
        generation
        grew } :: s.prepared }

/-- `prepare`; only the workspace buffer asks the allocator for anything. -/
def prepare (requests : List WorkspaceRequest) (growth : Growth) :
    ManagerM (WorkspaceLease × Bool) := do
  query fun s =>
    reject (s.liveLease.isSome = true)
      (.runtimeError
        "a workspace lease is still live; release it before preparing the next step")
  query fun _ => checkPlan requests
  let workspace <- onWorkspace (carve (requestsOf .workspace requests) growth)
  let generation := (<- get).workspace.generation
  let activation <- onActivation (carve (requestsOf .activation requests) growth)
  let grew := workspace.1 || activation.1
  let s <- get
  modify (record generation grew)
  pure
    ({ leaseId := s.numSteps
       regions := workspace.2 ++ activation.2
       generation
       stepBytes := s.workspace.usedBytes + s.activation.usedBytes },
      grew)

/-- `WorkspaceLease.close`; closing an earlier lease again changes nothing. -/
def closeLease (leaseId : Nat) (s : WorkspaceManager) : WorkspaceManager :=
  if s.liveLease = some leaseId then { s with liveLease := none } else s

/-! ## Runs -/

inductive WorkspaceStep where
  | initializeActivation (activationBytes : Nat) (growth : Growth)
  | prepare (requests : List WorkspaceRequest) (growth : Growth)
  | closeLease (leaseId : Nat)

def perform : WorkspaceStep -> ManagerM Unit
  | .initializeActivation activationBytes growth =>
    initializeActivation activationBytes growth
  | .prepare requests growth => do let _ <- prepare requests growth
  | .closeLease leaseId => modify (closeLease leaseId)

def step (s : WorkspaceManager) (call : WorkspaceStep) : WorkspaceManager :=
  finalState (perform call s)

def run (s : WorkspaceManager) (calls : List WorkspaceStep) : WorkspaceManager :=
  calls.foldl step s

end WorkspaceManager
end Workspace
end Ayaka
