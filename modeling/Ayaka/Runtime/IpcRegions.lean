import Ayaka.Foundation.Dict
import Ayaka.Foundation.Effect
import Ayaka.Executor.Failure

/-!
# Exported IPC regions

The exporter side of the IPC registry.  An exported allocation is kept alive by one
entry, shared by all descriptors on it, until the last descriptor is released, no
hold is left and every peer that was named has acknowledged its close.

What the native module answers is an input of the call.  The importer side and
`close_all` are left out.  Histories, issued and returned descriptors are recorded
for the proofs only: no method reads them.
-/

namespace Ayaka
namespace Runtime

open Foundation
open Executor (Failure reject requireText)

/-! ## Descriptors -/

def ipcSchemaVersion : Int := 1

def maxIpcBytes : Int := 2 ^ 63 - 1

structure IpcRegionDescriptor where
  handle : List UInt8
  offset : Int
  nbytes : Int
  allocationNbytes : Int
  device : Int := 0
  exporterRank : Int := 0
  schemaVersion : Int := ipcSchemaVersion
  sessionGeneration : Option (Int × Int) := none
  physicalDeviceUuid : String := ""
  deriving DecidableEq, Repr

namespace IpcRegionDescriptor

variable (d : IpcRegionDescriptor)

/-- The range part of `__post_init__`. -/
def checkRange : Except Failure Unit := do
  reject (d.offset < 0) (.valueError "IPC region offset must be non-negative")
  reject (d.nbytes ≤ 0) (.valueError "IPC region nbytes must be positive")
  reject (d.allocationNbytes < 0)
    (.valueError "IPC region allocation_nbytes must be non-negative")
  reject (max (max d.offset d.nbytes) d.allocationNbytes > maxIpcBytes)
    (.valueError "IPC region byte range overflows the native int64 range")
  reject (d.offset + d.nbytes > d.allocationNbytes)
    (.valueError "IPC region [offset, offset+nbytes) lies outside its allocation extent")

/-- The identity part of `__post_init__`. -/
def checkIdentity : Except Failure Unit := do
  reject (d.device < 0) (.valueError "IPC region device must be non-negative")
  reject (d.exporterRank < 0) (.valueError "IPC region exporter_rank must be non-negative")
  reject ((d.sessionGeneration.any fun generation =>
      decide (generation.1 ≤ 0 ∨ generation.2 ≤ 0)) = true)
    (.valueError ("IPC region session_generation must be a "
      ++ "(owner_incarnation, worker_generation) pair of positive integers"))
  if d.physicalDeviceUuid = "" then
    pure ()
  else
    requireText d.physicalDeviceUuid "IPC region physical_device_uuid"

/-- `__post_init__`. -/
def check : Except Failure Unit := do
  reject (d.handle = []) (.valueError "IPC region handle must not be empty")
  reject (d.schemaVersion ≠ ipcSchemaVersion)
    (.valueError ("unsupported IPC descriptor schema_version " ++ toString d.schemaVersion
      ++ "; expected " ++ toString ipcSchemaVersion))
  d.checkRange
  d.checkIdentity

end IpcRegionDescriptor

/-! ## Texts -/

def hexDigit (n : Nat) : Char :=
  "0123456789abcdef".toList.getD n '0'

/-- One byte inside `repr(bytes)`. -/
def reprByte (quote : Char) (byte : UInt8) : String :=
  let c := Char.ofNat byte.toNat
  if c = '\\' ∨ c = quote then
    "\\" ++ toString c
  else if c = '\t' then "\\t"
  else if c = '\n' then "\\n"
  else if c = '\r' then "\\r"
  else if 0x20 ≤ byte.toNat ∧ byte.toNat < 0x7F then toString c
  else "\\x" ++ toString (hexDigit (byte.toNat / 16)) ++ toString (hexDigit (byte.toNat % 16))

def reprBytes (bytes : List UInt8) : String :=
  let quote := if 0x27 ∈ bytes ∧ ¬ 0x22 ∈ bytes then '"' else '\''
  "b" ++ toString quote ++ String.join (bytes.map (reprByte quote)) ++ toString quote

/-- `sorted(ranks)` as a text. -/
def sortedText (ranks : List Int) : String :=
  "[" ++ ", ".intercalate ((ranks.mergeSort fun a b => decide (a ≤ b)).map toString) ++ "]"

/-! ## The registry -/

inductive RegionEvent where
  | exported (descriptor : IpcRegionDescriptor) (peers : List Int)
  | released (descriptor : IpcRegionDescriptor)
  | confirmed (rank : Int)
  | held
  | unheld
  deriving DecidableEq, Repr

structure Tensor where
  numel : Nat
  elementSize : Nat
  contiguous : Bool
  storageOffset : Int
  deriving DecidableEq, Repr

structure ExportedRegion where
  handle : List UInt8
  allocationNbytes : Int
  device : Int
  owner : Tensor
  descriptors : List IpcRegionDescriptor := []
  pendingPeers : List Int := []
  ackedPeers : List Int := []
  holds : Nat := 0
  pinned : Nat := 0
  closing : Bool := false
  /-- The events of this export, the latest first. -/
  history : List RegionEvent := []

namespace ExportedRegion

def outstandingPeers (entry : ExportedRegion) : List Int :=
  entry.pendingPeers.filter fun rank => rank ∉ entry.ackedPeers

/-- What keeps the allocation alive once it is closing. -/
def blockers (entry : ExportedRegion) : List String :=
  (if entry.holds ≠ 0 then [toString entry.holds ++ " local holds"] else [])
    ++ (if entry.pinned ≠ 0 then [toString entry.pinned ++ " graph pins"] else [])
    ++ (if entry.outstandingPeers ≠ [] then
        ["close-ACK missing from ranks " ++ sortedText entry.outstandingPeers] else [])

end ExportedRegion

structure IpcRegionRegistry where
  sessionGeneration : Option (Int × Int)
  exports : Dict (List UInt8) ExportedRegion
  /-- The histories of the allocations whose reference was dropped. -/
  dropped : List (List RegionEvent)
  /-- The descriptors `export` returned. -/
  issued : List IpcRegionDescriptor
  /-- The descriptors `release` took back. -/
  returned : List IpcRegionDescriptor

/-- What the native module answers about a tensor. -/
structure NativeExport where
  handle : List UInt8
  offset : Int
  allocationNbytes : Int
  device : Int
  deriving DecidableEq, Repr

/-- One call of `export` with the answers of the native module. -/
structure ExportCall where
  tensor : Tensor
  offset : Int := 0
  nbytes : Option Int := none
  closeAcks : List Int := []
  legacyCapable : Bool := true
  ipcAvailable : Bool := true
  native : Except Failure NativeExport

namespace IpcRegionRegistry

abbrev RegistryM := EStateM Failure IpcRegionRegistry

def new (sessionGeneration : Option (Int × Int)) : IpcRegionRegistry where
  sessionGeneration
  exports := Dict.empty
  dropped := []
  issued := []
  returned := []

def withEntry (entry : ExportedRegion) (s : IpcRegionRegistry) : IpcRegionRegistry :=
  { s with exports := s.exports.set entry.handle entry }

/-! ## Exporting -/

def denseByteLength (tensor : Tensor) : Except Failure Int := do
  reject (tensor.numel = 0) (.valueError "IPC export requires a non-empty region")
  reject (¬ tensor.contiguous = true)
    (.valueError "IPC export requires a dense contiguous tensor")
  reject (tensor.storageOffset < 0)
    (.valueError "IPC export tensor has a negative storage offset")
  let length : Int := tensor.numel * tensor.elementSize
  reject (length ≤ 0 ∨ length > maxIpcBytes)
    (.valueError "IPC export byte length is out of range")
  pure length

def regionBytes (tensorBytes offset : Int) : Option Int -> Except Failure Int
  | none => pure (tensorBytes - offset)
  | some nbytes => do
    reject (nbytes ≤ 0) (.valueError "export nbytes must be positive")
    reject (offset + nbytes > tensorBytes)
      (.valueError ("export region [" ++ toString offset ++ ", "
        ++ toString (offset + nbytes) ++ ") is outside the tensor's " ++ toString tensorBytes
        ++ " bytes"))
    pure nbytes

def ipcUnavailable (detail : String) : Failure :=
  .exception ("capability 'cuda_ipc' unavailable: " ++ detail
    ++ ". Remedy: run on Linux with a CUDA runtime matching torch.version.cuda, or leave "
    ++ "the collective policy on torch")

def requireExportCapability (call : ExportCall) : Except Failure Unit := do
  reject (¬ call.legacyCapable = true)
    (ipcUnavailable ("tensor does not sit in an exportable dense CUDA allocation "
      ++ "(VMM-backed, strided, expanded or on CPU)"))
  reject (¬ call.ipcAvailable = true)
    (ipcUnavailable "legacy CUDA IPC is not available on this host")

/-- Everything `export` checks before it takes the lock: the region's length, what the
native module exported and the peers to wait for. -/
def inspect (call : ExportCall) : Except Failure (Int × NativeExport × List Int) := do
  reject (call.offset < 0) (.valueError "export offset must be non-negative")
  let tensorBytes <- denseByteLength call.tensor
  reject (call.offset ≥ tensorBytes)
    (.valueError ("export offset " ++ toString call.offset ++ " is outside the tensor's "
      ++ toString tensorBytes ++ " bytes"))
  let nbytes <- regionBytes tensorBytes call.offset call.nbytes
  requireExportCapability call
  let native <- call.native
  reject (exists rank, rank ∈ call.closeAcks ∧ rank < 0)
    (.valueError "close-ACK ranks must be non-negative")
  pure (nbytes, native, call.closeAcks.dedup)

/-- A known handle has to name the allocation it named before. -/
def checkReexport (native : NativeExport) (entry : ExportedRegion) : Except Failure Unit := do
  reject (native.allocationNbytes ≠ entry.allocationNbytes)
    (.runtimeError "IPC handle re-exported with a different allocation extent")
  reject (native.device ≠ entry.device)
    (.runtimeError "IPC handle re-exported from a different device")

/-- Find or create the entry of a handle, and have it wait for the peers too. -/
def enter (tensor : Tensor) (native : NativeExport) (peers : List Int) :
    RegistryM ExportedRegion := do
  let s <- get
  match s.exports.get? native.handle with
  | none =>
    let entry : ExportedRegion :=
      { handle := native.handle
        allocationNbytes := native.allocationNbytes
        device := native.device
        owner := tensor
        pendingPeers := peers }
    modify (withEntry entry)
    pure entry
  | some found =>
    query fun _ => checkReexport native found
    let entry := { found with pendingPeers := found.pendingPeers ∪ peers }
    modify (withEntry entry)
    pure entry

def issue (entry : ExportedRegion) (descriptor : IpcRegionDescriptor) (peers : List Int)
    (s : IpcRegionRegistry) : IpcRegionRegistry :=
  { withEntry
      { entry with
        descriptors := entry.descriptors ++ [descriptor]
        history := .exported descriptor peers :: entry.history } s with
    issued := descriptor :: s.issued }

/-- `export`, a keyword of the model's language. -/
def exportRegion (call : ExportCall) : RegistryM IpcRegionDescriptor := do
  let (nbytes, native, peers) <- query fun _ => inspect call
  let entry <- enter call.tensor native peers
  let s <- get
  let descriptor : IpcRegionDescriptor :=
    { handle := native.handle
      offset := native.offset + call.offset
      nbytes
      allocationNbytes := native.allocationNbytes
      device := native.device
      sessionGeneration := s.sessionGeneration }
  query fun _ => descriptor.check
  modify (issue entry descriptor peers)
  pure descriptor

/-! ## Releasing -/

section

variable (descriptor : IpcRegionDescriptor)

def notExported : Failure :=
  .keyError ("IPC region " ++ reprBytes descriptor.handle ++ " is not exported")

def findExportEntry (s : IpcRegionRegistry) : Except Failure ExportedRegion :=
  (s.exports.get? descriptor.handle).elim (.error (notExported descriptor)) .ok

def findExport (s : IpcRegionRegistry) : Except Failure ExportedRegion := do
  let entry <- s.findExportEntry descriptor
  reject (descriptor ∉ entry.descriptors) (notExported descriptor)
  pure entry

end

def drop (entry : ExportedRegion) (s : IpcRegionRegistry) : IpcRegionRegistry :=
  { s with
    exports := s.exports.erase entry.handle
    dropped := entry.history :: s.dropped }

def tryFinalizeExport (entry : ExportedRegion) : RegistryM Unit := do
  if entry.closing = false ∨ entry.descriptors ≠ [] then
    pure ()
  else if entry.blockers ≠ [] then
    throw (.runtimeError ("exporter release refused: " ++ "; ".intercalate entry.blockers
      ++ "; allocation retained"))
  else
    modify (drop entry)

/-- Change an entry and finalize it if that was the last thing it waited for. -/
def settle (entry : ExportedRegion) : RegistryM Unit := do
  modify (withEntry entry)
  tryFinalizeExport entry

section

variable (descriptor : IpcRegionDescriptor)

def release : RegistryM Unit := do
  let entry <- query fun s => s.findExport descriptor
  if entry.closing then
    throw (.runtimeError "export region is already being released")
  else
    modify fun s => { s with returned := descriptor :: s.returned }
    let remaining := entry.descriptors.erase descriptor
    settle
      { entry with
        descriptors := remaining
        closing := remaining.isEmpty
        history := .released descriptor :: entry.history }

def confirmClose (rank : Int) : RegistryM Unit := do
  query fun _ => reject (rank < 0) (.valueError "close-ACK rank must be non-negative")
  let entry <- query fun s => s.findExportEntry descriptor
  settle
    { entry with
      ackedPeers := entry.ackedPeers.insert rank
      history := .confirmed rank :: entry.history }

def hold : RegistryM Unit := do
  let entry <- query fun s => s.findExport descriptor
  modify (withEntry
    { entry with
      holds := entry.holds + 1
      history := .held :: entry.history })

def unhold : RegistryM Unit := do
  let entry <- query fun s => s.findExportEntry descriptor
  query fun _ =>
    reject (entry.holds = 0) (.runtimeError "no matching export hold to release")
  settle
    { entry with
      holds := entry.holds - 1
      history := .unheld :: entry.history }

end

/-! ## Runs -/

inductive RegistryStep where
  | exportRegion (call : ExportCall)
  | release (descriptor : IpcRegionDescriptor)
  | confirmClose (descriptor : IpcRegionDescriptor) (rank : Int)
  | hold (descriptor : IpcRegionDescriptor)
  | unhold (descriptor : IpcRegionDescriptor)

def perform : RegistryStep -> RegistryM Unit
  | .exportRegion call => do let _ <- exportRegion call
  | .release descriptor => release descriptor
  | .confirmClose descriptor rank => confirmClose descriptor rank
  | .hold descriptor => hold descriptor
  | .unhold descriptor => unhold descriptor

def step (s : IpcRegionRegistry) (call : RegistryStep) : IpcRegionRegistry :=
  finalState (perform call s)

def run (s : IpcRegionRegistry) (calls : List RegistryStep) : IpcRegionRegistry :=
  calls.foldl step s

end IpcRegionRegistry
end Runtime
end Ayaka
