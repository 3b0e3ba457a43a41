import Ayaka.Foundation.Effect
import Ayaka.Executor.Failure

/-!
# Sampling metadata

One row of columns for each sampling slot, kept twice: the host stages the columns
and the device holds the copy the kernels read.  A flush mirrors every slot written
since the last one, and of the other slots only the active rows of the dirty
columns.

Floats are left abstract.  The flags derived from the columns (`all_greedy` and its
like) are left out: they choose a kernel and never move an offset.
-/

namespace Ayaka
namespace Sampling

open Executor (Failure reject)

/-! ## Columns -/

inductive LogprobMode where
  | raw
  | sampling
  deriving DecidableEq, Repr

/-- `MODE_ORDINALS`. -/
def LogprobMode.ordinal : LogprobMode -> Int
  | raw => 0
  | sampling => 1

structure SamplingParams (real : Type) where
  temperature : real
  topP : real
  topK : Int := -1
  minP : real
  repetitionPenalty : real
  frequencyPenalty : real
  presencePenalty : real
  seed : Option Int := none
  logprobs : Option Int := none
  promptLogprobs : Option Int := none
  logprobMode : LogprobMode := .raw
  returnSamplingSupport : Bool := false
  logitBias : Option (List (Int × real)) := none

/-- `SamplingParams()`. -/
def SamplingParams.default {real : Type} [Zero real] [One real] : SamplingParams real where
  temperature := 1
  topP := 1
  minP := 0
  repetitionPenalty := 1
  frequencyPenalty := 0
  presencePenalty := 0

inductive Column where
  | temperature
  | topP
  | minP
  | repPenalty
  | freqPenalty
  | presPenalty
  | topK
  | logprobsK
  | promptLogprobsK
  | logprobMode
  | returnSupport
  | biasCount
  | seed
  | offset
  deriving DecidableEq, Repr

/-- `ALL_COLUMNS`. -/
def Column.all : List Column :=
  [temperature, topP, minP, repPenalty, freqPenalty, presPenalty, topK, logprobsK,
    promptLogprobsK, logprobMode, returnSupport, biasCount, seed, offset]

inductive Cell (real : Type) where
  | float (value : real)
  | int (value : Int)
  deriving DecidableEq, Repr

/-- `+= 1`; only the offsets are counted up. -/
def Cell.succ {real : Type} : Cell real -> Cell real
  | float value => float value
  | int value => int (value + 1)

abbrev ColumnValues (real : Type) := Column -> Cell real

/-- `splitmix64_scalar`. -/
def splitmix64 (x : Nat) : Nat :=
  let z := (x + 0x9E3779B97F4A7C15) % 2 ^ 64
  let z := ((z ^^^ (z >>> 30)) * 0xBF58476D1CE4E5B9) % 2 ^ 64
  let z := ((z ^^^ (z >>> 27)) * 0x94D049BB133111EB) % 2 ^ 64
  z ^^^ (z >>> 31)

def deriveSeed (requestIndex : Nat) : Nat :=
  splitmix64 requestIndex % 2 ^ 63

def columnsOf {real : Type} (params : SamplingParams real) (requestIndex : Nat) :
    ColumnValues real
  | .temperature => .float params.temperature
  | .topP => .float params.topP
  | .minP => .float params.minP
  | .repPenalty => .float params.repetitionPenalty
  | .freqPenalty => .float params.frequencyPenalty
  | .presPenalty => .float params.presencePenalty
  | .topK => .int (if params.topK < 0 then -1 else params.topK)
  | .logprobsK => .int (params.logprobs.getD (-1))
  | .promptLogprobsK => .int (params.promptLogprobs.getD (-1))
  | .logprobMode => .int params.logprobMode.ordinal
  | .returnSupport => .int (if params.returnSamplingSupport then 1 else 0)
  | .biasCount => .int ((params.logitBias.map fun bias => (bias.length : Int)).getD 0)
  | .seed => .int (params.seed.getD (deriveSeed requestIndex))
  | .offset => .int 0

/-! ## The column store -/

structure SamplingMetadata (real : Type) where
  maxBatchSize : Nat
  dev : Nat -> ColumnValues real
  stg : Nat -> ColumnValues real
  /-- Columns staged since the last flush. -/
  dirty : Column -> Bool
  /-- Slots written since the last flush. -/
  pendingSlots : List Nat
  /-- The active slots in packed order; none stands for the first `nActive`. -/
  rowsList : Option (List Nat)
  rowsDev : List Nat
  rowsDirty : Bool
  nActive : Nat

namespace SamplingMetadata

variable {real : Type}

def new [Zero real] [One real] (maxBatchSize : Nat) : SamplingMetadata real where
  maxBatchSize
  dev := fun _ => columnsOf SamplingParams.default 0
  stg := fun _ => columnsOf SamplingParams.default 0
  dirty := fun _ => false
  pendingSlots := []
  rowsList := none
  rowsDev := []
  rowsDirty := false
  nActive := 0

variable (md : SamplingMetadata real)

/-- The slots a step of the staging columns works on. -/
def stagedRows : List Nat :=
  md.rowsList.getD (List.range md.nActive)

def setActiveRows (rows : List Nat) : Except Failure (SamplingMetadata real) := do
  reject (¬ rows.Nodup) (.valueError "active rows must be unique")
  rows.forM fun row =>
    reject (¬ row < md.maxBatchSize)
      (.indexError ("active row " ++ toString row ++ " out of range [0, "
        ++ toString md.maxBatchSize ++ ")"))
  pure { md with rowsList := some rows, rowsDirty := true, nActive := rows.length }

/-- Copy the active rows to the device if they are not there yet. -/
def syncRows : SamplingMetadata real :=
  match md.rowsList with
  | none => md
  | some rows =>
    if md.rowsDirty then
      { md with rowsDev := rows ++ md.rowsDev.drop md.nActive, rowsDirty := false }
    else
      md

def activeRows : List Nat :=
  match md.rowsList with
  | none => List.range md.nActive
  | some _ => md.rowsDev.take md.nActive

def write (slot : Nat) (values : ColumnValues real) : SamplingMetadata real :=
  { md with
    stg := fun s => if s = slot then values else md.stg s
    dirty := fun _ => true
    pendingSlots := slot :: md.pendingSlots }

def checkSlot (slot : Nat) : Except Failure Unit :=
  reject (¬ slot < md.maxBatchSize)
    (.indexError ("slot " ++ toString slot ++ " out of range [0, "
      ++ toString md.maxBatchSize ++ ")"))

def writeSlot (slot : Nat) (params : SamplingParams real) (requestIndex : Nat) :
    Except Failure (SamplingMetadata real) := do
  md.checkSlot slot
  pure (md.write slot (columnsOf params requestIndex))

def resetSlot [Zero real] [One real] (slot : Nat) : Except Failure (SamplingMetadata real) := do
  md.checkSlot slot
  pure (md.write slot (columnsOf SamplingParams.default 0))

/-- The source counts in `int64`, so this stands for fewer than `2 ^ 63` draws of a slot. -/
def stepRng : SamplingMetadata real :=
  if md.nActive = 0 then
    md
  else
    { md with
      stg := fun slot c =>
        if slot ∈ md.stagedRows ∧ c = .offset then (md.stg slot c).succ else md.stg slot c
      dirty := fun c => decide (c = .offset) || md.dirty c }

/-- Mirror the written slots whole, active or not. -/
def mirrorPending : SamplingMetadata real :=
  { md with
    dev := fun slot => if slot ∈ md.pendingSlots then md.stg slot else md.dev slot
    pendingSlots := [] }

/-- Copy the dirty columns of the rows: `index_copy_` of the staged rows into the rows
the device was told. -/
def copyDirty (pairs : List (Nat × Nat)) : SamplingMetadata real :=
  { md with
    dev := pairs.foldl
      (fun dev pair slot c => if slot = pair.1 ∧ md.dirty c then md.stg pair.2 c else dev slot c)
      md.dev
    dirty := fun _ => false }

/-- The part of `flush` after the written slots; it returns the columns copied. -/
def flushActive : SamplingMetadata real × Nat :=
  if md.nActive = 0 then
    ({ md with dirty := fun _ => false, rowsDirty := false }, 0)
  else if Column.all.all (fun c => !md.dirty c) && !(md.rowsList.isSome && md.rowsDirty) then
    (md, 0)
  else
    let synced := md.syncRows
    (synced.copyDirty (synced.activeRows.zip synced.stagedRows),
      (Column.all.filter md.dirty).length)

def flush : SamplingMetadata real × Nat :=
  let flushed := md.mirrorPending.flushActive
  (flushed.1, if md.pendingSlots = [] then flushed.2 else Column.all.length)

end SamplingMetadata

end Sampling
end Ayaka
