import Ayaka.Foundation.Dict
import Ayaka.Foundation.Effect
import Ayaka.Executor.Failure

/-!
# Captured decode graphs

A pool captures one graph for each bucket and flight slot, bound to the resource
generation and the kernel binding of that moment.  The planner routes pure decode
steps onto a bucket and stores the decision in the step; before a replay is launched
the same conditions are checked again.

The live generation and binding belong to the environment and change between calls;
a capture may also see them change under its hands.  Device work is left out but for
its failures, and so are the counters and metrics.  The log is recorded for the
proofs only: no method reads it.
-/

namespace Ayaka
namespace DecodeGraph

open Foundation
open Executor (Failure reject)

/-! ## Vocabulary -/

inductive GraphFallbackReason where
  | disabled
  | notPureDecode
  | speculative
  | samplingUncapturable
  | promptLogprobs
  | eagerOnlyRequest
  | backendUnsupported
  | noTokens
  | bucketCeiling
  | missingBucket
  | generationMismatch
  | kernelBindingMismatch
  | invalidated
  | workspaceGrowth
  deriving DecidableEq, Repr

/-- `str(reason)`. -/
def GraphFallbackReason.label : GraphFallbackReason -> String
  | disabled => "disabled"
  | notPureDecode => "not_pure_decode"
  | speculative => "speculative"
  | samplingUncapturable => "sampling_uncapturable"
  | promptLogprobs => "prompt_logprobs"
  | eagerOnlyRequest => "eager_only_request"
  | backendUnsupported => "backend_unsupported"
  | noTokens => "no_tokens"
  | bucketCeiling => "bucket_ceiling"
  | missingBucket => "missing_bucket"
  | generationMismatch => "generation_mismatch"
  | kernelBindingMismatch => "kernel_binding_mismatch"
  | invalidated => "invalidated"
  | workspaceGrowth => "workspace_growth"

inductive GraphOwnerState where
  | new
  | resourcesBound
  | warming
  | capturing
  | validating
  | ready
  | invalidating
  | draining
  | failed
  | closed
  deriving DecidableEq, Repr

inductive GraphMode where
  | eager
  | capture
  | replay
  deriving DecidableEq, Repr

structure GraphPlan where
  mode : GraphMode := .eager
  bucket : Nat := 0
  graphKey : String := ""
  deriving DecidableEq, Repr

def emptyGraphPlan : GraphPlan := {}

/-- What the planner reads of a step.  The callback `eager_only_reason` is asked about
the step alone, so that its answer is a field. -/
structure BatchStepPlan where
  isPureDecode : Bool
  speculative : Bool := false
  graphCapturable : Bool := true
  promptLogprobs : Bool := false
  eagerOnlyReason : String := ""
  paddedNumTokens : Nat
  graph : GraphPlan := emptyGraphPlan
  deriving DecidableEq, Repr

/-- What the providers of a generation and of a kernel binding answer. -/
structure Live (gen : Type) where
  generation : Option gen
  binding : String
  deriving DecidableEq, Repr

/-- The arguments of the pool that never change; the buckets passed `validate_buckets`
and the slots the check of the constructor. -/
structure Config (gen : Type) where
  buckets : List Nat
  nonempty : buckets ≠ []
  positive : forall bucket, bucket ∈ buckets -> 1 ≤ bucket
  ascending : buckets.Pairwise (· < ·)
  slots : List Nat
  slotsNonempty : slots ≠ []
  slotsAscending : slots.Pairwise (· < ·)
  enabled : Bool := true
  /-- `support >= PURE_DECODE`. -/
  supported : Bool := true
  /-- `graph_backend == "full"`. -/
  full : Bool := true
  /-- `graph_identity_key` of a generation, a bucket and a kernel binding. -/
  graphIdentityKey : gen -> Nat -> String -> Except Failure String

/-- `pad_to_bucket`; the first bucket that is large enough is where `bisect_left` points. -/
def padToBucket (rawSize : Nat) (buckets : List Nat) : Except Failure Nat := do
  reject (buckets = []) (.valueError "buckets must be non-empty")
  let largest := buckets.getLast?.getD 0
  let exceeds := Failure.valueError ("raw_size " ++ toString rawSize
    ++ " exceeds the largest captured bucket " ++ toString largest
    ++ " — the caller's admission check should have "
    ++ "rejected this batch before it reached load_batch()")
  reject (rawSize > largest) exceeds
  (buckets.find? fun bucket => rawSize ≤ bucket).elim (.error exceeds) .ok

/-! ## The graphs of one slot -/

/-- `DecodeGraphRunner`; `graphs` are the buckets its backend has recorded. -/
structure DecodeGraphRunner (gen : Type) where
  graphs : List Nat := []
  captured : Bool := false
  generation : Option gen := none
  deriving DecidableEq, Repr

def DecodeGraphRunner.cleanup {gen : Type} (runner : DecodeGraphRunner gen) :
    DecodeGraphRunner gen :=
  { runner with graphs := [], captured := false }

/-! ## The pool and its planner -/

inductive GraphEvent (gen : Type) where
  /-- A capture finished, with these pairs of slot and bucket. -/
  | captured (recorded : List (Nat × Nat)) (live : Live gen)
  /-- The planner was invalidated, by a caller or because it saw a mismatch. -/
  | invalidated (label : String)
  /-- The pool was invalidated, or told that the workspace grew. -/
  | poolInvalidated
  /-- `validate` saw another generation or binding than the captured ones. -/
  | mismatchRaised
  | cleanedUp
  | replayed (slot paddedNumTokens bucket : Nat) (live : Live gen)
  deriving DecidableEq, Repr

structure DecodeGraphPool (gen : Type) where
  config : Config gen
  state : GraphOwnerState
  runners : Dict Nat (DecodeGraphRunner gen)
  capturedGeneration : Option gen
  capturedBinding : Option String
  invalidated : Bool
  invalidationReason : GraphFallbackReason
  lastReason : String
  /-- The environment. -/
  live : Live gen
  /-- The steps the engine works on, with the plans stored in them. -/
  steps : Nat -> BatchStepPlan
  /-- The latest event first. -/
  log : List (GraphEvent gen)

namespace DecodeGraphPool

variable {gen : Type}

abbrev PoolM (gen : Type) := EStateM Failure (DecodeGraphPool gen)

def new (config : Config gen) (live : Live gen) (steps : Nat -> BatchStepPlan) :
    DecodeGraphPool gen where
  config
  state := .resourcesBound
  runners := Dict.empty
  capturedGeneration := none
  capturedBinding := none
  invalidated := false
  invalidationReason := .invalidated
  lastReason := ""
  live
  steps := fun stepId => { steps stepId with graph := emptyGraphPlan }
  log := []

def note (event : GraphEvent gen) (s : DecodeGraphPool gen) : DecodeGraphPool gen :=
  { s with log := event :: s.log }

/-- A device call that fails or not. -/
def raiseIf : Option Failure -> PoolM gen Unit
  | some exc => throw exc
  | none => pure ()

def capturedBuckets (s : DecodeGraphPool gen) : List Nat :=
  if s.state = .ready ∧ s.runners.entries ≠ [] then s.config.buckets else []

def bindingCurrent (s : DecodeGraphPool gen) : Prop :=
  s.capturedBinding = some s.live.binding

instance (s : DecodeGraphPool gen) : Decidable s.bindingCurrent :=
  inferInstanceAs (Decidable (_ = _))

def generationCurrent (s : DecodeGraphPool gen) : Prop :=
  s.live.generation ≠ none ∧ s.live.generation = s.capturedGeneration

instance [DecidableEq gen] (s : DecodeGraphPool gen) : Decidable s.generationCurrent :=
  inferInstanceAs (Decidable (_ ∧ _))

/-! ## Invalidation -/

/-- The argument of `invalidate`: a member of the enumeration or any text. -/
inductive Reason where
  | fallback (reason : GraphFallbackReason)
  | text (label : String)
  deriving DecidableEq, Repr

/-- `str(reason)`. -/
def Reason.label : Reason -> String
  | fallback reason => reason.label
  | text label => label

def Reason.toFallback : Reason -> GraphFallbackReason
  | fallback reason => reason
  | text _ => .invalidated

/-- `DecodeGraphPlanner.invalidate`; a repeated reason changes nothing. -/
def invalidate (reason : Reason) (s : DecodeGraphPool gen) : DecodeGraphPool gen :=
  note (.invalidated reason.label)
    (if s.invalidated ∧ s.lastReason = reason.label then
      s
    else
      { s with
        invalidated := true
        invalidationReason := reason.toFallback
        lastReason := reason.label })

/-- `DecodeGraphPlanner.note_workspace_growth`. -/
def noteWorkspaceGrowth (s : DecodeGraphPool gen) : DecodeGraphPool gen :=
  s.invalidate (.fallback .workspaceGrowth)

/-- `DecodeGraphPool.invalidate`. -/
def poolInvalidate (reason : Reason) (s : DecodeGraphPool gen) : DecodeGraphPool gen :=
  note .poolInvalidated
    (invalidate reason { s with state := .invalidating })

/-- `DecodeGraphPool.note_workspace_growth`. -/
def poolNoteWorkspaceGrowth (s : DecodeGraphPool gen) : DecodeGraphPool gen :=
  note .poolInvalidated
    (noteWorkspaceGrowth { s with state := .invalidating })

/-- `runner.cleanup()` of one slot, which the device may fail. -/
def cleanupRunner (fault : Nat -> Option Failure) (slot : Nat) : PoolM gen Unit := do
  raiseIf (fault slot)
  modify fun s => { s with runners := s.runners.modify slot DecodeGraphRunner.cleanup }

def cleanup (fault : Nat -> Option Failure) : PoolM gen Unit := do
  let s <- get
  if s.state = .closed then
    pure ()
  else
    modify fun s => note .cleanedUp { s with state := .draining }
    s.runners.keys.forM (cleanupRunner fault)
    modify fun s => { s with runners := Dict.empty, state := .closed }

section Generation

variable [DecidableEq gen]

/-! ## Capture -/

/-- What fails in a capture: recording a bucket of a slot, waiting for the device, and,
after a failure, waiting once more and dropping the runner of a slot. -/
structure CaptureFaults where
  recording : Nat -> Nat -> Option Failure := fun _ _ => none
  validating : Option Failure := none
  draining : Option Failure := none
  cleaning : Nat -> Option Failure := fun _ => none

def captureOne (fault : Nat -> Nat -> Option Failure) (slot bucket : Nat) : PoolM gen Unit := do
  raiseIf (fault slot bucket)
  modify fun s => { s with
    runners := s.runners.modify slot fun runner =>
      { runner with graphs := bucket :: runner.graphs } }

/-- The loop body of `_capture`: a runner for the slot, reachable before it captures. -/
def captureSlot (fault : Nat -> Nat -> Option Failure) (slot : Nat) : PoolM gen Unit := do
  modify fun s => { s with
    runners := s.runners.set slot {}
    state := .capturing }
  let s <- get
  s.config.buckets.reverse.forM (captureOne fault slot)
  modify fun s => { s with
    runners := s.runners.modify slot fun runner => { runner with captured := true } }

def recorded (s : DecodeGraphPool gen) : List (Nat × Nat) :=
  s.runners.entries.flatMap fun entry => entry.2.graphs.map fun bucket => (entry.1, bucket)

/-- `note_capture`; the buckets are the planner's own and the measures are not negative. -/
def noteCapture : PoolM gen Unit := do
  let s <- get
  if s.live.binding = "" then
    throw (.valueError "kernel binding digest must be a non-empty string")
  else
    modify fun s => { s with
      capturedGeneration := s.live.generation
      capturedBinding := some s.live.binding
      invalidated := false
      invalidationReason := .invalidated }

/-- The end of `_capture`: bind the runners and publish the full set. -/
def publish : PoolM gen Unit := do
  modify fun s => { s with
    runners := s.runners.mapValues fun _ runner => { runner with generation := s.live.generation } }
  noteCapture
  modify fun s => note (.captured s.recorded s.live)
    { s with state := .ready }

/-- `_capture`, while the environment changes to `during`. -/
def captureAll (faults : CaptureFaults) (during : Live gen) : PoolM gen Unit := do
  let before <- get
  if before.runners.entries ≠ [] then
    throw (.runtimeError "this pool already captured; rebuild instead of recapturing")
  else
    modify fun s => { s with state := .warming, live := during }
    before.config.slots.forM (captureSlot faults.recording)
    modify fun s => { s with state := .validating }
    raiseIf faults.validating
    if during.generation ≠ before.live.generation ∨ during.binding ≠ before.live.binding then
      throw (.runtimeError "resource binding changed during capture")
    else
      publish

/-- The handler of `capture`. -/
def abandonCapture (faults : CaptureFaults) (exc : Failure) : PoolM gen Unit := do
  modify fun s => { s with state := .failed }
  raiseIf faults.draining
  cleanup faults.cleaning
  modify fun s => { s with state := .failed }
  throw exc

def capture (faults : CaptureFaults) (during : Live gen) : PoolM gen Unit := do
  let s <- get
  if s.state ≠ .resourcesBound then
    throw (.runtimeError "capture requires a fresh resource binding")
  else
    tryCatch (captureAll faults during) (abandonCapture faults)

/-! ## Routing -/

def fallback (reason : GraphFallbackReason) : PoolM gen GraphPlan := do
  modify fun s => { s with lastReason := reason.label }
  pure emptyGraphPlan

def refuseExecution (reason : GraphFallbackReason) : PoolM gen Bool := do
  modify fun s => { s with lastReason := reason.label }
  pure false

/-- Invalidate on a mismatch the planner has just seen. -/
def invalidateFor (reason : GraphFallbackReason) : PoolM gen Unit :=
  modify (invalidate (.fallback reason))

def graphKey (s : DecodeGraphPool gen) (bucket : Nat) : Except Failure String :=
  match s.capturedGeneration.or s.live.generation with
  | none =>
    .error (.runtimeError "no live resource generation to key a decode graph")
  | some generation =>
    s.config.graphIdentityKey generation bucket
      ((s.capturedBinding.filter (· ≠ "")).getD s.live.binding)

def planBucket (step : BatchStepPlan) : PoolM gen GraphPlan := do
  let s <- get
  if step.paddedNumTokens < 1 then
    fallback .noTokens
  else if step.paddedNumTokens > s.config.buckets.getLast?.getD 0 then
    fallback .bucketCeiling
  else
    let bucket <- query fun _ => padToBucket step.paddedNumTokens s.config.buckets
    if bucket ∉ s.capturedBuckets then
      fallback .missingBucket
    else
      let key <- query fun s => s.graphKey bucket
      pure { mode := .replay, bucket, graphKey := key }

def plan (step : BatchStepPlan) : PoolM gen GraphPlan := do
  let s <- get
  if step.graph.mode = .replay then
    throw (.valueError "step already carries a graph plan")
  else if s.config.enabled = false then
    fallback .disabled
  else if step.isPureDecode = false then
    fallback .notPureDecode
  else if step.speculative = true then
    fallback .speculative
  else if step.graphCapturable = false then
    fallback .samplingUncapturable
  else if step.promptLogprobs = true then
    fallback .promptLogprobs
  else if step.eagerOnlyReason ≠ "" then
    fallback .eagerOnlyRequest
  else if s.config.supported = false then
    fallback .backendUnsupported
  else if s.invalidated = true then
    fallback s.invalidationReason
  else if ¬ s.generationCurrent then
    invalidateFor .generationMismatch
    fallback .generationMismatch
  else if ¬ s.bindingCurrent then
    invalidateFor .kernelBindingMismatch
    fallback .kernelBindingMismatch
  else
    planBucket step

def validateBucket (s : DecodeGraphPool gen) (step : BatchStepPlan) : Except Failure Unit := do
  let bucket <- padToBucket step.paddedNumTokens s.config.buckets
  reject (bucket ≠ step.graph.bucket) (.runtimeError ("graph bucket "
    ++ toString step.graph.bucket ++ " disagrees with the step's padded size "
    ++ toString step.paddedNumTokens ++ " -> " ++ toString bucket))
  reject (step.graph.bucket ∉ s.capturedBuckets) (.runtimeError ("graph bucket "
    ++ toString step.graph.bucket ++ " has no captured instance"))
  let expected <- s.graphKey step.graph.bucket
  reject (step.graph.graphKey ≠ expected) (.runtimeError
    "graph key disagrees with the live resource generation (routing bug)")

def raiseMismatch (text : String) : PoolM gen Unit := do
  modify (note .mismatchRaised)
  throw (.runtimeError text)

def validate (step : BatchStepPlan) : PoolM gen Unit := do
  let s <- get
  if step.graph.mode ≠ .replay then
    pure ()
  else if step.isPureDecode = false ∨ step.graphCapturable = false then
    throw (.runtimeError
      "graph replay plan disagrees with pure-decode/capturable sampling")
  else if s.config.enabled = false ∨ s.invalidated = true then
    throw (.runtimeError
      "graph replay plan belongs to a disabled/invalidated/replaced generation")
  else if ¬ s.generationCurrent then
    raiseMismatch "graph replay plan belongs to a disabled/invalidated/replaced generation"
  else if ¬ s.bindingCurrent then
    raiseMismatch "graph replay plan belongs to a replaced kernel binding (routing bug)"
  else
    query fun s => s.validateBucket step

/-- `DecodeGraphPlanner.should_replay`. -/
def shouldReplay (step : BatchStepPlan) : PoolM gen Bool := do
  let s <- get
  if step.graph.mode ≠ .replay then
    pure false
  else if s.config.enabled = false then
    refuseExecution .disabled
  else if s.invalidated = true then
    refuseExecution s.invalidationReason
  else if ¬ s.generationCurrent then
    invalidateFor .generationMismatch
    refuseExecution .generationMismatch
  else if ¬ s.bindingCurrent then
    invalidateFor .kernelBindingMismatch
    refuseExecution .kernelBindingMismatch
  else if step.graph.bucket ∉ s.capturedBuckets then
    refuseExecution .missingBucket
  else
    pure true

/-! ## Replay -/

def canRun (s : DecodeGraphPool gen) (runner : DecodeGraphRunner gen) (rawBs : Nat) :
    Except Failure Bool :=
  if runner.captured = false ∨ rawBs > s.config.buckets.getLast?.getD 0 then
    .ok false
  else if runner.generation ≠ none
      ∧ ¬ (s.live.generation ≠ none ∧ s.live.generation = runner.generation) then
    .error (.runtimeError ("decode graphs were captured under a replaced "
      ++ "runtime generation; recapture before replaying"))
  else do
    let bucket <- padToBucket rawBs s.config.buckets
    pure (decide (bucket ∈ runner.graphs))

def hasInstance (s : DecodeGraphPool gen) (bucket slot : Nat) : Except Failure Bool :=
  if s.state ≠ .ready then
    .ok false
  else
    (s.runners.get? slot).elim (.ok false) fun runner => s.canRun runner bucket

/-- `DecodeGraphPool.should_replay`. -/
def poolShouldReplay (step : BatchStepPlan) (slot : Nat) : PoolM gen Bool := do
  let replay <- shouldReplay step
  if replay = true then
    query fun s => s.hasInstance step.graph.bucket slot
  else
    pure false

/-- What fails around a launch: staging the step, and the launched replay itself. -/
structure ReplayFaults where
  staging : Option Failure := none
  replaying : Option Failure := none

/-- The checks of `DecodeGraphRunner.execute`. -/
def mayExecute (s : DecodeGraphPool gen) (runner : DecodeGraphRunner gen) (rawBs bucket : Nat) :
    Except Failure Unit := do
  reject (rawBs < 1 ∨ rawBs > bucket ∨ bucket ∉ s.config.buckets)
    (.valueError "invalid row count or captured bucket")
  let runnable <- s.canRun runner bucket
  reject (runnable = false)
    (.runtimeError "execute() called without a prior successful can_run()")

section

variable (step : BatchStepPlan) (slot rows : Nat) (runner : DecodeGraphRunner gen)
  (faults : ReplayFaults)

/-- `DecodeGraphRunner.execute`; a full graph stages here, a breakable one did before. -/
def executeRunner : PoolM gen Unit := do
  query fun s => s.mayExecute runner rows step.graph.bucket
  let s <- get
  raiseIf (if s.config.full then faults.staging else none)
  modify fun s =>
    note (.replayed slot step.paddedNumTokens step.graph.bucket s.live) s
  raiseIf faults.replaying

/-- `execute`, once the slot has a runner. -/
def executeOn : PoolM gen Unit := do
  let replay <- shouldReplay step
  if replay = false then
    throw (.runtimeError "decode graph replay refused after the plan was validated")
  else if rows > step.graph.bucket then
    throw (.runtimeError (toString rows ++ " real rows exceed the captured bucket "
      ++ toString step.graph.bucket))
  else
    let s <- get
    raiseIf (if s.config.full then none else faults.staging)
    executeRunner step slot rows runner faults

end

def execute (step : BatchStepPlan) (slot rows : Nat) (faults : ReplayFaults) : PoolM gen Unit := do
  let s <- get
  match s.runners.get? slot with
  | none => throw (.runtimeError ("no captured decode graph for flight slot "
      ++ toString slot))
  | some runner => executeOn step slot rows runner faults

/-! ## Runs -/

/-- `step = replace(step, graph=planner.plan(step))`, as the engine calls it. -/
def planStep (stepId : Nat) : PoolM gen Unit := do
  let s <- get
  let graph <- plan (s.steps stepId)
  modify fun s => { s with
    steps := Function.update s.steps stepId { s.steps stepId with graph } }

inductive Call (gen : Type) where
  | capture (faults : CaptureFaults) (during : Live gen)
  | plan (stepId : Nat)
  | validate (stepId : Nat)
  | plannerShouldReplay (stepId : Nat)
  | shouldReplay (stepId slot : Nat)
  | execute (stepId slot rows : Nat) (faults : ReplayFaults)
  | plannerInvalidate (reason : Reason)
  | plannerNoteWorkspaceGrowth
  | invalidate (reason : Reason)
  | noteWorkspaceGrowth
  | cleanup (fault : Nat -> Option Failure)
  /-- The environment moves to another generation or kernel binding. -/
  | move (live : Live gen)

/-- The state one call leaves behind, whether it returned or raised. -/
def step (s : DecodeGraphPool gen) : Call gen -> DecodeGraphPool gen
  | .capture faults during => finalState (capture faults during s)
  | .plan stepId => finalState (planStep stepId s)
  | .validate stepId => finalState (validate (s.steps stepId) s)
  | .plannerShouldReplay stepId => finalState (shouldReplay (s.steps stepId) s)
  | .shouldReplay stepId slot => finalState (poolShouldReplay (s.steps stepId) slot s)
  | .execute stepId slot rows faults =>
    finalState (execute (s.steps stepId) slot rows faults s)
  | .plannerInvalidate reason => s.invalidate reason
  | .plannerNoteWorkspaceGrowth => s.noteWorkspaceGrowth
  | .invalidate reason => s.poolInvalidate reason
  | .noteWorkspaceGrowth => s.poolNoteWorkspaceGrowth
  | .cleanup fault => finalState (cleanup fault s)
  | .move live => { s with live }

def run (s : DecodeGraphPool gen) (calls : List (Call gen)) : DecodeGraphPool gen :=
  calls.foldl step s

end Generation

end DecodeGraphPool
end DecodeGraph
end Ayaka
