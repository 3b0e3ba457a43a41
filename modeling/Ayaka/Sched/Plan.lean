import Ayaka.Handles
import Ayaka.Executor.Failure

/-!
# Step plans

The immutable contracts between request scheduling and execution: the slice of
one request, the snapshot that justifies it, the draft rows that may extend it,
and the plan of a whole step.

Of a plan only what execution and settlement read is kept: its slices and inputs,
the sampling rows and the draft extensions.  The checks of its constructor are left
out, and so nothing below assumes them.
-/

namespace Ayaka
namespace Sched

open Executor
open Failure

abbrev RequestId := String

/-- Request semantics; a one-query prefill remains a prefill. -/
inductive Phase where
  | prefill
  | decode
  deriving DecidableEq, Repr

/-! ## Slices and snapshots -/

/-- One contiguous range of a request, guarded by its epoch and KV version.  The
fields carry the checks of the constructor. -/
structure ScheduledSlice where
  requestId : RequestId
  sequenceEpoch : Nat
  expectedStateVersion : Nat
  queryStart : Nat
  queryCount : Nat
  phase : Phase
  sampleLastQuery : Bool := false
  id_text : isBlank requestId = false := by decide
  epoch_pos : 1 ≤ sequenceEpoch := by decide
  count_pos : 1 ≤ queryCount := by decide
  decode_one : phase = .decode -> queryCount = 1 := by decide
  deriving DecidableEq, Repr

namespace ScheduledSlice

def queryEnd (scheduled : ScheduledSlice) : Nat :=
  scheduled.queryStart + scheduled.queryCount

end ScheduledSlice

structure RequestStepInput where
  requestId : RequestId
  sequence : SequenceHandle
  sequenceEpoch : Nat
  stateVersion : Nat
  promptTokens : Nat
  knownTokens : List Nat
  computedTokens : Nat
  maxOutputTokens : Nat
  deriving DecidableEq, Repr

namespace RequestStepInput

def validate (value : RequestStepInput) : Except Failure Unit := do
  requireText value.requestId "request_id"
  requireInt value.sequenceEpoch "sequence_epoch" 1
  requireInt value.promptTokens "prompt_tokens" 1
  requireInt value.maxOutputTokens "max_output_tokens" 1
  reject
    (¬ (value.promptTokens ≤ value.knownTokens.length
      ∧ value.knownTokens.length ≤ value.promptTokens + value.maxOutputTokens))
    (valueError "known token count disagrees with prompt/output limits")
  reject (value.computedTokens > value.knownTokens.length)
    (valueError "computed_tokens exceeds known tokens")

def validateSlice (value : RequestStepInput) (scheduled : ScheduledSlice) :
    Except Failure Unit := do
  reject
    (scheduled.requestId ≠ value.requestId ∨ scheduled.sequenceEpoch ≠ value.sequenceEpoch
      ∨ scheduled.expectedStateVersion ≠ value.stateVersion)
    (valueError "slice identity or KV state version is stale")
  reject (scheduled.queryStart ≠ value.computedTokens)
    (valueError "slice must start at computed_tokens")
  reject (scheduled.queryEnd > value.knownTokens.length)
    (valueError "slice extends beyond known tokens")
  reject
    (scheduled.phase = .prefill
      ∧ (scheduled.queryStart ≥ value.promptTokens ∨ scheduled.queryEnd > value.promptTokens))
    (valueError "prefill must stay within the prompt")
  reject (scheduled.phase = .decode ∧ scheduled.queryStart < value.promptTokens)
    (valueError "decode cannot replace an unfinished prefill")
  reject (scheduled.sampleLastQuery ∧ scheduled.queryEnd ≠ value.knownTokens.length)
    (valueError "sampling is allowed only at the known-token boundary")
  reject
    (scheduled.sampleLastQuery
      ∧ value.knownTokens.length - value.promptTokens ≥ value.maxOutputTokens)
    (valueError "output token budget is exhausted")

structure Valid (value : RequestStepInput) : Prop where
  requestId : isBlank value.requestId = false
  sequenceEpoch : 1 ≤ value.sequenceEpoch
  promptTokens : 1 ≤ value.promptTokens
  maxOutputTokens : 1 ≤ value.maxOutputTokens
  prompt_le : value.promptTokens ≤ value.knownTokens.length
  known_le : value.knownTokens.length ≤ value.promptTokens + value.maxOutputTokens
  computed_le : value.computedTokens ≤ value.knownTokens.length

theorem validate_eq_ok_iff {value : RequestStepInput} {u : Unit} :
    value.validate = .ok u <-> value.Valid := by
  unfold validate
  simp only [check_bind_eq_ok_iff, requireText_eq_ok_iff, requireInt_eq_ok_iff, reject_eq_ok_iff,
    not_not, not_lt, gt_iff_lt]
  constructor
  · rintro ⟨hid, _, _, _, hknown, hcomputed⟩
    exact ⟨hid, by omega, by omega, by omega, hknown.1, hknown.2, hcomputed⟩
  · intro h
    exact ⟨h.requestId, by have := h.sequenceEpoch; omega, by have := h.promptTokens; omega,
      by have := h.maxOutputTokens; omega, ⟨h.prompt_le, h.known_le⟩, h.computed_le⟩

structure Fits (value : RequestStepInput) (scheduled : ScheduledSlice) : Prop where
  requestId : scheduled.requestId = value.requestId
  sequenceEpoch : scheduled.sequenceEpoch = value.sequenceEpoch
  stateVersion : scheduled.expectedStateVersion = value.stateVersion
  queryStart : scheduled.queryStart = value.computedTokens
  queryEnd : scheduled.queryEnd ≤ value.knownTokens.length
  prefill : scheduled.phase = .prefill ->
    scheduled.queryStart < value.promptTokens ∧ scheduled.queryEnd ≤ value.promptTokens
  decode : scheduled.phase = .decode -> value.promptTokens ≤ scheduled.queryStart
  boundary : scheduled.sampleLastQuery = true -> scheduled.queryEnd = value.knownTokens.length
  budget : scheduled.sampleLastQuery = true ->
    value.knownTokens.length - value.promptTokens < value.maxOutputTokens

theorem validateSlice_eq_ok_iff {value : RequestStepInput} {scheduled : ScheduledSlice}
    {u : Unit} : value.validateSlice scheduled = .ok u <-> value.Fits scheduled := by
  unfold validateSlice
  simp only [check_bind_eq_ok_iff, reject_eq_ok_iff, not_and, not_or, not_not, not_lt, not_le,
    ge_iff_le, gt_iff_lt, ne_eq]
  constructor
  · rintro ⟨⟨hid, hepoch, hversion⟩, hstart, hend, hprefill, hdecode, hboundary, hbudget⟩
    exact ⟨hid, hepoch, hversion, hstart, hend, hprefill, hdecode, hboundary, hbudget⟩
  · intro h
    exact ⟨⟨h.requestId, h.sequenceEpoch, h.stateVersion⟩, h.queryStart, h.queryEnd, h.prefill,
      h.decode, h.boundary, h.budget⟩

end RequestStepInput

/-! ## Draft extensions -/

structure SpeculativeSlicePlan where
  sliceIndex : Nat
  effectiveK : Nat
  draftTokenIds : List Nat
  deriving DecidableEq, Repr

/-! ## The plan of one step -/

structure PromptLogprobSlicePlan where
  sliceIndex : Nat
  k : Nat
  positions : List Nat
  deriving DecidableEq, Repr

structure BatchStepPlan where
  stepId : Nat
  slices : List ScheduledSlice
  inputs : List RequestStepInput
  samplingRows : List Nat
  speculative : List SpeculativeSlicePlan
  deriving DecidableEq, Repr

/-- A plan together with the physical views its preparation reserved; the views
stay with the KV runtime. -/
structure PreparedStep where
  step : BatchStepPlan
  deriving DecidableEq, Repr

end Sched
end Ayaka
