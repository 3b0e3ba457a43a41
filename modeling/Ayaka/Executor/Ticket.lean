import Ayaka.Sched.Plan

/-!
# Execution tickets

A ticket owns the resources of one piece of asynchronous work from adoption until
every consumer has stopped.  The states below are those of a model step and of a
prefix transfer alike; the rest of the module is the ticket of a model step with
the fences that observe its work and the outcome it ends in.

Timestamps and the log-probability payloads of a sampling result are left out.
-/

namespace Ayaka
namespace Executor

open Sched

inductive TicketState where
  | adopted
  | submitted
  | draining
  | quarantined
  | completed
  | retired
  deriving DecidableEq, Repr

/-- Process-local executor incarnation and adoption ordinal. -/
structure TicketId where
  executor : Nat
  ordinal : Nat
  deriving DecidableEq, Repr

/-! ## Fences -/

inductive WorkState where
  | pending
  | succeeded
  | failed
  deriving DecidableEq, Repr

/-- What one fence query answers.  The fields are the checks of the constructor:
failure and quiescence are independent, pending work proves nothing, and success
covers every use the fence represents. -/
structure FenceResult where
  state : WorkState
  quiescent : Bool := false
  error : String := ""
  pending_not_quiescent : state = .pending -> quiescent = false
  succeeded_quiescent : state = .succeeded -> quiescent = true
  failed_error : state = .failed -> error ≠ ""
  deriving DecidableEq, Repr

namespace FenceResult

def succeeded : FenceResult where
  state := .succeeded
  quiescent := true
  pending_not_quiescent := fun h => nomatch h
  succeeded_quiescent := fun _ => rfl
  failed_error := fun h => nomatch h

end FenceResult

/-- A completion fence is an object the backend made; its name is all the
executor keeps of it. -/
abbrev FenceId := Nat

/-! ## Sampling results -/

/-- Accepted draft counts of the speculative rows of one ticket. -/
structure SpeculativeSampleOutputs where
  accepted : List Int
  rows : List Nat
  draftCounts : List Nat
  deriving DecidableEq, Repr

/-- Packed sampling results.  Materializing the log-probability and support
reports of a ticket can fail on a row out of range; `reportFault` is what that
raises, the reports themselves are left out. -/
structure SampleOutputs where
  tokenIds : List Int
  speculative : Option SpeculativeSampleOutputs := none
  reportFault : Option Failure := none
  deriving DecidableEq, Repr

/-- The index of each sampling slice among the sampling rows, by slice index. -/
def sampleIndex (slices : List ScheduledSlice) (sliceIndex : Nat) : Nat :=
  ((slices.take sliceIndex).filter ScheduledSlice.sampleLastQuery).length

/-- `VerifyLayout.from_step(step).spec_positions`. -/
def specPositions (step : BatchStepPlan) : List Nat :=
  step.speculative.map (fun plan => sampleIndex step.slices plan.sliceIndex)

/-- `VerifyLayout.from_step(step).draft_counts`. -/
def draftCounts (step : BatchStepPlan) : List Nat :=
  step.speculative.map SpeculativeSlicePlan.effectiveK

/-! ## Outcomes and tickets -/

inductive TerminalStatus where
  | succeeded
  | failed
  | cancelled
  deriving DecidableEq, Repr

structure TerminalOutcome where
  ticketId : TicketId
  status : TerminalStatus
  samples : Option SampleOutputs := none
  error : String := ""
  samples_of_succeeded : status ≠ .succeeded -> samples = none
  deriving DecidableEq, Repr

structure ExecutionTicket where
  id : TicketId
  prepared : PreparedStep
  state : TicketState := .adopted
  fences : List FenceId := []
  drainFence : Option FenceId := none
  needsDrain : Bool := false
  hostFailure : Bool := false
  cancelled : Bool := false
  samples : Option SampleOutputs := none
  error : String := ""
  terminal : Option TerminalOutcome := none
  settling : Bool := false
  retirementComplete : Bool := false
  executionFailed : Bool := false
  /-- `_submitted_ns is not None`. -/
  submitted : Bool := false
  deriving DecidableEq, Repr

end Executor
end Ayaka
