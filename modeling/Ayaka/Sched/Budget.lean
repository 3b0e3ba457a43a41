import Ayaka.Sched.Plan
import Ayaka.Utils.MathUtils

/-!
# The budget of one step

A step may hold a number of sequences and a number of token slots after packed
padding.  Callers ask for at least one token, which the code checks.
-/

namespace Ayaka
namespace Sched

open MathUtils

/-- Runner facts declared before allocation. -/
structure SchedulerCapabilities where
  maxNumSeqs : Nat
  tokenPaddingMultiple : Nat
  multiple_pos : 0 < tokenPaddingMultiple

def SchedulerCapabilities.physicalTokenSlots (capabilities : SchedulerCapabilities)
    (queryTokens : Nat) : Nat :=
  alignUp queryTokens capabilities.tokenPaddingMultiple

structure BatchBudget where
  maxPhysicalTokens : Nat
  maxSequences : Nat
  capabilities : SchedulerCapabilities
  logicalTokens : Nat := 0
  sequences : Nat := 0
  prefillTokens : Nat := 0
  decodeTokens : Nat := 0

namespace BatchBudget

section

variable (budget : BatchBudget)

def physicalTokens : Nat :=
  budget.capabilities.physicalTokenSlots budget.logicalTokens

def record (tokens : Nat) (phase : Phase) (newSequence : Bool) : BatchBudget :=
  { budget with
    logicalTokens := budget.logicalTokens + tokens
    sequences := budget.sequences + newSequence.toNat
    prefillTokens := budget.prefillTokens + if phase = .prefill then tokens else 0
    decodeTokens := budget.decodeTokens + if phase = .decode then tokens else 0 }

/-- `try_consume`: the budget with the tokens spent, or nothing when they do not fit. -/
def tryConsume (tokens : Nat) (phase : Phase) (newSequence : Bool) : Option BatchBudget :=
  if budget.sequences + newSequence.toNat > budget.maxSequences then
    none
  else if budget.capabilities.physicalTokenSlots (budget.logicalTokens + tokens) >
      budget.maxPhysicalTokens then
    none
  else
    some (budget.record tokens phase newSequence)

end

/-! ## The calls of one step -/

structure Within (budget : BatchBudget) : Prop where
  sequences : budget.sequences ≤ budget.maxSequences
  slots : budget.physicalTokens ≤ budget.maxPhysicalTokens
  phases : budget.logicalTokens = budget.prefillTokens + budget.decodeTokens

variable {start budget : BatchBudget}

theorem Within.tryConsume (h : budget.Within)
    (hspent : budget.tryConsume tokens phase newSequence = some next) : next.Within := by
  unfold BatchBudget.tryConsume at hspent
  split_ifs at hspent with hsequences htokens
  cases hspent
  refine ⟨Nat.le_of_not_lt hsequences, Nat.le_of_not_lt htokens, ?_⟩
  have hphases := h.phases
  unfold record
  cases phase with
  | prefill | decode => simp only [reduceCtorEq, if_true, if_false]; omega

end BatchBudget

end Sched
end Ayaka
