import Mathlib

/-!
# Exceptions and generation-safe handles

The control plane names every object by an index and a generation.  A slot that
is reused starts a new generation, so a handle kept from an older lifetime no
longer matches.  Generations start at one and never pass the signed 64-bit
ceiling.
-/

namespace Ayaka

/-- The exceptions the modelled methods raise, with their texts.  A loop cut off
by its step bound ends in `nonTermination`; the source has no such exception. -/
inductive Exc where
  | valueError (message : String)
  | overflowError (message : String)
  | invalidHandleError (message : String)
  | invalidStateTransitionError (message : String)
  | invariantViolationError (message : String)
  | sequenceBusyError (message : String)
  | sequenceCapacityError (message : String)
  | prefixCapabilityStaleError (message : String)
  | transactionClosedError (message : String)
  | keyError
  | indexError
  | nonTermination
  deriving DecidableEq, Repr

def Exc.IsInvalidHandle : Exc -> Prop
  | .invalidHandleError _ => True
  | _ => False

def maxHandleGeneration : Nat := 2 ^ 63 - 1

inductive HandleKind where
  | sequence
  | kvPage
  | prefixNode
  | lease
  deriving DecidableEq, Repr

/-- An `(index, generation)` identity; the bounds are those the constructor
checks. -/
@[ext] structure Handle (kind : HandleKind) where
  index : Nat
  generation : Nat
  generation_pos : 0 < generation
  generation_le : generation ≤ maxHandleGeneration
  deriving DecidableEq, Repr

abbrev SequenceHandle := Handle .sequence
abbrev KVPageHandle := Handle .kvPage
abbrev PrefixHandle := Handle .prefixNode

/-- A step-scoped identity also carries the scheduler step it was made for. -/
@[ext] structure StepHandle (kind : HandleKind) extends Handle kind where
  stepId : Nat
  deriving DecidableEq, Repr

abbrev StepMemoryLeaseHandle := StepHandle .lease

/-- `_validate_index_generation` followed by construction. -/
def Handle.new (kind : HandleKind) (index generation : Nat) : Except Exc (Handle kind) :=
  if hpos : 0 < generation then
    if hle : generation ≤ maxHandleGeneration then
      .ok { index, generation, generation_pos := hpos, generation_le := hle }
    else
      .error (.valueError "handle generation exceeds the int64 identity space")
  else
    .error (.valueError "handle generation must be positive")

/-- Handles of objects that are never recycled keep generation one. -/
def Handle.first (kind : HandleKind) (index : Nat) : Handle kind where
  index := index
  generation := 1
  generation_pos := by decide
  generation_le := by decide

def StepHandle.first (kind : HandleKind) (index stepId : Nat) : StepHandle kind where
  toHandle := Handle.first kind index
  stepId := stepId

def Handle.text {kind : HandleKind} (name : String) (h : Handle kind) : String :=
  name ++ "(index=" ++ toString h.index ++ ", generation=" ++ toString h.generation ++ ")"

theorem Handle.new_eq_ok {kind} {index generation : Nat}
    (hpos : 0 < generation) (hle : generation ≤ maxHandleGeneration) :
    Handle.new kind index generation =
      .ok { index, generation, generation_pos := hpos, generation_le := hle } := by
  unfold Handle.new
  rw [dif_pos hpos, dif_pos hle]

end Ayaka
