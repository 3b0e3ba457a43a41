import Ayaka.Foundation.Effect
import Ayaka.Executor.Failure

/-!
# The two-rank signal/epoch sum

Each rank launches the kernel of its next epoch on one communication stream, which
runs the kernels in order.  The kernel of epoch `e` stores its payload in slot `e % 2`
of the peer and increments the peer's signal; then it adds its own slot to the tensor
and writes `e` to the status word, or gives up and writes the timeout value.

The kernels up to `ended` have ended, the one after them has stored when `stored` is
ahead of `ended`, and the others up to `launched` wait in the stream.  A call that is
refused before its launch is not counted: call `i` is the one of epoch `i`.  Validation
of groups and tensors, captured graphs and closing are left out.
-/

namespace Ayaka
namespace SignalEpoch

open Foundation
open Executor (Failure)

def statusTimeout : Int := 0

def statusUnset : Int := -1

/-- One rank: the communicator, its workspace and its stream. -/
structure CustomAllReduce (group : Type) where
  epoch : Nat := 0
  /-- The epochs of `_pending`. -/
  pending : List Nat := []
  quarantined : Bool := false
  failure : String := ""
  exhausted : Bool := false
  launched : Nat := 0
  stored : Nat := 0
  ended : Nat := 0
  signal : Nat := 0
  status : Int := statusUnset
  slots : Nat -> group
  /-- The tensor of each call. -/
  tensors : Nat -> group
  /-- The epochs whose kernels have read their slots; no method looks at it. -/
  read : List Nat := []

namespace CustomAllReduce

variable {group : Type}

abbrev CommM (group : Type) := EStateM Failure (CustomAllReduce group)

/-! ## The communicator -/

def failClosed (reason : String) (s : CustomAllReduce group) : CustomAllReduce group :=
  if s.quarantined then s else { s with quarantined := true, failure := reason }

def hasEnded (s : CustomAllReduce group) (epoch : Nat) : Bool :=
  epoch ≤ s.ended

def belowEpoch (s : CustomAllReduce group) (epoch : Nat) : String :=
  "status " ++ toString s.status ++ " below epoch " ++ toString epoch

def failedCalls (s : CustomAllReduce group) : List Nat :=
  s.pending.filter fun epoch => s.hasEnded epoch && decide (s.status < epoch)

def reapCompleted : CommM group Unit := do
  let s <- get
  modify fun s => s.failedCalls.foldl (fun s' epoch => s'.failClosed (s.belowEpoch epoch))
    { s with pending := s.pending.filter fun epoch => !s.hasEnded epoch }
  if s.failedCalls ≠ [] then
    let s <- get
    throw (.runtimeError ("custom all-reduce failed after launch: " ++ s.failure))
  else
    pure ()

/-- How a launch ends: with a kernel in the stream, with an error before the stream was
entered, or with one after, when the kernel may be in the stream or not. -/
inductive Launch where
  | launched
  | preLaunch (exc : Failure)
  | postLaunch (name : String) (enqueued : Bool)
  deriving DecidableEq, Repr

/-- The launch of `all_reduce`; it returns the epoch of the handle. -/
def launch (epoch : Nat) : Launch -> CommM group Nat
  | .launched => do
    modify fun s => { s with
      launched := epoch
      epoch
      pending := s.pending ++ [epoch] }
    pure epoch
  | .preLaunch exc => throw exc
  | .postLaunch name enqueued => do
    modify fun s => failClosed name
      { s with launched := if enqueued then epoch else s.launched }
    throw (.runtimeError
      ("custom all-reduce launch failed after the stream was entered: " ++ name))

def quarantinedText (s : CustomAllReduce group) : String :=
  "custom all-reduce is quarantined after failure: " ++ s.failure

def allReduce (epochLimit : Nat) (outcome : Launch) : CommM group Nat := do
  reapCompleted
  let s <- get
  if s.quarantined = true then
    throw (.runtimeError s.quarantinedText)
  else if s.epoch + 1 > epochLimit then
    modify fun s => { s with exhausted := true }
    throw (.runtimeError ("custom all-reduce epoch limit " ++ toString epochLimit
      ++ " reached; the workspace is retired instead of wrapping"))
  else
    launch (s.epoch + 1) outcome

/-- `_join` of the handle of an epoch; an event that is not done by now is one the
watchdog has given up. -/
def join (epoch : Nat) : CommM group Unit := do
  let s <- get
  if s.quarantined = true then
    throw (.runtimeError s.quarantinedText)
  else if s.hasEnded epoch = false then
    modify (failClosed "host watchdog deadline exceeded")
    throw (.runtimeError "custom all-reduce exceeded its host watchdog deadline")
  else
    modify fun s => { s with pending := s.pending.filter fun call => call ≠ epoch }
    if s.status < epoch then
      modify fun s => s.failClosed (s.belowEpoch epoch)
      throw (.runtimeError ("custom all-reduce did not complete epoch "
        ++ toString epoch ++ " (status " ++ toString s.status ++ "); the group is failed"))
    else
      pure ()

def quarantine (s : CustomAllReduce group) : CustomAllReduce group :=
  { s with quarantined := true }

/-! ## The kernel -/

def Storing (s : CustomAllReduce group) (epoch : Nat) : Prop :=
  s.stored = s.ended ∧ epoch = s.ended + 1 ∧ epoch ≤ s.launched

def Waiting (s : CustomAllReduce group) (epoch : Nat) : Prop :=
  s.stored = s.ended + 1 ∧ epoch = s.ended + 1

instance (s : CustomAllReduce group) (epoch : Nat) : Decidable (s.Storing epoch) :=
  inferInstanceAs (Decidable (_ ∧ _))

instance (s : CustomAllReduce group) (epoch : Nat) : Decidable (s.Waiting epoch) :=
  inferInstanceAs (Decidable (_ ∧ _))

def receive (epoch : Nat) (value : group) (s : CustomAllReduce group) : CustomAllReduce group :=
  { s with
    slots := Function.update s.slots (epoch % 2) value
    signal := s.signal + 1 }

def finish [Add group] (epoch : Nat) (s : CustomAllReduce group) : CustomAllReduce group :=
  { s with
    ended := epoch
    tensors := Function.update s.tensors epoch (s.tensors epoch + s.slots (epoch % 2))
    status := epoch
    read := epoch :: s.read }

def giveUp (epoch : Nat) (s : CustomAllReduce group) : CustomAllReduce group :=
  { s with
    ended := epoch
    status := statusTimeout }

end CustomAllReduce

/-! ## Two ranks -/

open CustomAllReduce

/-- Both ranks; the peer of `r` is `!r`. -/
abbrev World (group : Type) := Bool -> CustomAllReduce group

inductive Action where
  | allReduce (rank : Bool) (outcome : Launch)
  | store (rank : Bool)
  | finish (rank : Bool)
  | giveUp (rank : Bool)
  | wait (rank : Bool) (epoch : Nat)
  | quarantine (rank : Bool)
  deriving DecidableEq, Repr

namespace World

variable {group : Type}

/-- The tensors hold the inputs; whatever the slots hold was not stored by a kernel. -/
def initial (input slots : Bool -> Nat -> group) : World group :=
  fun r => { slots := slots r, tensors := input r }

def set (w : World group) (r : Bool) (s : CustomAllReduce group) : World group :=
  Function.update w r s

def Issued (w : World group) (r : Bool) (epoch : Nat) : Prop :=
  1 ≤ epoch ∧ epoch ≤ (w r).epoch

instance (w : World group) (r : Bool) (epoch : Nat) : Decidable (w.Issued r epoch) :=
  inferInstanceAs (Decidable (_ ∧ _))

/-- The store of a kernel: one message to the peer. -/
def store (w : World group) (r : Bool) (epoch : Nat) : World group :=
  (w.set r { w r with stored := epoch }).set (!r) ((w !r).receive epoch ((w r).tensors epoch))

/-- An action whose moment has not come changes nothing. -/
def step [Add group] (epochLimit : Nat) (w : World group) : Action -> World group
  | .allReduce r outcome =>
    w.set r (finalState (CustomAllReduce.allReduce epochLimit outcome (w r)))
  | .store r =>
    if (w r).Storing ((w r).ended + 1) then w.store r ((w r).ended + 1) else w
  | .finish r =>
    if (w r).Waiting ((w r).ended + 1) ∧ (w r).ended + 1 ≤ (w r).signal then
      w.set r ((w r).finish ((w r).ended + 1))
    else
      w
  | .giveUp r =>
    if (w r).Waiting ((w r).ended + 1) then
      w.set r ((w r).giveUp ((w r).ended + 1))
    else
      w
  | .wait r epoch =>
    if w.Issued r epoch then w.set r (finalState (CustomAllReduce.join epoch (w r))) else w
  | .quarantine r => w.set r (w r).quarantine

def run [Add group] (epochLimit : Nat) (w : World group) (actions : List Action) : World group :=
  actions.foldl (step epochLimit) w

end World
end SignalEpoch
end Ayaka
