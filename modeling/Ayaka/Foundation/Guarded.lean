import Mathlib

/-!
# Runs of guarded steps

A run is a fold of a step function over a list of calls.  A run is guarded when
each call meets a condition in the state it is made in.  What guarded steps
preserve holds in every state a guarded run reaches.
-/

namespace Ayaka
namespace Foundation

variable {state call : Type} (step : state -> call -> state) (meets : state -> call -> Prop)

def Guarded : state -> List call -> Prop
  | _, [] => True
  | s, c :: rest => meets s c ∧ Guarded (step s c) rest

variable {step meets} {inv : state -> Prop}

section

variable (hstep : forall s c, inv s -> meets s c -> inv (step s c)) {s : state} (hs : inv s)
include hstep hs

/-- A guarded run reaches states of the invariant only, and stays guarded from each. -/
theorem Guarded.invariant {before after} (h : Guarded step meets s (before ++ after)) :
    inv (before.foldl step s) ∧ Guarded step meets (before.foldl step s) after := by
  induction before generalizing s with
  | nil => exact ⟨hs, h⟩
  | cons c rest ih => exact ih (hstep s c hs h.1) h.2

theorem Guarded.final {calls} (h : Guarded step meets s calls) : inv (calls.foldl step s) := by
  rw [<- List.append_nil calls] at h
  exact (h.invariant hstep hs).1

end

/-- What every step preserves holds at the end of every run. -/
theorem foldl_invariant (hstep : forall s c, inv s -> inv (step s c)) {s : state} (hs : inv s)
    (calls : List call) : inv (calls.foldl step s) := by
  induction calls generalizing s with
  | nil => exact hs
  | cons c rest ih => exact ih (hstep s c hs)

end Foundation
end Ayaka
