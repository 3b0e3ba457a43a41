import Mathlib

/-!
# In-order work queues

A device queue runs what is enqueued on it in order and on its own time.  The host
learns how far it came only through events: an event marks a position of the
queue, and asking it says whether everything before that position has finished.
-/

namespace Ayaka
namespace Foundation

@[ext]
structure Stream (op : Type) where
  enqueued : List op
  completed : Nat
  completed_le : completed ≤ enqueued.length

namespace Stream

variable {op : Type}

def empty : Stream op where
  enqueued := []
  completed := 0
  completed_le := Nat.le_refl 0

section

variable (s : Stream op)

def push (x : op) : Stream op where
  enqueued := s.enqueued ++ [x]
  completed := s.completed
  completed_le := by
    rw [List.length_append]
    exact Nat.le_add_right_of_le s.completed_le

def advance (n : Nat) : Stream op where
  enqueued := s.enqueued
  completed := min (s.completed + n) s.enqueued.length
  completed_le := Nat.min_le_right _ _

/-- An event recorded now covers all that is enqueued. -/
def record : Nat :=
  s.enqueued.length

def query (event : Nat) : Bool :=
  decide (event ≤ s.completed)

def Pending (position : Nat) (x : op) : Prop :=
  s.enqueued[position]? = some x ∧ s.completed ≤ position

def Quiet : Prop :=
  s.completed = s.enqueued.length

end

instance (s : Stream op) : Decidable s.Quiet :=
  inferInstanceAs (Decidable (s.completed = s.enqueued.length))

variable {s : Stream op} {position : Nat} {x : op}

theorem quiet_iff : s.Quiet <-> forall position x, ¬ s.Pending position x := by
  constructor
  · rintro hquiet position x ⟨hx, _⟩
    have hlt := (List.getElem?_eq_some_iff.mp hx).1
    rw [Quiet] at hquiet
    omega
  · intro hnone
    by_contra hloud
    have hlt : s.completed < s.enqueued.length :=
      Nat.lt_of_le_of_ne s.completed_le hloud
    exact hnone s.completed (s.enqueued[s.completed]) ⟨List.getElem?_eq_getElem hlt, Nat.le_refl _⟩

theorem Pending.of_advance {n : Nat} (h : (s.advance n).Pending position x) :
    s.Pending position x := by
  rcases h with ⟨hx, hle⟩
  have _ : position < s.enqueued.length := (List.getElem?_eq_some_iff.mp hx).1
  have hmin : min (s.completed + n) s.enqueued.length ≤ position := hle
  exact ⟨hx, by omega⟩

theorem Pending.of_push {y : op} (h : (s.push y).Pending position x) :
    s.Pending position x ∨ (x = y ∧ position = s.record) := by
  rcases h with ⟨hx, hle⟩
  have hpushed : (s.enqueued ++ [y])[position]? = some x := hx
  rcases Nat.lt_or_ge position s.enqueued.length with hlt | hge
  · rw [List.getElem?_append_left hlt] at hpushed
    exact .inl ⟨hpushed, hle⟩
  · rw [List.getElem?_append_right hge] at hpushed
    have hlast := List.getElem?_eq_some_iff.mp hpushed
    rcases hlast with ⟨hlt, hget⟩
    rw [List.length_singleton] at hlt
    refine .inr ⟨?_, by unfold record; omega⟩
    rw [<- hget, List.getElem_singleton]

theorem Pending.lt_record (h : s.Pending position x) : position < s.record :=
  (List.getElem?_eq_some_iff.mp h.1).1

/-- An event that answers yes covers nothing that is still pending. -/
theorem Pending.le_of_query {event : Nat} (h : s.Pending position x)
    (hquery : s.query event = true) :
    event ≤ position :=
  Nat.le_trans (of_decide_eq_true hquery) h.2

def pushAll (s : Stream op) (xs : List op) : Stream op :=
  xs.foldl push s

theorem pushAll_cons (s : Stream op) (x : op) (xs : List op) :
    s.pushAll (x :: xs) = (s.push x).pushAll xs := rfl

/-- What is pending after a batch was pending before it or belongs to it. -/
theorem Pending.of_pushAll {xs : List op} (h : (s.pushAll xs).Pending position x) :
    s.Pending position x ∨ x ∈ xs := by
  induction xs generalizing s with
  | nil => exact .inl h
  | cons y rest ih =>
    rw [pushAll_cons] at h
    rcases ih h with hbefore | hmem
    · rcases hbefore.of_push with hold | ⟨rfl, _⟩
      · exact .inl hold
      · exact .inr (List.mem_cons_self)
    · exact .inr (List.mem_cons_of_mem _ hmem)

end Stream
end Foundation
end Ayaka
