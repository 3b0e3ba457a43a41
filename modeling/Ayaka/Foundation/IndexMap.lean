import Mathlib

/-!
# Finite maps from indices

A registry that hands out increasing indices and never reuses one lists its
entries in index order, which is also the order they were entered in.  The map is
a function on indices with a bound past which it is empty.
-/

namespace Ayaka
namespace Foundation

variable {alpha : Type}

@[ext]
structure IndexMap (alpha : Type) where
  slot : Nat -> Option alpha
  bound : Nat
  slot_of_le : forall index, bound ≤ index -> slot index = none

namespace IndexMap

def empty : IndexMap alpha where
  slot := fun _ => none
  bound := 0
  slot_of_le := fun _ _ => rfl

section

variable (m : IndexMap alpha)

def put (index : Nat) (a : alpha) : IndexMap alpha where
  slot := Function.update m.slot index (some a)
  bound := max m.bound (index + 1)
  slot_of_le := by
    intro i hi
    rw [Function.update_of_ne (by omega)]
    exact m.slot_of_le i (by omega)

def remove (index : Nat) : IndexMap alpha where
  slot := Function.update m.slot index none
  bound := m.bound
  slot_of_le := by
    intro i hi
    by_cases h : i = index
    · rw [h, Function.update_self]
    · rw [Function.update_of_ne h]
      exact m.slot_of_le i hi

def modify (index : Nat) (f : alpha -> alpha) : IndexMap alpha where
  slot := Function.update m.slot index ((m.slot index).map f)
  bound := m.bound
  slot_of_le := by
    intro i hi
    by_cases h : i = index
    · rw [h, Function.update_self, m.slot_of_le index (by omega)]
      rfl
    · rw [Function.update_of_ne h]
      exact m.slot_of_le i hi

def values : List alpha :=
  (List.range m.bound).filterMap m.slot

def size : Nat :=
  m.values.length

end

@[simp] theorem slot_empty (index : Nat) : (empty : IndexMap alpha).slot index = none := rfl

section

variable (m : IndexMap alpha)

@[simp] theorem slot_put (index : Nat) (a : alpha) :
    (m.put index a).slot = Function.update m.slot index (some a) := rfl

@[simp] theorem slot_remove (index : Nat) :
    (m.remove index).slot = Function.update m.slot index none := rfl

@[simp] theorem slot_modify (index : Nat) (f : alpha -> alpha) :
    (m.modify index f).slot = Function.update m.slot index ((m.slot index).map f) := rfl

/-!
## Listing the entries
-/

theorem values_eq_of_bound_le {n : Nat} (h : m.bound ≤ n) :
    m.values = (List.range n).filterMap m.slot := by
  rcases Nat.exists_eq_add_of_le h with ⟨extra, rfl⟩
  have htail : ((List.range extra).map (m.bound + ·)).filterMap m.slot = [] := by
    rw [List.filterMap_eq_nil_iff]
    intro _ hi
    rcases List.mem_map.mp hi with ⟨j, _, rfl⟩
    exact m.slot_of_le _ (Nat.le_add_right _ _)
  rw [List.range_add, List.filterMap_append, htail, List.append_nil]
  rfl

end

/-- Only the slots decide the entries. -/
theorem values_congr {m n : IndexMap alpha} (h : m.slot = n.slot) : m.values = n.values := by
  rw [m.values_eq_of_bound_le (Nat.le_max_left m.bound n.bound),
    n.values_eq_of_bound_le (Nat.le_max_right m.bound n.bound), h]

/-- Slots that agree up to `f` list the same images. -/
theorem map_values_congr {beta : Type} {m n : IndexMap alpha} {f : alpha -> beta}
    (h : forall index, (m.slot index).map f = (n.slot index).map f) :
    m.values.map f = n.values.map f := by
  rw [m.values_eq_of_bound_le (Nat.le_max_left m.bound n.bound),
    n.values_eq_of_bound_le (Nat.le_max_right m.bound n.bound), List.map_filterMap,
    List.map_filterMap]
  exact List.filterMap_congr fun index _ => h index

variable {m : IndexMap alpha}

theorem lt_bound {index : Nat} {a : alpha} (h : m.slot index = some a) : index < m.bound := by
  by_contra hle
  rw [m.slot_of_le index (by omega)] at h
  cases h

theorem mem_values {a : alpha} : a ∈ m.values <-> exists index, m.slot index = some a := by
  unfold values
  rw [List.mem_filterMap]
  constructor
  · rintro ⟨index, _, h⟩
    exact ⟨index, h⟩
  · rintro ⟨index, h⟩
    exact ⟨index, List.mem_range.mpr (lt_bound h), h⟩

theorem perm_values {index : Nat} {a : alpha} (h : m.slot index = some a) :
    List.Perm m.values (a :: (m.remove index).values) := by
  have hmem : index ∈ List.range m.bound := List.mem_range.mpr (lt_bound h)
  have hrest : ((List.range m.bound).erase index).filterMap m.slot =
      ((List.range m.bound).erase index).filterMap (m.remove index).slot := by
    apply List.filterMap_congr
    intro _ hi
    rw [slot_remove, Function.update_of_ne]
    exact (List.nodup_range.mem_erase_iff.mp hi).1
  have hleft := (List.perm_cons_erase hmem).filterMap m.slot
  have hright := (List.perm_cons_erase hmem).filterMap (m.remove index).slot
  rw [List.filterMap_cons, h] at hleft
  rw [List.filterMap_cons, slot_remove, Function.update_self, <- slot_remove] at hright
  rw [hrest] at hleft
  exact hleft.trans (hright.symm.cons a)

theorem perm_values_put {index : Nat} (a : alpha) (h : m.slot index = none) :
    List.Perm (m.put index a).values (a :: m.values) := by
  have hslot : ((m.put index a).remove index).slot = m.slot := by
    rw [slot_remove, slot_put, Function.update_idem, <- h, Function.update_eq_self]
  have hself : (m.put index a).slot index = some a := Function.update_self ..
  have hperm := perm_values hself
  rw [values_congr hslot] at hperm
  exact hperm

end IndexMap
end Foundation
end Ayaka
