import Mathlib

/-!
# Concatenations of numbered chunks

Chunk `r` of a concatenation starts at `start r`, a running sum of the lengths, and
entry `start r + i` of the whole is entry `i` of that chunk.
-/

namespace Ayaka
namespace Foundation
namespace Chunks

variable {alpha : Type} {chunk : Nat -> List alpha} {start : Nat -> Nat}

structure Running (chunk : Nat -> List alpha) (start : Nat -> Nat) : Prop where
  zero : start 0 = 0
  succ : forall r, start (r + 1) = start r + (chunk r).length

theorem range_succ_flatMap (count : Nat) :
    (List.range (count + 1)).flatMap chunk = (List.range count).flatMap chunk ++ chunk count := by
  rw [List.range_succ, List.flatMap_append, List.flatMap_singleton]

theorem Running.length_flatMap (h : Running chunk start) (count : Nat) :
    ((List.range count).flatMap chunk).length = start count := by
  induction count with
  | zero => rw [h.zero]; rfl
  | succ count ih =>
    rw [range_succ_flatMap, List.length_append, ih, h.succ]

theorem Running.getElem?_flatMap (h : Running chunk start) {count r i : Nat} (hr : r < count)
    (hi : i < (chunk r).length) :
    ((List.range count).flatMap chunk)[start r + i]? = (chunk r)[i]? := by
  induction count with
  | zero => exact absurd hr (Nat.not_lt_zero r)
  | succ count ih =>
    rw [range_succ_flatMap]
    rcases Nat.lt_succ_iff_lt_or_eq.mp hr with hlt | heq
    · have hinside := ih hlt
      have hbound : start r + i < ((List.range count).flatMap chunk).length :=
        (List.getElem?_eq_some_iff.mp (hinside.trans (List.getElem?_eq_getElem hi))).1
      rw [List.getElem?_append_left hbound, hinside]
    · subst heq
      rw [List.getElem?_append_right (by rw [h.length_flatMap]; exact Nat.le_add_right _ _),
        h.length_flatMap, Nat.add_sub_cancel_left]

end Chunks
end Foundation
end Ayaka
