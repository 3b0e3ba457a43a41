import Mathlib

/-!
# Rounding to multiples

The planning code rounds with `align_up` and `align_down`, the retention code divides
with `div_ceil`.  Their checks of the arguments never answer there.
-/

namespace Ayaka
namespace MathUtils

def alignUp (value alignment : Nat) : Nat :=
  (value + alignment - 1) / alignment * alignment

def alignDown (value alignment : Nat) : Nat :=
  value / alignment * alignment

def divCeil (a b : Int) : Int :=
  -(-a / b)

theorem dvd_alignUp (value alignment : Nat) : alignment ∣ alignUp value alignment :=
  Dvd.intro_left _ rfl

/-- Padded tokens fit when the tokens fit below the last whole block. -/
theorem alignUp_le_iff (hpos : 0 < multiple) :
    alignUp value multiple ≤ limit <-> value ≤ alignDown limit multiple := by
  unfold alignUp alignDown
  rw [<- Nat.le_div_iff_mul_le hpos, <- Nat.lt_succ_iff, Nat.div_lt_iff_lt_mul hpos, Nat.succ_mul]
  omega

theorem le_alignUp (h : 0 < alignment) : value ≤ alignUp value alignment :=
  ((alignUp_le_iff h).mp (Nat.le_refl _)).trans (Nat.div_mul_le_self ..)

theorem alignUp_eq_self_iff (h : 0 < alignment) :
    alignUp value alignment = value <-> alignment ∣ value := by
  constructor
  · intro heq
    rw [<- heq]
    exact dvd_alignUp value alignment
  · intro hdvd
    have hdown : alignDown value alignment = value := Nat.div_mul_cancel hdvd
    exact Nat.le_antisymm ((alignUp_le_iff h).mpr hdown.ge) (le_alignUp h)

theorem divCeil_eq {a size : Int} (hsize : 1 ≤ size) :
    divCeil a size = (a + size - 1) / size := by
  unfold divCeil
  have hlow := Int.emod_nonneg (-a) (Int.ne_of_gt hsize)
  have hhigh := Int.emod_lt_of_pos (-a) hsize
  have hsplit := Int.mul_ediv_add_emod (-a) size
  refine (Int.ediv_emod_unique hsize (r := size - 1 - -a % size) |>.mpr ?_).1.symm
  refine ⟨?_, by omega, by omega⟩
  rw [Int.mul_neg]
  omega

end MathUtils
end Ayaka
