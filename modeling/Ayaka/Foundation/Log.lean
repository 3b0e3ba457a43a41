import Mathlib

/-!
# Logs

A log lists what happened, the latest entry first.  A property of an entry may speak
of everything that was logged before it.
-/

namespace Ayaka
namespace Foundation

variable {event : Type} {holds : event -> List event -> Prop}

def Entries (holds : event -> List event -> Prop) : List event -> Prop
  | [] => True
  | e :: earlier => holds e earlier ∧ Entries holds earlier

theorem Entries.entry {later earlier} {e : event}
    (h : Entries holds (later ++ e :: earlier)) : holds e earlier := by
  induction later with
  | nil => exact h.1
  | cons _ rest ih => exact ih h.2

/-- Every entry has the property together with some of the other entries. -/
theorem Entries.of_mem {log} {e : event} (h : Entries holds log) (he : e ∈ log) :
    exists earlier, holds e earlier ∧ forall x, x ∈ earlier -> x ∈ log := by
  rcases List.append_of_mem he with ⟨_, earlier, hlog⟩
  rw [hlog] at h ⊢
  exact ⟨earlier, h.entry, fun x hx => List.mem_append_right _ (List.mem_cons_of_mem _ hx)⟩

end Foundation
end Ayaka
