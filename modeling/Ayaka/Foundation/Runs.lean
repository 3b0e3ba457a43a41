import Mathlib

/-!
# Longest runs

Walking a list from the left, the length of the run of elements with a property that
ends here, and the longest such run so far.
-/

namespace Ayaka
namespace Foundation

variable {alpha : Type}

section

variable (held : alpha -> Bool)
include held

def runStep (runs : Nat × Nat) (x : alpha) : Nat × Nat :=
  if held x then (runs.1 + 1, max runs.2 (runs.1 + 1)) else (0, runs.2)

/-- The length of the run that ends with the list, and of a longest run in it. -/
def runLengths (xs : List alpha) : Nat × Nat :=
  xs.foldl (runStep held) (0, 0)

def IsRun (xs run : List alpha) : Prop :=
  run <:+: xs ∧ forall x, x ∈ run -> held x = true

theorem runLengths_concat (xs : List alpha) (x : alpha) :
    runLengths held (xs ++ [x]) = runStep held (runLengths held xs) x := by
  unfold runLengths
  rw [List.foldl_append]
  rfl

end

/-- What the two lengths say of the list. -/
structure RunsOf (held : alpha -> Bool) (xs : List alpha) (runs : Nat × Nat) : Prop where
  last : exists run, run <:+ xs ∧ (forall x, x ∈ run -> held x = true) ∧ run.length = runs.1
  last_le : forall run, run <:+ xs -> (forall x, x ∈ run -> held x = true) ->
    run.length ≤ runs.1
  longest : exists run, IsRun held xs run ∧ run.length = runs.2
  longest_le : forall run, IsRun held xs run -> run.length ≤ runs.2

theorem RunsOf.concat {held : alpha -> Bool} {xs runs}
    (h : RunsOf held xs runs) (x : alpha) : RunsOf held (xs ++ [x]) (runStep held runs x) := by
  have hsuffix : forall run, run <:+ xs ++ [x] -> (forall y, y ∈ run -> held y = true) ->
      run.length ≤ (runStep held runs x).1 := by
    intro run hrun hall
    rcases List.suffix_concat_iff.mp hrun with rfl | ⟨front, rfl, hfront⟩
    · exact Nat.zero_le _
    · have hx := hall x (by simp)
      have hle := h.last_le front hfront fun y hy => hall y (by simp [hy])
      simpa [runStep, hx] using hle
  rcases h.last with ⟨last, hlast, hlastHeld, hlastLength⟩
  rcases h.longest with ⟨longest, hlongest, hlongestLength⟩
  have hold : IsRun held (xs ++ [x]) longest :=
    ⟨hlongest.1.trans (List.prefix_append xs [x]).isInfix, hlongest.2⟩
  have hnew : exists run, run <:+ xs ++ [x] ∧ (forall y, y ∈ run -> held y = true) ∧
      run.length = (runStep held runs x).1 := by
    cases hx : held x with
    | true =>
      refine ⟨last ++ [x], List.suffix_concat_iff.mpr (.inr ⟨last, rfl, hlast⟩), ?_, ?_⟩
      · intro y hy
        rcases List.mem_append.mp hy with hy | hy
        · exact hlastHeld y hy
        · rw [List.mem_singleton.mp hy]
          exact hx
      · simp [runStep, hx, hlastLength]
    | false => exact ⟨[], List.nil_suffix, by simp, by simp [runStep, hx]⟩
  refine ⟨hnew, hsuffix, ?_, ?_⟩
  · rcases hnew with ⟨run, hrun, hall, hlength⟩
    cases hx : held x with
    | true =>
      by_cases hmore : runs.2 ≤ runs.1 + 1
      · refine ⟨run, ⟨hrun.isInfix, hall⟩, ?_⟩
        rw [hlength]
        simp [runStep, hx, hmore]
      · refine ⟨longest, hold, ?_⟩
        rw [hlongestLength]
        simp only [runStep, hx, if_true]
        omega
    | false => exact ⟨longest, hold, by simp [runStep, hx, hlongestLength]⟩
  · intro run hrun
    have hgrow : runs.2 ≤ (runStep held runs x).2 ∧
        (runStep held runs x).1 ≤ (runStep held runs x).2 := by
      unfold runStep
      split
      · exact ⟨Nat.le_max_left _ _, Nat.le_max_right _ _⟩
      · exact ⟨Nat.le_refl _, Nat.zero_le _⟩
    rcases List.infix_concat_iff.mp hrun.1 with hlastRun | hinside
    · exact (hsuffix run hlastRun hrun.2).trans hgrow.2
    · exact (h.longest_le run ⟨hinside, hrun.2⟩).trans hgrow.1

section

variable (held : alpha -> Bool)
include held

theorem runLengths_spec (xs : List alpha) : RunsOf held xs (runLengths held xs) := by
  induction xs using List.reverseRecOn with
  | nil =>
    refine ⟨⟨[], List.nil_suffix, by simp, rfl⟩, ?_, ⟨[], ⟨List.nil_infix, by simp⟩, rfl⟩, ?_⟩
    · intro run hrun _
      rw [List.suffix_nil.mp hrun]
      exact Nat.le_refl _
    · intro run hrun
      rw [List.infix_nil.mp hrun.1]
      exact Nat.le_refl _
  | append_singleton xs x ih =>
    rw [runLengths_concat]
    exact ih.concat x

theorem front_le_longestRun (xs : List alpha) :
    (xs.takeWhile held).length ≤ (runLengths held xs).2 := by
  refine (runLengths_spec held xs).longest_le _ ⟨(List.takeWhile_prefix held).isInfix, ?_⟩
  intro _ hx
  exact List.mem_takeWhile_imp hx

theorem longestRun_eq_front_iff (xs : List alpha) :
    (runLengths held xs).2 = (xs.takeWhile held).length <->
      forall run, IsRun held xs run -> run.length ≤ (xs.takeWhile held).length := by
  have hspec := runLengths_spec held xs
  constructor
  · intro heq run hrun
    rw [<- heq]
    exact hspec.longest_le run hrun
  · intro hall
    rcases hspec.longest with ⟨run, hrun, hlength⟩
    apply Nat.le_antisymm
    · rw [<- hlength]
      exact hall run hrun
    · exact front_le_longestRun held xs

end

end Foundation
end Ayaka
