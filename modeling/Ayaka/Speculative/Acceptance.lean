import Ayaka.Foundation.Effect
import Ayaka.Executor.Failure

/-!
# Greedy acceptance

A verified draft keeps its longest prefix that the target model chose as well, and
one more token of the target: the correction of the first draft that differs, or a
bonus after all of them.  There are two forms.  The scalar one is a loop over one
draft; the batched one works on padded tensors and counts with a running product.
-/

namespace Ayaka
namespace Speculative

open Foundation
open Executor (Failure reject)

/-! ## One draft -/

structure Acceptance where
  tokens : List Int
  accepted : Nat
  deriving DecidableEq, Repr

/-- The loop of `accept_greedy`; it breaks at the first difference. -/
def countAccepted : List Int -> List Int -> Nat
  | draft :: candidates, target :: targets =>
    if draft ≠ target then 0 else countAccepted candidates targets + 1
  | _, _ => 0

def acceptGreedy (candidates targetTokens : List Int) : Except Failure Acceptance := do
  reject (targetTokens.length ≠ candidates.length + 1)
    (.valueError "verification needs candidate rows plus a bonus row")
  let accepted := countAccepted candidates targetTokens
  match targetTokens[accepted]? with
  | none => throw (.indexError "tuple index out of range")
  | some target => pure { tokens := candidates.take accepted ++ [target], accepted }

theorem countAccepted_le (candidates targets : List Int) :
    countAccepted candidates targets ≤ candidates.length := by
  induction candidates generalizing targets with
  | nil => exact Nat.le_refl 0
  | cons draft rest ih =>
    cases targets with
    | nil => exact Nat.zero_le _
    | cons target targets =>
      unfold countAccepted
      split
      · exact Nat.zero_le _
      · exact Nat.succ_le_succ (ih targets)

def gather (row : List Int) (index : Nat) : Int :=
  row.getD index (-1)

theorem acceptGreedy_eq (h : targets.length = candidates.length + 1) :
    acceptGreedy candidates targets = .ok
      { tokens := candidates.take (countAccepted candidates targets)
          ++ [gather targets (countAccepted candidates targets)]
        accepted := countAccepted candidates targets } := by
  have hlt : countAccepted candidates targets < targets.length := by
    rw [h]
    exact Nat.lt_succ_of_le (countAccepted_le candidates targets)
  have hget : targets[countAccepted candidates targets]?
      = some (gather targets (countAccepted candidates targets)) := by
    rw [gather, List.getD_eq_getElem _ _ hlt, List.getElem?_eq_getElem hlt]
  unfold acceptGreedy
  rw [Executor.check_bind_eq_ok_iff]
  refine ⟨Executor.reject_eq_ok_iff.mpr (not_not.mpr h), ?_⟩
  dsimp only
  rw [hget]
  rfl

/-! ## Padded batches -/

structure Tensor2 where
  width : Nat
  rows : List (List Int)
  shaped : forall row, row ∈ rows -> row.length = width

namespace Tensor2

/-- `torch.tensor` of nested sequences: not of ragged ones. -/
def ofRows (width : Nat) (rows : List (List Int)) : Except Failure Tensor2 :=
  if h : forall row, row ∈ rows -> row.length = width then
    .ok { width, rows, shaped := h }
  else
    .error (.valueError "expected sequences of one length")

end Tensor2

/-- `matches`, one for a match. -/
def matchRow (drafts targets : List Int) : List Nat :=
  List.zipWith (fun draft target => if draft = target then 1 else 0) drafts targets

/-- `torch.cumprod` of a row, from what was multiplied before. -/
def cumprod : Nat -> List Nat -> List Nat
  | _, [] => []
  | acc, x :: rest => (acc * x) :: cumprod (acc * x) rest

def greedyAccept (drafts targets : Tensor2) : Except Failure (List Nat × List Int) := do
  reject (targets.rows.length ≠ drafts.rows.length ∨ targets.width ≠ drafts.width + 1)
    (.valueError "targets must have exactly one more column than drafts")
  if drafts.width = 0 then
    pure (List.replicate drafts.rows.length 0, targets.rows.map fun row => gather row 0)
  else
    let width := drafts.width
    let accepted := List.zipWith
      (fun draft target => (cumprod 1 (matchRow draft (target.take width))).sum)
      drafts.rows targets.rows
    pure (accepted, List.zipWith gather targets.rows accepted)

theorem sum_cumprod_zero (row : List Nat) : (cumprod 0 row).sum = 0 := by
  induction row with
  | nil => rfl
  | cons x rest ih =>
    rw [cumprod, Nat.zero_mul, List.sum_cons, ih]

/-- The running product is one up to the first difference and zero from there. -/
theorem sum_cumprod_matchRow (drafts targets : List Int) :
    (cumprod 1 (matchRow drafts targets)).sum = countAccepted drafts targets := by
  induction drafts generalizing targets with
  | nil => rfl
  | cons draft rest ih =>
    cases targets with
    | nil => rfl
    | cons target targets =>
      unfold matchRow countAccepted
      rw [List.zipWith_cons_cons]
      by_cases heq : draft = target
      · rw [if_pos heq, if_neg (not_not.mpr heq), cumprod, List.sum_cons, Nat.mul_one]
        have hrest := ih targets
        unfold matchRow at hrest
        rw [hrest, Nat.add_comm]
      · rw [if_neg heq, if_pos heq, cumprod, List.sum_cons, Nat.mul_zero, sum_cumprod_zero]

theorem countAccepted_take (h : drafts.length = width) (targets : List Int) :
    countAccepted drafts (targets.take width) = countAccepted drafts targets := by
  rw [<- h]
  clear h
  induction drafts generalizing targets with
  | nil => rfl
  | cons draft rest ih =>
    cases targets with
    | nil => rfl
    | cons target targets =>
      rw [List.length_cons, List.take_succ_cons, countAccepted, countAccepted, ih]

def padded (width : Nat) (pad : Int) (row : List Int) : List Int :=
  row ++ List.replicate (width - row.length) pad

theorem length_padded (pad : Int) (h : row.length ≤ width) :
    (padded width pad row).length = width := by
  rw [padded, List.length_append, List.length_replicate, Nat.add_sub_cancel' h]

/-- A pad that is no token rejects: the row past the draft holds the bonus token. -/
theorem countAccepted_append (more others : List Int)
    (h : targets.length = candidates.length + 1) (hmore : forall pad, pad ∈ more -> pad = -1)
    (htokens : forall token, token ∈ targets -> 0 ≤ token) :
    countAccepted (candidates ++ more) (targets ++ others) = countAccepted candidates targets := by
  induction candidates generalizing targets with
  | nil =>
    cases targets with
    | nil => cases h
    | cons bonus rest =>
      cases more with
      | nil => rfl
      | cons pad more =>
        have hpad := hmore pad List.mem_cons_self
        have hbonus := htokens bonus List.mem_cons_self
        have hne : pad ≠ bonus := by
          intro heq
          rw [<- heq, hpad] at hbonus
          exact absurd hbonus (by decide)
        show (if pad ≠ bonus then 0 else _) = 0
        rw [if_pos hne]
  | cons draft rest ih =>
    cases targets with
    | nil => cases h
    | cons target targets =>
      have hrest := ih (Nat.succ.inj h) fun token htoken =>
        htokens token (List.mem_cons_of_mem _ htoken)
      rw [List.cons_append, List.cons_append, countAccepted, countAccepted, hrest]

/-- A draft and the choices of the target along it. -/
structure Verified where
  candidates : List Int
  targets : List Int
  bonus : targets.length = candidates.length + 1
  isToken : forall token, token ∈ targets -> 0 ≤ token

namespace Verified

def accepted (v : Verified) : Nat :=
  countAccepted v.candidates v.targets

def final (v : Verified) : Int :=
  gather v.targets v.accepted

theorem acceptGreedy (v : Verified) :
    Speculative.acceptGreedy v.candidates v.targets = .ok
      { tokens := v.candidates.take v.accepted ++ [v.final], accepted := v.accepted } :=
  acceptGreedy_eq v.bonus

theorem countAccepted_padded (v : Verified) (width : Nat) :
    countAccepted (padded width (-1) v.candidates) (padded (width + 1) (-1) v.targets)
      = v.accepted :=
  countAccepted_append _ _ v.bonus (fun _ hpad => List.eq_of_mem_replicate hpad) v.isToken

theorem gather_padded (v : Verified) (width : Nat) :
    gather (padded width (-1) v.targets) v.accepted = v.final := by
  have hlt : v.accepted < v.targets.length := by
    rw [v.bonus]
    exact Nat.lt_succ_of_le (countAccepted_le v.candidates v.targets)
  unfold final gather padded
  rw [List.getD_append _ _ _ _ hlt]

end Verified

/-- A batch of drafts, padded to the longest, is accepted as each draft is alone. -/
theorem greedyAccept_padded (batch : List Verified)
    (hdrafts : drafts.rows = batch.map fun v => padded drafts.width (-1) v.candidates)
    (htargets : targets.rows = batch.map fun v => padded (drafts.width + 1) (-1) v.targets)
    (hwidth : targets.width = drafts.width + 1) :
    greedyAccept drafts targets = .ok (batch.map Verified.accepted, batch.map Verified.final) := by
  have hrow : forall v, v ∈ batch ->
      (padded drafts.width (-1) v.candidates).length = drafts.width := by
    intro v hv
    apply drafts.shaped
    rw [hdrafts]
    exact List.mem_map_of_mem hv
  have hshape : ¬ (targets.rows.length ≠ drafts.rows.length
      ∨ targets.width ≠ drafts.width + 1) := by
    rw [hdrafts, htargets, List.length_map, List.length_map]
    simp only [ne_eq, not_true_eq_false, hwidth, or_self, not_false_eq_true]
  unfold greedyAccept
  rw [Executor.check_bind_eq_ok_iff]
  refine ⟨Executor.reject_eq_ok_iff.mpr hshape, ?_⟩
  by_cases hzero : drafts.width = 0
  · -- without columns every draft is empty and the bonus token is the first
    have hnone : forall v, v ∈ batch -> v.accepted = 0 := by
      intro v hv
      have hlength := hrow v hv
      rw [hzero, padded, List.length_append] at hlength
      exact Nat.le_zero.mp (Nat.le_trans (countAccepted_le _ _) (by omega))
    rw [if_pos hzero, hdrafts, htargets, List.length_map, List.map_map]
    refine congrArg Except.ok (Prod.ext ?_ ?_)
    · exact (List.eq_replicate_iff.mpr ⟨List.length_map .., fun n hn => by
        rcases List.mem_map.mp hn with ⟨v, hv, rfl⟩
        exact hnone v hv⟩).symm
    · refine List.map_congr_left fun v hv => ?_
      show gather _ 0 = v.final
      rw [<- v.gather_padded (drafts.width + 1), hnone v hv]
  · rw [if_neg hzero, hdrafts, htargets]
    have haccepted : List.zipWith
        (fun draft target => (cumprod 1 (matchRow draft (target.take drafts.width))).sum)
        (batch.map fun v => padded drafts.width (-1) v.candidates)
        (batch.map fun v => padded (drafts.width + 1) (-1) v.targets)
        = batch.map Verified.accepted := by
      rw [List.zipWith_map, List.zipWith_self]
      refine List.map_congr_left fun v hv => ?_
      rw [sum_cumprod_matchRow, countAccepted_take (hrow v hv), v.countAccepted_padded]
    dsimp only
    rw [haccepted, List.zipWith_map, List.zipWith_self]
    refine congrArg Except.ok (Prod.ext rfl ?_)
    exact List.map_congr_left fun v _ => v.gather_padded _

/-- A batch padded to a width none of its drafts exceeds. -/
structure PaddedBatch where
  batch : List Verified
  width : Nat
  fits : forall v, v ∈ batch -> v.candidates.length ≤ width

namespace PaddedBatch

def drafts (b : PaddedBatch) : Tensor2 where
  width := b.width
  rows := b.batch.map fun v => padded b.width (-1) v.candidates
  shaped := fun row hrow => by
    rcases List.mem_map.mp hrow with ⟨v, hv, rfl⟩
    exact length_padded _ (b.fits v hv)

def targets (b : PaddedBatch) : Tensor2 where
  width := b.width + 1
  rows := b.batch.map fun v => padded (b.width + 1) (-1) v.targets
  shaped := fun row hrow => by
    rcases List.mem_map.mp hrow with ⟨v, hv, rfl⟩
    apply length_padded
    rw [v.bonus]
    exact Nat.succ_le_succ (b.fits v hv)

end PaddedBatch

end Speculative
end Ayaka
