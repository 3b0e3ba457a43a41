import Ayaka.Executor.Failure

/-!
# Greedy winners under allow-bitmasks

Mask row `k` constrains logits row `row_indices[k]`, and a token it does not allow
becomes `NEG_INF`.  A batch that only wants the best token of each row may skip the
masking: the winners of the raw logits are looked up in the masks and returned if
all of them are allowed.  The lookup reads for logits row `b` the mask row
`row_indices[b]`, the map in its other direction, so it finds the right masks only
where the map is its own inverse.
-/

namespace Ayaka
namespace Sampling

open Executor (Failure)

/-- Packed allow-bitmasks, one bit a token and 32 bits a word. -/
structure AllowMasks (rows vocab : Nat) where
  words : Nat
  entry : Fin rows -> Fin words -> BitVec 32
  wide : vocab ≤ 32 * words

variable {value : Type} [LinearOrder value] {n batch vocab : Nat}

namespace AllowMasks

theorem word_lt (masks : AllowMasks n vocab) (token : Fin vocab) :
    (token : Nat) / 32 < masks.words := by
  have := masks.wide
  have := token.isLt
  omega

def allows (masks : AllowMasks n vocab) (k : Fin n) (token : Fin vocab) : Bool :=
  (masks.entry k ⟨token / 32, masks.word_lt token⟩).getLsbD (token % 32)

def rowsFullyMasked (masks : AllowMasks n vocab) (k : Fin n) : Bool :=
  decide (forall w, masks.entry k w = 0)

theorem not_fullyMasked_of_allows {masks : AllowMasks n vocab} {k : Fin n} {token : Fin vocab}
    (h : masks.allows k token = true) : masks.rowsFullyMasked k = false := by
  refine decide_eq_false fun hzero => ?_
  unfold allows at h
  rw [hzero] at h
  exact Bool.false_ne_true (BitVec.getLsbD_zero.symm.trans h)

end AllowMasks

section

variable [OrderBot value] (logits : Fin batch -> Fin vocab -> value) (masks : AllowMasks n vocab)
  (rowIndices : Fin n ↪ Fin batch)

def applyReference (b : Fin batch) (token : Fin vocab) : value :=
  match Fin.find? fun k => decide (rowIndices k = b) with
  | some k => if masks.allows k token then logits b token else ⊥
  | none => logits b token

/-- `apply_allow_bitmask_`, with the logits it leaves behind. -/
def applyAllowBitmask : Except Failure (Fin batch -> Fin vocab -> value) :=
  match Fin.find? masks.rowsFullyMasked with
  | some k => throw (.valueError ("mask row " ++ toString k ++ " allows no token. "
      ++ "The producer must fail closed to EOS; leaving it would yield NaN after softmax."))
  | none => pure (applyReference logits masks rowIndices)

end

variable [NeZero vocab]

def argmax (row : Fin vocab -> value) : Fin vocab :=
  (Fin.find? fun i => decide (forall j, row j ≤ row i)).getD 0

/-- `_greedy_winner_with_mask_check`: `index_select` takes a mask row for each entry of
`row_indices`, and `gather` wants one for every winner. -/
def greedyWinnerWithMaskCheck (logits : Fin batch -> Fin vocab -> value)
    (masks : AllowMasks n vocab) (rowIndices : Fin n ↪ Fin batch) :
    Except Failure (Option (Fin batch -> Fin vocab)) :=
  let winner := fun b => argmax (logits b)
  if hselect : forall k, (rowIndices k : Nat) < n then
    if hgather : batch ≤ n then
      let sel := fun b : Fin batch => rowIndices ⟨b, b.isLt.trans_le hgather⟩
      if forall b, masks.allows ⟨sel b, hselect _⟩ (winner b) then pure (some winner)
      else pure none
    else
      throw (.runtimeError "Size does not match at dimension 0")
  else
    throw (.indexError "index out of range in self")

/-! ## The best token of a row -/

theorem argmax_eq_iff {row : Fin vocab -> value} :
    argmax row = i <-> (forall j, row j ≤ row i) ∧ forall j, j < i -> row j < row i := by
  have hfirst : forall i, (Fin.find? fun i => decide (forall j, row j ≤ row i)) = some i <->
      (forall j, row j ≤ row i) ∧ forall j, j < i -> row j < row i := by
    intro i
    rw [Fin.find?_eq_some_iff, decide_eq_true_iff]
    refine and_congr_right fun hmax => forall₂_congr fun j _ => ?_
    rw [decide_eq_false_iff_not]
    constructor
    · intro hnot
      exact lt_of_le_of_ne (hmax j) fun heq => hnot (heq ▸ hmax)
    · intro hlt hall
      exact absurd (hall i) (not_le_of_gt hlt)
  rcases Finite.exists_max row with ⟨top, htop⟩
  have hsome : (Fin.find? fun i => decide (forall j, row j ≤ row i)).isSome = true :=
    Fin.isSome_find?_iff.mpr ⟨top, decide_eq_true htop⟩
  rcases Option.isSome_iff_exists.mp hsome with ⟨_, hfound⟩
  rw [<- hfirst i]
  unfold argmax
  rw [hfound, Option.getD_some, Option.some_inj]

theorem argmax_max (row : Fin vocab -> value) (j : Fin vocab) : row j ≤ row (argmax row) :=
  (argmax_eq_iff.mp rfl).1 j

/-- Lowering other values keeps the winner. -/
theorem argmax_of_le {row lowered : Fin vocab -> value} (hle : forall j, lowered j ≤ row j)
    (hkept : lowered (argmax row) = row (argmax row)) : argmax lowered = argmax row := by
  rw [argmax_eq_iff, hkept]
  exact ⟨fun j => (hle j).trans (argmax_max row j),
    fun j hj => (hle j).trans_lt ((argmax_eq_iff.mp rfl).2 j hj)⟩

/-! ## When the check is right -/

variable {logits : Fin batch -> Fin vocab -> value} {masks : AllowMasks n vocab}
  {rowIndices : Fin n ↪ Fin batch} {winner : Fin batch -> Fin vocab}

section

variable (h : greedyWinnerWithMaskCheck logits masks rowIndices = Except.ok (some winner))
include h

/-- A check that returned winners: there is a mask for every row, and the winner of row
`b` is allowed by mask row `row_indices[b]`. -/
theorem greedyWinner_eq_some : batch ≤ n ∧ (forall b, winner b = argmax (logits b))
      ∧ forall (b : Fin batch) (j k : Fin n), (j : Nat) = b -> (rowIndices j : Nat) = k ->
        masks.allows k (winner b) = true := by
  unfold greedyWinnerWithMaskCheck at h
  split at h
  · rename_i hselect
    split at h
    · rename_i hgather
      dsimp only at h
      split at h
      · rename_i hallowed
        cases h
        refine ⟨hgather, fun b => rfl, fun b j k hj hk => ?_⟩
        have hrow : (⟨b, b.isLt.trans_le hgather⟩ : Fin n) = j := Fin.ext hj.symm
        have hsel : (⟨rowIndices ⟨b, b.isLt.trans_le hgather⟩, hselect _⟩ : Fin n) = k :=
          Fin.ext ((congrArg (fun i => (rowIndices i : Nat)) hrow).trans hk)
        exact hsel ▸ hallowed b
      · cases h
    · cases h
  · cases h

/-- Every mask was looked up, so none of them is refused. -/
theorem applyAllowBitmask_of_winner [OrderBot value] : applyAllowBitmask logits masks rowIndices
      = .ok (applyReference logits masks rowIndices) := by
  rcases greedyWinner_eq_some h with ⟨hsize, _, hallowed⟩
  have hcard : n = batch := by
    have := Fintype.card_le_of_embedding rowIndices
    rw [Fintype.card_fin, Fintype.card_fin] at this
    exact Nat.le_antisymm this hsize
  subst hcard
  have hnone : Fin.find? masks.rowsFullyMasked = none := by
    refine Fin.find?_eq_none_iff.mpr fun k => ?_
    rcases Finite.injective_iff_surjective.mp rowIndices.injective k with ⟨j, hj⟩
    exact AllowMasks.not_fullyMasked_of_allows (hallowed j j k rfl (congrArg Fin.val hj))
  unfold applyAllowBitmask
  rw [hnone]
  rfl

end

/-- The map of mask rows to logits rows is its own inverse. -/
def Paired (rowIndices : Fin n ↪ Fin batch) : Prop :=
  forall j k : Fin n, (rowIndices j : Nat) = k -> (rowIndices k : Nat) = j

theorem argmax_masked_of_paired [OrderBot value] (hpaired : Paired rowIndices)
    (h : greedyWinnerWithMaskCheck logits masks rowIndices = .ok (some winner))
    (b : Fin batch) : argmax (applyReference logits masks rowIndices b) = winner b := by
  rcases greedyWinner_eq_some h with ⟨hsize, hwinner, hallowed⟩
  unfold applyReference
  cases hfind : Fin.find? fun k => decide (rowIndices k = b) with
  | none => exact (hwinner b).symm
  | some k =>
    have hk : rowIndices k = b := of_decide_eq_true (Fin.find?_eq_some_iff.mp hfind).1
    have hback := hpaired k ⟨b, b.isLt.trans_le hsize⟩ (congrArg Fin.val hk)
    have hkept := hallowed b ⟨b, b.isLt.trans_le hsize⟩ k rfl hback
    rw [hwinner] at hkept ⊢
    refine argmax_of_le (fun j => ?_) (if_pos hkept)
    dsimp only
    split
    · exact le_refl _
    · exact bot_le

/-! ## Where it is wrong -/

def onlyRow [OrderBot value] (k : Fin batch) (top : value) (b : Fin batch) (token : Fin vocab) :
    value :=
  if b = k ∧ (token : Nat) = 1 then top else ⊥

/-- Mask row `j` allows the first token alone, the others every token. -/
def onlyMask (j : Fin n) (vocab : Nat) : AllowMasks n vocab where
  words := vocab
  entry := fun k w => if k = j then (if (w : Nat) = 0 then 1#32 else 0#32) else BitVec.allOnes 32
  wide := Nat.le_mul_of_pos_left vocab (by decide)

omit [NeZero vocab] in
theorem onlyMask_allows :
    (onlyMask j vocab).allows k token = decide (k = j -> (token : Nat) = 0) := by
  unfold AllowMasks.allows onlyMask
  have hmod : (token : Nat) % 32 < 32 := Nat.mod_lt _ (by decide)
  by_cases hk : k = j
  · by_cases hw : (token : Nat) / 32 = 0
    · grind
    · grind
  · dsimp only
    rw [if_neg hk, BitVec.getLsbD_allOnes, decide_eq_true hmod]
    exact (decide_eq_true fun heq => absurd heq hk).symm

theorem argmax_bot [OrderBot value] : argmax (fun _ : Fin vocab => (⊥ : value)) = 0 :=
  argmax_eq_iff.mpr ⟨fun _ => le_refl _, fun j hj => absurd hj (Fin.not_lt_zero j)⟩

theorem argmax_onlyRow_of_ne [OrderBot value] (h : b ≠ k) :
    argmax (onlyRow k top b : Fin vocab -> value) = 0 := by
  have hbot : (onlyRow k top b : Fin vocab -> value) = fun _ => ⊥ :=
    funext fun token => if_neg fun hand => h hand.1
  rw [hbot, argmax_bot]

theorem argmax_onlyRow [OrderBot value] (htop : top ≠ ⊥)
    (hvocab : 1 < vocab) : argmax (onlyRow k top k : Fin vocab -> value) = ⟨1, hvocab⟩ := by
  have hat : onlyRow k top k ⟨1, hvocab⟩ = top := if_pos ⟨rfl, rfl⟩
  rw [argmax_eq_iff, hat]
  constructor
  · intro j
    unfold onlyRow
    split
    · exact le_refl top
    · exact bot_le
  · intro j hj
    have hne : (j : Nat) ≠ 1 := Nat.ne_of_lt hj
    rw [show onlyRow k top k j = ⊥ from if_neg fun hand => hne hand.2]
    exact bot_lt_iff_ne_bot.mpr htop

/-- Mask row `j` belongs to the row with the preference and forbids it, but is looked up
for another row. -/
theorem winner_differs [OrderBot value] {top : value} (htop : top ≠ ⊥) (hvocab : 1 < vocab)
    (hsize : batch ≤ n) {j k : Fin n} (hj : (rowIndices j : Nat) = k)
    (hk : (rowIndices k : Nat) ≠ j) :
    greedyWinnerWithMaskCheck (onlyRow (rowIndices j) top) (onlyMask j vocab) rowIndices
        = .ok (some fun b => argmax (onlyRow (rowIndices j) top b))
      ∧ argmax (applyReference (onlyRow (rowIndices j) top) (onlyMask j vocab) rowIndices
        (rowIndices j))
        ≠ argmax (onlyRow (rowIndices j) top (rowIndices j) : Fin vocab -> value) := by
  constructor
  · unfold greedyWinnerWithMaskCheck
    rw [dif_pos fun i => (rowIndices i).isLt.trans_le hsize, dif_pos hsize]
    refine if_pos fun b => ?_
    rw [onlyMask_allows, decide_eq_true_iff]
    intro hlooked
    have hne : b ≠ rowIndices j := by
      intro hb
      have hrow : (⟨b, b.isLt.trans_le hsize⟩ : Fin n) = k :=
        Fin.ext ((congrArg Fin.val hb).trans hj)
      exact hk ((congrArg (fun i => (rowIndices i : Nat)) hrow).symm.trans
        (congrArg Fin.val hlooked))
    exact congrArg Fin.val (argmax_onlyRow_of_ne hne)
  · have hfind : (Fin.find? fun i => decide (rowIndices i = rowIndices j)) = some j :=
      Fin.find?_eq_some_iff.mpr ⟨decide_eq_true rfl, fun i hi =>
        decide_eq_false fun heq => hi.ne (rowIndices.injective heq)⟩
    have hmasked : applyReference (onlyRow (rowIndices j) top) (onlyMask j vocab) rowIndices
        (rowIndices j) = fun _ => ⊥ := by
      funext token
      unfold applyReference
      rw [hfind]
      dsimp only
      rw [onlyMask_allows]
      split
      · rename_i hzero
        have := of_decide_eq_true hzero rfl
        exact if_neg fun hand => absurd (this.symm.trans hand.2) (by decide)
      · rfl
    rw [hmasked, argmax_bot, argmax_onlyRow htop hvocab]
    exact fun heq => Nat.zero_ne_one (congrArg Fin.val heq)

/-- For masks attached to distinct rows in any order, the winners that are returned are
those of the masked logits for all logits and masks exactly when the map of mask rows
to logits rows is its own inverse, some row has no mask (then nothing is returned), or
there is one token only. -/
theorem greedy_winner_exact_iff [OrderBot value] [Nontrivial value]
    (rowIndices : Fin n ↪ Fin batch) :
    (forall (logits : Fin batch -> Fin vocab -> value) (masks : AllowMasks n vocab)
        (winner : Fin batch -> Fin vocab),
      greedyWinnerWithMaskCheck logits masks rowIndices = Except.ok (some winner) ->
        exists masked, applyAllowBitmask logits masks rowIndices = Except.ok masked
          ∧ forall b, argmax (masked b) = winner b)
      <-> vocab = 1 ∨ n < batch ∨ Paired rowIndices := by
  constructor
  · intro h
    by_contra hnot
    rw [not_or, not_or, not_lt] at hnot
    rcases hnot with ⟨hone, hsize, hunpaired⟩
    have hvocab : 1 < vocab := lt_of_le_of_ne (NeZero.one_le) (Ne.symm hone)
    unfold Paired at hunpaired
    push Not at hunpaired
    rcases hunpaired with ⟨j, _, hj, hk⟩
    rcases exists_ne (⊥ : value) with ⟨top, htop⟩
    rcases winner_differs htop hvocab hsize hj hk with ⟨hreturned, hdiffer⟩
    rcases h _ _ _ hreturned with ⟨masked, hmasked, hsame⟩
    rw [applyAllowBitmask_of_winner hreturned] at hmasked
    cases hmasked
    exact hdiffer (hsame (rowIndices j))
  · intro h logits masks winner hreturned
    refine ⟨_, applyAllowBitmask_of_winner hreturned, fun b => ?_⟩
    rcases h with hone | hfew | hpaired
    · subst hone
      exact Subsingleton.elim _ _
    · exact absurd (greedyWinner_eq_some hreturned).1 (not_le_of_gt hfew)
    · exact argmax_masked_of_paired hpaired hreturned b

/-- Three masks attached in a cycle: mask row 0 belongs to logits row 1, 1 to 2 and 2 to 0. -/
def cyclicRows : Fin 3 ↪ Fin 3 where
  toFun := fun k => k + 1
  inj' := by decide

theorem cyclic_rows_unpaired :
    (2 = 1 ∨ 3 < 3 ∨ Paired cyclicRows)
      <-> forall (logits : Fin 3 -> Fin 2 -> Nat) (masks : AllowMasks 3 2)
        (winner : Fin 3 -> Fin 2),
        greedyWinnerWithMaskCheck logits masks cyclicRows = Except.ok (some winner) ->
          exists masked, applyAllowBitmask logits masks cyclicRows = Except.ok masked
            ∧ forall b, argmax (masked b) = winner b :=
  (greedy_winner_exact_iff cyclicRows).symm

/-- Logits row 1 prefers token 1, which its mask row 0 forbids; the check reads mask row 2
for it and returns token 1. -/
theorem forbidden_winner_returned :
    greedyWinnerWithMaskCheck (onlyRow 1 (1 : Nat) : Fin 3 -> Fin 2 -> Nat)
      (onlyMask 0 2) cyclicRows
        = Except.ok (some fun b => argmax (onlyRow 1 (1 : Nat) b))
      ∧ argmax (onlyRow 1 (1 : Nat) (1 : Fin 3) : Fin 2 -> Nat) = 1
      ∧ applyAllowBitmask (onlyRow 1 (1 : Nat)) (onlyMask 0 2) cyclicRows
        = Except.ok (applyReference (onlyRow 1 (1 : Nat)) (onlyMask 0 2) cyclicRows)
      ∧ argmax (applyReference (onlyRow 1 (1 : Nat)) (onlyMask 0 2) cyclicRows 1) = 0 := by
  have hreturned := (@winner_differs Nat _ 3 3 2 _ cyclicRows _ 1 (by decide) (by decide)
    (by decide) 0 1 (by decide) (by decide)).1
  exact ⟨hreturned, by decide, applyAllowBitmask_of_winner hreturned, by decide⟩

end Sampling
end Ayaka
