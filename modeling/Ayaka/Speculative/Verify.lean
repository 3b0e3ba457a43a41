import Ayaka.Executor.Ticket
import Ayaka.Speculative.Acceptance

/-!
# Verification of the drafts of a step

The draft rows of all speculative slices are decided together: their logits are
masked, banned and scaled as those of a base row, each row gives the token the
target chooses there, and the choices are scattered into a tensor with one row for
each slice, which the batched acceptance compares with the padded drafts.

Logits are left abstract: minus infinity, the division by the clamped temperature
and `argmax`, ties included, are whatever the device makes of them.
-/

namespace Ayaka
namespace Speculative

open Foundation Sched
open Executor (Failure reject)

/-! ## Choosing a token from a row of logits -/

structure LogitOps (logit : Type) where
  negInf : logit
  /-- `logits / temperature.clamp_min(1e-6)`. -/
  scale : logit -> logit -> logit
  argmax : List logit -> Nat

namespace LogitOps

variable {logit : Type} (ops : LogitOps logit)

/-- `masked_fill_` with the tokens that are not valid. -/
def maskRow (validMask : Option (List Bool)) (row : List logit) : List logit :=
  match validMask with
  | none => row
  | some mask => row.mapIdx fun token value => if mask.getD token true then value else ops.negInf

def banRow (row : List logit) (bans : List Nat) : List logit :=
  (bans.filter (fun token => token < row.length)).foldl
    (fun row token => row.set token ops.negInf) row

/-- The token of a greedy row: mask, bans and temperature, in this order. -/
def choose (validMask : Option (List Bool)) (temperature : logit) (bans : List Nat)
    (row : List logit) : Nat :=
  ops.argmax ((ops.banRow (ops.maskRow validMask row) bans).map (ops.scale temperature))

end LogitOps

/-! ## The layout of a step -/

/-- Token ids as the device holds them. -/
def staged (ids : List Nat) : List Int :=
  ids.map fun id : Nat => (id : Int)

theorem length_staged (ids : List Nat) : (staged ids).length = ids.length :=
  List.length_map ..

structure VerifyLayout where
  specPositions : List Nat
  offsets : List Nat
  draftTokenIds : List (List Nat)
  deriving DecidableEq, Repr

namespace VerifyLayout

/-- `offsets` of draft rows with these counts. -/
def offsetsOf (counts : List Nat) : List Nat :=
  counts.scanl (fun total count => total + count) 0

section

variable (layout : VerifyLayout)

def numSpeculative : Nat :=
  layout.specPositions.length

def draftCounts : List Nat :=
  List.zipWith (fun a b => b - a) layout.offsets layout.offsets.tail

def maxK : Nat :=
  layout.draftCounts.foldl max 0

def paddedDrafts : List (List Int) :=
  layout.draftTokenIds.map fun ids => padded layout.maxK (-1) (staged ids)

end

theorem zipWith_offsets (counts : List Nat) (start : Nat) :
    List.zipWith (fun a b => b - a) (counts.scanl (fun total count => total + count) start)
      (counts.scanl (fun total count => total + count) start).tail = counts := by
  induction counts generalizing start with
  | nil => simp
  | cons count rest ih =>
    have hrest := ih (start + count)
    rw [List.scanl_cons, List.tail_cons]
    cases hscan : rest.scanl (fun total count => total + count) (start + count) with
    | nil =>
      have hlength := congrArg List.length hscan
      rw [List.length_scanl] at hlength
      cases hlength
    | cons first more =>
      have hfirst : first = start + count := by
        have hhead := congrArg List.head? hscan
        cases rest with
        | nil => simpa using hhead.symm
        | cons next others => simpa using hhead.symm
      rw [hscan, List.tail_cons] at hrest
      rw [List.zipWith_cons_cons, hrest, hfirst, Nat.add_sub_cancel_left]

theorem draftCounts_of_offsets {layout : VerifyLayout} {counts : List Nat}
    (h : layout.offsets = offsetsOf counts) : layout.draftCounts = counts := by
  unfold draftCounts
  rw [h]
  exact zipWith_offsets counts 0

end VerifyLayout

/-! ## Scattering the choices -/

/-- `targets[owner, column] = choices`. -/
def scatter (rows : List (List Int)) (entries : List ((Nat × Nat) × Int)) : List (List Int) :=
  entries.foldl (fun rows entry => rows.modify entry.1.1 fun row => row.set entry.1.2 entry.2) rows

/-- The slice of each draft row, from the slice numbered `start` on. -/
def owner (counts : List Nat) (start : Nat := 0) : List Nat :=
  (counts.zipIdx start).flatMap fun entry => List.replicate entry.1 entry.2

def column (counts : List Nat) : List Nat :=
  counts.flatMap fun count => (List.range count).map fun offset => offset + 1

def accept (choices baseTokens : List Int) (layout : VerifyLayout) :
    Except Failure (List Int × List Nat) := do
  let counts := layout.draftCounts
  let blank := baseTokens.map fun base => base :: List.replicate layout.maxK (-1)
  reject (layout.numSpeculative = 0)
    (.valueError "drafts must be [R, K] and targets [R, K + 1]")
  let targets <- Tensor2.ofRows (layout.maxK + 1)
    (scatter blank (((owner counts).zip (column counts)).zip choices))
  let drafts <- Tensor2.ofRows layout.maxK layout.paddedDrafts
  let result <- greedyAccept drafts targets
  pure (result.2, result.1)

section Rows

variable {logit : Type} (ops : LogitOps logit)

section

variable (extensionLogits : List (List logit)) (baseTokens : List Int) (layout : VerifyLayout)
  (temperatures : List logit) (validMask : Option (List Bool)) (bans : List (List Nat))

/-- `_prepare_rows` and the `argmax` of every row. -/
def chooseRows : Except Failure (List Int) := do
  reject (extensionLogits.length ≠ layout.draftCounts.sum)
    (.valueError "extension logits must hold one row per draft token")
  reject (baseTokens.length ≠ layout.numSpeculative ∨ temperatures.length ≠ layout.numSpeculative)
    (.valueError "base tokens and temperatures need one entry per speculative slice")
  reject (bans.length ≠ extensionLogits.length)
    (.valueError "one ban set is required per draft row")
  -- `repeat_interleave`: the temperature of a slice for each of its rows
  let rowTemperatures :=
    (List.zipWith (fun temperature count => List.replicate count temperature) temperatures
      layout.draftCounts).flatten
  pure (staged (List.zipWith (fun choose row => choose row)
    (List.zipWith (ops.choose validMask) rowTemperatures bans) extensionLogits))

def greedyVerify : Except Failure (List Int × List Nat) := do
  let choices <- chooseRows ops extensionLogits baseTokens layout temperatures validMask bans
  accept choices baseTokens layout

end

end Rows

/-! ## Slices -/

/-- A speculative slice as verification sees it: its drafts, the token of its base
row, and the logits and bans of each draft row. -/
structure VerifySlice (logit : Type) where
  drafts : List Nat
  baseToken : Nat
  temperature : logit
  rows : List (List logit)
  bans : List (List Nat)
  rows_length : rows.length = drafts.length
  bans_length : bans.length = drafts.length

namespace VerifySlice

variable {logit : Type} (ops : LogitOps logit) (validMask : Option (List Bool))

section

variable (slice : VerifySlice logit)

def choices : List Nat :=
  List.zipWith (ops.choose validMask slice.temperature) slice.bans slice.rows

theorem length_choices : (slice.choices ops validMask).length = slice.drafts.length := by
  rw [choices, List.length_zipWith, slice.rows_length, slice.bans_length, Nat.min_self]

/-- The draft and the choices of the target along it, the base row first. -/
def verified : Verified where
  candidates := staged slice.drafts
  targets := staged (slice.baseToken :: slice.choices ops validMask)
  bonus := by
    rw [length_staged, length_staged, List.length_cons, slice.length_choices]
  isToken := fun token htoken => by
    rcases List.mem_map.mp htoken with ⟨id, _, rfl⟩
    exact Int.natCast_nonneg id

/-- The base token and the choices of the draft rows, as the device holds them. -/
def scattered : Int × List Int :=
  (slice.baseToken, staged (slice.choices ops validMask))

end

def layout (slices : List (VerifySlice logit)) : VerifyLayout where
  specPositions := List.range slices.length
  offsets := VerifyLayout.offsetsOf (slices.map fun slice => slice.drafts.length)
  draftTokenIds := slices.map VerifySlice.drafts

theorem draftCounts_layout (slices : List (VerifySlice logit)) :
    (layout slices).draftCounts = slices.map fun slice => slice.drafts.length :=
  VerifyLayout.draftCounts_of_offsets rfl

theorem le_foldl_max (counts : List Nat) (start : Nat) :
    start ≤ counts.foldl max start
      ∧ forall count, count ∈ counts -> count ≤ counts.foldl max start := by
  induction counts generalizing start with
  | nil => exact ⟨Nat.le_refl _, fun _ h => nomatch h⟩
  | cons first rest ih =>
    have hrest := ih (max start first)
    refine ⟨Nat.le_trans (Nat.le_max_left _ _) hrest.1, fun count hcount => ?_⟩
    rcases List.mem_cons.mp hcount with heq | hmem
    · rw [heq]
      exact Nat.le_trans (Nat.le_max_right _ _) hrest.1
    · exact hrest.2 count hmem

theorem length_drafts_le (h : slice ∈ slices) : slice.drafts.length ≤ (layout slices).maxK := by
  apply (le_foldl_max _ 0).2
  rw [draftCounts_layout]
  exact List.mem_map_of_mem h

end VerifySlice

theorem scatter_row (rows : List (List Int)) (index : Nat) (entries : List (Nat × Int)) :
    scatter rows (entries.map fun entry => ((index, entry.1), entry.2))
      = rows.modify index fun row =>
          entries.foldl (fun row entry => row.set entry.1 entry.2) row := by
  induction entries generalizing rows with
  | nil => exact (List.modify_id index rows).symm
  | cons entry rest ih =>
    show scatter (rows.modify index fun row => row.set entry.1 entry.2) _ = _
    rw [ih, List.modify_modify_eq]
    rfl

theorem set_columns (first tail : List Int) (values : List Int) (h : values.length ≤ tail.length) :
    ((List.range' first.length values.length).zip values).foldl
        (fun row entry => row.set entry.1 entry.2) (first ++ tail)
      = first ++ (values ++ tail.drop values.length) := by
  induction values generalizing first tail with
  | nil => rfl
  | cons value rest ih =>
    cases tail with
    | nil => exact absurd h (Nat.not_succ_le_zero _)
    | cons old tail =>
      rw [List.length_cons, List.range'_succ, List.zip_cons_cons, List.foldl_cons]
      have hset : (first ++ old :: tail).set first.length value = (first ++ [value]) ++ tail := by
        simp
      have hrest := ih (first ++ [value]) tail (Nat.le_of_succ_le_succ h)
      rw [List.length_append, List.length_singleton] at hrest
      rw [hset, hrest]
      simp

theorem modify_length (done rest : List (List Int)) (row : List Int) (f : List Int -> List Int) :
    (done ++ row :: rest).modify done.length f = done ++ f row :: rest := by
  induction done with
  | nil => rfl
  | cons first done ih =>
    show first :: (done ++ row :: rest).modify done.length f = _
    rw [ih]
    rfl

theorem zip_replicate_left {alpha beta : Type} (a : alpha) (bs : List beta) :
    (List.replicate bs.length a).zip bs = bs.map fun b => (a, b) := by
  induction bs with
  | nil => rfl
  | cons b rest ih =>
    rw [List.length_cons, List.replicate_succ, List.zip_cons_cons, ih]
    rfl

/-- One slice: its base token stays, its choices follow, and the rest is padding. -/
theorem scatter_slice (done rest : List (List Int)) (base : Int) (values : List Int)
    (h : values.length ≤ width) :
    scatter (done ++ (base :: List.replicate width (-1)) :: rest)
        (((List.replicate values.length done.length).zip
          ((List.range values.length).map fun offset => offset + 1)).zip values)
      = done ++ padded (width + 1) (-1) (base :: values) :: rest := by
  have hcolumns : (List.range values.length).map (fun offset => offset + 1)
      = List.range' [base].length values.length := by
    rw [List.range'_eq_map_range]
    exact List.map_congr_left fun offset _ => Nat.add_comm offset 1
  have hentries : ((List.replicate values.length done.length).zip
        (List.range' [base].length values.length)).zip values
      = ((List.range' [base].length values.length).zip values).map
          fun entry => ((done.length, entry.1), entry.2) := by
    have hzip := zip_replicate_left done.length (List.range' [base].length values.length)
    rw [List.length_range'] at hzip
    rw [hzip, List.zip_map_left]
    rfl
  have hset := set_columns [base] (List.replicate width (-1)) values
    (by rw [List.length_replicate]; exact h)
  rw [hcolumns, hentries, scatter_row, modify_length]
  show done ++ (List.foldl _ ([base] ++ List.replicate width (-1)) _) :: rest = _
  rw [hset, List.drop_replicate]
  unfold padded
  rw [List.length_cons, Nat.add_sub_add_right]
  rfl

theorem scatter_slices (done : List (List Int)) (items : List (Int × List Int))
    (h : forall item, item ∈ items -> item.2.length ≤ width) :
    scatter (done ++ items.map fun item => item.1 :: List.replicate width (-1))
        (((owner (items.map fun item => item.2.length) done.length).zip
          (column (items.map fun item => item.2.length))).zip (items.flatMap Prod.snd))
      = done ++ items.map fun item => padded (width + 1) (-1) (item.1 :: item.2) := by
  induction items generalizing done with
  | nil => rfl
  | cons item rest ih =>
    have hfirst := scatter_slice done (rest.map fun item => item.1 :: List.replicate width (-1))
      item.1 item.2 (h item List.mem_cons_self)
    have hrest := ih (done ++ [padded (width + 1) (-1) (item.1 :: item.2)]) fun other hother =>
      h other (List.mem_cons_of_mem _ hother)
    rw [List.length_append, List.length_singleton, List.append_assoc, List.append_assoc,
      List.singleton_append, List.singleton_append] at hrest
    unfold owner column at hrest ⊢
    rw [List.map_cons, List.map_cons, List.map_cons, List.zipIdx_cons, List.flatMap_cons,
      List.flatMap_cons, List.flatMap_cons, List.zip_append, List.zip_append]
    · unfold scatter at hfirst hrest ⊢
      rw [List.foldl_append, hfirst, hrest]
    · simp
    · simp

/-! ## Every slice is verified as it would be alone -/

section Slices

variable {logit : Type} (ops : LogitOps logit) (validMask : Option (List Bool))

theorem zipWith_replicate_temperature (temperature : logit) (bans : List (List Nat))
    (rows : List (List logit)) :
    List.zipWith (fun choose row => choose row)
        (List.zipWith (ops.choose validMask) (List.replicate bans.length temperature) bans) rows
      = List.zipWith (ops.choose validMask temperature) bans rows := by
  induction bans generalizing rows with
  | nil => rfl
  | cons ids bans ih =>
    cases rows with
    | nil => simp
    | cons row rows =>
      rw [List.length_cons, List.replicate_succ, List.zipWith_cons_cons,
        List.zipWith_cons_cons, List.zipWith_cons_cons, ih]

section

variable (slices : List (VerifySlice logit))

theorem zipWith_slices : List.zipWith (fun choose row => choose row)
        (List.zipWith (ops.choose validMask)
          (slices.flatMap fun slice => List.replicate slice.drafts.length slice.temperature)
          (slices.flatMap VerifySlice.bans))
        (slices.flatMap VerifySlice.rows)
      = slices.flatMap (VerifySlice.choices ops validMask) := by
  induction slices with
  | nil => rfl
  | cons slice rest ih =>
    have hown := zipWith_replicate_temperature ops validMask slice.temperature slice.bans slice.rows
    rw [slice.bans_length] at hown
    rw [List.flatMap_cons, List.flatMap_cons, List.flatMap_cons, List.flatMap_cons,
      List.zipWith_append, List.zipWith_append, hown, ih]
    · rfl
    · rw [List.length_zipWith, List.length_replicate, slice.bans_length, slice.rows_length,
        Nat.min_self]
    · rw [List.length_replicate, slice.bans_length]

theorem chooseRows_slices (baseTokens : List Int) (hbase : baseTokens.length = slices.length) :
    chooseRows ops (slices.flatMap VerifySlice.rows) baseTokens (VerifySlice.layout slices)
        (slices.map VerifySlice.temperature) validMask (slices.flatMap VerifySlice.bans)
      = .ok (staged (slices.flatMap (VerifySlice.choices ops validMask))) := by
  have hrows : (slices.flatMap VerifySlice.rows).length
      = (slices.map fun slice => slice.drafts.length).sum := by
    rw [List.length_flatMap]
    exact congrArg List.sum (List.map_congr_left fun slice _ => slice.rows_length)
  have hbans : (slices.flatMap VerifySlice.bans).length
      = (slices.map fun slice => slice.drafts.length).sum := by
    rw [List.length_flatMap]
    exact congrArg List.sum (List.map_congr_left fun slice _ => slice.bans_length)
  have hslices : (VerifySlice.layout slices).numSpeculative = slices.length :=
    List.length_range
  unfold chooseRows
  simp only [VerifySlice.draftCounts_layout, hslices, hbase, hrows, hbans, List.length_map, ne_eq,
    not_true_eq_false, or_self]
  rw [List.zipWith_map, List.zipWith_self, <- List.flatMap_def, zipWith_slices]
  rfl

theorem staged_flatMap : staged (slices.flatMap (VerifySlice.choices ops validMask))
      = (slices.map (VerifySlice.scattered ops validMask)).flatMap Prod.snd := by
  unfold staged
  rw [List.map_flatMap, List.flatMap_map]
  rfl

/-- The targets of a step: the choices of each slice after its base token, padded. -/
theorem scatter_targets : scatter ((slices.map fun slice => (slice.baseToken : Int)).map fun base =>
          base :: List.replicate (VerifySlice.layout slices).maxK (-1))
        (((owner (VerifySlice.layout slices).draftCounts).zip
          (column (VerifySlice.layout slices).draftCounts)).zip
            (staged (slices.flatMap (VerifySlice.choices ops validMask))))
      = (slices.map (VerifySlice.verified ops validMask)).map fun v =>
          padded ((VerifySlice.layout slices).maxK + 1) (-1) v.targets := by
  have hcounts : (VerifySlice.layout slices).draftCounts
      = (slices.map (VerifySlice.scattered ops validMask)).map fun item => item.2.length := by
    rw [VerifySlice.draftCounts_layout, List.map_map]
    refine List.map_congr_left fun slice _ => ?_
    show slice.drafts.length = (staged (slice.choices ops validMask)).length
    rw [length_staged, slice.length_choices]
  have hfits : forall item, item ∈ slices.map (VerifySlice.scattered ops validMask) ->
      item.2.length ≤ (VerifySlice.layout slices).maxK := by
    intro item hitem
    rcases List.mem_map.mp hitem with ⟨slice, hslice, rfl⟩
    show (staged (slice.choices ops validMask)).length ≤ _
    rw [length_staged, slice.length_choices]
    exact VerifySlice.length_drafts_le hslice
  have hscatter := scatter_slices [] _ hfits
  rw [<- hcounts, <- staged_flatMap, List.nil_append, List.nil_append, List.map_map,
    List.map_map] at hscatter
  rw [List.map_map, List.map_map]
  exact hscatter

end

/-- The verification of a step settles each slice as `accept_greedy` would settle its
draft alone. -/
theorem greedyVerify_slices (hslices : slices ≠ []) :
    greedyVerify ops (slices.flatMap VerifySlice.rows)
        (slices.map fun slice => (slice.baseToken : Int)) (VerifySlice.layout slices)
        (slices.map VerifySlice.temperature) validMask (slices.flatMap VerifySlice.bans)
      = .ok (slices.map fun slice => (slice.verified ops validMask).final,
          slices.map fun slice => (slice.verified ops validMask).accepted) := by
  have hchoices := chooseRows_slices ops validMask slices
    (slices.map fun slice => (slice.baseToken : Int)) (List.length_map ..)
  have hsome : ¬ (VerifySlice.layout slices).numSpeculative = 0 := by
    intro hzero
    apply hslices
    apply List.length_eq_zero_iff.mp
    rw [<- hzero]
    exact List.length_range.symm
  have hdrafts : (VerifySlice.layout slices).paddedDrafts
      = (slices.map (VerifySlice.verified ops validMask)).map fun v =>
          padded (VerifySlice.layout slices).maxK (-1) v.candidates := by
    unfold VerifyLayout.paddedDrafts VerifySlice.layout
    rw [List.map_map, List.map_map]
    rfl
  have hwide : forall row, row ∈ (VerifySlice.layout slices).paddedDrafts ->
      row.length = (VerifySlice.layout slices).maxK := by
    intro row hrow
    rw [hdrafts, List.map_map] at hrow
    rcases List.mem_map.mp hrow with ⟨slice, hslice, rfl⟩
    apply length_padded
    show (staged slice.drafts).length ≤ _
    rw [length_staged]
    exact VerifySlice.length_drafts_le hslice
  have hwider : forall row, row ∈ ((slices.map (VerifySlice.verified ops validMask)).map fun v =>
      padded ((VerifySlice.layout slices).maxK + 1) (-1) v.targets) ->
      row.length = (VerifySlice.layout slices).maxK + 1 := by
    intro row hrow
    rw [List.map_map] at hrow
    rcases List.mem_map.mp hrow with ⟨slice, hslice, rfl⟩
    apply length_padded
    rw [(slice.verified ops validMask).bonus]
    show (staged slice.drafts).length + 1 ≤ _
    rw [length_staged]
    exact Nat.succ_le_succ (VerifySlice.length_drafts_le hslice)
  unfold greedyVerify accept
  rw [hchoices]
  show (do
    reject _ _
    let targets <- Tensor2.ofRows _ _
    let drafts <- Tensor2.ofRows _ _
    let result <- greedyAccept drafts targets
    pure (result.2, result.1)) = _
  rw [scatter_targets, Executor.check_bind_eq_ok_iff]
  refine ⟨Executor.reject_eq_ok_iff.mpr hsome, ?_⟩
  rw [except_bind_eq_ok_iff]
  refine ⟨_, dif_pos hwider, ?_⟩
  rw [except_bind_eq_ok_iff]
  refine ⟨_, dif_pos hwide, ?_⟩
  rw [greedyAccept_padded (slices.map (VerifySlice.verified ops validMask)) hdrafts rfl rfl]
  rw [List.map_map, List.map_map]
  rfl

end Slices

end Speculative
end Ayaka
