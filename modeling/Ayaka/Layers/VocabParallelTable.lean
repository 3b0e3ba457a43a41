import Ayaka.Foundation.Chunks
import Ayaka.Foundation.Effect
import Ayaka.Layers.VocabParallel

/-!
# The vocabulary-parallel table and the dense one

The table of a group of two or more ranks is the dense table of the checkpoint, for the
lookup as for the logits.  A single rank reads its storage by token id, which is right
only if the added rows come without a gap after the base rows.
-/

namespace Ayaka
namespace Embedding

open Foundation
open MathUtils
open Executor (Failure check_bind_eq_ok_iff reject reject_eq_ok_iff requireInt_eq_ok_iff)
open ShardIndices (check numAddedElements numAddedElementsPadded numOrgElements
  numOrgElementsPadded)
open VocabParallelEmbedding (new plan weightLoader)

/-! ## Writing ranges -/

section Ranges

variable {row : Type} [Zero row]

def Covered (plan : List CopyRange) (i : Nat) : Prop :=
  exists range, range ∈ plan ∧ range.destinationStart ≤ i ∧ i < range.destinationStart + range.size

def written (loaded : List row) : List CopyRange -> Nat -> Option row
  | [], _ => none
  | range :: rest, i =>
    (written loaded rest i).or
      (if range.destinationStart ≤ i ∧ i < range.destinationStart + range.size then
        loaded[range.sourceStart + (i - range.destinationStart)]?
      else
        none)

/-- The ranges follow one another from `cursor` on, and the source has what they copy. -/
def InOrder (loaded : List row) : List CopyRange -> Nat -> Prop
  | [], _ => True
  | range :: rest, cursor =>
    cursor ≤ range.destinationStart ∧ range.sourceStart + range.size ≤ loaded.length
      ∧ InOrder loaded rest (range.destinationStart + range.size)

omit [Zero row] in
theorem getElem?_overwrite (data values : List row) (start i : Nat) :
    (overwrite data start values)[i]?
      = data[i]?.map fun old => if start ≤ i then values[i - start]?.getD old else old := by
  unfold overwrite
  rw [List.getElem?_mapIdx]

theorem getElem?_zero (data : List row) (start size i : Nat) :
    (overwrite data start (List.replicate size 0))[i]?
      = data[i]?.map fun old => if start ≤ i ∧ i < start + size then 0 else old := by
  rw [getElem?_overwrite]
  congr 1
  funext old
  by_cases hstart : start ≤ i
  · rw [if_pos hstart, List.getElem?_replicate]
    by_cases hend : i < start + size
    · have hlt : i - start < size := by omega
      rw [if_pos hlt, if_pos ⟨hstart, hend⟩, Option.getD_some]
    · have hlt : ¬ i - start < size := by omega
      rw [if_neg hlt, if_neg (fun h => hend h.2), Option.getD_none]
  · rw [if_neg hstart, if_neg (fun h => hstart h.1)]

theorem covered_cons :
    Covered (range :: rest) i <->
      (range.destinationStart ≤ i ∧ i < range.destinationStart + range.size) ∨ Covered rest i := by
  unfold Covered
  simp

variable {plan : List CopyRange} {loaded : List row}

omit [Zero row] in
theorem InOrder.le_of_covered (h : InOrder loaded plan cursor)
    (hi : Covered plan i) : cursor ≤ i := by
  induction plan generalizing cursor with
  | nil =>
    rcases hi with ⟨_, hmem, _⟩
    cases hmem
  | _ _ _ ih =>
    rcases covered_cons.mp hi with hhere | hlater
    · exact h.1.trans hhere.1
    · exact (h.1.trans (Nat.le_add_right _ _)).trans (ih h.2.2 hlater)

/-- Zeroing reaches what no range covers, from the cursor on. -/
theorem getElem?_zeroGaps (h : InOrder loaded plan cursor) (data : List row) (i : Nat) :
    (Covered plan i -> (zeroGaps plan cursor data)[i]? = data[i]?)
      ∧ (¬ Covered plan i -> cursor ≤ i ->
        (zeroGaps plan cursor data)[i]? = data[i]?.map fun _ => 0)
      ∧ (i < cursor -> (zeroGaps plan cursor data)[i]? = data[i]?) := by
  induction plan generalizing cursor data with
  | nil =>
    unfold zeroGaps
    refine ⟨fun hi => absurd hi (by rintro ⟨_, hmem, _⟩; cases hmem), fun _ hi => ?_, fun hi => ?_⟩
    · split
      · rw [getElem?_zero]
        by_cases hlt : i < data.length
        · rw [List.getElem?_eq_getElem hlt, Option.map_some, Option.map_some, if_pos ⟨hi, by omega⟩]
        · rw [List.getElem?_eq_none (Nat.not_lt.mp hlt)]
          rfl
      · rw [List.getElem?_eq_none (by omega)]
        rfl
    · split
      · rw [getElem?_zero]
        simp [Nat.not_le.mpr hi]
      · rfl
  | cons range rest ih =>
    unfold zeroGaps
    generalize hgap : (if range.destinationStart > cursor then
      overwrite data cursor (List.replicate (range.destinationStart - cursor) 0) else data) = gap
    have hget : gap[i]? = data[i]?.map fun old =>
        if cursor ≤ i ∧ i < range.destinationStart then 0 else old := by
      rw [<- hgap]
      split
      · next hlt =>
          rw [getElem?_zero, Nat.add_sub_cancel' (Nat.le_of_lt hlt)]
      · next hlt =>
          have hnone : ¬ (cursor ≤ i ∧ i < range.destinationStart) := by omega
          simp [hnone]
    rcases ih h.2.2 gap with ⟨hcovered, hgaps, hbefore⟩
    have hlater : Covered rest i -> range.destinationStart + range.size ≤ i :=
      h.2.2.le_of_covered
    refine ⟨fun hi => ?_, fun hi hcursor => ?_, fun hi => ?_⟩
    · rcases covered_cons.mp hi with hhere | hrest
      · rw [hbefore hhere.2, hget]
        simp [Nat.not_lt.mpr hhere.1]
      · have hbound := hlater hrest
        have hnone : ¬ (cursor ≤ i ∧ i < range.destinationStart) := by omega
        rw [hcovered hrest, hget]
        simp [hnone]
    · rw [covered_cons] at hi
      by_cases hlow : i < range.destinationStart
      · rw [hbefore (Nat.lt_add_right _ hlow), hget]
        simp [hcursor, hlow]
      · rw [hgaps (fun hrest => hi (.inr hrest)) (by omega), hget, Option.map_map]
        rfl
    · have hdest := h.1
      rw [hbefore (by omega), hget]
      simp [Nat.not_le.mpr hi]

omit [Zero row] in
/-- Copying writes what the plan says and nothing else. -/
theorem copyRanges_eq_ok (h : InOrder loaded plan cursor) (data : List row) :
    exists result, copyRanges loaded plan data = .ok result
      ∧ forall i, result[i]? = data[i]?.map fun old => (written loaded plan i).getD old := by
  induction plan generalizing cursor data with
  | nil => exact ⟨data, rfl, fun i => by simp [written]⟩
  | cons range rest ih =>
    have hsource : narrow loaded range.sourceStart range.size
        = .ok ((loaded.drop range.sourceStart).take range.size) := if_pos h.2.1
    rcases ih h.2.2 (overwrite data range.destinationStart
      ((loaded.drop range.sourceStart).take range.size)) with ⟨result, hresult, hget⟩
    refine ⟨result, ?_, fun i => ?_⟩
    · unfold copyRanges
      rw [hsource]
      exact hresult
    · rw [hget i, getElem?_overwrite, Option.map_map]
      congr 1
      funext old
      simp only [Function.comp, written, List.getElem?_take, List.getElem?_drop]
      cases written loaded rest i with
      | some value => rfl
      | none =>
        by_cases hlow : range.destinationStart ≤ i
        · have hlt : i - range.destinationStart < range.size
              <-> i < range.destinationStart + range.size := by omega
          simp [hlow, hlt]
        · simp [hlow]

omit [Zero row] in
theorem written_eq_none (hi : ¬ Covered plan i) : written loaded plan i = none := by
  induction plan with
  | nil => rfl
  | cons range rest ih =>
    rw [covered_cons, not_or] at hi
    unfold written
    rw [ih hi.2, if_neg hi.1]
    rfl

end Ranges

/-! ## The layout -/

structure VocabShape where
  numEmbeddings : Nat
  orgNumEmbeddings : Nat
  paddingSize : Nat
  tpSize : Nat
  embeddingDim : Nat
  org_pos : 1 ≤ orgNumEmbeddings
  org_le : orgNumEmbeddings ≤ numEmbeddings
  padding_pos : 1 ≤ paddingSize
  tp_pos : 1 ≤ tpSize
  dim_pos : 1 ≤ embeddingDim

namespace VocabShape

variable (v : VocabShape)

def padding : Nat :=
  resolvePaddingSize v.tpSize v.paddingSize

def orgPadded : Nat :=
  alignUp v.orgNumEmbeddings v.padding

def padded : Nat :=
  alignUp (v.orgPadded + (v.numEmbeddings - v.orgNumEmbeddings)) v.padding

def baseWidth : Nat :=
  v.orgPadded / v.tpSize

def addedWidth : Nat :=
  (v.padded - v.orgPadded) / v.tpSize

def width : Nat :=
  v.baseWidth + v.addedWidth

theorem padding_pos' : 0 < v.padding := by
  unfold padding resolvePaddingSize
  split
  · exact Nat.mul_pos v.padding_pos v.tp_pos
  · exact v.padding_pos

theorem tpSize_dvd_padding : v.tpSize ∣ v.padding := by
  unfold padding resolvePaddingSize
  split
  · exact Nat.dvd_mul_left _ _
  · next h =>
      by_cases htp : v.tpSize > 1
      · exact Nat.dvd_of_mod_eq_zero (by_contra fun hmod => h ⟨htp, hmod⟩)
      · have hone : v.tpSize = 1 := Nat.le_antisymm (Nat.not_lt.mp htp) v.tp_pos
        rw [hone]
        exact Nat.one_dvd _

theorem tpSize_dvd_orgPadded : v.tpSize ∣ v.orgPadded :=
  v.tpSize_dvd_padding.trans (dvd_alignUp _ _)

theorem tpSize_dvd_padded : v.tpSize ∣ v.padded :=
  v.tpSize_dvd_padding.trans (dvd_alignUp _ _)

theorem orgPadded_add_le_padded : v.orgPadded + (v.numEmbeddings - v.orgNumEmbeddings) ≤ v.padded :=
  le_alignUp v.padding_pos'

theorem orgPadded_le_padded : v.orgPadded ≤ v.padded :=
  (Nat.le_add_right _ _).trans v.orgPadded_add_le_padded

theorem orgPadded_eq : v.orgPadded = v.tpSize * v.baseWidth :=
  (Nat.mul_div_cancel' v.tpSize_dvd_orgPadded).symm

theorem tpSize_dvd_added : v.tpSize ∣ v.padded - v.orgPadded :=
  Nat.dvd_sub v.tpSize_dvd_padded v.tpSize_dvd_orgPadded

theorem added_eq : v.padded - v.orgPadded = v.tpSize * v.addedWidth :=
  (Nat.mul_div_cancel' v.tpSize_dvd_added).symm

theorem padded_eq : v.padded = v.tpSize * v.width := by
  have hle := v.orgPadded_le_padded
  have hadded := v.added_eq
  have horg := v.orgPadded_eq
  rw [width, Nat.mul_add, <- horg, <- hadded]
  omega

theorem org_le_base : v.orgNumEmbeddings ≤ v.tpSize * v.baseWidth := by
  rw [<- v.orgPadded_eq]
  exact le_alignUp v.padding_pos'

theorem num_sub_org_le_added : v.numEmbeddings - v.orgNumEmbeddings ≤ v.tpSize * v.addedWidth := by
  have hle := v.orgPadded_add_le_padded
  rw [<- v.added_eq]
  omega

section

variable (rank : Nat)

def orgStart : Nat :=
  min (rank * v.baseWidth) v.orgNumEmbeddings

def addedStart : Nat :=
  min (rank * v.addedWidth + v.orgNumEmbeddings) v.numEmbeddings

def indices : ShardIndices where
  paddedOrgVocabStartIndex := rank * v.baseWidth
  paddedOrgVocabEndIndex := rank * v.baseWidth + v.baseWidth
  paddedAddedVocabStartIndex := rank * v.addedWidth + v.orgNumEmbeddings
  paddedAddedVocabEndIndex := rank * v.addedWidth + v.addedWidth + v.orgNumEmbeddings
  orgVocabStartIndex := v.orgStart rank
  orgVocabEndIndex := min (rank * v.baseWidth + v.baseWidth) v.orgNumEmbeddings
  addedVocabStartIndex := v.addedStart rank
  addedVocabEndIndex :=
    min (rank * v.addedWidth + v.addedWidth + v.orgNumEmbeddings) v.numEmbeddings

def layer : VocabParallelEmbedding where
  numEmbeddings := v.numEmbeddings
  orgVocabSize := v.orgNumEmbeddings
  tpRank := rank
  tpSize := v.tpSize
  orgVocabSizePadded := v.orgPadded
  numEmbeddingsPadded := v.padded
  shardIndices := v.indices rank
  numEmbeddingsPerPartition := v.width

theorem orgEnd_eq : (v.indices rank).orgVocabEndIndex = v.orgStart (rank + 1) := by
  unfold indices orgStart
  rw [Nat.succ_mul]

theorem addedEnd_eq : (v.indices rank).addedVocabEndIndex = v.addedStart (rank + 1) := by
  unfold indices addedStart
  rw [Nat.succ_mul]

theorem check_indices : (v.indices rank).check = .ok () := by
  unfold check numOrgElements numAddedElements numOrgElementsPadded numAddedElementsPadded
  simp only [check_bind_eq_ok_iff, reject_eq_ok_iff]
  simp only [indices, orgStart, addedStart]
  omega

end

theorem divide_eq_ok (hpos : 1 ≤ divisor)
    (hdvd : divisor ∣ value) : divide value divisor name = .ok (value / divisor) := by
  unfold divide
  simp only [check_bind_eq_ok_iff, reject_eq_ok_iff, requireInt_eq_ok_iff]
  exact ⟨by exact_mod_cast hpos, fun h => h (Nat.mod_eq_zero_of_dvd hdvd), rfl⟩

theorem getIndices_eq (rank : Nat) :
    getIndices v.padded v.orgPadded v.numEmbeddings v.orgNumEmbeddings rank v.tpSize
      = .ok (v.indices rank) := by
  have horg : vocabRangeFromGlobalVocabSize v.orgPadded rank v.tpSize 0
      = .ok (rank * v.baseWidth, rank * v.baseWidth + v.baseWidth) := by
    unfold vocabRangeFromGlobalVocabSize
    rw [divide_eq_ok v.tp_pos v.tpSize_dvd_orgPadded]
    rfl
  have hadded : vocabRangeFromGlobalVocabSize (v.padded - v.orgPadded) rank v.tpSize
      v.orgNumEmbeddings = .ok (rank * v.addedWidth + v.orgNumEmbeddings,
        rank * v.addedWidth + v.addedWidth + v.orgNumEmbeddings) := by
    unfold vocabRangeFromGlobalVocabSize
    rw [divide_eq_ok v.tp_pos v.tpSize_dvd_added]
    rfl
  have hcheck := v.check_indices rank
  unfold getIndices
  dsimp only
  rw [horg, hadded]
  show ((v.indices rank).check >>= fun _ => pure (v.indices rank)) = _
  rw [hcheck]
  rfl

theorem padVocabSize_eq_ok (hsize : 1 ≤ vocabSize) (hpad : 0 < padTo) :
    padVocabSize vocabSize padTo = .ok (alignUp vocabSize padTo) := by
  unfold padVocabSize
  simp only [check_bind_eq_ok_iff, requireInt_eq_ok_iff]
  exact ⟨by exact_mod_cast hsize, by exact_mod_cast hpad, rfl⟩

theorem numElementsPadded_eq (rank : Nat) : (v.indices rank).numElementsPadded = v.width := by
  unfold ShardIndices.numElementsPadded numOrgElementsPadded numAddedElementsPadded indices width
  dsimp only
  omega

/-- The constructor accepts the arguments, on every rank. -/
theorem new_eq (rank : Nat) :
    new v.numEmbeddings v.embeddingDim (some v.orgNumEmbeddings)
      v.paddingSize rank v.tpSize = .ok (v.layer rank) := by
  have hsize : 1 ≤ v.orgPadded + (v.numEmbeddings - v.orgNumEmbeddings) :=
    (v.org_pos.trans (le_alignUp v.padding_pos')).trans (Nat.le_add_right _ _)
  have horg : padVocabSize v.orgNumEmbeddings (resolvePaddingSize v.tpSize v.paddingSize)
      = .ok v.orgPadded := padVocabSize_eq_ok v.org_pos v.padding_pos'
  have hpadded : padVocabSize (v.orgPadded + (v.numEmbeddings - v.orgNumEmbeddings))
      (resolvePaddingSize v.tpSize v.paddingSize) = .ok v.padded :=
    padVocabSize_eq_ok hsize v.padding_pos'
  have hdivide : divide v.padded v.tpSize "num_embeddings_padded" = .ok v.width := by
    rw [divide_eq_ok v.tp_pos v.tpSize_dvd_padded]
    rw [v.padded_eq, Nat.mul_div_cancel_left _ v.tp_pos]
  unfold new
  simp only [check_bind_eq_ok_iff, requireInt_eq_ok_iff, Option.elim_some,
    reject_eq_ok_iff, Option.getD_some]
  refine ⟨by exact_mod_cast v.org_pos.trans v.org_le, by exact_mod_cast v.dim_pos,
    by exact_mod_cast v.padding_pos, ⟨by exact_mod_cast v.org_pos, Nat.not_lt.mpr v.org_le⟩, ?_⟩
  simp only [horg, hpadded, v.getIndices_eq, hdivide, bind, Except.bind]
  have hfits : reject (v.orgPadded > v.padded) (.valueError
      "padded org vocabulary must fit inside the padded vocabulary") = .ok () :=
    reject_eq_ok_iff.mpr (Nat.not_lt.mpr v.orgPadded_le_padded)
  have hcovers : reject ((v.indices rank).numElementsPadded ≠ v.width)
      (.valueError "shard layout does not cover the padded vocabulary exactly")
      = .ok () :=
    reject_eq_ok_iff.mpr (not_not.mpr (v.numElementsPadded_eq rank))
  rw [hfits, hcovers]
  rfl

/-! ## What a rank stores -/

section Table

variable {row : Type} [Zero row] (checkpoint : List row)

def orgCount (rank : Nat) : Nat :=
  v.orgStart (rank + 1) - v.orgStart rank

def addedCount (rank : Nat) : Nat :=
  v.addedStart (rank + 1) - v.addedStart rank

/-- The stored row `i`: base rows, zeros, added rows, zeros. -/
def stored (rank i : Nat) : row :=
  if i < v.orgCount rank then
    checkpoint.getD (v.orgStart rank + i) 0
  else if v.baseWidth ≤ i ∧ i < v.baseWidth + v.addedCount rank then
    checkpoint.getD (v.addedStart rank + (i - v.baseWidth)) 0
  else
    0

def table (rank : Nat) : List row :=
  (List.range v.width).map (v.stored checkpoint rank)

section

variable (rank : Nat)

theorem orgCount_le : v.orgCount rank ≤ v.baseWidth := by
  unfold orgCount orgStart
  rw [Nat.succ_mul]
  omega

theorem addedCount_le : v.addedCount rank ≤ v.addedWidth := by
  unfold addedCount addedStart
  rw [Nat.succ_mul]
  omega

theorem numOrgElements_eq : (v.indices rank).numOrgElements = v.orgCount rank := by
  unfold numOrgElements
  rw [v.orgEnd_eq]
  rfl

theorem numAddedElements_eq : (v.indices rank).numAddedElements = v.addedCount rank := by
  unfold numAddedElements
  rw [v.addedEnd_eq]
  rfl

theorem numOrgElementsPadded_eq : (v.indices rank).numOrgElementsPadded = v.baseWidth :=
  Nat.add_sub_cancel_left _ _

theorem numAddedElementsPadded_eq : (v.indices rank).numAddedElementsPadded = v.addedWidth := by
  unfold numAddedElementsPadded indices
  dsimp only
  omega

theorem orgStart_add_count_le : v.orgStart rank + v.orgCount rank ≤ v.orgNumEmbeddings := by
  unfold orgCount orgStart
  omega

theorem addedStart_add_count_le : v.addedStart rank + v.addedCount rank ≤ v.numEmbeddings := by
  unfold addedCount addedStart
  omega

end

def ranges (rank : Nat) : List CopyRange :=
  (if v.orgCount rank ≠ 0 then [CopyRange.mk 0 (v.orgStart rank) (v.orgCount rank)] else [])
    ++ (if v.addedCount rank ≠ 0 then
        [CopyRange.mk v.baseWidth (v.addedStart rank) (v.addedCount rank)] else [])

theorem plan_eq (rank : Nat) : (v.layer rank).plan v.numEmbeddings 1 = .ok (v.ranges rank) := by
  have hcount : (v.indices rank).orgVocabEndIndex - (v.indices rank).orgVocabStartIndex
      = v.orgCount rank := v.numOrgElements_eq rank
  have hreject : forall (bad : Prop) [Decidable bad] (exc : Failure),
      ¬ bad -> reject bad exc = .ok () :=
    fun bad _ exc h => reject_eq_ok_iff.mpr h
  unfold plan
  dsimp only [layer]
  rw [hreject _ _ (fun h => h.1 rfl), Nat.div_one, Nat.div_one, hcount, v.numAddedElements_eq,
    v.numOrgElementsPadded_eq]
  simp only [true_and]
  rfl

theorem covered_ranges_iff :
    Covered (v.ranges rank) i <->
      i < v.orgCount rank ∨ (v.baseWidth ≤ i ∧ i < v.baseWidth + v.addedCount rank) := by
  unfold Covered ranges
  by_cases horg : v.orgCount rank = 0
  · by_cases hadded : v.addedCount rank = 0
    · simp [horg, hadded]
    · simp [horg, hadded]
  · by_cases hadded : v.addedCount rank = 0
    · simp [horg, hadded]
    · simp [horg, hadded]

omit [Zero row] in
theorem inOrder_ranges (hlength : checkpoint.length = v.numEmbeddings) (rank : Nat) :
    InOrder checkpoint (v.ranges rank) 0 := by
  have horg : v.orgStart rank + v.orgCount rank ≤ checkpoint.length := by
    rw [hlength]
    exact (v.orgStart_add_count_le rank).trans v.org_le
  have hadded : v.addedStart rank + v.addedCount rank ≤ checkpoint.length := by
    rw [hlength]
    exact v.addedStart_add_count_le rank
  have hbase : 0 + v.orgCount rank ≤ v.baseWidth := by
    rw [Nat.zero_add]
    exact v.orgCount_le rank
  unfold ranges
  split
  · split
    · exact ⟨Nat.le_refl 0, horg, hbase, hadded, trivial⟩
    · exact ⟨Nat.le_refl 0, horg, trivial⟩
  · split
    · exact ⟨Nat.zero_le _, hadded, trivial⟩
    · trivial

variable {data : List row}

omit [Zero row] in
theorem checkRange_ranges (hlength : checkpoint.length = v.numEmbeddings)
    (hdata : data.length = v.width) (hrange : range ∈ v.ranges rank) :
    checkRange data checkpoint range = .ok () := by
  have hbounds : range.destinationStart + range.size ≤ data.length
      ∧ range.sourceStart + range.size ≤ checkpoint.length := by
    have horg := v.orgStart_add_count_le rank
    have hadded := v.addedStart_add_count_le rank
    have hbase := v.orgCount_le rank
    have hcount := v.addedCount_le rank
    have hle := v.org_le
    rw [hdata, hlength, width]
    rcases List.mem_append.mp hrange with hmem | hmem
    · split at hmem
      · rw [List.mem_singleton.mp hmem]
        dsimp only
        omega
      · cases hmem
    · split at hmem
      · rw [List.mem_singleton.mp hmem]
        dsimp only
        omega
      · cases hmem
  have hdestination : narrow data range.destinationStart range.size
      = .ok ((data.drop range.destinationStart).take range.size) := if_pos hbounds.1
  have hsource : narrow checkpoint range.sourceStart range.size
      = .ok ((checkpoint.drop range.sourceStart).take range.size) := if_pos hbounds.2
  unfold checkRange
  rw [hdestination, hsource, check_bind_eq_ok_iff, reject_eq_ok_iff]
  exact ⟨Nat.not_lt.mpr hbounds.1, rfl⟩

/-- A covered row is written with the row of the checkpoint. -/
theorem written_ranges (hlength : checkpoint.length = v.numEmbeddings)
    (hi : Covered (v.ranges rank) i) :
    written checkpoint (v.ranges rank) i = some (v.stored checkpoint rank i) := by
  have horg := v.orgStart_add_count_le rank
  have hadded := v.addedStart_add_count_le rank
  have hbase := v.orgCount_le rank
  have hle := v.org_le
  rcases v.covered_ranges_iff.mp hi with hlow | ⟨hfrom, hto⟩
  · have hbound : v.orgStart rank + i < checkpoint.length := by omega
    have hne : v.orgCount rank ≠ 0 := by omega
    have hnot : ¬ v.baseWidth ≤ i := by omega
    have hstored : v.stored checkpoint rank i = checkpoint[v.orgStart rank + i] := by
      unfold stored
      rw [if_pos hlow, List.getD_eq_getElem _ _ hbound]
    unfold ranges
    rw [hstored, if_pos hne]
    split
    · simp [written, hlow, hnot, List.getElem?_eq_getElem hbound]
    · simp [written, hlow, List.getElem?_eq_getElem hbound]
  · have hbound : v.addedStart rank + (i - v.baseWidth) < checkpoint.length := by omega
    have hne : v.addedCount rank ≠ 0 := by omega
    have hnot : ¬ i < v.orgCount rank := by omega
    have hstored : v.stored checkpoint rank i
        = checkpoint[v.addedStart rank + (i - v.baseWidth)] := by
      unfold stored
      rw [if_neg hnot, if_pos ⟨hfrom, hto⟩, List.getD_eq_getElem _ _ hbound]
    unfold ranges
    rw [hstored, if_pos hne]
    split
    · simp [written, hfrom, hto, List.getElem?_eq_getElem hbound]
    · simp [written, hfrom, hto, List.getElem?_eq_getElem hbound]

theorem stored_of_not_covered (hi : ¬ Covered (v.ranges rank) i) :
    v.stored checkpoint rank i = 0 := by
  rw [covered_ranges_iff, not_or] at hi
  unfold stored
  rw [if_neg hi.1, if_neg hi.2]

theorem getElem?_table (hdata : data.length = v.width) :
    (v.table checkpoint rank)[i]? = data[i]?.map fun _ => v.stored checkpoint rank i := by
  unfold table
  by_cases hi : i < v.width
  · rw [List.getElem?_map, List.getElem?_range hi, List.getElem?_eq_getElem (hdata ▸ hi)]
    rfl
  · rw [List.getElem?_eq_none (by simpa using hi), List.getElem?_eq_none (by omega)]
    rfl

/-- Whatever the storage held, loading leaves the table. -/
theorem weightLoader_eq (hlength : checkpoint.length = v.numEmbeddings) (rank : Nat)
    (hdata : data.length = v.width) :
    (v.layer rank).weightLoader ⟨data, none⟩ checkpoint = .ok ⟨v.table checkpoint rank, none⟩ := by
  have horder := v.inOrder_ranges checkpoint hlength rank
  have hwidth : (v.layer rank).checkWidth checkpoint.length none = .ok () :=
    reject_eq_ok_iff.mpr fun h => h.2 hlength
  have hplan : (v.layer rank).plan checkpoint.length 1 = .ok (v.ranges rank) := by
    rw [hlength]
    exact v.plan_eq rank
  have hchecks : (v.ranges rank).forM (checkRange data checkpoint) = .ok PUnit.unit :=
    forM_eq_ok_iff.mpr fun _ hrange => v.checkRange_ranges checkpoint hlength hdata hrange
  rcases copyRanges_eq_ok horder (zeroGaps (v.ranges rank) 0 data) with ⟨result, hcopy, hget⟩
  have hresult : result = v.table checkpoint rank := by
    apply List.ext_getElem?
    intro i
    rcases getElem?_zeroGaps horder data i with ⟨hcovered, hgap, _⟩
    rw [hget i, v.getElem?_table checkpoint hdata]
    by_cases hi : Covered (v.ranges rank) i
    · rw [hcovered hi, v.written_ranges checkpoint hlength hi]
      rfl
    · rw [hgap hi (Nat.zero_le i), written_eq_none hi,
        v.stored_of_not_covered checkpoint hi, Option.map_map]
      rfl
  unfold weightLoader
  dsimp only [Option.getD_none]
  rw [hwidth, hplan]
  simp only [bind, Except.bind]
  rw [hchecks]
  rw [hcopy, hresult]
  rfl

end Table

end VocabShape
end Embedding
end Ayaka
