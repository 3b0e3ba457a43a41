import Ayaka.Layers.VocabParallelTable

/-!
# Reading the vocabulary-parallel table

Every token id has one owner among the ranks and one slot in the storage of its owner.
The masks of the lookup find the owner, and the mapping of the logits lists the slots in
the order of the ids.
-/

namespace Ayaka
namespace Embedding

open Foundation
open Executor (Failure)
open MathUtils

namespace VocabShape

variable (v : VocabShape)

/-! ## Owners and slots -/

variable {rank id : Nat}

def owner (id : Nat) : Nat :=
  if id < v.orgNumEmbeddings then id / v.baseWidth
  else (id - v.orgNumEmbeddings) / v.addedWidth

def slot (id : Nat) : Nat :=
  if id < v.orgNumEmbeddings then id - v.orgStart (v.owner id)
  else v.baseWidth + (id - v.addedStart (v.owner id))

theorem baseWidth_pos : 0 < v.baseWidth := by
  have hle := v.org_pos.trans v.org_le_base
  exact Nat.pos_of_mul_pos_left hle

theorem addedWidth_pos (h : v.orgNumEmbeddings < v.numEmbeddings) : 0 < v.addedWidth := by
  have hle : 0 < v.tpSize * v.addedWidth :=
    (Nat.sub_pos_of_lt h).trans_le v.num_sub_org_le_added
  exact Nat.pos_of_mul_pos_left hle

theorem orgStart_le (rank : Nat) : v.orgStart rank ≤ v.orgNumEmbeddings :=
  Nat.min_le_right _ _

theorem le_addedStart (rank : Nat) : v.orgNumEmbeddings ≤ v.addedStart rank :=
  Nat.le_min.mpr ⟨Nat.le_add_left _ _, v.org_le⟩

/-- The rank whose base rows an id falls into. -/
theorem org_owner_iff (hid : id < v.orgNumEmbeddings) :
    (v.orgStart rank ≤ id ∧ id < v.orgStart (rank + 1)) <-> rank = id / v.baseWidth := by
  unfold orgStart
  rw [eq_comm, Nat.div_eq_iff v.baseWidth_pos, Nat.succ_mul]
  have hpos := v.baseWidth_pos
  omega

theorem added_owner_iff (hid : v.orgNumEmbeddings ≤ id) (hnum : id < v.numEmbeddings) :
    (v.addedStart rank ≤ id ∧ id < v.addedStart (rank + 1))
      <-> rank = (id - v.orgNumEmbeddings) / v.addedWidth := by
  have hpos := v.addedWidth_pos (hid.trans_lt hnum)
  unfold addedStart
  rw [eq_comm, Nat.div_eq_iff hpos, Nat.succ_mul]
  omega

theorem owner_lt (hid : id < v.numEmbeddings) : v.owner id < v.tpSize := by
  unfold owner
  split
  · next horg =>
      exact Nat.div_lt_of_lt_mul (by rw [Nat.mul_comm]; exact horg.trans_le v.org_le_base)
  · next horg =>
      have hle := v.num_sub_org_le_added
      exact Nat.div_lt_of_lt_mul (by rw [Nat.mul_comm]; omega)

theorem orgStart_owner (hid : id < v.orgNumEmbeddings) :
    v.orgStart (v.owner id) ≤ id ∧ id < v.orgStart (v.owner id + 1) :=
  (v.org_owner_iff hid).mpr (if_pos hid)

theorem addedStart_owner (hid : v.orgNumEmbeddings ≤ id) (hnum : id < v.numEmbeddings) :
    v.addedStart (v.owner id) ≤ id ∧ id < v.addedStart (v.owner id + 1) :=
  (v.added_owner_iff hid hnum).mpr (if_neg (Nat.not_lt.mpr hid))

theorem slot_lt (hid : id < v.numEmbeddings) : v.slot id < v.width := by
  have hbase := v.orgCount_le (v.owner id)
  have hadded := v.addedCount_le (v.owner id)
  unfold orgCount at hbase
  unfold addedCount at hadded
  unfold slot width
  split
  · next horg =>
      have howner := v.orgStart_owner horg
      omega
  · next horg =>
      have howner := v.addedStart_owner (Nat.not_lt.mp horg) hid
      omega

section Rows

variable {row : Type} [Zero row] (checkpoint : List row)

/-- The slot of an id holds its row of the checkpoint. -/
theorem stored_slot (hid : id < v.numEmbeddings) :
    v.stored checkpoint (v.owner id) (v.slot id) = checkpoint.getD id 0 := by
  have hbase := v.orgCount_le (v.owner id)
  unfold stored
  by_cases horg : id < v.orgNumEmbeddings
  · have howner := v.orgStart_owner horg
    have hslot : v.slot id = id - v.orgStart (v.owner id) := if_pos horg
    have hlow : v.slot id < v.orgCount (v.owner id) := by
      unfold orgCount
      omega
    rw [if_pos hlow, hslot, Nat.add_sub_cancel' howner.1]
  · have howner := v.addedStart_owner (Nat.not_lt.mp horg) hid
    have hslot : v.slot id = v.baseWidth + (id - v.addedStart (v.owner id)) := if_neg horg
    have hinside : v.slot id - v.baseWidth < v.addedCount (v.owner id) := by
      unfold addedCount
      omega
    rw [if_neg (by omega), if_pos ⟨by omega, by omega⟩, hslot, Nat.add_sub_cancel_left,
      Nat.add_sub_cancel' howner.1]

theorem embedding_table (hi : i < v.width) :
    embedding (v.table checkpoint rank) (i : Int) = .ok (v.stored checkpoint rank i) := by
  unfold embedding table
  rw [if_neg (Int.not_lt.mpr (Int.natCast_nonneg i)), Int.toNat_natCast, List.getElem?_map,
    List.getElem?_range hi]
  rfl

/-! ## The masks -/

theorem masked_owner (hid : id < v.numEmbeddings) :
    maskedVocabInput id (v.orgStart (v.owner id)) (v.orgStart (v.owner id + 1))
      (v.baseWidth - v.orgCount (v.owner id)) (v.addedStart (v.owner id))
      (v.addedStart (v.owner id + 1)) = ((v.slot id : Int), false) := by
  have hbase := v.orgCount_le (v.owner id)
  have hcount : v.orgCount (v.owner id) = v.orgStart (v.owner id + 1) - v.orgStart (v.owner id) :=
    rfl
  have hend := v.orgStart_le (v.owner id + 1)
  have hfrom := v.le_addedStart (v.owner id)
  unfold maskedVocabInput
  by_cases horg : id < v.orgNumEmbeddings
  · have howner := v.orgStart_owner horg
    have hslot : v.slot id = id - v.orgStart (v.owner id) := if_pos horg
    have hin : (v.orgStart (v.owner id) : Int) ≤ id ∧ (id : Int) < v.orgStart (v.owner id + 1) := by
      omega
    have hout : ¬ ((v.addedStart (v.owner id) : Int) ≤ id
        ∧ (id : Int) < v.addedStart (v.owner id + 1)) := by
      omega
    simp only [decide_eq_true hin, decide_eq_false hout, Bool.or_false, Bool.toInt_true,
      Bool.toInt_false, Bool.not_true, hslot]
    simp only [Prod.mk.injEq, and_true]
    omega
  · have howner := v.addedStart_owner (Nat.not_lt.mp horg) hid
    have hslot : v.slot id = v.baseWidth + (id - v.addedStart (v.owner id)) := if_neg horg
    have hout : ¬ ((v.orgStart (v.owner id) : Int) ≤ id
        ∧ (id : Int) < v.orgStart (v.owner id + 1)) := by
      omega
    have hin : (v.addedStart (v.owner id) : Int) ≤ id
        ∧ (id : Int) < v.addedStart (v.owner id + 1) := by
      omega
    have hmono : v.orgStart (v.owner id) ≤ v.orgStart (v.owner id + 1) := by
      unfold orgStart
      rw [Nat.succ_mul]
      omega
    simp only [decide_eq_true hin, decide_eq_false hout, Bool.or_true, Bool.toInt_true,
      Bool.toInt_false, Bool.not_true, hslot]
    simp only [Prod.mk.injEq, and_true]
    omega

theorem masked_other (hid : id < v.numEmbeddings) (hrank : rank ≠ v.owner id) (padding : Nat) :
    maskedVocabInput id (v.orgStart rank) (v.orgStart (rank + 1)) padding (v.addedStart rank)
      (v.addedStart (rank + 1)) = (0, true) := by
  have hend := v.orgStart_le (rank + 1)
  have hfrom := v.le_addedStart rank
  have horg : ¬ ((v.orgStart rank : Int) ≤ id ∧ (id : Int) < v.orgStart (rank + 1)) := by
    intro hin
    have hlow : id < v.orgNumEmbeddings := by omega
    exact hrank (((v.org_owner_iff hlow).mp (by omega)).trans (if_pos hlow).symm)
  have hadded : ¬ ((v.addedStart rank : Int) ≤ id ∧ (id : Int) < v.addedStart (rank + 1)) := by
    intro hin
    have hhigh : v.orgNumEmbeddings ≤ id := by omega
    exact hrank (((v.added_owner_iff hhigh hid).mp (by omega)).trans
      (if_neg (Nat.not_lt.mpr hhigh)).symm)
  unfold maskedVocabInput
  simp only [decide_eq_false horg, decide_eq_false hadded, Bool.or_false, Bool.toInt_false,
    Bool.not_false, Int.zero_mul]

/-- Of two or more ranks, the owner looks up the row and the others look up zero. -/
theorem lookup_eq (htp : v.tpSize ≠ 1) (hid : id < v.numEmbeddings) (rank : Nat) :
    (v.layer rank).lookup (v.table checkpoint rank) id
      = .ok (if rank = v.owner id then checkpoint.getD id 0 else 0) := by
  have hend := v.orgEnd_eq rank
  have haddedEnd := v.addedEnd_eq rank
  have hpadding : (v.indices rank).numOrgVocabPadding = v.baseWidth - v.orgCount rank := by
    unfold ShardIndices.numOrgVocabPadding
    rw [v.numOrgElementsPadded_eq, v.numOrgElements_eq]
  have hsize : (v.layer rank).tpSize ≠ 1 := htp
  unfold VocabParallelEmbedding.lookup
  rw [if_neg hsize]
  show (do
    let masked := maskedVocabInput id (v.orgStart rank) (v.indices rank).orgVocabEndIndex
      (v.indices rank).numOrgVocabPadding (v.addedStart rank) (v.indices rank).addedVocabEndIndex
    let output <- embedding (v.table checkpoint rank) masked.1
    pure (if masked.2 then 0 else output)) = _
  rw [hend, haddedEnd, hpadding]
  by_cases hrank : rank = v.owner id
  · subst hrank
    rw [v.masked_owner hid, if_pos rfl]
    dsimp only
    rw [v.embedding_table checkpoint (v.slot_lt hid), v.stored_slot checkpoint hid]
    rfl
  · have hpos : 0 < v.width := Nat.add_pos_left v.baseWidth_pos _
    rw [v.masked_other hid hrank, if_neg hrank]
    dsimp only
    have hzero : embedding (v.table checkpoint rank) 0 = .ok (v.stored checkpoint rank 0) :=
      v.embedding_table checkpoint hpos
    rw [hzero]
    rfl

end Rows

/-! ## The mapping -/

def baseChunk (rank : Nat) : List Nat :=
  List.range' (v.width * rank) (v.orgCount rank)

def addedChunk (rank : Nat) : List Nat :=
  List.range' (v.width * rank + v.baseWidth) (v.addedCount rank)

def paddingChunk (rank : Nat) : List Nat :=
  List.range' (v.width * rank + v.orgCount rank) (v.baseWidth - v.orgCount rank)
    ++ List.range' (v.width * rank + v.baseWidth + v.addedCount rank)
      (v.addedWidth - v.addedCount rank)

def mapping : List Nat :=
  (List.range v.tpSize).flatMap v.baseChunk ++ (List.range v.tpSize).flatMap v.addedChunk
    ++ (List.range v.tpSize).flatMap v.paddingChunk

theorem extendMapping_eq (rank count : Nat) :
    (List.range count).foldlM (v.layer rank).extendMapping ⟨[], [], []⟩
      = .ok ⟨(List.range count).flatMap v.baseChunk, (List.range count).flatMap v.addedChunk,
        (List.range count).flatMap v.paddingChunk⟩ := by
  induction count with
  | zero => rfl
  | succ count ih =>
    have hindices : getIndices (v.layer rank).numEmbeddingsPadded
        (v.layer rank).orgVocabSizePadded (v.layer rank).numEmbeddings
        (v.layer rank).orgVocabSize count (v.layer rank).tpSize
        = .ok (v.indices count) := v.getIndices_eq count
    have hcovers : Executor.reject ((v.layer rank).numEmbeddingsPerPartition * count
          + v.baseWidth + v.addedWidth
          ≠ (v.layer rank).numEmbeddingsPerPartition * (count + 1))
        (.valueError "shard layout does not cover the padded vocabulary exactly")
        = .ok () := by
      refine Executor.reject_eq_ok_iff.mpr (not_not.mpr ?_)
      show v.width * count + v.baseWidth + v.addedWidth = v.width * (count + 1)
      rw [Nat.mul_succ, Nat.add_assoc]
      rfl
    rw [List.range_succ, List.foldlM_append, ih]
    show (v.layer rank).extendMapping _ count >>= pure = _
    unfold VocabParallelEmbedding.extendMapping
    rw [hindices]
    simp only [bind, Except.bind, v.numOrgElements_eq, v.numAddedElements_eq,
      v.numOrgElementsPadded_eq, v.numAddedElementsPadded_eq]
    rw [hcovers]
    simp only [List.flatMap_append, List.flatMap_singleton]
    rw [List.append_assoc]
    rfl

theorem running_base : Chunks.Running v.baseChunk v.orgStart where
  zero := by
    unfold orgStart
    rw [Nat.zero_mul, Nat.zero_min]
  succ := by
    intro rank
    unfold baseChunk orgCount orgStart
    rw [List.length_range', Nat.succ_mul]
    omega

theorem running_added :
    Chunks.Running v.addedChunk fun rank => v.addedStart rank - v.orgNumEmbeddings where
  zero := by
    unfold addedStart
    omega
  succ := by
    intro rank
    unfold addedChunk addedCount addedStart
    rw [List.length_range', Nat.succ_mul]
    omega

theorem running_padding : Chunks.Running v.paddingChunk fun rank =>
    (rank * v.baseWidth - v.orgStart rank)
      + (rank * v.addedWidth + v.orgNumEmbeddings - v.addedStart rank) where
  zero := by
    unfold orgStart addedStart
    have hle := v.org_le
    omega
  succ := by
    intro rank
    unfold paddingChunk orgCount addedCount orgStart addedStart
    rw [List.length_append, List.length_range', List.length_range', Nat.succ_mul, Nat.succ_mul]
    omega

theorem orgStart_tpSize : v.orgStart v.tpSize = v.orgNumEmbeddings :=
  Nat.min_eq_right v.org_le_base

theorem addedStart_tpSize : v.addedStart v.tpSize = v.numEmbeddings := by
  have hle := v.num_sub_org_le_added
  exact Nat.min_eq_right (by omega)

theorem length_mapping : v.mapping.length = v.padded := by
  have hbase := v.org_le_base
  have hadded := v.num_sub_org_le_added
  have hle := v.org_le
  unfold mapping
  rw [List.length_append, List.length_append, v.running_base.length_flatMap,
    v.running_added.length_flatMap, v.running_padding.length_flatMap, v.orgStart_tpSize,
    v.addedStart_tpSize, v.padded_eq, width, Nat.mul_add]
  omega

theorem getShardedToFullMapping_eq (htp : 2 ≤ v.tpSize) (rank : Nat) :
    (v.layer rank).getShardedToFullMapping = .ok (some v.mapping) := by
  have hsize : ¬ (v.layer rank).tpSize < 2 := Nat.not_lt.mpr htp
  have hparts := v.extendMapping_eq rank v.tpSize
  have hlength : Executor.reject (v.mapping.length ≠ (v.layer rank).numEmbeddingsPadded)
      (.valueError "sharded-to-full mapping does not cover the padded vocabulary")
      = .ok () := Executor.reject_eq_ok_iff.mpr (not_not.mpr v.length_mapping)
  unfold VocabParallelEmbedding.getShardedToFullMapping
  rw [if_neg hsize]
  show ((List.range v.tpSize).foldlM (v.layer rank).extendMapping ⟨[], [], []⟩ >>= _) = _
  rw [hparts]
  show (Executor.reject (v.mapping.length ≠ (v.layer rank).numEmbeddingsPadded) _ >>= _) = _
  rw [hlength]
  rfl

/-- The mapping lists the slots in the order of the ids. -/
theorem getElem?_mapping {id : Nat} (hid : id < v.numEmbeddings) :
    v.mapping[id]? = some (v.width * v.owner id + v.slot id) := by
  have howner := v.owner_lt hid
  have hbase : ((List.range v.tpSize).flatMap v.baseChunk).length = v.orgNumEmbeddings := by
    rw [v.running_base.length_flatMap, v.orgStart_tpSize]
  have hadded : ((List.range v.tpSize).flatMap v.addedChunk).length
      = v.numEmbeddings - v.orgNumEmbeddings := by
    rw [v.running_added.length_flatMap, v.addedStart_tpSize]
  unfold mapping
  rw [List.getElem?_append_left (by rw [List.length_append, hbase, hadded]; omega)]
  by_cases horg : id < v.orgNumEmbeddings
  · have hrange := v.orgStart_owner horg
    have hslot : v.slot id = id - v.orgStart (v.owner id) := if_pos horg
    have hlength : v.slot id < (v.baseChunk (v.owner id)).length := by
      unfold baseChunk orgCount
      rw [List.length_range']
      omega
    have hget := v.running_base.getElem?_flatMap howner hlength
    rw [hslot, Nat.add_sub_cancel' hrange.1, <- hslot] at hget
    rw [List.getElem?_append_left (by rw [hbase]; exact horg), hget]
    unfold baseChunk at hlength ⊢
    rw [List.length_range'] at hlength
    rw [List.getElem?_range' hlength, Nat.one_mul]
  · have hrange := v.addedStart_owner (Nat.not_lt.mp horg) hid
    have hfrom := v.le_addedStart (v.owner id)
    have hslot : v.slot id = v.baseWidth + (id - v.addedStart (v.owner id)) := if_neg horg
    have hlength : id - v.addedStart (v.owner id) < (v.addedChunk (v.owner id)).length := by
      unfold addedChunk addedCount
      rw [List.length_range']
      omega
    have hget := v.running_added.getElem?_flatMap howner hlength
    have hindex : v.addedStart (v.owner id) - v.orgNumEmbeddings
        + (id - v.addedStart (v.owner id)) = id - v.orgNumEmbeddings := by
      omega
    rw [hindex] at hget
    rw [List.getElem?_append_right (by rw [hbase]; exact Nat.not_lt.mp horg), hbase, hget]
    unfold addedChunk at hlength ⊢
    rw [List.length_range'] at hlength
    rw [List.getElem?_range' hlength, Nat.one_mul, hslot, Nat.add_assoc]

theorem lt_of_mem_mapping {i : Nat} (hi : i ∈ v.mapping) : i < v.width * v.tpSize := by
  have hchunk : exists rank, rank < v.tpSize ∧ i < v.width * (rank + 1) := by
    unfold mapping at hi
    simp only [List.mem_append, List.mem_flatMap, List.mem_range, baseChunk, addedChunk,
      paddingChunk, List.mem_range'_1] at hi
    have hwidth : v.width = v.baseWidth + v.addedWidth := rfl
    rcases hi with (⟨rank, hrank, hmem⟩ | ⟨rank, hrank, hmem⟩) | ⟨rank, hrank, hmem⟩
    all_goals
      have _ := v.orgCount_le rank
      have hadded := v.addedCount_le rank
      refine ⟨rank, hrank, ?_⟩
      rw [Nat.mul_succ]
      omega
  rcases hchunk with ⟨rank, hrank, hlt⟩
  exact hlt.trans_le (Nat.mul_le_mul_left _ hrank)

/-! ## The group -/

section Group

variable {row : Type} [AddCommMonoid row] (checkpoint : List row) (storage : Nat -> Nat -> row)

def loadRank (rank : Nat) : Except Failure (VocabParallelEmbedding × List row) := do
  let layer <- VocabParallelEmbedding.new v.numEmbeddings v.embeddingDim
    (some v.orgNumEmbeddings) v.paddingSize rank v.tpSize
  let parameter <- layer.weightLoader
    ⟨(List.range layer.numEmbeddingsPerPartition).map (storage rank), none⟩ checkpoint
  pure (layer, parameter.data)

def loadGroup : Except Failure (List (VocabParallelEmbedding × List row)) :=
  (List.range v.tpSize).mapM (v.loadRank checkpoint storage)

def ranks : List (VocabParallelEmbedding × List row) :=
  (List.range v.tpSize).map fun rank => (v.layer rank, v.table checkpoint rank)

theorem loadGroup_eq (hlength : checkpoint.length = v.numEmbeddings) :
    v.loadGroup checkpoint storage = .ok (v.ranks checkpoint) := by
  refine mapM_eq_ok_map fun rank _ => ?_
  have hdata : ((List.range v.width).map (storage rank)).length = v.width := by
    rw [List.length_map, List.length_range]
  have hload := v.weightLoader_eq checkpoint hlength rank hdata
  unfold loadRank
  rw [v.new_eq]
  show ((v.layer rank).weightLoader _ checkpoint >>= _) = _
  rw [show (v.layer rank).numEmbeddingsPerPartition = v.width from rfl, hload]
  rfl

theorem sum_single (h : chosen < count) (x : row) :
    ((List.range count).map fun rank => if rank = chosen then x else 0).sum = x := by
  have hsum : ((List.range count).map fun rank => if rank = chosen then x else 0).sum
      = ∑ rank ∈ Finset.range count, if rank = chosen then x else 0 := rfl
  rw [hsum, Finset.sum_ite_eq', if_pos (Finset.mem_range.mpr h)]

/-- Two or more ranks look up the rows of the checkpoint. -/
theorem forward_eq (htp : v.tpSize ≠ 1) (hid : id < v.numEmbeddings) :
    forward (v.ranks checkpoint) id = .ok (checkpoint.getD id 0) := by
  have hlookups : (v.ranks checkpoint).mapM (fun rank => rank.1.lookup rank.2 (id : Int))
      = .ok ((List.range v.tpSize).map fun rank =>
        if rank = v.owner id then checkpoint.getD id 0 else 0) := by
    unfold ranks
    rw [List.mapM_map]
    exact mapM_eq_ok_map fun rank _ => v.lookup_eq checkpoint htp hid rank
  unfold forward
  rw [hlookups]
  show Except.ok _ = _
  rw [sum_single (v.owner_lt hid)]

end Group

section Logits

variable {ring : Type} [CommRing ring] (checkpoint : List (Fin v.embeddingDim -> ring))

def head (rank : VocabParallelEmbedding × List (Fin v.embeddingDim -> ring)) :
    ParallelLMHead ring v.embeddingDim where
  layer := rank.1
  weight := rank.2

def denseLogits (hidden : Fin v.embeddingDim -> ring) : List ring :=
  checkpoint.map fun row => ∑ j, hidden j * row j

theorem indexSelect_eq {values : List ring} {order : List Nat}
    (h : forall i, i ∈ order -> i < values.length) :
    indexSelect values order = .ok (order.map fun i => values.getD i 0) := by
  refine mapM_eq_ok_map fun i hi => ?_
  have hlt := h i hi
  rw [List.getElem?_eq_getElem hlt, List.getD_eq_getElem _ _ hlt]
  rfl

section

variable (hidden : Fin v.embeddingDim -> ring)
include hidden

def gathered : List ring :=
  (List.range v.tpSize).flatMap fun rank => linear hidden (v.table checkpoint rank)

theorem running_gathered :
    Chunks.Running (fun rank => linear hidden (v.table checkpoint rank)) fun rank =>
      v.width * rank where
  zero := Nat.mul_zero _
  succ := by
    intro rank
    unfold linear table
    rw [List.length_map, List.length_map, List.length_range, Nat.mul_succ]

theorem getElem?_gathered {id : Nat} (hid : id < v.numEmbeddings) :
    (v.gathered checkpoint hidden)[v.width * v.owner id + v.slot id]?
      = some (∑ j, hidden j * checkpoint.getD id 0 j) := by
  have hslot := v.slot_lt hid
  have hlength : v.slot id < (linear hidden (v.table checkpoint (v.owner id))).length := by
    unfold linear table
    rw [List.length_map, List.length_map, List.length_range]
    exact hslot
  have hget := (v.running_gathered checkpoint hidden).getElem?_flatMap (v.owner_lt hid) hlength
  unfold gathered
  rw [hget]
  unfold linear table
  rw [List.getElem?_map, List.getElem?_map, List.getElem?_range hslot, Option.map_some,
    Option.map_some, v.stored_slot checkpoint hid]

end

/-- Two or more ranks return the logits of the dense head. -/
theorem logits_eq (htp : 2 ≤ v.tpSize) (hlength : checkpoint.length = v.numEmbeddings)
    (rank : Nat) (hidden : Fin v.embeddingDim -> ring) :
    (v.head (v.layer rank, v.table checkpoint rank)).logits ((v.ranks checkpoint).map v.head) hidden
      = .ok (v.denseLogits checkpoint hidden) := by
  have hsize : ¬ v.tpSize = 1 := by omega
  have hgathered : (((v.ranks checkpoint).map v.head).flatMap fun other =>
      other.localLogits hidden) = v.gathered checkpoint hidden := by
    unfold ranks
    rw [List.map_map, List.flatMap_map]
    rfl
  have hlen : (v.gathered checkpoint hidden).length = v.width * v.tpSize :=
    (v.running_gathered checkpoint hidden).length_flatMap v.tpSize
  have hselect : indexSelect (v.gathered checkpoint hidden) v.mapping
      = .ok (v.mapping.map fun i => (v.gathered checkpoint hidden).getD i 0) :=
    indexSelect_eq fun i hi => by
      rw [hlen]
      exact v.lt_of_mem_mapping hi
  have hdense : (v.mapping.map fun i => (v.gathered checkpoint hidden).getD i 0).take
      v.numEmbeddings = v.denseLogits checkpoint hidden := by
    apply List.ext_getElem?
    intro id
    unfold denseLogits
    rw [List.getElem?_take, List.getElem?_map]
    split
    · next hid =>
        have hrow : checkpoint[id]? = some (checkpoint.getD id 0) := by
          rw [List.getD_eq_getElem _ _ (hlength ▸ hid), List.getElem?_eq_getElem]
        rw [List.getElem?_map, v.getElem?_mapping hid, hrow, Option.map_some, Option.map_some,
          List.getD_eq_getElem?_getD, v.getElem?_gathered checkpoint hidden hid, Option.getD_some]
    · next hid =>
        rw [List.getElem?_eq_none (by rw [List.length_map]; omega)]
  show (if v.tpSize = 1 then _ else (do
    let mapping <- (v.layer rank).getShardedToFullMapping
    let selected <- mapping.elim (.error (.exception "AssertionError"))
      (indexSelect (((v.ranks checkpoint).map v.head).flatMap fun other =>
        ParallelLMHead.localLogits other hidden))
    pure (selected.take v.numEmbeddings))) = _
  rw [if_neg hsize, v.getShardedToFullMapping_eq htp rank, hgathered]
  show (indexSelect (v.gathered checkpoint hidden) v.mapping >>= _) = _
  rw [hselect]
  show Except.ok _ = _
  rw [hdense]

end Logits

/-! ## One rank -/

/-- The storage of a single rank has no gap between its base and its added rows. -/
def Gapless : Prop :=
  v.numEmbeddings = v.orgNumEmbeddings ∨ v.paddingSize ∣ v.orgNumEmbeddings

instance : Decidable v.Gapless :=
  inferInstanceAs (Decidable (_ ∨ _))

section Single

variable (hone : v.tpSize = 1)

include hone in
theorem baseWidth_of_single : v.baseWidth = alignUp v.orgNumEmbeddings v.paddingSize := by
  have hpadding : v.padding = v.paddingSize := by
    exact if_neg fun h => absurd h.1 (by omega)
  unfold baseWidth orgPadded
  rw [hone, Nat.div_one, hpadding]

include hone in
theorem counts_of_single : v.orgStart 0 = 0 ∧ v.orgCount 0 = v.orgNumEmbeddings
    ∧ v.addedStart 0 = v.orgNumEmbeddings
    ∧ v.addedCount 0 = v.numEmbeddings - v.orgNumEmbeddings := by
  have horg := v.orgStart_tpSize
  have hadded := v.addedStart_tpSize
  have hzero := v.running_base.zero
  have hle := v.org_le
  have hfirst : v.addedStart 0 = v.orgNumEmbeddings := by
    unfold addedStart
    omega
  rw [hone] at horg hadded
  unfold orgCount addedCount
  rw [horg, hadded, hzero, hfirst]
  exact ⟨rfl, Nat.sub_zero _, rfl, rfl⟩

variable {row : Type} [Zero row] (checkpoint : List row)

include hone in
theorem stored_of_gapless (hgap : v.Gapless) (hid : id < v.numEmbeddings) :
    v.stored checkpoint 0 id = checkpoint.getD id 0 := by
  rcases v.counts_of_single hone with ⟨hstart, hcount, hadded, haddedCount⟩
  unfold stored
  rw [hstart, hcount, hadded, haddedCount]
  split
  · rw [Nat.zero_add]
  · next horg =>
      rcases hgap with _ | hdvd
      · exact absurd hid (by omega)
      · have hbase : v.baseWidth = v.orgNumEmbeddings := by
          rw [v.baseWidth_of_single hone]
          exact (alignUp_eq_self_iff v.padding_pos).mpr hdvd
        rw [hbase, if_pos ⟨by omega, by omega⟩, Nat.add_sub_cancel' (by omega)]

include hone in
/-- With a gap, the id of the first added token reads padding. -/
theorem stored_of_gap (hgap : ¬ v.Gapless) : v.stored checkpoint 0 v.orgNumEmbeddings = 0 := by
  rcases v.counts_of_single hone with ⟨_, hcount, _, _⟩
  have _ : v.orgNumEmbeddings ≤ alignUp v.orgNumEmbeddings v.paddingSize :=
    le_alignUp v.padding_pos
  have hne : alignUp v.orgNumEmbeddings v.paddingSize ≠ v.orgNumEmbeddings :=
    fun heq => hgap (.inr ((alignUp_eq_self_iff v.padding_pos).mp heq))
  have hbase := v.baseWidth_of_single hone
  unfold stored
  rw [hcount, if_neg (Nat.lt_irrefl _), if_neg (by omega)]

include hone in
theorem num_le_width : v.numEmbeddings ≤ v.width := by
  have hbase := v.org_le_base
  have hadded := v.num_sub_org_le_added
  rw [hone, Nat.one_mul] at hbase hadded
  unfold width
  omega

include hone in
theorem lookup_single (hid : id < v.numEmbeddings) :
    (v.layer 0).lookup (v.table checkpoint 0) id = .ok (v.stored checkpoint 0 id) := by
  have hsize : (v.layer 0).tpSize = 1 := hone
  unfold VocabParallelEmbedding.lookup
  rw [if_pos hsize]
  exact v.embedding_table checkpoint (hid.trans_le (v.num_le_width hone))

end Single

section SingleRing

variable {ring : Type} [CommRing ring] (checkpoint : List (Fin v.embeddingDim -> ring))

theorem ranks_single (hone : v.tpSize = 1) :
    v.ranks checkpoint = [(v.layer 0, v.table checkpoint 0)] := by
  unfold ranks
  rw [hone]
  rfl

theorem forward_single (hone : v.tpSize = 1) (hid : id < v.numEmbeddings) :
    forward (v.ranks checkpoint) id = .ok (v.stored checkpoint 0 id) := by
  unfold forward
  rw [v.ranks_single checkpoint hone, List.mapM_cons, v.lookup_single hone checkpoint hid]
  show Except.ok (List.sum [v.stored checkpoint 0 id]) = _
  rw [List.sum_singleton]

theorem logits_single (hone : v.tpSize = 1) (hgap : v.Gapless)
    (hlength : checkpoint.length = v.numEmbeddings) (heads : List (ParallelLMHead ring _))
    (hidden : Fin v.embeddingDim -> ring) :
    (v.head (v.layer 0, v.table checkpoint 0)).logits heads hidden
      = .ok (v.denseLogits checkpoint hidden) := by
  have htable : (v.table checkpoint 0).take v.numEmbeddings = checkpoint := by
    apply List.ext_getElem?
    intro id
    rw [List.getElem?_take]
    split
    · next hid =>
        have hwidth : id < v.width := hid.trans_le (v.num_le_width hone)
        have hbound : id < checkpoint.length := hlength ▸ hid
        unfold table
        rw [List.getElem?_map, List.getElem?_range hwidth, Option.map_some,
          v.stored_of_gapless hone checkpoint hgap hid, List.getD_eq_getElem _ _ hbound,
          List.getElem?_eq_getElem hbound]
    · next hid =>
        rw [List.getElem?_eq_none (by omega)]
  have hsize : (v.head (v.layer 0, v.table checkpoint 0)).layer.tpSize = 1 := hone
  unfold ParallelLMHead.logits
  rw [if_pos hsize]
  show Except.ok ((linear hidden ((v.table checkpoint 0).take v.numEmbeddings)).take
    v.numEmbeddings) = _
  rw [htable]
  unfold denseLogits linear
  rw [List.take_of_length_le (by rw [List.length_map, hlength])]

end SingleRing

/-! ## The dense table -/

/-- Every rank loads every checkpoint, whatever its storage held; the ranks together look
up the rows of the checkpoint, and each returns the products with them. -/
def Dense (ring : Type) [CommRing ring] : Prop :=
  forall (checkpoint : List (Fin v.embeddingDim -> ring))
    (storage : Nat -> Nat -> Fin v.embeddingDim -> ring),
    checkpoint.length = v.numEmbeddings ->
    exists ranks, v.loadGroup checkpoint storage = .ok ranks
      ∧ (forall (id : Nat) row, checkpoint[id]? = some row -> forward ranks id = .ok row)
      ∧ forall rank, rank ∈ ranks -> forall hidden,
        (v.head rank).logits (ranks.map v.head) hidden
          = .ok (checkpoint.map fun row => ∑ j, hidden j * row j)

theorem dense_of_forward {ring : Type} [CommRing ring]
    (hforward : forall (checkpoint : List (Fin v.embeddingDim -> ring)) (id : Nat),
      id < v.numEmbeddings -> forward (v.ranks checkpoint) id = .ok (checkpoint.getD id 0))
    (hlogits : forall (checkpoint : List (Fin v.embeddingDim -> ring)) rank hidden,
      checkpoint.length = v.numEmbeddings -> rank < v.tpSize ->
      (v.head (v.layer rank, v.table checkpoint rank)).logits
        ((v.ranks checkpoint).map v.head) hidden = .ok (v.denseLogits checkpoint hidden)) :
    v.Dense ring := by
  intro checkpoint storage hlength
  refine ⟨v.ranks checkpoint, v.loadGroup_eq checkpoint storage hlength, fun id row hrow => ?_,
    fun rank hrank hidden => ?_⟩
  · rcases List.getElem?_eq_some_iff.mp hrow with ⟨hbound, hget⟩
    rw [hforward checkpoint id (hlength ▸ hbound), List.getD_eq_getElem _ _ hbound, hget]
  · rcases List.mem_map.mp hrank with ⟨index, hindex, rfl⟩
    exact hlogits checkpoint index hidden hlength (List.mem_range.mp hindex)

theorem dense_of_gapless {ring : Type} [CommRing ring] (h : 2 ≤ v.tpSize ∨ v.Gapless) :
    v.Dense ring := by
  by_cases htp : 2 ≤ v.tpSize
  · exact v.dense_of_forward (fun checkpoint id hid => v.forward_eq checkpoint (by omega) hid)
      fun checkpoint rank hidden hlength _ => v.logits_eq checkpoint htp hlength rank hidden
  · have hgap := h.resolve_left htp
    have hone : v.tpSize = 1 := Nat.le_antisymm (by omega) v.tp_pos
    refine v.dense_of_forward (fun checkpoint id hid => ?_)
      fun checkpoint rank hidden hlength hrank => ?_
    · rw [v.forward_single checkpoint hone hid, v.stored_of_gapless hone checkpoint hgap hid]
    · have hzero : rank = 0 := by omega
      rw [hzero]
      exact v.logits_single checkpoint hone hgap hlength _ hidden

/-- The vocabulary-parallel table is the dense one for two or more ranks, and for a single
rank exactly when the base vocabulary needs no padding or there are no added tokens. -/
theorem dense_iff :
    (forall (ring : Type) [CommRing ring], v.Dense ring) <-> 2 ≤ v.tpSize ∨ v.Gapless := by
  constructor
  · intro hdense
    by_contra hnot
    rcases not_or.mp hnot with ⟨htp, hgap⟩
    have hone : v.tpSize = 1 := Nat.le_antisymm (by omega) v.tp_pos
    have horg : v.orgNumEmbeddings < v.numEmbeddings :=
      Nat.lt_of_le_of_ne v.org_le fun heq => hgap (Or.inl heq.symm)
    -- a table of ones: the first added token reads a zero
    let checkpoint : List (Fin v.embeddingDim -> Int) := List.replicate v.numEmbeddings 1
    have hlength : checkpoint.length = v.numEmbeddings := List.length_replicate
    rcases hdense Int checkpoint (fun _ _ => 0) hlength with ⟨_, hload, hforward, _⟩
    rw [v.loadGroup_eq checkpoint _ hlength] at hload
    cases hload
    have hrow : checkpoint[v.orgNumEmbeddings]? = some 1 := by
      rw [List.getElem?_replicate, if_pos horg]
    have hread := hforward v.orgNumEmbeddings 1 hrow
    rw [v.forward_single checkpoint hone horg, v.stored_of_gap hone checkpoint hgap] at hread
    have heq : (0 : Fin v.embeddingDim -> Int) = 1 := Except.ok.inj hread
    exact absurd (congrFun heq ⟨0, v.dim_pos⟩) Int.zero_ne_one
  · intro h ring _
    exact v.dense_of_gapless h

/-- Two base tokens padded to four, one added token, one rank. -/
def singleRank : VocabShape where
  numEmbeddings := 3
  orgNumEmbeddings := 2
  paddingSize := 4
  tpSize := 1
  embeddingDim := 1
  org_pos := Nat.two_pos
  org_le := by decide
  padding_pos := by decide
  tp_pos := Nat.one_pos
  dim_pos := Nat.one_pos

def threeRows : List (Fin 1 -> Int) :=
  [fun _ => 1, fun _ => 2, fun _ => 3]

/-- The single rank stores the added row after the padding of the base rows and reads the
padding in its place. -/
theorem singleRank_reads_padding :
    exists ranks, singleRank.loadGroup threeRows (fun _ _ => 0) = Except.ok ranks
      ∧ threeRows[2]? = some (fun _ => 3) ∧ forward ranks 2 = Except.ok (fun _ => 0) := by
  refine ⟨singleRank.ranks threeRows, singleRank.loadGroup_eq threeRows _ rfl, rfl, ?_⟩
  have hforward := singleRank.forward_single threeRows rfl (show 2 < 3 by decide)
  have hpadding := singleRank.stored_of_gap rfl threeRows (by decide)
  exact hforward.trans (congrArg Except.ok hpadding)

end VocabShape
end Embedding
end Ayaka
