import Ayaka.Executor.Failure
import Ayaka.Utils.MathUtils

/-!
# The vocabulary-parallel table

The base vocabulary and the added tokens are padded separately, and each of them is
divided evenly over the ranks.  The storage of a rank holds its base rows, their
padding, its added rows and their padding, in this order.

A lookup is modelled for one token id and a projection for one hidden row: tensors of
them are handled entry by entry.  Devices, dtypes and quantized methods are left out,
and so is the fused kernel.
-/

namespace Ayaka
namespace Embedding

open Executor (Failure reject requireInt)
open MathUtils (alignUp)

/-! ## Ranges -/

def padVocabSize (vocabSize padTo : Nat) : Except Failure Nat := do
  requireInt vocabSize "vocab_size" 1
  requireInt padTo "pad_to" 1
  pure (alignUp vocabSize padTo)

def divide (value divisor : Nat) (name : String) : Except Failure Nat := do
  requireInt divisor "divisor" 1
  reject (value % divisor ≠ 0) (.valueError
    (name ++ "=" ++ toString value ++ " must be divisible by " ++ toString divisor))
  pure (value / divisor)

def vocabRangeFromPerPartitionVocabSize (perPartitionVocabSize rank offset : Nat) : Nat × Nat :=
  let indexF := rank * perPartitionVocabSize
  (indexF + offset, indexF + perPartitionVocabSize + offset)

def vocabRangeFromGlobalVocabSize (globalVocabSize rank worldSize offset : Nat) :
    Except Failure (Nat × Nat) := do
  let perPartitionVocabSize <- divide globalVocabSize worldSize "global_vocab_size"
  pure (vocabRangeFromPerPartitionVocabSize perPartitionVocabSize rank offset)

structure ShardIndices where
  paddedOrgVocabStartIndex : Nat
  paddedOrgVocabEndIndex : Nat
  paddedAddedVocabStartIndex : Nat
  paddedAddedVocabEndIndex : Nat
  orgVocabStartIndex : Nat
  orgVocabEndIndex : Nat
  addedVocabStartIndex : Nat
  addedVocabEndIndex : Nat
  deriving DecidableEq, Repr

namespace ShardIndices

section

variable (s : ShardIndices)

def numOrgElements : Nat :=
  s.orgVocabEndIndex - s.orgVocabStartIndex

def numAddedElements : Nat :=
  s.addedVocabEndIndex - s.addedVocabStartIndex

def numOrgElementsPadded : Nat :=
  s.paddedOrgVocabEndIndex - s.paddedOrgVocabStartIndex

def numAddedElementsPadded : Nat :=
  s.paddedAddedVocabEndIndex - s.paddedAddedVocabStartIndex

def numOrgVocabPadding : Nat :=
  s.numOrgElementsPadded - s.numOrgElements

def numElementsPadded : Nat :=
  s.numOrgElementsPadded + s.numAddedElementsPadded

/-- `__post_init__`. -/
def check : Except Failure Unit := do
  reject (s.paddedOrgVocabStartIndex > s.paddedOrgVocabEndIndex)
    (.valueError "padded org vocab start must not exceed its end")
  reject (s.paddedAddedVocabStartIndex > s.paddedAddedVocabEndIndex)
    (.valueError "padded added vocab start must not exceed its end")
  reject (s.orgVocabStartIndex > s.orgVocabEndIndex)
    (.valueError "org vocab start must not exceed its end")
  reject (s.addedVocabStartIndex > s.addedVocabEndIndex)
    (.valueError "added vocab start must not exceed its end")
  reject (s.orgVocabStartIndex > s.paddedOrgVocabStartIndex)
    (.valueError "org vocab start must not exceed its padded start")
  reject (s.addedVocabStartIndex > s.paddedAddedVocabStartIndex)
    (.valueError "added vocab start must not exceed its padded start")
  reject (s.orgVocabEndIndex > s.paddedOrgVocabEndIndex)
    (.valueError "org vocab range must lie inside its padded range")
  reject (s.addedVocabEndIndex > s.paddedAddedVocabEndIndex)
    (.valueError "added vocab range must lie inside its padded range")
  reject (s.numOrgElements > s.numOrgElementsPadded)
    (.valueError "org vocab padding must not be negative")
  reject (s.numAddedElements > s.numAddedElementsPadded)
    (.valueError "added vocab padding must not be negative")

end

end ShardIndices

def getIndices (vocabSizePadded orgVocabSizePadded vocabSize orgVocabSize tpRank tpSize : Nat) :
    Except Failure ShardIndices := do
  let numAddedEmbeddingsPadded := vocabSizePadded - orgVocabSizePadded
  let org <- vocabRangeFromGlobalVocabSize orgVocabSizePadded tpRank tpSize 0
  let added <- vocabRangeFromGlobalVocabSize numAddedEmbeddingsPadded tpRank tpSize orgVocabSize
  let indices : ShardIndices :=
    { paddedOrgVocabStartIndex := org.1
      paddedOrgVocabEndIndex := org.2
      paddedAddedVocabStartIndex := added.1
      paddedAddedVocabEndIndex := added.2
      orgVocabStartIndex := min org.1 orgVocabSize
      orgVocabEndIndex := min org.2 orgVocabSize
      addedVocabStartIndex := min added.1 vocabSize
      addedVocabEndIndex := min added.2 vocabSize }
  indices.check
  pure indices

/-! ## The layer -/

structure VocabParallelEmbedding where
  numEmbeddings : Nat
  orgVocabSize : Nat
  tpRank : Nat
  tpSize : Nat
  orgVocabSizePadded : Nat
  numEmbeddingsPadded : Nat
  shardIndices : ShardIndices
  numEmbeddingsPerPartition : Nat
  deriving DecidableEq, Repr

def resolvePaddingSize (tpSize paddingSize : Nat) : Nat :=
  if tpSize > 1 ∧ paddingSize % tpSize ≠ 0 then paddingSize * tpSize else paddingSize

/-- The constructor, for a rank of a group. -/
def VocabParallelEmbedding.new (numEmbeddings embeddingDim : Nat) (orgNumEmbeddings : Option Nat)
    (paddingSize tpRank tpSize : Nat) : Except Failure VocabParallelEmbedding := do
  requireInt numEmbeddings "num_embeddings" 1
  requireInt embeddingDim "embedding_dim" 1
  requireInt paddingSize "padding_size" 1
  orgNumEmbeddings.elim (pure ()) fun org => do
    requireInt org "org_num_embeddings" 1
    reject (org > numEmbeddings)
      (.valueError "org_num_embeddings must not exceed num_embeddings")
  let orgVocabSize := orgNumEmbeddings.getD numEmbeddings
  let resolved := resolvePaddingSize tpSize paddingSize
  let orgVocabSizePadded <- padVocabSize orgVocabSize resolved
  let numEmbeddingsPadded <-
    padVocabSize (orgVocabSizePadded + (numEmbeddings - orgVocabSize)) resolved
  reject (orgVocabSizePadded > numEmbeddingsPadded)
    (.valueError "padded org vocabulary must fit inside the padded vocabulary")
  let shardIndices <- getIndices numEmbeddingsPadded orgVocabSizePadded numEmbeddings
    orgVocabSize tpRank tpSize
  let numEmbeddingsPerPartition <- divide numEmbeddingsPadded tpSize "num_embeddings_padded"
  reject (shardIndices.numElementsPadded ≠ numEmbeddingsPerPartition)
    (.valueError "shard layout does not cover the padded vocabulary exactly")
  pure
    { numEmbeddings := numEmbeddings
      orgVocabSize := orgVocabSize
      tpRank := tpRank
      tpSize := tpSize
      orgVocabSizePadded := orgVocabSizePadded
      numEmbeddingsPadded := numEmbeddingsPadded
      shardIndices := shardIndices
      numEmbeddingsPerPartition := numEmbeddingsPerPartition }

/-! ## Loading -/

section Loading

variable {row : Type} [Zero row]

def narrow (data : List row) (start size : Nat) : Except Failure (List row) :=
  if start + size ≤ data.length then .ok ((data.drop start).take size)
  else .error (.runtimeError ("start (" ++ toString start ++ ") + length ("
    ++ toString size ++ ") exceeds dimension size (" ++ toString data.length ++ ")."))

def overwrite (data : List row) (start : Nat) (values : List row) : List row :=
  data.mapIdx fun i old => if start ≤ i then values[i - start]?.getD old else old

structure CopyRange where
  destinationStart : Nat
  sourceStart : Nat
  size : Nat
  deriving DecidableEq, Repr

/-- A parameter sharded along its rows; `packedFactor` is there when the rows are packed. -/
structure Parameter (row : Type) where
  data : List row
  packedFactor : Option Nat

namespace VocabParallelEmbedding

def checkWidth (layer : VocabParallelEmbedding) (width : Nat) :
    Option Nat -> Except Failure Unit
  | none => reject (width ≠ layer.orgVocabSize ∧ width ≠ layer.numEmbeddings) (.valueError
      ("checkpoint width " ++ toString width ++ " matches neither org vocabulary "
        ++ toString layer.orgVocabSize ++ " nor full vocabulary " ++ toString layer.numEmbeddings))
  | some factor => do
    requireInt factor "packed_factor" 1
    reject (width ≠ layer.orgVocabSize / factor) (.valueError
      ("packed checkpoint width " ++ toString width ++ " does not match org vocabulary "
        ++ toString layer.orgVocabSize ++ " at factor " ++ toString factor))
    reject (width * factor ≠ layer.orgVocabSize)
      (.valueError "packed checkpoint does not cover the org vocabulary")

def plan (layer : VocabParallelEmbedding) (width packedFactor : Nat) :
    Except Failure (List CopyRange) := do
  let indices := layer.shardIndices
  let baseStart := indices.orgVocabStartIndex
  let baseSize := indices.orgVocabEndIndex - baseStart
  reject (packedFactor ≠ 1 ∧ (baseStart % packedFactor ≠ 0 ∨ baseSize % packedFactor ≠ 0))
    (.valueError "embedding shard is not divisible by the packed factor")
  let baseStart := baseStart / packedFactor
  let baseSize := baseSize / packedFactor
  let base := if baseSize ≠ 0 then [CopyRange.mk 0 baseStart baseSize] else []
  let added :=
    if width = layer.numEmbeddings ∧ indices.numAddedElements ≠ 0 then
      [CopyRange.mk indices.numOrgElementsPadded indices.addedVocabStartIndex
        indices.numAddedElements]
    else
      []
  pure (base ++ added)

end VocabParallelEmbedding

def checkRange (data loaded : List row) (range : CopyRange) : Except Failure Unit := do
  reject (range.destinationStart + range.size > data.length) (.valueError
    ("embedding shard [" ++ toString range.destinationStart ++ ", "
      ++ toString (range.destinationStart + range.size) ++ ") exceeds parameter width "
      ++ toString data.length))
  let _ <- narrow data range.destinationStart range.size
  let _ <- narrow loaded range.sourceStart range.size
  pure ()

/-- Zero the rows no range covers, from `cursor` on. -/
def zeroGaps : List CopyRange -> Nat -> List row -> List row
  | [], cursor, data =>
    if cursor < data.length then
      overwrite data cursor (List.replicate (data.length - cursor) 0)
    else
      data
  | range :: rest, cursor, data =>
    zeroGaps rest (range.destinationStart + range.size)
      (if range.destinationStart > cursor then
        overwrite data cursor (List.replicate (range.destinationStart - cursor) 0)
      else
        data)

def copyRanges (loaded : List row) : List CopyRange -> List row -> Except Failure (List row)
  | [], data => pure data
  | range :: rest, data => do
    let source <- narrow loaded range.sourceStart range.size
    copyRanges loaded rest (overwrite data range.destinationStart source)

/-- `weight_loader` of a parameter with an output dimension. -/
def VocabParallelEmbedding.weightLoader (layer : VocabParallelEmbedding)
    (parameter : Parameter row) (loaded : List row) : Except Failure (Parameter row) := do
  layer.checkWidth loaded.length parameter.packedFactor
  let plan <- layer.plan loaded.length (parameter.packedFactor.getD 1)
  plan.forM (checkRange parameter.data loaded)
  let data <- copyRanges loaded plan (zeroGaps plan 0 parameter.data)
  pure { parameter with data := data }

end Loading

/-! ## Lookup -/

/-- `masked_vocab_input` at one id: the local row, and whether the id is a miss. -/
def maskedVocabInput (input : Int) (orgVocabStartIndex orgVocabEndIndex numOrgVocabPadding
    addedVocabStartIndex addedVocabEndIndex : Nat) : Int × Bool :=
  let orgVocabMask : Bool := decide (orgVocabStartIndex ≤ input ∧ input < orgVocabEndIndex)
  let addedVocabMask : Bool := decide (addedVocabStartIndex ≤ input ∧ input < addedVocabEndIndex)
  let addedOffset : Int := addedVocabStartIndex
    - ((orgVocabEndIndex : Int) - orgVocabStartIndex) - numOrgVocabPadding
  let validOffset := orgVocabStartIndex * orgVocabMask.toInt + addedOffset * addedVocabMask.toInt
  let vocabMask := orgVocabMask || addedVocabMask
  (vocabMask.toInt * (input - validOffset), !vocabMask)

/-- `F.embedding` at one id. -/
def embedding {row : Type} (weight : List row) (input : Int) : Except Failure row :=
  if input < 0 then .error (.indexError "index out of range in self")
  else weight[input.toNat]?.elim (.error (.indexError "index out of range in self"))
    .ok

/-- What one rank of `forward` looks up, on the eager path. -/
def VocabParallelEmbedding.lookup {row : Type} [Zero row] (layer : VocabParallelEmbedding)
    (weight : List row) (input : Int) : Except Failure row :=
  if layer.tpSize = 1 then
    embedding weight input
  else do
    let indices := layer.shardIndices
    let masked := maskedVocabInput input indices.orgVocabStartIndex indices.orgVocabEndIndex
      indices.numOrgVocabPadding indices.addedVocabStartIndex indices.addedVocabEndIndex
    let output <- embedding weight masked.1
    pure (if masked.2 then 0 else output)

/-- `forward` of a group, in rank order: the all-reduce sums what the ranks looked up. -/
def forward {row : Type} [AddCommMonoid row] (ranks : List (VocabParallelEmbedding × List row))
    (input : Int) : Except Failure row := do
  let outputs <- ranks.mapM fun rank => rank.1.lookup rank.2 input
  pure outputs.sum

/-! ## Logits -/

/-- The lists `get_sharded_to_full_mapping` extends. -/
structure MappingParts where
  baseEmbeddings : List Nat
  addedEmbeddings : List Nat
  padding : List Nat

namespace VocabParallelEmbedding

def extendMapping (layer : VocabParallelEmbedding) (parts : MappingParts) (tpRank : Nat) :
    Except Failure MappingParts := do
  let shard <- getIndices layer.numEmbeddingsPadded layer.orgVocabSizePadded
    layer.numEmbeddings layer.orgVocabSize tpRank layer.tpSize
  let rangeStart := layer.numEmbeddingsPerPartition * tpRank
  let rangeEnd := layer.numEmbeddingsPerPartition * (tpRank + 1)
  let addedStart := rangeStart + shard.numOrgElementsPadded
  reject (addedStart + shard.numAddedElementsPadded ≠ rangeEnd)
    (.valueError "shard layout does not cover the padded vocabulary exactly")
  pure
    { baseEmbeddings := parts.baseEmbeddings ++ List.range' rangeStart shard.numOrgElements
      addedEmbeddings := parts.addedEmbeddings ++ List.range' addedStart shard.numAddedElements
      padding := parts.padding
        ++ List.range' (rangeStart + shard.numOrgElements)
          (shard.numOrgElementsPadded - shard.numOrgElements)
        ++ List.range' (addedStart + shard.numAddedElements)
          (shard.numAddedElementsPadded - shard.numAddedElements) }

def getShardedToFullMapping (layer : VocabParallelEmbedding) : Except Failure (Option (List Nat)) :=
  if layer.tpSize < 2 then
    .ok none
  else do
    let parts <- (List.range layer.tpSize).foldlM layer.extendMapping ⟨[], [], []⟩
    let ret := parts.baseEmbeddings ++ parts.addedEmbeddings ++ parts.padding
    reject (ret.length ≠ layer.numEmbeddingsPadded)
      (.valueError "sharded-to-full mapping does not cover the padded vocabulary")
    pure (some ret)

end VocabParallelEmbedding

structure ParallelLMHead (ring : Type) (dim : Nat) where
  layer : VocabParallelEmbedding
  weight : List (Fin dim -> ring)
  bias : Option (List ring) := none

section Logits

variable {ring : Type} [CommRing ring] {dim : Nat}

/-- `F.linear` on one hidden row. -/
def linear (hidden : Fin dim -> ring) (weight : List (Fin dim -> ring)) : List ring :=
  weight.map fun row => ∑ j, hidden j * row j

/-- `index_select` along the last dimension. -/
def indexSelect (values : List ring) (order : List Nat) : Except Failure (List ring) :=
  order.mapM fun i =>
    values[i]?.elim (.error (.indexError "index out of range in self")) .ok

namespace ParallelLMHead

def localLogits (head : ParallelLMHead ring dim) (hidden : Fin dim -> ring) : List ring :=
  let output := linear hidden head.weight
  head.bias.elim output fun bias => List.zipWith (· + ·) output bias

/-- `logits` on one rank of the group `heads`, in rank order. -/
def logits (head : ParallelLMHead ring dim) (heads : List (ParallelLMHead ring dim))
    (hidden : Fin dim -> ring) : Except Failure (List ring) :=
  let num := head.layer.numEmbeddings
  if head.layer.tpSize = 1 then
    let output := linear hidden (head.weight.take num)
    let output := head.bias.elim output fun bias => List.zipWith (· + ·) output (bias.take num)
    .ok (output.take num)
  else do
    let gathered := heads.flatMap fun other => other.localLogits hidden
    let mapping <- head.layer.getShardedToFullMapping
    let selected <- mapping.elim (.error (.exception "AssertionError"))
      (indexSelect gathered)
    pure (selected.take num)

end ParallelLMHead

end Logits
end Embedding
end Ayaka
