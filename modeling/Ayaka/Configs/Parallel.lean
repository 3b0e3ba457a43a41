import Ayaka.Foundation.Chunks
import Ayaka.Executor.Failure

/-!
# The rank mesh

A parallel plan numbers the ranks of the world along four axes, the tensor axis
fastest and the context axis slowest.  Tensor and expert groups are read off the
coordinates, and the layers are dealt out to the pipeline stages.

The checks against a model's architecture only refuse more plans and are left out.
-/

namespace Ayaka
namespace Configs

open Executor (Failure reject reject_eq_ok_iff check_bind_eq_ok_iff)

/-! ## Sizes -/

structure ParallelSizes where
  tpSize : Nat := 1
  ppSize : Nat := 1
  dpSize : Nat := 1
  epSize : Nat := 1
  cpSize : Nat := 1
  dpAttention : Bool := false

namespace ParallelSizes

variable (s : ParallelSizes)

/-- `dp_factor`: DP attention shares ranks instead of adding them. -/
def dpFactor : Nat :=
  if s.dpAttention then 1 else s.dpSize

def world : Nat :=
  s.tpSize * s.ppSize * s.dpFactor * s.cpSize

/-- The check the configuration and the resolved plan have in common. -/
def requirePlane : Except Failure Unit :=
  reject (1 < s.epSize ∧ s.dpFactor * s.tpSize % s.epSize ≠ 0)
    (.configError "parallel.ep_size" "EP_NOT_RANK_DIVISIBLE"
      "ep_size must divide the flattened dp x tp rank plane")

end ParallelSizes

structure ParallelConfig extends ParallelSizes where
  enableSequenceParallel : Bool := false
  pipelineMicrobatches : Int := 1
  pipelineLayerRanges : List (Int × Int) := []
  expertRedundancy : Int := 0

namespace ParallelConfig

def requireSize (name : String) (size : Nat) : Except Failure Unit :=
  reject (size < 1)
    (.configError ("parallel." ++ name) "PARALLEL_SIZE_INVALID" (name ++ " must be >= 1"))

/-- `__post_init__`. -/
def validate (c : ParallelConfig) : Except Failure Unit := do
  requireSize "tp_size" c.tpSize
  requireSize "pp_size" c.ppSize
  requireSize "dp_size" c.dpSize
  requireSize "ep_size" c.epSize
  requireSize "cp_size" c.cpSize
  reject (c.enableSequenceParallel ∧ c.tpSize = 1)
    (.configError "parallel.enable_sequence_parallel" "SEQUENCE_PARALLEL_WITHOUT_TP"
      "sequence parallelism requires tp_size > 1")
  reject (c.dpAttention ∧ c.dpSize = 1)
    (.configError "parallel.enable_dp_attention" "DP_ATTENTION_WITHOUT_DP"
      "DP attention requires dp_size > 1")
  reject (c.pipelineMicrobatches < 1)
    (.configError "parallel.pipeline_microbatches" "PIPELINE_MICROBATCH_INVALID"
      "pipeline microbatches must be >= 1")
  reject (1 < c.ppSize ∧ c.pipelineMicrobatches < c.ppSize)
    (.configError "parallel.pipeline_microbatches" "PIPELINE_CANNOT_FILL"
      "pipeline_microbatches must be at least pp_size")
  reject (c.pipelineLayerRanges ≠ [] ∧ c.pipelineLayerRanges.length ≠ c.ppSize)
    (.configError "parallel.pipeline_layer_ranges" "PIPELINE_RANGE_COUNT_MISMATCH"
      "manual pipeline ranges must contain one range per PP stage")
  reject (c.expertRedundancy < 0)
    (.configError "parallel.expert_redundancy" "EXPERT_REDUNDANCY_NEGATIVE"
      "expert redundancy must be non-negative")
  c.requirePlane

/-- The first layer of a stage; the first `extra` stages get one layer more. -/
def stageStart (c : ParallelConfig) (numLayers ppRank : Nat) : Nat :=
  ppRank * (numLayers / c.ppSize) + min ppRank (numLayers % c.ppSize)

def layerRangeFor (c : ParallelConfig) (numLayers ppRank : Nat) : Except Failure (Int × Int) := do
  reject (¬ ppRank < c.ppSize)
    (.configError "parallel.pp_rank" "PP_RANK_OUT_OF_RANGE" "PP rank is outside the mesh")
  if c.pipelineLayerRanges ≠ [] then
    return c.pipelineLayerRanges[ppRank]?.getD (0, 0)
  let start := c.stageStart numLayers ppRank
  return (start, start + numLayers / c.ppSize + if ppRank < numLayers % c.ppSize then 1 else 0)

end ParallelConfig

/-! ## The resolved plan -/

inductive AllToAllBackend where
  | auto
  | nccl
  | nvshmem
  | deepep
  deriving DecidableEq, Repr

structure ResolvedParallelPlan extends ParallelSizes where
  worldSize : Nat
  allToAllBackend : Option AllToAllBackend := none
  pipelineLayerRanges : List (Int × Int)

structure AxisRanks where
  tpRank : Nat
  ppRank : Nat
  dpRank : Nat
  epRank : Nat
  cpRank : Nat

namespace ResolvedParallelPlan

variable (plan : ResolvedParallelPlan)

/-- `__post_init__`. -/
def validate : Except Failure Unit := do
  reject (plan.pipelineLayerRanges.length ≠ plan.ppSize)
    (.configError "parallel.pipeline_layer_ranges" "RESOLVED_PIPELINE_RANGE_COUNT_MISMATCH"
      "resolved plan must contain one layer range per PP stage")
  reject (1 < plan.epSize ∧ plan.allToAllBackend = none)
    (.configError "parallel.all_to_all_backend" "RESOLVED_ALL_TO_ALL_MISSING"
      "expert parallel execution requires a concrete all-to-all backend")
  reject (plan.worldSize ≠ plan.world)
    (.configError "parallel.world_size" "RESOLVED_WORLD_SIZE_MISMATCH"
      "resolved world size must equal tp_size * pp_size * dp_factor * cp_size")
  plan.requirePlane

def decompose (worldRank : Nat) : AxisRanks :=
  let tpRank := worldRank % plan.tpSize
  let dpRank := worldRank / plan.tpSize % plan.dpFactor
  let rest := worldRank / plan.tpSize / plan.dpFactor
  { tpRank, dpRank
    ppRank := rest % plan.ppSize
    cpRank := rest / plan.ppSize
    epRank := (dpRank * plan.tpSize + tpRank) % plan.epSize }

def axisRanks (worldRank : Nat) : Except Failure AxisRanks := do
  reject (¬ worldRank < plan.worldSize)
    (.configError "parallel.world_rank" "WORLD_RANK_OUT_OF_RANGE" ("world rank "
      ++ toString worldRank ++ " is outside [0, " ++ toString plan.worldSize ++ ")"))
  return plan.decompose worldRank

/-- The ranks whose coordinates agree with those of `origin` under `key`: the loop of
`_ranks_sharing` and of `ep_group_ranks`. -/
def ranksSharing {alpha : Type} [DecidableEq alpha] (key : AxisRanks -> alpha)
    (origin : AxisRanks) : List Nat :=
  (List.range plan.worldSize).filter fun rank => key (plan.decompose rank) = key origin

def tpKey (a : AxisRanks) : Nat × Nat × Nat :=
  (a.ppRank, a.dpRank, a.cpRank)

def tpGroupRanks (worldRank : Nat) : Except Failure (List Nat) := do
  return plan.ranksSharing tpKey (<- plan.axisRanks worldRank)

/-- The place in the flattened plane of data and tensor coordinates. -/
def plane (a : AxisRanks) : Nat :=
  a.dpRank * plan.tpSize + a.tpRank

def epKey (a : AxisRanks) : Nat × Nat × Nat :=
  (a.ppRank, a.cpRank, plan.plane a / plan.epSize)

def epGroupRanks (worldRank : Nat) : Except Failure (List Nat) := do
  return plan.ranksSharing plan.epKey (<- plan.axisRanks worldRank)

end ResolvedParallelPlan

/-! ## Coordinates -/

namespace ResolvedParallelPlan

variable {plan : ResolvedParallelPlan}

/-- What both checks give. -/
structure Meshed (plan : ResolvedParallelPlan) : Prop where
  tp : 0 < plan.tpSize
  dp : 0 < plan.dpFactor
  pp : 0 < plan.ppSize
  ep : 0 < plan.epSize
  world : plan.worldSize = plan.tpSize * (plan.dpFactor * (plan.ppSize * plan.cpSize))
  divides : plan.epSize ∣ plan.dpFactor * plan.tpSize

theorem meshed {c : ParallelConfig} (hconfig : c.validate = .ok ()) (hplan : plan.validate = .ok ())
    (hsizes : plan.toParallelSizes = c.toParallelSizes) : plan.Meshed := by
  simp only [ParallelConfig.validate, ParallelConfig.requireSize, validate, check_bind_eq_ok_iff,
    reject_eq_ok_iff, ParallelSizes.requirePlane, <- hsizes, not_lt, not_and, ne_eq,
    not_not] at hconfig hplan
  have hdp : 0 < plan.dpFactor := by
    unfold ParallelSizes.dpFactor
    split
    · exact Nat.one_pos
    · exact hconfig.2.2.1
  have hep : 0 < plan.epSize := hconfig.2.2.2.1
  refine ⟨hconfig.1, hdp, hconfig.2.1, hep, ?_, ?_⟩
  · rw [hplan.2.2.1, ParallelSizes.world]
    ac_rfl
  · rcases Nat.eq_or_lt_of_le hep with hone | hmany
    · rw [<- hone]
      exact Nat.one_dvd _
    · exact Nat.dvd_of_mod_eq_zero (hplan.2.2.2 hmany)

abbrev coords (a : AxisRanks) : Nat × Nat × Nat × Nat :=
  (a.tpRank, a.dpRank, a.ppRank, a.cpRank)

/-- All combinations of coordinates inside their sizes. -/
def mesh (plan : ResolvedParallelPlan) : Set (Nat × Nat × Nat × Nat) :=
  { x | x.1 < plan.tpSize ∧ x.2.1 < plan.dpFactor ∧ x.2.2.1 < plan.ppSize ∧ x.2.2.2 < plan.cpSize }

def compose (plan : ResolvedParallelPlan) (x : Nat × Nat × Nat × Nat) : Nat :=
  x.1 + plan.tpSize * (x.2.1 + plan.dpFactor * (x.2.2.1 + plan.ppSize * x.2.2.2))

theorem compose_decompose (rank : Nat) : plan.compose (coords (plan.decompose rank)) = rank := by
  simp only [compose, decompose, Nat.mod_add_div]

theorem rank_eq (h : coords (plan.decompose r) = coords (plan.decompose s)) : r = s :=
  (compose_decompose r).symm.trans ((congrArg plan.compose h).trans (compose_decompose s))

theorem axisRanks_eq {rank : Nat} (hrank : rank < plan.worldSize) :
    plan.axisRanks rank = .ok (plan.decompose rank) := by
  simp only [axisRanks, reject, hrank, not_true_eq_false, if_false]
  rfl

/-! A digit below `size` in front of `rest`. -/

section

variable {digit size rest count : Nat} (hdigit : digit < size)
include hdigit

theorem digit_mod : (digit + size * rest) % size = digit := by
  rw [Nat.add_mul_mod_self_left, Nat.mod_eq_of_lt hdigit]

theorem digit_div : (digit + size * rest) / size = rest := by
  rw [Nat.add_mul_div_left _ _ (Nat.zero_lt_of_lt hdigit), Nat.div_eq_of_lt hdigit, Nat.zero_add]

theorem digit_lt (hrest : rest < count) : digit + size * rest < size * count :=
  calc digit + size * rest < size * rest + size := by omega
    _ = size * (rest + 1) := (Nat.mul_succ size rest).symm
    _ ≤ size * count := Nat.mul_le_mul_left size hrest

end

theorem decompose_compose (hx : x ∈ plan.mesh) : coords (plan.decompose (plan.compose x)) = x := by
  simp only [coords, decompose, compose, digit_mod hx.1, digit_div hx.1, digit_mod hx.2.1,
    digit_div hx.2.1, digit_mod hx.2.2.1, digit_div hx.2.2.1]

namespace Meshed

variable (h : plan.Meshed)
include h

theorem decompose_mem (hrank : rank < plan.worldSize) :
    coords (plan.decompose rank) ∈ plan.mesh := by
  rw [h.world] at hrank
  refine ⟨Nat.mod_lt _ h.tp, Nat.mod_lt _ h.dp, Nat.mod_lt _ h.pp, ?_⟩
  exact Nat.div_lt_of_lt_mul (Nat.div_lt_of_lt_mul (Nat.div_lt_of_lt_mul hrank))

theorem compose_lt (hx : x ∈ plan.mesh) : plan.compose x < plan.worldSize := by
  rw [h.world]
  exact digit_lt hx.1 (digit_lt hx.2.1 (digit_lt hx.2.2.1 hx.2.2.2))

theorem coords_bijOn : Set.BijOn (fun rank => coords (plan.decompose rank))
    (Set.Iio plan.worldSize) plan.mesh := by
  refine Set.InvOn.bijOn ⟨?_, ?_⟩ (fun _ => h.decompose_mem) (fun _ => h.compose_lt)
  · exact fun rank _ => compose_decompose rank
  · exact fun _ hx => decompose_compose hx

end Meshed

/-! ## Groups -/

/-- The groups part the world: a rank lies in its own group, all of a group name the
same one, and it holds every value of one coordinate below `size` exactly once.  No
group leaves its pipeline stage. -/
def Splits (plan : ResolvedParallelPlan) (groupRanks : Nat -> Except Failure (List Nat))
    (coord : AxisRanks -> Nat) (size : Nat) : Prop :=
  forall rank, rank < plan.worldSize -> exists group, groupRanks rank = .ok group ∧ rank ∈ group ∧
    (forall other, other ∈ group -> other < plan.worldSize ∧ groupRanks other = .ok group ∧
      (plan.decompose other).ppRank = (plan.decompose rank).ppRank) ∧
    (group.map fun other => coord (plan.decompose other)).Perm (List.range size)

theorem mem_ranksSharing {alpha : Type} [DecidableEq alpha] {key : AxisRanks -> alpha} :
    rank ∈ plan.ranksSharing key origin <->
      rank < plan.worldSize ∧ key (plan.decompose rank) = key origin := by
  rw [ranksSharing, List.mem_filter, List.mem_range, decide_eq_true_iff]

/-- Ranks that share a key part the world when the key and the coordinate together
tell the rank, and every value of the coordinate goes with every key. -/
theorem splits_sharing {alpha : Type} [DecidableEq alpha] {key : AxisRanks -> alpha}
    {coord : AxisRanks -> Nat}
    (hstage : forall a b, key a = key b -> a.ppRank = b.ppRank)
    (hbound : forall rank, coord (plan.decompose rank) < size)
    (hinj : forall r s, key (plan.decompose r) = key (plan.decompose s) ->
    coord (plan.decompose r) = coord (plan.decompose s) -> r = s)
    (hall : forall origin x, origin < plan.worldSize -> x < size -> exists rank,
    rank < plan.worldSize ∧ key (plan.decompose rank) = key (plan.decompose origin) ∧
    coord (plan.decompose rank) = x) :
    plan.Splits (fun rank => do return plan.ranksSharing key (<- plan.axisRanks rank))
      coord size := by
  intro rank hrank
  have hgroup : forall r, r < plan.worldSize ->
      (do return plan.ranksSharing key (<- plan.axisRanks r) : Except Failure (List Nat)) =
        .ok (plan.ranksSharing key (plan.decompose r)) := by
    intro r hr
    rw [axisRanks_eq hr]
    rfl
  refine ⟨_, hgroup rank hrank, mem_ranksSharing.mpr ⟨hrank, rfl⟩, ?_, ?_⟩
  · intro other hother
    rcases mem_ranksSharing.mp hother with ⟨hlt, hkey⟩
    refine ⟨hlt, (hgroup other hlt).trans ?_, hstage _ _ hkey⟩
    rw [ranksSharing, ranksSharing, hkey]
  · rw [List.perm_ext_iff_of_nodup ?_ List.nodup_range]
    · intro x
      rw [List.mem_map, List.mem_range]
      constructor
      · rintro ⟨other, _, rfl⟩
        exact hbound other
      · intro hx
        rcases hall rank x hrank hx with ⟨other, hlt, hkey, hcoord⟩
        exact ⟨other, mem_ranksSharing.mpr ⟨hlt, hkey⟩, hcoord⟩
    · refine List.Nodup.map_on ?_ (List.nodup_range.filter _)
      intro r hr s hs hcoord
      exact hinj r s ((mem_ranksSharing.mp hr).2.trans (mem_ranksSharing.mp hs).2.symm) hcoord

namespace Meshed

variable (h : plan.Meshed)
include h

theorem splits_tp : plan.Splits plan.tpGroupRanks AxisRanks.tpRank plan.tpSize := by
  apply splits_sharing
  · exact fun _ _ hkey => (Prod.mk.inj hkey).1
  · exact fun _ => Nat.mod_lt _ h.tp
  · intro r s hkey htp
    simp only [tpKey, Prod.mk.injEq] at hkey
    apply rank_eq
    rw [coords, coords, htp, hkey.1, hkey.2.1, hkey.2.2]
  · intro origin x horigin hx
    rcases h.coords_bijOn.surjOn (a := (x, (coords (plan.decompose origin)).2))
      ⟨hx, (h.decompose_mem horigin).2⟩ with ⟨rank, hrank, hcoords⟩
    simp only [coords, Prod.mk.injEq] at hcoords
    refine ⟨rank, hrank, ?_, hcoords.1⟩
    rw [tpKey, tpKey, hcoords.2.1, hcoords.2.2.1, hcoords.2.2.2]

theorem plane_lt (rank : Nat) : plan.plane (plan.decompose rank) < plan.dpFactor * plan.tpSize := by
  rw [plane, Nat.mul_comm, Nat.add_comm, Nat.mul_comm plan.dpFactor]
  exact digit_lt (Nat.mod_lt _ h.tp) (Nat.mod_lt _ h.dp)

theorem plane_coords (rank : Nat) :
    (plan.decompose rank).tpRank = plan.plane (plan.decompose rank) % plan.tpSize ∧
      (plan.decompose rank).dpRank = plan.plane (plan.decompose rank) / plan.tpSize := by
  have htp : (plan.decompose rank).tpRank < plan.tpSize := Nat.mod_lt _ h.tp
  rw [plane, Nat.mul_comm, Nat.add_comm]
  exact ⟨(digit_mod htp).symm, (digit_div htp).symm⟩

theorem splits_ep : plan.Splits plan.epGroupRanks AxisRanks.epRank plan.epSize := by
  apply splits_sharing
  · exact fun _ _ hkey => (Prod.mk.inj hkey).1
  · exact fun _ => Nat.mod_lt _ h.ep
  · intro r s hkey hep
    simp only [epKey, Prod.mk.injEq] at hkey
    have hplane : plan.plane (plan.decompose r) = plan.plane (plan.decompose s) := by
      rw [<- Nat.div_add_mod (plan.plane (plan.decompose r)) plan.epSize, hkey.2.2]
      exact (congrArg _ hep).trans (Nat.div_add_mod _ _)
    apply rank_eq
    rw [coords, coords, hkey.1, hkey.2.1, (h.plane_coords r).1, (h.plane_coords r).2, hplane,
      <- (h.plane_coords s).1, <- (h.plane_coords s).2]
  · intro origin x horigin hx
    -- the place with remainder `x` in the stripe of the origin lies in the plane
    rcases h.divides with ⟨stripes, hstripes⟩
    have hstripe : plan.plane (plan.decompose origin) / plan.epSize < stripes :=
      Nat.div_lt_of_lt_mul (hstripes ▸ h.plane_lt origin)
    have hplace := digit_lt hx hstripe
    rw [<- hstripes, Nat.mul_comm plan.dpFactor] at hplace
    have hmem := h.decompose_mem horigin
    rcases h.coords_bijOn.surjOn (a := (_ % plan.tpSize, _ / plan.tpSize,
        (coords (plan.decompose origin)).2.2))
      ⟨Nat.mod_lt _ h.tp, Nat.div_lt_of_lt_mul hplace, hmem.2.2⟩ with ⟨rank, hrank, hcoords⟩
    simp only [coords, Prod.mk.injEq] at hcoords
    have hplane : plan.plane (plan.decompose rank) =
        x + plan.epSize * (plan.plane (plan.decompose origin) / plan.epSize) := by
      rw [plane, hcoords.1, hcoords.2.1, Nat.mul_comm, Nat.div_add_mod]
    refine ⟨rank, hrank, ?_, ?_⟩
    · rw [epKey, epKey, hcoords.2.2.1, hcoords.2.2.2, hplane, digit_div hx]
    · change plan.plane (plan.decompose rank) % plan.epSize = x
      rw [hplane, digit_mod hx]

end Meshed
end ResolvedParallelPlan

/-! ## Layers -/

namespace ParallelConfig

variable {c : ParallelConfig} {numLayers : Nat}

theorem stageStart_succ (r : Nat) : c.stageStart numLayers (r + 1) =
    c.stageStart numLayers r + numLayers / c.ppSize
      + if r < numLayers % c.ppSize then 1 else 0 := by
  unfold stageStart
  rw [Nat.succ_mul]
  split
  · omega
  · omega

theorem stageStart_ppSize (hpp : 0 < c.ppSize) : c.stageStart numLayers c.ppSize = numLayers := by
  rw [stageStart, Nat.min_eq_right (Nat.mod_lt _ hpp).le, Nat.div_add_mod]

theorem flatMap_stages (count : Nat) : ((List.range count).flatMap fun r =>
    List.range' (c.stageStart numLayers r)
      (c.stageStart numLayers (r + 1) - c.stageStart numLayers r)) =
      List.range (c.stageStart numLayers count) := by
  induction count with
  | zero => simp [stageStart]
  | succ count ih =>
    have hle : c.stageStart numLayers count ≤ c.stageStart numLayers (count + 1) := by
      rw [stageStart_succ, Nat.add_assoc]
      exact Nat.le_add_right _ _
    rw [Foundation.Chunks.range_succ_flatMap, ih, List.range'_eq_map_range, <- List.range_add,
      Nat.add_sub_cancel' hle]

/-- Without explicit ranges the stages get consecutive ranges of layers, none of them
empty and no two of lengths more than one apart. -/
structure Dealt (c : ParallelConfig) (numLayers : Nat) (start : Nat -> Nat) : Prop where
  ranges : forall r, r < c.ppSize ->
    c.layerRangeFor numLayers r = .ok (start r, start (r + 1)) ∧ start r < start (r + 1)
  balanced : forall r s, r < c.ppSize -> s < c.ppSize ->
    start (r + 1) - start r ≤ start (s + 1) - start s + 1
  covered : ((List.range c.ppSize).flatMap fun r =>
    List.range' (start r) (start (r + 1) - start r)) = List.range numLayers

theorem dealt (hpp : 0 < c.ppSize) (hnone : c.pipelineLayerRanges = [])
    (hlayers : c.ppSize ≤ numLayers) : c.Dealt numLayers (c.stageStart numLayers) where
  ranges := by
    intro r hr
    have hbase : 0 < numLayers / c.ppSize := Nat.div_pos hlayers hpp
    constructor
    · simp only [layerRangeFor, reject, hr, hnone, not_true_eq_false, if_false, ne_eq]
      rw [stageStart_succ]
      push_cast
      rfl
    · rw [stageStart_succ]
      omega
  balanced := by
    intro r s _ _
    rw [stageStart_succ, stageStart_succ]
    split
    · omega
    · omega
  covered := by
    rw [flatMap_stages, stageStart_ppSize hpp]

end ParallelConfig

/-- The mesh of every accepted plan: the coordinates number the world, the tensor and
the expert groups part it, and the layers are dealt out evenly. -/
theorem mesh_numbered (c : ParallelConfig) (plan : ResolvedParallelPlan)
    (hconfig : c.validate = .ok ()) (hplan : plan.validate = .ok ())
    (hsizes : plan.toParallelSizes = c.toParallelSizes) :
    (forall rank, rank < plan.worldSize -> plan.axisRanks rank = .ok (plan.decompose rank)) ∧
      Set.BijOn (fun rank => ResolvedParallelPlan.coords (plan.decompose rank))
        (Set.Iio plan.worldSize) plan.mesh ∧
      plan.Splits plan.tpGroupRanks AxisRanks.tpRank plan.tpSize ∧
      plan.Splits plan.epGroupRanks AxisRanks.epRank plan.epSize ∧
      forall numLayers, c.pipelineLayerRanges = [] -> c.ppSize ≤ numLayers ->
        exists start, c.Dealt numLayers start := by
  have h := ResolvedParallelPlan.meshed hconfig hplan hsizes
  refine ⟨fun _ => ResolvedParallelPlan.axisRanks_eq, h.coords_bijOn, h.splits_tp, h.splits_ep, ?_⟩
  intro numLayers hnone hlayers
  have hpp := h.pp
  rw [hsizes] at hpp
  exact ⟨_, ParallelConfig.dealt hpp hnone hlayers⟩

def sixByTwo : ResolvedParallelPlan :=
  { tpSize := 3, dpSize := 2, epSize := 2, ppSize := 2, worldSize := 12
    allToAllBackend := some .nccl, pipelineLayerRanges := [(0, 4), (4, 7)] }

theorem mesh_numbered_six : sixByTwo.Splits sixByTwo.epGroupRanks AxisRanks.epRank 2 :=
  (mesh_numbered { sixByTwo with pipelineMicrobatches := 2 } sixByTwo rfl rfl rfl).2.2.2.1

end Configs
end Ayaka
