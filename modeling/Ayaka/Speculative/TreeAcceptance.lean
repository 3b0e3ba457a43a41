import Ayaka.Speculative.Acceptance

/-!
# Greedy acceptance on a tree

A candidate tree hangs below the base row of a verification block; row `i + 1` of the
block belongs to node `i`.  The walk goes down from the base row to the first child whose
draft is the target's choice, as long as there is one.
-/

namespace Ayaka
namespace Speculative

open Executor (Failure check_bind_eq_ok_iff reject reject_eq_ok_iff)

/-- Parents precede their children; `-1` is the base row. -/
structure SpecTree where
  parents : List Int
  nonempty : parents ≠ []
  limited : parents.length ≤ 256
  ordered : forall (node : Nat) (parent : Int), parents[node]? = some parent ->
    -1 ≤ parent ∧ parent < node

namespace SpecTree

/-- `tuple(range(-1, length - 1))`. -/
def chain (length : Nat) : List Int :=
  (List.range length).map fun i : Nat => (i : Int) - 1

theorem chain_eq_some_iff {length node : Nat} {parent : Int} :
    (chain length)[node]? = some parent <-> node < length ∧ parent = node - 1 := by
  unfold chain
  by_cases h : node < length
  · simp [h, eq_comm]
  · simp [h]

def linear (length : Nat) (hpos : 0 < length) (hlimit : length ≤ 256) : SpecTree where
  parents := chain length
  nonempty := by simpa [chain] using hpos.ne'
  limited := by simpa [chain] using hlimit
  ordered := by
    intro node parent hparent
    have _ := chain_eq_some_iff.mp hparent
    omega

variable (tree : SpecTree)

def numNodes : Nat :=
  tree.parents.length

def children (node : Int) : List Nat :=
  (List.range tree.numNodes).filter fun i => tree.parents[i]? = some node

theorem mem_children {node : Int} {child : Nat} :
    child ∈ tree.children node <-> tree.parents[child]? = some node := by
  unfold children numNodes
  rw [List.mem_filter, List.mem_range, decide_eq_true_iff, and_iff_right_iff_imp]
  exact fun h => (List.getElem?_eq_some_iff.mp h).1

theorem parent_lt (node : Nat) : tree.parents.getD node (-1) + 1 ≤ node := by
  rw [List.getD_eq_getElem?_getD]
  cases hparent : tree.parents[node]? with
  | none => exact Int.natCast_nonneg node
  | some parent => exact (tree.ordered node parent hparent).2

/-- The path of `ancestors`, which the loop finds from its end. -/
def ancestors : Int -> List Nat
  | .negSucc _ => []
  | .ofNat node => ancestors (tree.parents.getD node (-1)) ++ [node]
  termination_by node => (node + 1).toNat
  decreasing_by
    have hlt := tree.parent_lt node
    simp only [Int.ofNat_eq_natCast]
    omega

def gatherIndices (path : List Nat) : Except Failure (List Nat) := do
  match path.getLast? with
  | none => pure ()
  | some last => do
    reject (tree.numNodes ≤ last) (.indexError ("tree node " ++ toString last ++ " out of range"))
    reject (tree.ancestors last ≠ path) (.valueError "accepted path is not a connected tree path")
  return 0 :: path.map (· + 1)

/-- The loop of `accept_tree_greedy`: the path below `current` and where it ends. -/
def descend (drafts targets : List Int) (current : Int) : List Nat × Int :=
  match _h : (tree.children current).find? fun child =>
      gather drafts child = gather targets (current + 1).toNat with
  | none => ([], current)
  | some child =>
    let below := descend drafts targets child
    (child :: below.1, below.2)
  termination_by (tree.numNodes - current).toNat
  decreasing_by
    have hparent := tree.mem_children.mp (List.mem_of_find?_eq_some _h)
    have hlt := (List.getElem?_eq_some_iff.mp hparent).1
    have hbelow := tree.ordered child current hparent
    unfold numNodes
    omega

end SpecTree

structure TreeAcceptance where
  path : List Nat
  tokens : List Int
  gatherRows : List Nat

def acceptTreeGreedy (tree : SpecTree) (drafts targets : List Int) :
    Except Failure TreeAcceptance := do
  reject (drafts.length ≠ tree.numNodes) (.valueError "one draft token is required per tree node")
  reject (targets.length ≠ tree.numNodes + 1)
    (.valueError "one target token is required per verification row")
  let (path, current) := tree.descend drafts targets (-1)
  let tokens := path.map (gather drafts) ++ [gather targets (current + 1).toNat]
  return { path, tokens, gatherRows := <- tree.gatherIndices path }

namespace SpecTree

variable {tree : SpecTree} {drafts targets : List Int} {current last : Int} {path : List Nat}

/-- A path down from `current` to `last` along the target's choices, which no child of
`last` goes on. -/
inductive Follows (tree : SpecTree) (drafts targets : List Int) :
    Int -> List Nat -> Int -> Prop where
  | stop {current : Int} (h : forall child, tree.parents[child]? = some current ->
      gather drafts child ≠ gather targets (current + 1).toNat) :
    Follows tree drafts targets current [] current
  | step {current last : Int} {child : Nat} {path : List Nat}
      (hparent : tree.parents[child]? = some current)
      (hdraft : gather drafts child = gather targets (current + 1).toNat)
      (hrest : Follows tree drafts targets child path last) :
    Follows tree drafts targets current (child :: path) last

theorem follows_descend (tree : SpecTree) (drafts targets : List Int) (current : Int) :
    Follows tree drafts targets current (tree.descend drafts targets current).1
      (tree.descend drafts targets current).2 := by
  fun_induction descend tree drafts targets current with
  | case1 current hnone =>
    refine .stop fun child hparent => ?_
    have hchild := List.find?_eq_none.mp hnone child (tree.mem_children.mpr hparent)
    simpa using hchild
  | case2 current child hchild below ih =>
    have hdraft := List.find?_some hchild
    have hparent := tree.mem_children.mp (List.mem_of_find?_eq_some hchild)
    exact .step hparent (by simpa using hdraft) ih

/-- The path of a walk lies below its start. -/
theorem Follows.ancestors (h : Follows tree drafts targets current path last) :
    tree.ancestors last = tree.ancestors current ++ path := by
  induction h with
  | stop _ => rw [List.append_nil]
  | @step current last child path hparent _ _ ih =>
    have hchild : tree.ancestors child = tree.ancestors current ++ [child] := by
      rw [<- Int.ofNat_eq_natCast, SpecTree.ancestors, List.getD_eq_getElem?_getD, hparent]
      rfl
    rw [ih, hchild, List.append_assoc]
    rfl

theorem Follows.ends (h : Follows tree drafts targets current path last) :
    (path = [] ∧ last = current)
      ∨ exists node : Nat, path.getLast? = some node ∧ last = node ∧ node < tree.numNodes := by
  induction h with
  | stop _ => exact .inl ⟨rfl, rfl⟩
  | @step current last child path hparent _ _ ih =>
    right
    rcases ih with ⟨rfl, rfl⟩ | ⟨node, hnode, rfl, hlt⟩
    · exact ⟨child, rfl, rfl, (List.getElem?_eq_some_iff.mp hparent).1⟩
    · refine ⟨node, ?_, rfl, hlt⟩
      rw [List.getLast?_cons, hnode]
      rfl

/-- An accepted path is connected, so its rows can be gathered. -/
theorem Follows.gatherIndices (h : Follows tree drafts targets (-1) path last) :
    tree.gatherIndices path = .ok (0 :: path.map (· + 1)) := by
  have hbase : tree.ancestors (-1) = [] := by
    rw [show (-1 : Int) = .negSucc 0 from rfl, SpecTree.ancestors]
  have hpath := h.ancestors
  rw [hbase, List.nil_append] at hpath
  unfold SpecTree.gatherIndices
  rcases h.ends with ⟨rfl, _⟩ | ⟨node, hnode, rfl, hlt⟩
  · rfl
  · rw [hnode]
    refine check_bind_eq_ok_iff.mpr ⟨reject_eq_ok_iff.mpr (Nat.not_le.mpr hlt), ?_⟩
    exact check_bind_eq_ok_iff.mpr ⟨reject_eq_ok_iff.mpr (not_not.mpr hpath), rfl⟩

/-! ## The linear tree -/

variable {length : Nat} {hpos : 0 < length} {hlimit : length ≤ 256}

theorem countAccepted_drop {row : Nat} (hrow : row < drafts.length)
    (htargets : targets.length = drafts.length + 1) :
    countAccepted (drafts.drop row) (targets.drop row) =
      if gather drafts row ≠ gather targets row then 0
      else countAccepted (drafts.drop (row + 1)) (targets.drop (row + 1)) + 1 := by
  have hlt : row < targets.length := by omega
  rw [List.drop_eq_getElem_cons hrow, List.drop_eq_getElem_cons hlt, countAccepted, gather, gather,
    List.getD_eq_getElem _ _ hrow, List.getD_eq_getElem _ _ hlt]

/-- On a chain the walk takes as many nodes as there are drafts that match. -/
theorem Follows.linear (h : Follows (linear length hpos hlimit) drafts targets current path last)
    (row : Nat) (hrow : current + 1 = row) (hdrafts : drafts.length = length)
    (htargets : targets.length = drafts.length + 1) :
    path.length = countAccepted (drafts.drop row) (targets.drop row)
      ∧ (last + 1).toNat = row + path.length := by
  induction h generalizing row with
  | @stop current h =>
    refine ⟨?_, by rw [hrow]; rfl⟩
    by_cases hend : row < length
    · have hnext := h row (chain_eq_some_iff.mpr ⟨hend, by omega⟩)
      rw [hrow, Int.toNat_natCast] at hnext
      rw [countAccepted_drop (hdrafts ▸ hend) htargets, if_pos hnext]
      rfl
    · rw [List.drop_of_length_le (by omega), countAccepted.eq_def]
      rfl
  | @step current last child path hparent hdraft _ ih =>
    rcases chain_eq_some_iff.mp hparent with ⟨hlt, hcurrent⟩
    have hchild : child = row := by omega
    rw [hrow, Int.toNat_natCast, hchild] at hdraft
    rcases ih (row + 1) (by omega) with ⟨hcount, hlast⟩
    rw [countAccepted_drop (by omega) htargets, if_neg (not_not.mpr hdraft)]
    rw [List.length_cons, hcount]
    refine ⟨rfl, ?_⟩
    omega

end SpecTree

/-- The walk returns a connected path along the target's choices that cannot be extended, and
the choice at its end; on a chain it accepts what `accept_greedy` accepts. -/
theorem acceptTreeGreedy_follows (tree : SpecTree) (drafts targets : List Int)
    (hdrafts : drafts.length = tree.numNodes) (htargets : targets.length = tree.numNodes + 1) :
    exists r last, acceptTreeGreedy tree drafts targets = Except.ok r
      ∧ tree.Follows drafts targets (-1) r.path last
      ∧ r.tokens = r.path.map (gather drafts) ++ [gather targets (last + 1).toNat]
      ∧ r.gatherRows = 0 :: r.path.map (· + 1)
      ∧ forall length hpos hlimit, tree = SpecTree.linear length hpos hlimit ->
        exists a, acceptGreedy drafts targets = Except.ok a
          ∧ a.accepted = r.path.length ∧ a.tokens.getLast? = r.tokens.getLast? := by
  have hfollows := SpecTree.follows_descend tree drafts targets (-1)
  generalize hwalk : tree.descend drafts targets (-1) = walk at hfollows
  refine ⟨⟨walk.1, walk.1.map (gather drafts) ++ [gather targets (walk.2 + 1).toNat],
    0 :: walk.1.map (· + 1)⟩, walk.2, ?_, hfollows, rfl, rfl, ?_⟩
  · unfold acceptTreeGreedy
    rw [check_bind_eq_ok_iff, check_bind_eq_ok_iff, hwalk]
    dsimp only
    rw [hfollows.gatherIndices]
    exact ⟨reject_eq_ok_iff.mpr (not_not.mpr hdrafts),
      reject_eq_ok_iff.mpr (not_not.mpr htargets), rfl⟩
  · rintro length hpos hlimit rfl
    have hlength : (SpecTree.linear length hpos hlimit).numNodes = length :=
      (List.length_map _).trans List.length_range
    rw [hlength] at hdrafts
    rcases hfollows.linear 0 rfl hdrafts (by omega) with ⟨hcount, hlast⟩
    refine ⟨_, acceptGreedy_eq (by omega), hcount.symm, ?_⟩
    dsimp only
    rw [List.getLast?_concat, List.getLast?_concat, hlast, Nat.zero_add, hcount]
    rfl

/-- Two nodes below one another, both matching. -/
theorem acceptTreeGreedy_follows_two : exists r last,
    acceptTreeGreedy (.linear 2 (by decide) (by decide)) [7, 9] [7, 9, 5] = Except.ok r
      ∧ SpecTree.Follows (.linear 2 (by decide) (by decide)) [7, 9] [7, 9, 5] (-1) r.path last := by
  rcases acceptTreeGreedy_follows (.linear 2 (by decide) (by decide)) [7, 9] [7, 9, 5] rfl rfl with
    ⟨r, last, hr, hfollows, _⟩
  exact ⟨r, last, hr, hfollows⟩

end Speculative
end Ayaka
