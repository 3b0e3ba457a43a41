import Ayaka.Foundation.Runs
import Ayaka.Prefix.GlobalIndexShard

/-!
# What a lookup scores

The shards are asked digest by digest; asking drops expired claims and changes nothing
a later answer depends on.  The walk over the digests then counts, for every node, the
longest run of digests it holds, wherever the run begins.
-/

namespace Ayaka
namespace Prefix

open Foundation
open Dict

/-!
## Answers of the shards
-/

namespace GlobalIndexShard

def liveNodes (s : GlobalIndexShard) (nowNs : Int) (digest : Digest) : List String :=
  ((s.entries.perNode digest).filter fun entry => !s.expired nowNs entry).keys

variable {s : GlobalIndexShard} {nowNs : Int}

theorem liveNodes_nodup (digest : Digest) : (s.liveNodes nowNs digest).Nodup :=
  Dict.nodup _

/-- Asking a shard about a digest leaves its later answers as they are. -/
theorem liveNodes_membersOne (digest other : Digest) :
    (s.membersOne nowNs digest).1.liveNodes nowNs other = s.liveNodes nowNs other := by
  unfold liveNodes membersOne
  rw [Claims.perNode_store]
  split
  · rename_i hsame
    rw [hsame]
    unfold Dict.keys Dict.filter expired
    dsimp only
    rw [List.filter_filter]
    simp only [Bool.and_self]
  · rfl

/-- A table of answers: the digests asked so far, with the nodes that hold them. -/
def Answers (nodes : Digest -> List String) (asked : List Digest)
    (result : Dict Digest (List String)) : Prop :=
  forall digest, result.get? digest =
    if digest ∈ asked ∧ nodes digest ≠ [] then some (nodes digest) else none

theorem members_answers (nowNs : Int) (digests : List Digest) :
    Answers (s.liveNodes nowNs) digests (s.members digests nowNs).2 ∧
      forall digest, (s.members digests nowNs).1.liveNodes nowNs digest =
        s.liveNodes nowNs digest := by
  unfold members
  induction digests using List.reverseRecOn with
  | nil => exact ⟨fun digest => by simp [get?_empty], fun _ => rfl⟩
  | append_singleton digests last ih =>
    rw [List.foldl_append, List.foldl_cons, List.foldl_nil]
    generalize digests.foldl _ _ = state at ih ⊢
    rcases ih with ⟨hanswers, hsame⟩
    have hnodes : (state.1.membersOne nowNs last).2 = s.liveNodes nowNs last := hsame last
    refine ⟨?_, fun digest => (liveNodes_membersOne last digest).trans (hsame digest)⟩
    intro digest
    dsimp only
    rw [hnodes]
    by_cases hempty : s.liveNodes nowNs last = []
    · rw [if_pos hempty, hanswers digest]
      by_cases hlast : digest = last
      · simp [hlast, hempty]
      · simp [hlast]
    · rw [if_neg hempty, get?_set, hanswers digest]
      by_cases hlast : digest = last
      · simp [hlast, hempty]
      · simp [hlast]

end GlobalIndexShard

namespace GlobalPrefixIndex

open GlobalIndexShard (Answers)

variable {index : GlobalPrefixIndex} {nowNs : Int}

def shardFor (index : GlobalPrefixIndex) (digest : Digest) : GlobalIndexShard :=
  index.shards (shardForDigest digest index.numShards)

def holders (index : GlobalPrefixIndex) (nowNs : Int) (digest : Digest) : List String :=
  (index.shardFor digest).liveNodes nowNs digest

def holds (index : GlobalPrefixIndex) (nowNs : Int) (nodeId : String) (digest : Digest) : Bool :=
  decide (nodeId ∈ index.holders nowNs digest)

theorem get?_foldl_set {entries}
    (hnodup : (entries.map Prod.fst).Nodup) (result : Dict Digest (List String)) (digest : Digest) :
    (entries.foldl (fun result entry => result.set entry.1 entry.2) result).get? digest =
      (find digest entries).or (result.get? digest) := by
  induction entries generalizing result with
  | nil => rfl
  | cons entry rest ih =>
    rw [List.map_cons, List.nodup_cons] at hnodup
    rw [List.foldl_cons, ih hnodup.2, get?_set, find]
    by_cases hkey : digest = entry.1
    · have hnone : find digest rest = none := by
        cases hfound : find digest rest with
        | none => rfl
        | some nodes =>
          have hmem := (find_eq_some_iff hnodup.2).mp hfound
          rw [hkey] at hmem
          exact absurd (List.mem_map_of_mem hmem) hnodup.1
      rw [if_pos hkey, if_pos hkey.symm, hnone]
      rfl
    · rw [if_neg hkey, if_neg (fun h => hkey h.symm)]

theorem get?_update (result more : Dict Digest (List String)) (digest : Digest) :
    (update result more).get? digest = (more.get? digest).or (result.get? digest) :=
  get?_foldl_set more.nodup result digest

/-- Every group holds digests of its shard, and every digest is in one. -/
theorem group_spec (index : GlobalPrefixIndex) (digests : List Digest) :
    (forall shard subset, (index.group digests).get? shard = some subset ->
      forall digest, digest ∈ subset -> shardForDigest digest index.numShards = shard) ∧
    forall digest, digest ∈ digests <-> exists shard subset,
      (index.group digests).get? shard = some subset ∧ digest ∈ subset := by
  unfold group
  induction digests using List.reverseRecOn with
  | nil => exact ⟨(fun _ _ h => nomatch h), by simp [get?_empty]⟩
  | append_singleton digests last ih =>
    rw [List.foldl_append, List.foldl_cons, List.foldl_nil]
    generalize digests.foldl _ _ = grouped at ih ⊢
    rcases ih with ⟨hown, hcover⟩
    have hold : forall digest, digest ∈ (grouped.get?
        (shardForDigest last index.numShards)).getD [] ->
          shardForDigest digest index.numShards = shardForDigest last index.numShards := by
      intro digest hdigest
      cases hfound : grouped.get? (shardForDigest last index.numShards) with
      | none =>
        rw [hfound] at hdigest
        cases hdigest
      | some subset =>
        rw [hfound] at hdigest
        exact hown _ _ hfound digest hdigest
    constructor
    · intro shard subset hfound digest hdigest
      rw [get?_set] at hfound
      split at hfound
      · rename_i hshard
        cases hfound
        rcases List.mem_append.mp hdigest with hdigest | hdigest
        · rw [hshard]
          exact hold digest hdigest
        · rw [List.mem_singleton.mp hdigest, hshard]
      · exact hown shard subset hfound digest hdigest
    · intro digest
      rw [List.mem_append, List.mem_singleton, hcover]
      constructor
      · rintro (⟨shard, subset, hfound, hdigest⟩ | rfl)
        · by_cases hshard : shard = shardForDigest last index.numShards
          · refine ⟨shard, _, by rw [get?_set, if_pos hshard], ?_⟩
            rw [<- hshard, hfound]
            exact List.mem_append_left _ hdigest
          · exact ⟨shard, subset, by rw [get?_set, if_neg hshard, hfound], hdigest⟩
        · exact ⟨_, _, get?_set_self .., List.mem_append_right _ (List.mem_singleton_self _)⟩
      · rintro ⟨shard, subset, hfound, hdigest⟩
        rw [get?_set] at hfound
        split at hfound
        · rename_i hshard
          cases hfound
          rcases List.mem_append.mp hdigest with hdigest | hdigest
          · cases hfound' : grouped.get? (shardForDigest last index.numShards) with
            | none =>
              rw [hfound'] at hdigest
              cases hdigest
            | some subset =>
              rw [hfound'] at hdigest
              exact .inl ⟨_, subset, hfound', hdigest⟩
          · exact .inr (List.mem_singleton.mp hdigest)
        · exact .inl ⟨shard, subset, hfound, hdigest⟩

theorem gather_answers (digests : List Digest) :
    Answers (index.holders nowNs) ((index.group digests).entries.flatMap Prod.snd)
      (index.gather digests nowNs).2 := by
  have hown : forall group, group ∈ (index.group digests).entries ->
      forall digest, digest ∈ group.2 -> shardForDigest digest index.numShards = group.1 := by
    intro group hgroup
    exact (group_spec index digests).1 group.1 group.2 (get?_eq_some_iff.mpr hgroup)
  unfold gather
  generalize (index.group digests).entries = groups at hown ⊢
  suffices h : Answers (index.holders nowNs) (groups.flatMap Prod.snd)
      (groups.foldl (ask nowNs) (index, empty)).2 ∧
      forall shard digest,
        ((groups.foldl (ask nowNs) (index, empty)).1.shards shard).liveNodes nowNs digest =
          (index.shards shard).liveNodes nowNs digest from h.1
  induction groups using List.reverseRecOn with
  | nil => exact ⟨(fun digest => by simp [get?_empty]), fun _ _ => rfl⟩
  | append_singleton groups last ih =>
    rw [List.foldl_append, List.foldl_cons, List.foldl_nil, List.flatMap_append,
      List.flatMap_cons, List.flatMap_nil, List.append_nil]
    have hbefore := ih fun group hgroup => hown group (by simp [hgroup])
    generalize groups.foldl _ _ = state at hbefore ⊢
    rcases hbefore with ⟨hanswers, hsame⟩
    rcases GlobalIndexShard.members_answers (s := state.1.shards last.1) nowNs last.2 with
      ⟨hfound, hkept⟩
    unfold ask
    dsimp only
    constructor
    · intro digest
      rw [get?_update, hfound digest, hanswers digest, hsame]
      by_cases hmem : digest ∈ last.2
      · have hshard := hown last (by simp) digest hmem
        have hholders : (index.shards last.1).liveNodes nowNs digest =
            index.holders nowNs digest := by
          unfold holders shardFor
          rw [hshard]
        rw [hholders]
        by_cases hempty : index.holders nowNs digest = []
        · simp [hempty]
        · simp [hempty, hmem]
      · have hiff : digest ∈ groups.flatMap Prod.snd ++ last.2 <->
            digest ∈ groups.flatMap Prod.snd := by
          rw [List.mem_append, or_iff_left hmem]
        rw [if_neg (fun h => hmem h.1), Option.none_or]
        simp only [hiff]
    · intro shard digest
      by_cases hshard : shard = last.1
      · rw [hshard, Function.update_self, hkept, hsame]
      · rw [Function.update_of_ne hshard, hsame]

/-- The walk sees, for every digest, the nodes that hold it. -/
theorem gather_getD (index : GlobalPrefixIndex) (nowNs : Int) (h : digest ∈ digests) :
    ((index.gather digests nowNs).2.get? digest).getD [] = index.holders nowNs digest := by
  rw [gather_answers digests digest]
  rcases ((group_spec index digests).2 digest).mp h with ⟨shard, subset, hfound, hmem⟩
  have hasked : digest ∈ (index.group digests).entries.flatMap Prod.snd :=
    List.mem_flatMap.mpr ⟨(shard, subset), get?_eq_some_iff.mp hfound, hmem⟩
  by_cases hempty : index.holders nowNs digest = []
  · rw [if_neg (fun h => h.2 hempty), hempty]
    rfl
  · rw [if_pos ⟨hasked, hempty⟩]
    rfl

/-!
## Runs of nodes
-/

theorem get?_erases (missing : List String) (active : Dict String Nat) (nodeId : String) :
    (missing.foldl (fun active nodeId => active.erase nodeId) active).get? nodeId =
      if nodeId ∈ missing then none else active.get? nodeId := by
  induction missing generalizing active with
  | nil => rfl
  | cons first rest ih =>
    rw [List.foldl_cons, ih, get?_erase]
    by_cases hfirst : nodeId = first
    · simp [hfirst]
    · simp [hfirst]

/-- The runs of one node, as the two tables keep them. -/
structure Tracks (runs : Runs) (nodeId : String) (lengths : Nat × Nat) : Prop where
  active : (runs.active.get? nodeId).getD 0 = lengths.1
  best : runs.best.get? nodeId = if lengths.2 = 0 then none else some lengths.2

variable {lengths : Nat × Nat} {nodeId : String}

theorem Tracks.best_getD (h : Tracks runs nodeId lengths) :
    (runs.best.get? nodeId).getD 0 = lengths.2 := by
  rw [h.best]
  split
  · rename_i hzero
    rw [hzero]
    rfl
  · rfl

theorem countNode_tracks (h : Tracks runs nodeId lengths) :
    Tracks (countNode runs nodeId) nodeId (lengths.1 + 1, max lengths.2 (lengths.1 + 1)) := by
  have hbest := h.best_getD
  unfold countNode
  rw [h.active]
  constructor
  · rw [get?_set_self]
    rfl
  · dsimp only
    split
    · rename_i hless
      rw [get?_set_self, Nat.max_eq_right (by omega)]
      rfl
    · rename_i hmore
      rw [h.best, Nat.max_eq_left (by omega)]

theorem countNode_other (hne : other ≠ nodeId)
    (h : Tracks runs other lengths) : Tracks (countNode runs nodeId) other lengths := by
  unfold countNode
  constructor
  · rw [get?_set, if_neg hne]
    exact h.active
  · dsimp only
    split
    · rw [get?_set, if_neg hne]
      exact h.best
    · exact h.best

section

variable {live : List String} (hnodup : live.Nodup) {runs : Runs} (h : Tracks runs nodeId lengths)
include hnodup h

theorem countNodes_tracks :
    Tracks (live.foldl countNode runs) nodeId
      (if nodeId ∈ live then (lengths.1 + 1, max lengths.2 (lengths.1 + 1)) else lengths) := by
  induction live generalizing runs lengths with
  | nil => exact h
  | cons first rest ih =>
    rw [List.nodup_cons] at hnodup
    rw [List.foldl_cons]
    by_cases hfirst : nodeId = first
    · have hcounted := ih hnodup.2 (hfirst ▸ countNode_tracks (hfirst ▸ h))
      rw [hfirst] at hcounted ⊢
      rw [if_neg hnodup.1] at hcounted
      rw [if_pos List.mem_cons_self]
      exact hcounted
    · have hkept := ih hnodup.2 (countNode_other hfirst h)
      simpa only [List.mem_cons, hfirst, false_or] using hkept

theorem walkOne_tracks :
    Tracks (walkOne runs live) nodeId
      (runStep (fun live : List String => decide (nodeId ∈ live)) lengths live) := by
  unfold walkOne runStep
  have hended : Tracks ⟨(runs.active.keys.filter fun nodeId => nodeId ∉ live).foldl
      (fun active nodeId => active.erase nodeId) runs.active, runs.best⟩ nodeId
      (if nodeId ∈ live then lengths else (0, lengths.2)) := by
    by_cases hlive : nodeId ∈ live
    · rw [if_pos hlive]
      refine ⟨?_, h.best⟩
      rw [get?_erases, if_neg (by simp [hlive])]
      exact h.active
    · rw [if_neg hlive]
      refine ⟨?_, h.best⟩
      rw [get?_erases]
      split
      · rfl
      · rename_i hkept
        cases hfound : runs.active.get? nodeId with
        | none => rfl
        | some run =>
          exact absurd (List.mem_filter.mpr ⟨mem_keys_iff.mpr ⟨run, hfound⟩,
            decide_eq_true hlive⟩) hkept
  have hcounted := countNodes_tracks hnodup hended
  by_cases hlive : nodeId ∈ live
  · simpa only [hlive, if_true, decide_true] using hcounted
  · simpa only [hlive, if_false, decide_false, Bool.false_eq_true] using hcounted

end

theorem walk_tracks (hnodup : forall live, live ∈ walk -> live.Nodup) (nodeId : String) :
    Tracks (walk.foldl walkOne ⟨empty, empty⟩) nodeId
      (runLengths (fun live : List String => decide (nodeId ∈ live)) walk) := by
  induction walk using List.reverseRecOn with
  | nil => exact ⟨rfl, rfl⟩
  | append_singleton walk last ih =>
    rw [List.foldl_append, runLengths_concat]
    exact walkOne_tracks (hnodup last (by simp))
      (ih fun live hlive => hnodup live (by simp [hlive]))

section

variable (index : GlobalPrefixIndex) (digests : List Digest) (nowNs : Int)

def longestRun (nodeId : String) : Nat :=
  (runLengths (index.holds nowNs nodeId) digests).2

/-- A lookup scores every node with a run by its longest run. -/
theorem lookup_spec (hblock : 0 < blockTokens) :
    exists (asked : GlobalPrefixIndex) (best : Dict String Nat),
      index.lookup digests nowNs blockTokens = .ok (asked,
        (best.entries.map (score blockTokens.toNat)).insertionSort
          fun x y => scoreKey x ≤ scoreKey y) ∧
      forall nodeId, best.get? nodeId = if index.longestRun digests nowNs nodeId = 0 then none
        else some (index.longestRun digests nowNs nodeId) := by
  have hwalk : (digests.map fun digest =>
      ((index.gather digests nowNs).2.get? digest).getD []) = digests.map (index.holders nowNs) :=
    List.map_congr_left fun digest hdigest => gather_getD index nowNs hdigest
  unfold lookup
  rw [if_neg (by omega)]
  refine ⟨(index.gather digests nowNs).1, ((digests.map fun digest =>
    ((index.gather digests nowNs).2.get? digest).getD []).foldl walkOne
      ⟨empty, empty⟩).best, rfl, ?_⟩
  intro nodeId
  rw [hwalk, (walk_tracks ?_ nodeId).best]
  · unfold longestRun runLengths
    rw [List.foldl_map]
    rfl
  · intro _ hlive
    rcases List.mem_map.mp hlive with ⟨digest, _, rfl⟩
    exact GlobalIndexShard.liveNodes_nodup digest

/-!
## Scores
-/

/-- How many of the first digests a node holds: the largest `k` such that it has an
unexpired claim on each of the first `k`. -/
def longestPrefix (nodeId : String) : Nat :=
  (digests.takeWhile (index.holds nowNs nodeId)).length

/-- The scores are those of the longest prefixes, without the nodes that hold none. -/
def ScoredByPrefix (blockTokens : Nat) (scores : List NodePrefixScore) : Prop :=
  forall entry, entry ∈ scores <->
    0 < index.longestPrefix digests nowNs entry.nodeId ∧
      entry = score blockTokens (entry.nodeId, index.longestPrefix digests nowNs entry.nodeId)

/-- No node holds a longer run of digests than it holds at their beginning. -/
def PrefixesLongest : Prop :=
  forall nodeId run, run <:+: digests ->
    (forall digest, digest ∈ run -> index.holds nowNs nodeId digest = true) ->
      run.length ≤ index.longestPrefix digests nowNs nodeId

end

section Scores

variable {digests : List Digest} {blockTokens : Nat} {best : Dict String Nat}

theorem mem_scores (entry : NodePrefixScore) :
    entry ∈ (best.entries.map (score blockTokens)).insertionSort
        (fun x y => scoreKey x ≤ scoreKey y) <->
      exists run, best.get? entry.nodeId = some run ∧
        entry = score blockTokens (entry.nodeId, run) := by
  rw [List.mem_insertionSort, List.mem_map]
  constructor
  · rintro ⟨item, hitem, rfl⟩
    exact ⟨item.2, get?_eq_some_iff.mpr hitem, rfl⟩
  · rintro ⟨run, hrun, heq⟩
    exact ⟨(entry.nodeId, run), get?_eq_some_iff.mp hrun, heq.symm⟩

/-- Sorting makes the scores depend on the runs alone. -/
theorem scores_congr {best' : Dict String Nat}
    (h : forall nodeId, best'.get? nodeId = best.get? nodeId) :
    (best'.entries.map (score blockTokens)).insertionSort (fun x y => scoreKey x ≤ scoreKey y) =
      (best.entries.map (score blockTokens)).insertionSort
        (fun x y => scoreKey x ≤ scoreKey y) := by
  have hperm : best'.entries.Perm best.entries := by
    refine (List.perm_ext_iff_of_nodup best'.nodup.of_map best.nodup.of_map).mpr ?_
    intro item
    have hiff : best'.get? item.1 = some item.2 <-> best.get? item.1 = some item.2 := by
      rw [h]
    exact get?_eq_some_iff.symm.trans (hiff.trans get?_eq_some_iff)
  have htotal : Std.Total fun x y : NodePrefixScore => scoreKey x ≤ scoreKey y :=
    ⟨fun x y => le_total (scoreKey x) (scoreKey y)⟩
  have htrans : IsTrans NodePrefixScore fun x y => scoreKey x ≤ scoreKey y :=
    ⟨fun _ _ _ hxy hyz => le_trans hxy hyz⟩
  refine List.Perm.eq_of_pairwise ?_ (List.pairwise_insertionSort _ _)
    (List.pairwise_insertionSort _ _)
    ((List.perm_insertionSort _ _).trans ((hperm.map _).trans (List.perm_insertionSort _ _).symm))
  intro x y hx hy hxy hyx
  rcases (mem_scores x).mp hx with ⟨run, hrun, hxscore⟩
  rcases (mem_scores y).mp hy with ⟨_, hrun', hyscore⟩
  have hnode : x.nodeId = y.nodeId := congrArg (fun k => (ofLex k).2) (le_antisymm hxy hyx)
  rw [h, hnode, hrun'] at hrun
  cases hrun
  rw [hxscore, hyscore, hnode]

end Scores

end GlobalPrefixIndex

open GlobalPrefixIndex in
/-- A lookup scores every node by its longest prefix exactly when no node holds a longer
run further on, and its scores depend only on who holds what: not on the shards. -/
theorem lookup_scores_iff (index : GlobalPrefixIndex) (digests : List Digest) (nowNs : Int)
    {blockTokens : Int} (hblock : 0 < blockTokens) :
    exists asked scores, index.lookup digests nowNs blockTokens = Except.ok (asked, scores) ∧
      (index.ScoredByPrefix digests nowNs blockTokens.toNat scores <->
        index.PrefixesLongest digests nowNs) ∧
      forall other : GlobalPrefixIndex,
        (forall nodeId digest, other.holds nowNs nodeId digest = index.holds nowNs nodeId digest) ->
          exists asked', other.lookup digests nowNs blockTokens = Except.ok (asked', scores) := by
  rcases lookup_spec index digests nowNs hblock with ⟨asked, _, hlookup, hbest⟩
  refine ⟨asked, _, hlookup, ?_, ?_⟩
  · have hfront : forall nodeId, index.longestRun digests nowNs nodeId =
        index.longestPrefix digests nowNs nodeId <-> forall run, run <:+: digests ->
          (forall digest, digest ∈ run -> index.holds nowNs nodeId digest = true) ->
            run.length ≤ index.longestPrefix digests nowNs nodeId := by
      intro nodeId
      refine (longestRun_eq_front_iff _ _).trans ?_
      exact forall_congr' fun run => and_imp
    constructor
    · intro hscored nodeId
      rw [<- hfront]
      by_cases hzero : index.longestRun digests nowNs nodeId = 0
      · have hle : index.longestPrefix digests nowNs nodeId ≤
            index.longestRun digests nowNs nodeId := front_le_longestRun _ _
        omega
      · have hmem := (mem_scores (score blockTokens.toNat
          (nodeId, index.longestRun digests nowNs nodeId))).mpr
            ⟨_, (hbest nodeId).trans (if_neg hzero), rfl⟩
        exact congrArg NodePrefixScore.matchedBlocks ((hscored _).mp hmem).2
    · intro hlongest entry
      have hrun := (hfront entry.nodeId).mpr (hlongest entry.nodeId)
      rw [mem_scores, hbest, hrun]
      by_cases hzero : index.longestPrefix digests nowNs entry.nodeId = 0
      · simp [hzero]
      · simp [hzero, Nat.pos_of_ne_zero hzero]
  · intro other hsame
    rcases lookup_spec other digests nowNs hblock with ⟨asked', _, hlookup', hbest'⟩
    refine ⟨asked', ?_⟩
    have hheld : forall nodeId, other.holds nowNs nodeId = index.holds nowNs nodeId :=
      fun nodeId => funext (hsame nodeId)
    rw [hlookup', scores_congr]
    intro nodeId
    rw [hbest', hbest]
    unfold longestRun
    rw [hheld]

/-- One shard, in which `b` holds the second of two blocks. -/
def secondBlockIndex : GlobalPrefixIndex where
  numShards := 1
  numShards_pos := Nat.one_pos
  shards := fun _ => (GlobalIndexShard.new 2 1 Nat.two_pos Nat.one_pos).upsert [seenBy "b" 0]

theorem lookup_scores_second :
    secondBlockIndex.PrefixesLongest [(seenBy "b" 0).digest] 0 ∧
      exists asked scores,
        secondBlockIndex.lookup [(seenBy "b" 0).digest] 0 16 = Except.ok (asked, scores) ∧
          secondBlockIndex.ScoredByPrefix [(seenBy "b" 0).digest] 0 16 scores := by
  have hlongest : secondBlockIndex.PrefixesLongest [(seenBy "b" 0).digest] 0 := by
    intro nodeId run hrun hheld
    cases run with
    | nil => exact Nat.zero_le _
    | cons first rest =>
      have hfirst := List.mem_singleton.mp (hrun.subset List.mem_cons_self)
      have hholds := hheld first List.mem_cons_self
      rw [hfirst] at hholds
      unfold GlobalPrefixIndex.longestPrefix
      rw [List.takeWhile_cons, if_pos hholds]
      exact hrun.length_le
  rcases lookup_scores_iff secondBlockIndex [(seenBy "b" 0).digest] 0 (by decide : (0 : Int) < 16)
    with ⟨asked, scores, hlookup, hiff, _⟩
  exact ⟨hlongest, asked, scores, hlookup, hiff.mpr hlongest⟩

/-- A node that misses the first block and holds the second is scored for one block. -/
theorem lookup_scores_later_run :
    let digests := [⟨List.replicate 32 1, rfl⟩, (seenBy "b" 0).digest]
    exists asked, secondBlockIndex.lookup digests 0 16 =
        Except.ok (asked, [{ nodeId := "b", matchedBlocks := 1, matchedTokens := 16 }]) ∧
      secondBlockIndex.longestPrefix digests 0 "b" = 0 := by
  intro digests
  exact ⟨_, rfl, by decide⟩

end Prefix
end Ayaka
