import Ayaka.Prefix.GlobalIndex

/-!
# What a shard keeps

The size counter counts the stored claims, and every stored claim has its own record
in the heap, so an upsert can always evict down to the capacity.  A claim that was
refreshed also keeps its older record, and is evicted by it.
-/

namespace Ayaka
namespace Prefix

open Foundation
open Dict

namespace Claims

variable {claims : Claims} {digest other : Digest} {perNode : Dict String IndexEntry}

theorem perNode_store :
    (claims.store digest perNode).perNode other =
      if other = digest then perNode else claims.perNode other := by
  unfold store Claims.perNode
  split
  · rename_i hempty
    rw [get?_erase]
    split
    · exact ext_entries hempty.symm
    · rfl
  · rw [get?_set]
    split
    · rfl
    · rfl

theorem total_store :
    (claims.store digest perNode).total = (Dict.erase claims digest).sumBy
      (fun _ perNode => perNode.size) + perNode.size := by
  unfold store total
  split
  · rename_i hempty
    unfold Dict.size
    rw [hempty]
    rfl
  · exact sumBy_set ..

theorem total_eq (claims : Claims) (digest : Digest) :
    claims.total = (Dict.erase claims digest).sumBy (fun _ perNode => perNode.size) +
      (claims.perNode digest).size := by
  unfold total Claims.perNode
  cases hfound : Dict.get? claims digest with
  | none =>
    rw [erase_of_none hfound]
    rfl
  | some perNode => exact sumBy_of_get? hfound _

theorem exists_claim (h : claims.total ≠ 0) :
    exists digest nodeId entry, (claims.perNode digest).get? nodeId = some entry := by
  have hexists : exists item, item ∈ claims.entries ∧ item.2.size ≠ 0 := by
    by_contra hnone
    apply h
    apply List.sum_eq_zero
    intro _ hn
    rcases List.mem_map.mp hn with ⟨item, hitem, rfl⟩
    by_contra hpos
    exact hnone ⟨item, hitem, hpos⟩
  rcases hexists with ⟨⟨digest, perNode⟩, hitem, hsize⟩
  rcases List.exists_mem_of_ne_nil _ (List.ne_nil_of_length_pos (Nat.pos_of_ne_zero hsize)) with
    ⟨⟨nodeId, entry⟩, hentry⟩
  refine ⟨digest, nodeId, entry, ?_⟩
  unfold Claims.perNode
  rw [get?_eq_some_iff.mpr hitem]
  exact get?_eq_some_iff.mpr hentry

end Claims

namespace GlobalIndexShard

/-- The counter is right, every claim has its record in the heap, and the heap is a heap. -/
structure Ok (s : GlobalIndexShard) : Prop where
  counted : s.size = s.entries.total
  recorded : forall digest nodeId entry, s.claim digest nodeId = some entry ->
    entry.record ∈ s.order ∧ entry.digest = digest ∧ entry.nodeId = nodeId
  sorted : s.order.Pairwise OrderRecord.Le

variable {s : GlobalIndexShard}

theorem new_ok {capacity ttlNs : Nat} (hcapacity : 0 < capacity) (httl : 0 < ttlNs) :
    (new capacity ttlNs hcapacity httl).Ok where
  counted := rfl
  recorded := fun _ _ _ h => nomatch h
  sorted := List.Pairwise.nil

/-!
## Claims after a change
-/

theorem claim_insert (entry : IndexEntry) (digest : Digest) (nodeId : String) :
    (s.insert entry).claim digest nodeId =
      if digest = entry.digest ∧ nodeId = entry.nodeId then some entry
      else s.claim digest nodeId := by
  unfold claim
  change Dict.get? (((Dict.get? (s.entries.set entry.digest _) digest)).getD Dict.empty) nodeId = _
  rw [get?_set]
  by_cases hdigest : digest = entry.digest
  · rw [if_pos hdigest, Option.getD_some, get?_set, hdigest]
    simp only [true_and]
  · rw [if_neg hdigest, if_neg (fun h => hdigest h.1)]
    rfl

theorem claim_discard (digest other : Digest) (nodeId node : String) :
    (s.discard digest nodeId).claim other node =
      if other = digest ∧ node = nodeId then none else s.claim other node := by
  unfold discard
  dsimp only
  split
  · unfold claim
    rw [Claims.perNode_store]
    by_cases hdigest : other = digest
    · rw [if_pos hdigest, get?_erase, hdigest]
      simp only [true_and]
    · rw [if_neg hdigest, if_neg (fun h => hdigest h.1)]
  · rename_i hmissing
    split
    · rename_i hsame
      rw [hsame.1, hsame.2]
      exact Option.not_isSome_iff_eq_none.mp hmissing
    · rfl

theorem claim_membersOne (nowNs : Int) (digest other : Digest) (node : String) :
    (s.membersOne nowNs digest).1.claim other node =
      if other = digest then (s.claim other node).filter fun entry => !s.expired nowNs entry
      else s.claim other node := by
  unfold membersOne claim
  rw [Claims.perNode_store]
  split
  · rename_i hsame
    rw [get?_filter, hsame]
  · rfl

/-!
## The counter
-/

section

variable (h : s.size = s.entries.total)
include h

theorem insert_counted (entry : IndexEntry) :
    (s.insert entry).size = (s.insert entry).entries.total := by
  have htotal := s.entries.total_eq entry.digest
  have hset : (s.insert entry).entries.total =
      (Dict.erase s.entries entry.digest).sumBy (fun _ perNode => perNode.size) +
        ((s.entries.perNode entry.digest).set entry.nodeId entry).size :=
    sumBy_set ..
  rw [hset, size_set]
  unfold insert
  dsimp only
  unfold Dict.contains
  cases hfound : (s.entries.perNode entry.digest).get? entry.nodeId with
  | none =>
    rw [erase_of_none hfound]
    simp only [Option.isSome_none, Bool.false_eq_true, if_false]
    omega
  | some old =>
    have hsize := size_of_get? hfound
    simp only [Option.isSome_some, if_true]
    omega

theorem discard_counted (digest : Digest) (nodeId : String) :
    (s.discard digest nodeId).size = (s.discard digest nodeId).entries.total := by
  unfold discard
  dsimp only
  split
  · rename_i hcontains
    rcases Option.isSome_iff_exists.mp hcontains with ⟨_, hentry⟩
    have _ := s.entries.total_eq digest
    have hsize := size_of_get? hentry
    dsimp only
    rw [Claims.total_store]
    omega
  · exact h

theorem membersOne_counted (nowNs : Int) (digest : Digest) :
    (s.membersOne nowNs digest).1.size = (s.membersOne nowNs digest).1.entries.total := by
  have htotal := s.entries.total_eq digest
  unfold membersOne
  dsimp only
  rw [Claims.total_store]
  omega

end

/-!
## The invariant
-/

/-- Dropping claims and leaving the heap keeps what the heap holds. -/
theorem Ok.drop {t : GlobalIndexShard} (h : s.Ok) (hcounted : t.size = t.entries.total)
    (horder : t.order = s.order)
    (hclaims : forall digest nodeId entry, t.claim digest nodeId = some entry ->
      s.claim digest nodeId = some entry) : t.Ok where
  counted := hcounted
  recorded := by
    intro digest nodeId entry hclaim
    rw [horder]
    exact h.recorded digest nodeId entry (hclaims digest nodeId entry hclaim)
  sorted := by
    rw [horder]
    exact h.sorted

theorem discard_order (digest : Digest) (nodeId : String) :
    (s.discard digest nodeId).order = s.order := by
  unfold discard
  dsimp only
  split
  · rfl
  · rfl

theorem discard_claims {digest other : Digest} {nodeId node : String} {entry}
    (h : (s.discard digest nodeId).claim other node = some entry) :
    s.claim other node = some entry := by
  rw [claim_discard] at h
  split at h
  · cases h
  · exact h

section

variable (h : s.Ok)
include h

theorem discard_ok (digest : Digest) (nodeId : String) : (s.discard digest nodeId).Ok :=
  h.drop (discard_counted h.counted digest nodeId) (discard_order digest nodeId)
    fun _ _ _ hclaim => discard_claims hclaim

theorem membersOne_ok (nowNs : Int) (digest : Digest) : (s.membersOne nowNs digest).1.Ok := by
  refine h.drop (membersOne_counted h.counted nowNs digest) rfl ?_
  intro _ _ _ hclaim
  rw [claim_membersOne] at hclaim
  split at hclaim
  · exact (Option.filter_eq_some_iff.mp hclaim).1
  · exact hclaim

theorem insert_ok (entry : IndexEntry) : (s.insert entry).Ok where
  counted := insert_counted h.counted entry
  recorded := by
    intro digest nodeId found hclaim
    rw [claim_insert] at hclaim
    change found.record ∈ s.order.orderedInsert OrderRecord.Le entry.record ∧ _
    rw [List.mem_orderedInsert]
    split at hclaim
    · rename_i hsame
      cases hclaim
      exact ⟨.inl rfl, hsame.1.symm, hsame.2.symm⟩
    · rcases h.recorded digest nodeId found hclaim with ⟨hmem, hkey⟩
      exact ⟨.inr hmem, hkey⟩
  sorted := h.sorted.orderedInsert _ _

theorem insertAll_ok (entries : List IndexEntry) : (s.insertAll entries).Ok := by
  induction entries generalizing s with
  | nil => exact h
  | cons entry rest ih => exact ih (insert_ok h entry)

theorem members_ok (digests : List Digest) (nowNs : Int) : (s.members digests nowNs).1.Ok := by
  unfold members
  generalize (Dict.empty : Dict Digest (List String)) = result
  induction digests generalizing s result with
  | nil => exact h
  | cons digest rest ih => exact ih (membersOne_ok h nowNs digest) _

theorem delete_ok (digests : List Digest) (nodeId : String) : (s.delete digests nodeId).Ok := by
  induction digests generalizing s with
  | nil => exact h
  | cons digest rest ih => exact ih (discard_ok h digest nodeId)

end

/-!
## Eviction
-/

def popped (s : GlobalIndexShard) (record : OrderRecord) (rest : List OrderRecord) :
    GlobalIndexShard :=
  { s with order := rest }.discard record.digest record.nodeId

def evictPops : List OrderRecord -> GlobalIndexShard -> List OrderRecord
  | [], _ => []
  | record :: rest, s =>
    if s.capacity < s.size then record :: evictPops rest (s.popped record rest) else []

/-- None of the records is older than the claim it names. -/
def Current (pops : List OrderRecord) (s : GlobalIndexShard) : Prop :=
  forall record, record ∈ pops ->
    forall entry, s.claim record.digest record.nodeId = some entry ->
      entry.lastSeenNs ≤ record.lastSeenNs

/-- What eviction makes of `s` when it pops the records. -/
structure Evicted (pops : List OrderRecord) (s t : GlobalIndexShard) : Prop where
  ok : t.Ok
  capacity : t.capacity = s.capacity
  fits : t.size ≤ t.capacity
  kept : forall digest nodeId entry, t.claim digest nodeId = some entry ->
    s.claim digest nodeId = some entry
  oldest : Current pops s -> forall digest nodeId entry, s.claim digest nodeId = some entry ->
    t.claim digest nodeId = none -> forall other node retained,
      t.claim other node = some retained -> entry.lastSeenNs ≤ retained.lastSeenNs

theorem lastSeenNs_le (h : OrderRecord.Le x y) : x.lastSeenNs ≤ y.lastSeenNs := by
  rcases Prod.Lex.le_iff.mp h with hlt | ⟨heq, _⟩
  · exact le_of_lt hlt
  · exact le_of_eq heq

theorem evicted_self (h : s.Ok) (hfits : s.size ≤ s.capacity) : Evicted [] s s where
  ok := h
  capacity := rfl
  fits := hfits
  kept := fun _ _ _ hclaim => hclaim
  oldest := by
    intro _ _ _ _ hclaim hgone
    rw [hgone] at hclaim
    cases hclaim

section Pop

variable {record : OrderRecord} {rest pops : List OrderRecord}

theorem claim_popped (digest : Digest) (nodeId : String) :
    (s.popped record rest).claim digest nodeId =
      if digest = record.digest ∧ nodeId = record.nodeId then none
      else s.claim digest nodeId :=
  claim_discard ..

theorem popped_order : (s.popped record rest).order = rest :=
  discard_order ..

theorem popped_capacity : (s.popped record rest).capacity = s.capacity := by
  unfold popped discard
  dsimp only
  split
  · rfl
  · rfl

theorem popped_ok (h : s.Ok) (hheap : s.order = record :: rest) : (s.popped record rest).Ok where
  counted := discard_counted (s := { s with order := rest }) h.counted _ _
  recorded := by
    intro digest nodeId entry hclaim
    rw [claim_popped] at hclaim
    split at hclaim
    · cases hclaim
    · rename_i hother
      rcases h.recorded digest nodeId entry hclaim with ⟨hmem, hdigest, hnode⟩
      rw [hheap, List.mem_cons] at hmem
      refine ⟨?_, hdigest, hnode⟩
      rw [popped_order]
      rcases hmem with hrecord | hmem
      · rw [<- hrecord] at hother
        exact absurd ⟨hdigest.symm, hnode.symm⟩ hother
      · exact hmem
  sorted := by
    have hsorted := h.sorted
    rw [hheap] at hsorted
    rw [popped_order]
    exact hsorted.of_cons

theorem popped_current (h : Current (record :: pops) s) :
    Current pops (s.popped record rest) := by
  intro other hother entry hclaim
  rw [claim_popped] at hclaim
  split at hclaim
  · cases hclaim
  · exact h other (List.mem_cons_of_mem _ hother) entry hclaim

/-- What the rest of the loop makes of the popped state is what the loop makes of `s`. -/
theorem Evicted.of_popped (h : s.Ok) (hheap : s.order = record :: rest)
    (hrest : Evicted pops (s.popped record rest) t) : Evicted (record :: pops) s t where
  __ := hrest
  capacity := hrest.capacity.trans popped_capacity
  kept := by
    intro digest nodeId entry hclaim
    have hkept := hrest.kept digest nodeId entry hclaim
    rw [claim_popped] at hkept
    split at hkept
    · cases hkept
    · exact hkept
  oldest := by
    intro hcurrent digest nodeId entry hclaim hgone other node retained hretained
    by_cases hsame : digest = record.digest ∧ nodeId = record.nodeId
    · -- the popped record evicted the claim; what is retained has a later record
      rw [hsame.1, hsame.2] at hclaim
      have hentry := hcurrent record List.mem_cons_self entry hclaim
      have hlater := (popped_ok h hheap).recorded other node retained
        (hrest.kept other node retained hretained)
      have hsorted := h.sorted
      rw [hheap, List.pairwise_cons] at hsorted
      rw [popped_order] at hlater
      exact hentry.trans (lastSeenNs_le (hsorted.1 _ hlater.1))
    · have hleft : (s.popped record rest).claim digest nodeId = some entry := by
        rw [claim_popped, if_neg hsame]
        exact hclaim
      exact hrest.oldest (popped_current hcurrent) digest nodeId entry hleft hgone other node
        retained hretained

end Pop

theorem evictLoop_evicted (h : s.Ok) (hheap : s.order = heap) :
    Evicted (evictPops heap s) s (evictLoop heap s) := by
  induction heap generalizing s with
  | nil =>
    refine evicted_self h ?_
    have hnone : s.entries.total = 0 := by
      by_contra hpos
      rcases Claims.exists_claim hpos with ⟨digest, nodeId, entry, hclaim⟩
      have hmem := (h.recorded digest nodeId entry hclaim).1
      rw [hheap] at hmem
      cases hmem
    have hcounted := h.counted
    omega
  | cons record rest ih =>
    unfold evictLoop evictPops
    by_cases hover : s.capacity < s.size
    · rw [if_pos hover, if_pos hover]
      exact (ih (popped_ok h hheap) popped_order).of_popped h hheap
    · rw [if_neg hover, if_neg hover]
      exact evicted_self h (Int.not_lt.mp hover)

def upsertPops (s : GlobalIndexShard) (entries : List IndexEntry) : List OrderRecord :=
  evictPops (s.insertAll entries).order (s.insertAll entries)

theorem upsert_evicted (h : s.Ok) (entries : List IndexEntry) :
    Evicted (s.upsertPops entries) (s.insertAll entries) (s.upsert entries) :=
  evictLoop_evicted (insertAll_ok h entries) rfl

end GlobalIndexShard

theorem ShardCall.step_ok (h : s.Ok) (call : ShardCall) : (call.step s).Ok := by
  cases call with
  | upsert entries => exact (GlobalIndexShard.upsert_evicted h entries).ok
  | delete digests nodeId => exact GlobalIndexShard.delete_ok h digests nodeId
  | members digests nowNs => exact GlobalIndexShard.members_ok h digests nowNs
  | clear =>
    exact
      { counted := rfl
        recorded := fun _ _ _ hclaim => nomatch hclaim
        sorted := List.Pairwise.nil }

theorem ShardCall.run_ok {s} (h : s.Ok) (calls : List ShardCall) : (ShardCall.run s calls).Ok := by
  induction calls generalizing s with
  | nil => exact h
  | cons call rest ih => exact ih (step_ok h call)

/-!
## Refreshed claims
-/

namespace GlobalIndexShard

variable {s : GlobalIndexShard}

/-- When a claim will have been seen last, once the entries are in. -/
def lastSeen (s : GlobalIndexShard) (entries : List IndexEntry) (digest : Digest)
    (nodeId : String) : Option Int :=
  entries.foldl
    (fun seen entry =>
      if digest = entry.digest ∧ nodeId = entry.nodeId then some entry.lastSeenNs else seen)
    ((s.claim digest nodeId).map IndexEntry.lastSeenNs)

/-- No record that the upsert pops is older than its claim will be. -/
def Unrefreshed (s : GlobalIndexShard) (entries : List IndexEntry) : Prop :=
  forall record, record ∈ s.upsertPops entries ->
    forall time, s.lastSeen entries record.digest record.nodeId = some time ->
      time ≤ record.lastSeenNs

theorem claim_insertAll (entries : List IndexEntry) (digest : Digest) (nodeId : String) :
    ((s.insertAll entries).claim digest nodeId).map IndexEntry.lastSeenNs =
      s.lastSeen entries digest nodeId := by
  unfold insertAll lastSeen
  induction entries generalizing s with
  | nil => rfl
  | cons entry rest ih =>
    rw [List.foldl_cons, ih, List.foldl_cons, claim_insert, apply_ite (Option.map _)]
    rfl

theorem Unrefreshed.current {entries} (h : s.Unrefreshed entries) :
    Current (s.upsertPops entries) (s.insertAll entries) := by
  intro record hrecord _ hclaim
  refine h record hrecord _ ?_
  rw [<- claim_insertAll, hclaim]
  rfl

end GlobalIndexShard

/-- In every state a shard can reach, the counter is the number of stored claims and an
upsert ends within the capacity.  An upsert that pops no record older than its claim
evicts only claims last seen no later than all it retains. -/
theorem shard_evicts_oldest {capacity ttlNs : Nat} (hcapacity : 0 < capacity)
    (httl : 0 < ttlNs) (calls : List ShardCall) (entries : List IndexEntry) :
    let s := ShardCall.run (GlobalIndexShard.new capacity ttlNs hcapacity httl) calls
    s.size = s.entries.total ∧ (s.upsert entries).size ≤ (s.upsert entries).capacity ∧
      (s.Unrefreshed entries -> forall digest nodeId entry,
        (s.insertAll entries).claim digest nodeId = some entry ->
          (s.upsert entries).claim digest nodeId = none ->
            forall other node retained, (s.upsert entries).claim other node = some retained ->
              entry.lastSeenNs ≤ retained.lastSeenNs) := by
  intro s
  have hok : s.Ok := ShardCall.run_ok (GlobalIndexShard.new_ok hcapacity httl) calls
  have hevicted := GlobalIndexShard.upsert_evicted hok entries
  exact ⟨hok.counted, hevicted.fits, fun h => hevicted.oldest h.current⟩

def seenBy (nodeId : String) (lastSeenNs : Int) : IndexEntry where
  digest := ⟨List.replicate 32 0, rfl⟩
  nodeId := nodeId
  epoch := 1
  tokenCount := 16
  lastSeenNs := lastSeenNs

/-- The older record of the refreshed claim of `a` stays in the heap. -/
theorem shard_evicts_oldest_new :
    let s := ShardCall.run (GlobalIndexShard.new 2 1 (by decide) (by decide))
      [ShardCall.upsert [seenBy "b" 1], ShardCall.upsert [seenBy "a" 2],
        ShardCall.upsert [seenBy "a" 3]]
    let entries := [seenBy "c" 4]
    s.Unrefreshed entries ∧ (s.upsert entries).size = 2 ∧
      forall other node retained, (s.upsert entries).claim other node = some retained ->
        1 ≤ retained.lastSeenNs := by
  intro s entries
  have hpops : s.upsertPops entries = [(seenBy "b" 1).record] := by decide
  have hunrefreshed : s.Unrefreshed entries := by
    intro record hrecord time htime
    rw [hpops, List.mem_singleton] at hrecord
    rw [hrecord] at htime
    cases htime
    exact Int.le_of_eq (congrArg OrderRecord.lastSeenNs hrecord).symm
  have hall := shard_evicts_oldest (by decide : 0 < 2) (by decide : 0 < 1)
    [ShardCall.upsert [seenBy "b" 1], ShardCall.upsert [seenBy "a" 2],
      ShardCall.upsert [seenBy "a" 3]] entries
  exact ⟨hunrefreshed, by decide, hall.2.2 hunrefreshed (seenBy "b" 1).digest "b" (seenBy "b" 1)
    (by decide) (by decide)⟩

/-- With room for two claims, the refreshed claim of `a` is evicted by its first record
although `b` was seen earlier. -/
theorem shard_evicts_refreshed :
    let s := ShardCall.run (GlobalIndexShard.new 2 1 (by decide) (by decide))
      [ShardCall.upsert [seenBy "a" 1], ShardCall.upsert [seenBy "b" 2],
        ShardCall.upsert [seenBy "a" 3]]
    let entries := [seenBy "c" 4]
    ¬ forall digest nodeId entry, (s.insertAll entries).claim digest nodeId = some entry ->
      (s.upsert entries).claim digest nodeId = none ->
        forall other node retained, (s.upsert entries).claim other node = some retained ->
          entry.lastSeenNs ≤ retained.lastSeenNs := by
  intro s entries h
  have hle := h (seenBy "a" 3).digest "a" (seenBy "a" 3) (by decide) (by decide)
    (seenBy "b" 2).digest "b" (seenBy "b" 2) (by decide)
  exact absurd hle (by decide)

end Prefix
end Ayaka
