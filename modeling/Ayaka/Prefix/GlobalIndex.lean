import Ayaka.Foundation.Dict
import Ayaka.Prefix.Identity

/-!
# The global prefix index

Which node claims which block, split over shards by the leading bytes of the block's
digest.  A shard evicts by a heap of last-seen records that is never searched, and
drops expired claims when their digest is asked for.  Counters are left out.
-/

namespace Ayaka
namespace Prefix

open Foundation

structure IndexEntry where
  digest : Digest
  nodeId : String
  epoch : Nat
  tokenCount : Nat
  lastSeenNs : Int
  deriving DecidableEq

structure NodePrefixScore where
  nodeId : String
  matchedBlocks : Nat
  matchedTokens : Nat
  deriving DecidableEq, Repr

/-- One heap tuple `(last_seen_ns, digest, node_id)`. -/
structure OrderRecord where
  lastSeenNs : Int
  digest : Digest
  nodeId : String
  deriving DecidableEq

def IndexEntry.record (entry : IndexEntry) : OrderRecord :=
  { lastSeenNs := entry.lastSeenNs, digest := entry.digest, nodeId := entry.nodeId }

namespace OrderRecord

/-- Tuples are compared from the left, digests byte by byte. -/
def key (record : OrderRecord) : Int ×ₗ (List Nat ×ₗ String) :=
  toLex (record.lastSeenNs, toLex (record.digest.1.map UInt8.toNat, record.nodeId))

def Le (x y : OrderRecord) : Prop :=
  x.key ≤ y.key

instance : DecidableRel Le := fun x y => inferInstanceAs (Decidable (x.key ≤ y.key))

instance : IsTrans OrderRecord Le where
  trans _ _ _ := le_trans

instance : Std.Total Le where
  total x y := le_total x.key y.key

end OrderRecord

abbrev Claims := Dict Digest (Dict String IndexEntry)

namespace Claims

/-- Put the claims on one digest back; a digest without claims is popped. -/
def store (claims : Claims) (digest : Digest) (perNode : Dict String IndexEntry) : Claims :=
  if perNode.entries = [] then claims.erase digest else claims.set digest perNode

def perNode (claims : Claims) (digest : Digest) : Dict String IndexEntry :=
  (claims.get? digest).getD Dict.empty

def total (claims : Claims) : Nat :=
  claims.sumBy fun _ perNode => perNode.size

end Claims

/-!
## One shard
-/

structure GlobalIndexShard where
  capacity : Nat
  ttlNs : Nat
  capacity_pos : 0 < capacity
  ttl_pos : 0 < ttlNs
  entries : Claims
  order : List OrderRecord
  size : Int

namespace GlobalIndexShard

def new (capacity ttlNs : Nat) (capacity_pos : 0 < capacity) (ttl_pos : 0 < ttlNs) :
    GlobalIndexShard where
  capacity := capacity
  ttlNs := ttlNs
  capacity_pos := capacity_pos
  ttl_pos := ttl_pos
  entries := Dict.empty
  order := []
  size := 0

/-- `_insert`; the heap is kept as its sorted list. -/
def insert (s : GlobalIndexShard) (entry : IndexEntry) : GlobalIndexShard :=
  let perNode := s.entries.perNode entry.digest
  { s with
    entries := s.entries.set entry.digest (perNode.set entry.nodeId entry)
    order := s.order.orderedInsert OrderRecord.Le entry.record
    size := if perNode.contains entry.nodeId then s.size else s.size + 1 }

def discard (s : GlobalIndexShard) (digest : Digest) (nodeId : String) : GlobalIndexShard :=
  let perNode := s.entries.perNode digest
  if perNode.contains nodeId then
    { s with
      entries := s.entries.store digest (perNode.erase nodeId)
      size := s.size - 1 }
  else
    s

/-- The loop of `_evict_overflow` over the heap.  A record whose claim is gone is
skipped; a record of a claim that was replaced is not told from a current one. -/
def evictLoop : List OrderRecord -> GlobalIndexShard -> GlobalIndexShard
  | [], s => s
  | record :: rest, s =>
    if s.capacity < s.size then
      evictLoop rest ({ s with order := rest }.discard record.digest record.nodeId)
    else
      s

section

variable (s : GlobalIndexShard)

def evictOverflow : GlobalIndexShard :=
  evictLoop s.order s

/-- The state of `upsert` when all its entries are in. -/
def insertAll (entries : List IndexEntry) : GlobalIndexShard :=
  entries.foldl insert s

def upsert (entries : List IndexEntry) : GlobalIndexShard :=
  (s.insertAll entries).evictOverflow

def delete (digests : List Digest) (nodeId : String) : GlobalIndexShard :=
  digests.foldl (fun s digest => s.discard digest nodeId) s

def expired (nowNs : Int) (entry : IndexEntry) : Bool :=
  decide (s.ttlNs < nowNs - entry.lastSeenNs)

/-- One digest of `members`: drop its expired claims and list the nodes left. -/
def membersOne (nowNs : Int) (digest : Digest) : GlobalIndexShard × List String :=
  let perNode := s.entries.perNode digest
  let live := perNode.filter fun entry => !s.expired nowNs entry
  ({ s with
      entries := s.entries.store digest live
      size := s.size - (perNode.size - live.size) }, live.keys)

def members (digests : List Digest) (nowNs : Int) : GlobalIndexShard × Dict Digest (List String) :=
  digests.foldl
    (fun (s, result) digest =>
      let (s, nodes) := s.membersOne nowNs digest
      (s, if nodes = [] then result else result.set digest nodes))
    (s, Dict.empty)

def clear : GlobalIndexShard :=
  { s with entries := Dict.empty, order := [], size := 0 }

def claim (digest : Digest) (nodeId : String) : Option IndexEntry :=
  (s.entries.perNode digest).get? nodeId

end

end GlobalIndexShard

inductive ShardCall where
  | upsert (entries : List IndexEntry)
  | delete (digests : List Digest) (nodeId : String)
  | members (digests : List Digest) (nowNs : Int)
  | clear

namespace ShardCall

def step (s : GlobalIndexShard) : ShardCall -> GlobalIndexShard
  | upsert entries => s.upsert entries
  | delete digests nodeId => s.delete digests nodeId
  | members digests nowNs => (s.members digests nowNs).1
  | clear => s.clear

def run (s : GlobalIndexShard) (calls : List ShardCall) : GlobalIndexShard :=
  calls.foldl step s

end ShardCall

/-!
## The index
-/

structure GlobalPrefixIndex where
  numShards : Nat
  numShards_pos : 0 < numShards
  shards : Nat -> GlobalIndexShard

/-- `shard_for_digest` on a digest, which has its two bytes. -/
def shardForDigest (digest : Digest) (numShards : Nat) : Nat :=
  (digest.1.take 2).foldl (fun n byte => n * 256 + byte.toNat) 0 % numShards

namespace GlobalPrefixIndex

def group (index : GlobalPrefixIndex) (digests : List Digest) : Dict Nat (List Digest) :=
  digests.foldl
    (fun grouped digest =>
      let shard := shardForDigest digest index.numShards
      grouped.set shard ((grouped.get? shard).getD [] ++ [digest]))
    Dict.empty

/-- `dict.update`. -/
def update (result more : Dict Digest (List String)) : Dict Digest (List String) :=
  more.entries.foldl (fun result entry => result.set entry.1 entry.2) result

def ask (nowNs : Int) (state : GlobalPrefixIndex × Dict Digest (List String))
    (group : Nat × List Digest) : GlobalPrefixIndex × Dict Digest (List String) :=
  let (asked, found) := (state.1.shards group.1).members group.2 nowNs
  ({ state.1 with shards := Function.update state.1.shards group.1 asked },
    update state.2 found)

def gather (index : GlobalPrefixIndex) (digests : List Digest) (nowNs : Int) :
    GlobalPrefixIndex × Dict Digest (List String) :=
  (index.group digests).entries.foldl (ask nowNs) (index, Dict.empty)

/-- The runs of the nodes: `active` those that end at the last digest, `best` the longest. -/
structure Runs where
  active : Dict String Nat
  best : Dict String Nat

def countNode (runs : Runs) (nodeId : String) : Runs :=
  let run := (runs.active.get? nodeId).getD 0 + 1
  { active := runs.active.set nodeId run
    best := if (runs.best.get? nodeId).getD 0 < run then runs.best.set nodeId run
      else runs.best }

/-- One digest of the walk, held by the nodes `live`: the runs of other nodes end. -/
def walkOne (runs : Runs) (live : List String) : Runs :=
  let missing := runs.active.keys.filter fun nodeId => nodeId ∉ live
  live.foldl countNode
    { runs with active := missing.foldl (fun active nodeId => active.erase nodeId) runs.active }

def score (blockTokens : Nat) (item : String × Nat) : NodePrefixScore :=
  { nodeId := item.1, matchedBlocks := item.2, matchedTokens := item.2 * blockTokens }

def scoreKey (score : NodePrefixScore) : Int ×ₗ String :=
  toLex (-(score.matchedTokens : Int), score.nodeId)

def lookup (index : GlobalPrefixIndex) (digests : List Digest) (nowNs : Int)
    (blockTokens : Int) : Except Exc (GlobalPrefixIndex × List NodePrefixScore) :=
  if blockTokens ≤ 0 then
    .error (.valueError "block_tokens must be positive")
  else
    let (asked, membership) := index.gather digests nowNs
    let live := digests.map fun digest => (membership.get? digest).getD []
    let runs := live.foldl walkOne { active := Dict.empty, best := Dict.empty }
    let scores := runs.best.entries.map (score blockTokens.toNat)
    .ok (asked, scores.insertionSort fun x y => scoreKey x ≤ scoreKey y)

end GlobalPrefixIndex

end Prefix
end Ayaka
