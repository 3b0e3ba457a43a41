import Ayaka.Foundation.IndexMap
import Ayaka.Foundation.RadixForest
import Ayaka.Memory.AllocatorReport
import Ayaka.Prefix.Identity

/-!
# Cached blocks and their owner table

The prefix cache keeps one ownership node for every canonical block, an index
from identities to nodes, and a compressed radix index from digest paths to
nodes.  Node indices are never reused, so the node registry is listed in index
order.
-/

namespace Ayaka
namespace Prefix

open Foundation Memory

/-- One canonical cached block and its allocator-owned page reference. -/
structure PrefixOwnershipNode where
  handle : PrefixHandle
  identity : PrefixBlockIdentity
  blockTokenIds : List TokenId
  page : KVPageHandle
  parent : Option PrefixHandle
  children : List PrefixHandle := []
  terminalRefs : Nat := 0
  lastAccess : Nat := 0
  deriving DecidableEq

def PrefixOwnershipNode.terminal (node : PrefixOwnershipNode) : Bool :=
  decide (0 < node.terminalRefs)

/-- `children.add(handle)`. -/
def PrefixOwnershipNode.addChild (handle : PrefixHandle) (node : PrefixOwnershipNode) :
    PrefixOwnershipNode :=
  if handle ∈ node.children then node else { node with children := node.children ++ [handle] }

/-- The identity registry, without the allocator it takes references from. -/
structure PrefixOwnershipTable where
  nodes : IndexMap PrefixOwnershipNode := IndexMap.empty
  identityToIndex : AList (fun _ : PrefixBlockIdentity => Nat) := ∅
  nextHandleIndex : Nat := 0
  clock : Nat := 0

namespace PrefixOwnershipTable

section

variable (table : PrefixOwnershipTable)

def get (handle : PrefixHandle) : Except Exc PrefixOwnershipNode :=
  match table.nodes.slot handle.index with
  | some node =>
    if node.handle = handle then
      .ok node
    else
      .error (.invalidHandleError
        ("stale prefix handle: " ++ handle.text "PrefixHandle"))
  | none =>
    .error (.invalidHandleError
      ("stale prefix handle: " ++ handle.text "PrefixHandle"))

def find (identity : PrefixBlockIdentity) : Except Exc (Option PrefixOwnershipNode) :=
  match table.identityToIndex.lookup identity with
  | none => .ok none
  | some index =>
    match table.nodes.slot index with
    | none =>
      .error (.invariantViolationError
        "prefix identity index refers to a missing node")
    | some node => .ok (some node)

def modifyNode (handle : PrefixHandle) (f : PrefixOwnershipNode -> PrefixOwnershipNode) :
    PrefixOwnershipTable :=
  { table with nodes := table.nodes.modify handle.index f }

/-- The node `plan` returns for the next free handle. -/
def plannedNode (identity : PrefixBlockIdentity) (block : List TokenId) (page : KVPageHandle)
    (parent : Option PrefixHandle) : PrefixOwnershipNode where
  handle := Handle.first .prefixNode table.nextHandleIndex
  identity := identity
  blockTokenIds := block
  page := page
  parent := parent

/-- Walk the parent links up from a handle, collecting root-first. -/
def chainUp :
    Nat -> PrefixHandle -> List PrefixOwnershipNode -> Except Exc (List PrefixOwnershipNode)
  | 0, _, _ => throw .nonTermination
  | fuel + 1, handle, below => do
    let node <- table.get handle
    match node.parent with
    | none => pure (node :: below)
    | some parent => chainUp fuel parent (node :: below)

/-- `chain`: parents have smaller indices, which bounds the walk. -/
def chain (handle : PrefixHandle) : Except Exc (List PrefixOwnershipNode) :=
  table.chainUp (handle.index + 1) handle []

def childNodes (parent : Option PrefixHandle) (context : PrefixCacheContext) :
    Except Exc (List PrefixOwnershipNode) := do
  let candidates <-
    match parent with
    | none => pure table.nodes.values
    | some handle => do
      let node <- table.get handle
      (node.children.insertionSort fun x y => x.index ≤ y.index).mapM table.get
  pure (candidates.filter fun node =>
    decide (node.parent = parent) && decide (node.identity.context = context))

def touch (nodes : List PrefixOwnershipNode) : PrefixOwnershipTable :=
  nodes.foldl
    (fun table node => table.modifyNode node.handle fun node =>
      { node with lastAccess := table.clock })
    { table with clock := table.clock + 1 }

def evictableNodes : List PrefixOwnershipNode :=
  (table.nodes.values.filter fun node => node.terminal && node.children.isEmpty).insertionSort
    fun x y => x.lastAccess < y.lastAccess ∨
      (x.lastAccess = y.lastAccess ∧ x.handle.index ≤ y.handle.index)

def terminalNodes : List PrefixOwnershipNode :=
  table.nodes.values.filter PrefixOwnershipNode.terminal

def terminalChains : Except Exc (List (List PrefixOwnershipNode)) :=
  table.terminalNodes.mapM fun terminal => table.chain terminal.handle

end

end PrefixOwnershipTable

/-!
## The radix index
-/

structure PageRadixIndex where
  roots : AList (fun _ : PrefixCacheContext => RadixForest Digest PrefixHandle) := ∅

namespace PageRadixIndex

def faultMessage : RadixFault -> Exc
  | .conflict =>
    .invariantViolationError "one radix identity resolves to two physical prefix handles"
  | .misfiled =>
    .invariantViolationError "radix child is indexed under the wrong digest"

def root (index : PageRadixIndex) (context : PrefixCacheContext) :
    RadixForest Digest PrefixHandle :=
  (index.roots.lookup context).getD .nil

def matchPath (index : PageRadixIndex) (context : PrefixCacheContext)
    (digests : List Digest) : List PrefixHandle :=
  (index.root context).matchWord digests

def setRoot (context : PrefixCacheContext) (forest : RadixForest Digest PrefixHandle)
    (index : PageRadixIndex) : PageRadixIndex :=
  { index with roots := index.roots.insert context forest }

/-- `insert`; a missing root is created before the path is compared. -/
def insert (context : PrefixCacheContext) (digests : List Digest)
    (handles : List PrefixHandle) : EStateM Exc PageRadixIndex Unit := do
  if digests.length ≠ handles.length ∨ digests = [] then
    throw (.valueError "radix insert needs aligned non-empty digests and handles")
  modify fun index => index.setRoot context (index.root context)
  let forest := (<- get).root context
  match forest.insertWord (digests.zip handles) with
  | .error fault => throw (faultMessage fault)
  | .ok grown => modify (setRoot context grown)

end PageRadixIndex

end Prefix
end Ayaka
