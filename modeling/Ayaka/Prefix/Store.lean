import Ayaka.Memory.Sequence
import Ayaka.Prefix.Ownership

/-!
# The page-radix prefix cache

The store serialises changes that span block identities, the radix index, the
ownership table and the page allocator.  The allocator is shared with the other
owners of pages; here it is a component of the store's state.
-/

namespace Ayaka
namespace Prefix

open Foundation Memory

structure RadixPagePrefixCache where
  cacheId : Nat
  allocator : PageAllocator
  table : PrefixOwnershipTable := {}
  radix : PageRadixIndex := {}

abbrev StoreM := EStateM Exc RadixPagePrefixCache

/-- A full-page match that must be revalidated before attachment. -/
structure PrefixMatch where
  context : PrefixCacheContext
  pageSize : Nat
  matchedTokens : Nat
  pages : List KVPageHandle
  terminalHandle : Option PrefixHandle
  deriving DecidableEq

/-- Construction with the checks of `__post_init__`. -/
def PrefixMatch.new (context : PrefixCacheContext) (pageSize matchedTokens : Nat)
    (pages : List KVPageHandle) (terminalHandle : Option PrefixHandle) :
    Except Exc PrefixMatch := do
  if pageSize = 0 then
    throw (.valueError "page_size must be positive")
  if matchedTokens % pageSize ≠ 0 then
    throw (.valueError "matched_tokens must contain complete pages")
  if pages.length ≠ matchedTokens / pageSize then
    throw (.valueError "prefix pages do not match matched_tokens")
  if ¬ (terminalHandle = none <-> matchedTokens = 0) then
    throw (.valueError "only an empty prefix match may omit its terminal handle")
  pure { context, pageSize, matchedTokens, pages, terminalHandle }

def PrefixMatch.empty (context : PrefixCacheContext) (pageSize : Nat) : Except Exc PrefixMatch :=
  PrefixMatch.new context pageSize 0 [] none

structure ValidResume where
  cacheId : Nat
  entryId : Nat
  context : PrefixCacheContext
  tokenIds : List TokenId
  pages : List PageTableEntry
  deriving DecidableEq

def ValidResume.logicalPosition (resume : ValidResume) : Nat :=
  resume.tokenIds.length

namespace RadixPagePrefixCache

/-- The constructor checks that the cache and its allocator agree on it. -/
def pageSize (cache : RadixPagePrefixCache) : Nat :=
  cache.allocator.pageSize

def inAllocator {alpha : Type} (x : AllocatorM alpha) : StoreM alpha :=
  zoom RadixPagePrefixCache.allocator (fun allocator cache => { cache with allocator }) x

def inRadix {alpha : Type} (x : EStateM Exc PageRadixIndex alpha) : StoreM alpha :=
  zoom RadixPagePrefixCache.radix (fun radix cache => { cache with radix }) x

def modifyTable (f : PrefixOwnershipTable -> PrefixOwnershipTable) : StoreM Unit :=
  modify fun cache => { cache with table := f cache.table }

/-!
## Validation
-/

section

variable (allocator : PageAllocator)

def validateCachedPage (page : KVPageHandle) (validTokens : Nat) : Except Exc Unit :=
  match allocator.getMeta page with
  | .error _ =>
    throw (.invariantViolationError
      "prefix cache refers to a stale physical page generation")
  | .ok info =>
    if info.allocationState ≠ .live ∨ info.cacheRefs = 0 ∨
        info.validTokens < validTokens then
      throw (.invariantViolationError
        "prefix cache refers to a non-cache-owned or incomplete live page")
    else
      pure ()

def validateNode (node : PrefixOwnershipNode) (expectedParent : Option PrefixHandle)
    (expectedTokens : List TokenId) : Except Exc Unit :=
  if node.parent ≠ expectedParent ∨ node.blockTokenIds ≠ expectedTokens then
    throw (.invariantViolationError "prefix digest collision or corrupted chain metadata")
  else
    validateCachedPage allocator node.page node.blockTokenIds.length

/-- Validate nodes along their chain, each against its expected tokens. -/
def validateChain :
    List (PrefixOwnershipNode × List TokenId) -> Option PrefixHandle -> Except Exc Unit
  | [], _ => pure ()
  | (node, block) :: rest, parent => do
    validateNode allocator node parent block
    validateChain rest (some node.handle)

def validateSourcePages (pages : List KVPageHandle) (counts : List Nat) : Except Exc Unit := do
  if ¬ pages.Nodup then
    throw (.valueError "a prefix chain cannot contain duplicate pages")
  (pages.zip counts).forM fun (page, count) => do
    if ¬ (0 < count ∧ count ≤ allocator.pageSize) then
      throw (.valueError "invalid cached page token count")
    let info <- allocator.getMeta page
    if info.allocationState ≠ .live ∨ info.requestRefs = 0 ∨
        info.validTokens < count then
      throw (.invalidStateTransitionError
        "only request-owned committed live pages can enter the prefix cache")

def validateSafeEpoch (safeEpoch : Int) : Except Exc Unit :=
  if safeEpoch < allocator.currentEpoch then
    throw (.valueError "safe_epoch cannot precede the completed epoch")
  else
    pure ()

end

/-!
## Publication and pruning
-/

/-- Release a reference taken a moment ago, at the completed epoch. -/
def releaseCacheRefNow (page : KVPageHandle) : StoreM Unit := do
  let epoch := (<- get).allocator.currentEpoch
  inAllocator (PageAllocator.releaseCacheRef page epoch)

local instance : LawfulBEq PrefixHandle :=
  inferInstance

/-- The checks of `publish_new` on the planned nodes that are left. -/
def checkPlanned (table : PrefixOwnershipTable) :
    List PrefixOwnershipNode -> List PrefixOwnershipNode -> Except Exc Unit
  | _, [] => pure ()
  | seen, node :: rest => do
    if node.handle ∈ seen.map PrefixOwnershipNode.handle ∨
        (table.nodes.slot node.handle.index).isSome then
      throw (.invariantViolationError "duplicate prefix ownership handle")
    if node.identity ∈ seen.map PrefixOwnershipNode.identity ∨
        (table.identityToIndex.lookup node.identity).isSome then
      throw (.invariantViolationError "duplicate canonical prefix identity")
    match node.parent with
    | none => pure ()
    | some parent =>
      if parent ∉ (table.nodes.values ++ seen).map PrefixOwnershipNode.handle then
        throw (.invariantViolationError "planned prefix parent is missing")
      else
        pure ()
    checkPlanned table (node :: seen) rest

def unpublish (node : PrefixOwnershipNode) (table : PrefixOwnershipTable) : PrefixOwnershipTable :=
  let unlinked :=
    match node.parent with
    | none => table
    | some parent => table.modifyNode parent fun above =>
      { above with children := above.children.erase node.handle }
  { unlinked with
    nodes := unlinked.nodes.remove node.handle.index
    identityToIndex := unlinked.identityToIndex.erase node.identity }

/-- Expose one planned node; a missing parent is noticed after the entry is made. -/
def publishNode (node : PrefixOwnershipNode) : StoreM Unit := do
  modifyTable fun table =>
    { table with
      nodes := table.nodes.put node.handle.index node
      identityToIndex := table.identityToIndex.insert node.identity node.handle.index }
  match node.parent with
  | none => pure ()
  | some parent => do
    let _ <- query fun cache => cache.table.get parent
    modifyTable fun table => table.modifyNode parent (PrefixOwnershipNode.addChild node.handle)

/-- The second loop of `publish_new`. -/
def publishLoop (acquired : List KVPageHandle) :
    List PrefixOwnershipNode -> List PrefixOwnershipNode -> StoreM Unit
  | _, [] => pure ()
  | published, node :: rest => do
    tryCatch (publishNode node) fun e => do
      published.forM fun node => modifyTable (unpublish node)
      acquired.forM releaseCacheRefNow
      throw e
    publishLoop acquired (node :: published) rest

/-- `publish_new`: acquire cache references, then expose the planned nodes. -/
def publishNew (planned : List PrefixOwnershipNode) : StoreM Unit := do
  query fun cache => checkPlanned cache.table [] planned
  takeEach (fun node => inAllocator (PageAllocator.acquireCacheRef node.page))
    (fun node => query fun cache =>
      validateCachedPage cache.allocator node.page node.blockTokenIds.length)
    (fun node => releaseCacheRefNow node.page) planned []
  publishLoop (planned.reverse.map PrefixOwnershipNode.page) [] planned

/-- `_nodes.pop(index)`. -/
def popNode (index : Nat) : StoreM Unit := do
  if ((<- get).table.nodes.slot index).isNone then
    throw .keyError
  modifyTable fun table => { table with nodes := table.nodes.remove index }

/-- `_identity_to_index.pop(identity)`. -/
def popIdentity (identity : PrefixBlockIdentity) : StoreM Unit := do
  if ((<- get).table.identityToIndex.lookup identity).isNone then
    throw .keyError
  modifyTable fun table =>
    { table with identityToIndex := table.identityToIndex.erase identity }

/-- `parent.children.remove(handle)`, returning the parent as it is afterwards. -/
def removeChild (above : PrefixOwnershipNode) (handle : PrefixHandle) :
    StoreM PrefixOwnershipNode := do
  if handle ∉ above.children then
    throw .keyError
  let cut := { above with children := above.children.erase handle }
  modifyTable fun table => table.modifyNode above.handle fun _ => cut
  pure cut

/-- One round of `prune_unretained`: drop a leaf with its cache reference and go on
to its parent. -/
def pruneLeaf (node : PrefixOwnershipNode) (safeEpoch : Int) :
    StoreM (Option PrefixOwnershipNode) :=
  match node.parent with
  | none => do
    inAllocator (PageAllocator.releaseCacheRef node.page safeEpoch)
    popNode node.handle.index
    popIdentity node.identity
    pure none
  | some parent => do
    let above <- query fun cache => cache.table.get parent
    inAllocator (PageAllocator.releaseCacheRef node.page safeEpoch)
    popNode node.handle.index
    popIdentity node.identity
    let cut <- removeChild above node.handle
    pure (some cut)

/-- The loop of `prune_unretained`; every round removes a node. -/
def pruneLoop (safeEpoch : Int) : Nat -> Option PrefixOwnershipNode -> Nat -> StoreM Nat
  | _, none, released => pure released
  | fuel, some current, released =>
    if current.terminal ∨ current.children ≠ [] then
      pure released
    else
      match fuel with
      | 0 => throw .nonTermination
      | fuel + 1 => do
        let parent <- pruneLeaf current safeEpoch
        pruneLoop safeEpoch fuel parent (released + 1)

def pruneUnretained (handle : PrefixHandle) (safeEpoch : Int) : StoreM Nat := do
  let cache <- get
  pruneLoop safeEpoch cache.table.nodes.size (cache.table.nodes.slot handle.index) 0

/-- One round of `PageRadixIndex.rebuild`. -/
def projectChain (chain : List PrefixOwnershipNode) : StoreM Unit :=
  match chain.getLast? with
  | none => pure ()
  | some last => inRadix (PageRadixIndex.insert last.identity.context
      (chain.map fun node => node.identity.digest) (chain.map PrefixOwnershipNode.handle))

/-- `_rebuild_radix`: project the retained chains into a new radix index. -/
def rebuildRadix : StoreM Unit := do
  let chains <- query fun cache => cache.table.terminalChains
  inRadix (set ({} : PageRadixIndex))
  chains.forM projectChain

/-!
## Insertion
-/

section Sha256

variable (sha256 : List UInt8 -> Digest)

/-- The resolution loop of `_insert_blocks`: known blocks are validated, unknown
ones planned under a fresh handle.  Returns the resolved and the planned nodes. -/
def resolveBlocks :
    List (PrefixBlockIdentity × List TokenId × KVPageHandle) -> Option PrefixHandle ->
      StoreM (List PrefixOwnershipNode × List PrefixOwnershipNode)
  | [], _ => pure ([], [])
  | (identity, block, page) :: rest, parent => do
    match <- query fun cache => cache.table.find identity with
    | none => do
      let node := (<- get).table.plannedNode identity block page parent
      modifyTable fun table => { table with nextHandleIndex := table.nextHandleIndex + 1 }
      let (resolved, planned) <- resolveBlocks rest (some node.handle)
      pure (node :: resolved, node :: planned)
    | some node => do
      query fun cache => validateNode cache.allocator node parent block
      let (resolved, planned) <- resolveBlocks rest (some node.handle)
      pure (node :: resolved, planned)

/-- What `_insert_blocks` does when the radix index refuses the path. -/
def withdraw (planned : List PrefixOwnershipNode) : StoreM Unit := do
  match planned.getLast? with
  | none => pure ()
  | some node => do
    let epoch := (<- get).allocator.currentEpoch
    let _ <- pruneUnretained node.handle epoch
  rebuildRadix

/-- `retain_terminal` on the last block, unless it is retained and need not be. -/
def retainTerminal (handle : PrefixHandle) (retain : Bool) : StoreM Unit :=
  modifyTable fun table => table.modifyNode handle fun node =>
    if retain || !node.terminal then
      { node with terminalRefs := node.terminalRefs + 1 }
    else
      node

def insertBlocks (blocks : List (List TokenId)) (sourcePages : List KVPageHandle)
    (context : PrefixCacheContext) (retain : Bool) : StoreM (Option PrefixHandle) := do
  let pageSize := (<- get).pageSize
  let identities <- query fun _ => buildIdentities sha256 blocks pageSize context
  if sourcePages.length ≠ blocks.length then
    throw (.valueError "insert requires exactly one page per token block")
  if blocks = [] then
    return none
  query fun cache => validateSourcePages cache.allocator sourcePages (blocks.map List.length)
  let (resolved, planned) <- resolveBlocks (identities.zip (blocks.zip sourcePages)) none
  publishNew planned
  tryCatch
    (inRadix (PageRadixIndex.insert context (identities.map PrefixBlockIdentity.digest)
      (resolved.map PrefixOwnershipNode.handle)))
    fun e => do
      withdraw planned
      throw e
  match resolved.getLast? with
  | none => return none
  | some terminal => do
    retainTerminal terminal.handle retain
    modifyTable fun table => table.touch resolved
    return some terminal.handle

def insert (tokenIds : List Int) (pages : List KVPageHandle) (context : PrefixCacheContext) :
    StoreM (Option PrefixHandle) := do
  let blocks <- query fun cache => fullTokenBlocks tokenIds cache.pageSize
  insertBlocks sha256 blocks pages context true

/-- `_resume`: the capability on a chain, cut to its first `n` tokens. -/
def resume (cacheId pageSize : Nat) (nodes : List PrefixOwnershipNode) (n : Nat) :
    Except Exc (Option ValidResume) :=
  match nodes.getLast? with
  | none => pure none
  | some last => do
    let pages <- (nodes.zip (List.range nodes.length)).mapM fun (node, i) =>
      PageTableEntry.new node.page (min pageSize (n - i * pageSize))
    pure (some
      { cacheId
        entryId := last.handle.index
        context := last.identity.context
        tokenIds := (nodes.flatMap PrefixOwnershipNode.blockTokenIds).take n
        pages })

def insertResume (tokenIds : List Int) (pages : List KVPageHandle)
    (context : PrefixCacheContext) : StoreM (Option ValidResume) := do
  let pageSize := (<- get).pageSize
  let _ <- query fun _ => fullTokenBlocks tokenIds pageSize
  let tokens <- query fun _ => normalizeTokenIds tokenIds
  let blocks := slices pageSize (rangeLength tokens.length pageSize) tokens
  match <- insertBlocks sha256 blocks pages context false with
  | none => return none
  | some handle => do
    let nodes <- query fun cache => cache.table.chain handle
    query fun cache => resume cache.cacheId cache.pageSize nodes tokens.length

/-!
## Matching
-/

/-- `match`. -/
def matchPrefix (tokenIds : List Int) (context : PrefixCacheContext) : StoreM PrefixMatch := do
  let pageSize := (<- get).pageSize
  let blocks <- query fun _ => fullTokenBlocks tokenIds pageSize
  let identities <- query fun _ => buildIdentities sha256 blocks pageSize context
  if blocks = [] then
    return <- query fun _ => PrefixMatch.empty context pageSize
  let handles :=
    (<- get).radix.matchPath context (identities.map PrefixBlockIdentity.digest)
  let matched <- query fun cache => handles.mapM cache.table.get
  query fun cache => validateChain cache.allocator (matched.zip blocks) none
  match matched.getLast? with
  | none => query fun _ => PrefixMatch.empty context pageSize
  | some last => do
    modifyTable fun table => table.touch matched
    let pages := matched.map PrefixOwnershipNode.page
    query fun _ => PrefixMatch.new context pageSize (pages.length * pageSize) pages
      (some last.handle)

def sharedTokens : List TokenId -> List TokenId -> Nat
  | a :: block, b :: tokens => if a = b then sharedTokens block tokens + 1 else 0
  | _, _ => 0

def bestCandidate (tokens : List TokenId) :
    List PrefixOwnershipNode -> Option (PrefixOwnershipNode × Nat)
      -> Option (PrefixOwnershipNode × Nat)
  | [], best => best
  | node :: rest, best =>
    let shared := sharedTokens node.blockTokenIds tokens
    if (best.elim 0 Prod.snd) < shared then
      bestCandidate tokens rest (some (node, shared))
    else
      bestCandidate tokens rest best

def matchResume (tokenIds : List Int) (context : PrefixCacheContext) :
    StoreM (Option ValidResume) := do
  let full <- matchPrefix sha256 tokenIds context
  let tokens <- query fun _ => normalizeTokenIds tokenIds
  let nodes <-
    match full.terminalHandle with
    | none => pure []
    | some handle => query fun cache => cache.table.chain handle
  let candidates <- query fun cache => cache.table.childNodes full.terminalHandle context
  match bestCandidate (tokens.drop full.matchedTokens) candidates none with
  | some (best, common) => do
    query fun cache =>
      validateNode cache.allocator best full.terminalHandle best.blockTokenIds
    modifyTable fun table => table.touch (nodes ++ [best])
    query fun cache =>
      resume cache.cacheId cache.pageSize (nodes ++ [best]) (full.matchedTokens + common)
  | none => do
    if nodes = [] then
      return none
    modifyTable fun table => table.touch nodes
    query fun cache => resume cache.cacheId cache.pageSize nodes full.matchedTokens

end Sha256

/-!
## Borrowed capabilities
-/

/-- `_resolve_resume`: revalidate a borrowed capability. -/
def resolveResume (cache : RadixPagePrefixCache) (borrowed : ValidResume) :
    Except Exc (List PrefixOwnershipNode) := do
  if borrowed.cacheId ≠ cache.cacheId then
    throw (.prefixCapabilityStaleError "resume belongs to another cache incarnation")
  let nodes <- cache.table.chain (Handle.first .prefixNode borrowed.entryId)
  let n := borrowed.logicalPosition
  if ¬ ((nodes.length - 1) * cache.pageSize < n ∧
      n ≤ (nodes.map fun node => node.blockTokenIds.length).sum) then
    throw (.prefixCapabilityStaleError "resume length does not match its terminal block")
  if some borrowed ≠ (<- resume cache.cacheId cache.pageSize nodes n) then
    throw (.prefixCapabilityStaleError "resume identity or page generations changed")
  validateChain cache.allocator (nodes.map fun node => (node, node.blockTokenIds)) none
  pure nodes

def acquireRequestRefs (nodes : List PrefixOwnershipNode) : StoreM Unit :=
  takeEach (fun node => inAllocator (PageAllocator.acquireRequestRef node.page))
    (fun _ => pure ())
    (fun node => do
      let epoch := (<- get).allocator.currentEpoch
      inAllocator (PageAllocator.releaseRequestRef node.page epoch)) nodes []

def acquireResume (borrowed : ValidResume) : StoreM (List PageTableEntry) := do
  let nodes <- query fun cache => cache.resolveResume borrowed
  acquireRequestRefs nodes
  modifyTable fun table => table.touch nodes
  pure borrowed.pages

def acquireResumePrefix (borrowed : ValidResume) (pages : Int) :
    StoreM (List PageTableEntry) := do
  if pages < 1 then
    throw (.valueError "acquire_resume_prefix requires at least one page")
  let nodes <- query fun cache => cache.resolveResume borrowed
  if nodes.length < pages then
    throw (.valueError "resume has fewer blocks than the requested prefix")
  let prefixNodes := nodes.take pages.toNat
  acquireRequestRefs prefixNodes
  modifyTable fun table => table.touch prefixNodes
  pure (borrowed.pages.take pages.toNat)

def pinResume (borrowed : ValidResume) : StoreM (List PageTableEntry) := do
  let nodes <- query fun cache => cache.resolveResume borrowed
  takeEach (fun node => inAllocator (PageAllocator.pinPage node.page))
    (fun _ => pure ())
    (fun node => do
      let epoch := (<- get).allocator.currentEpoch
      inAllocator (PageAllocator.unpinPage node.page epoch)) nodes []
  pure borrowed.pages

/-!
## Release and eviction
-/

/-- `evict_terminal` on a node, then `prune_unretained`. -/
def evictTerminal (node : PrefixOwnershipNode) (safeEpoch : Int) : StoreM Nat := do
  if node.terminalRefs = 0 then
    throw (.invariantViolationError "cannot evict an unretained prefix terminal")
  modifyTable fun table => table.modifyNode node.handle fun node =>
    { node with terminalRefs := 0 }
  pruneUnretained node.handle safeEpoch

/-- The terminal `evict_entry` picks; without an entry the least recently used leaf. -/
def evictionTarget (table : PrefixOwnershipTable) :
    Option Nat -> Option PrefixOwnershipNode
  | none => table.evictableNodes.head?
  | some index =>
    match table.get (Handle.first .prefixNode index) with
    | .error _ => none
    | .ok node => if node.terminal then some node else none

def evictEntry (entryId : Option Nat) (safeEpoch : Int) : StoreM Bool := do
  query fun cache => validateSafeEpoch cache.allocator safeEpoch
  match evictionTarget (<- get).table entryId with
  | none => return false
  | some node => do
    let _ <- evictTerminal node safeEpoch
    rebuildRadix
    return true

/-- `evict_page`: drop every cached path that depends on a page. -/
def evictPage (page : KVPageHandle) (safeEpoch : Int) : StoreM Nat := do
  query fun cache => validateSafeEpoch cache.allocator safeEpoch
  let chains <- query fun cache => cache.table.terminalChains
  let terminals := (chains.filter fun chain => chain.any fun node =>
    decide (node.page = page)).filterMap List.getLast?
  let before := (<- get).table.nodes.size
  terminals.forM fun terminal => do
    let _ <- evictEntry (some terminal.handle.index) safeEpoch
  return before - (<- get).table.nodes.size

/-- `release`: drop one terminal retainer and prune what nobody retains. -/
def release (handle : PrefixHandle) (safeEpoch : Int) : StoreM Nat := do
  query fun cache => validateSafeEpoch cache.allocator safeEpoch
  let node <- query fun cache => cache.table.get handle
  if node.terminalRefs = 0 then
    throw (.invalidStateTransitionError "prefix handle is not a retained terminal entry")
  modifyTable fun table => table.modifyNode handle fun node =>
    { node with terminalRefs := node.terminalRefs - 1 }
  if node.terminalRefs ≠ 1 then
    return 0
  let released <- pruneUnretained handle safeEpoch
  rebuildRadix
  return released

/-- The loop of `evict`; every round removes a node. -/
def evictLoop (targetPages : Nat) (safeEpoch : Int) : Nat -> Nat -> StoreM Nat
  | fuel, released => do
    if targetPages ≤ released ∨ (<- get).table.nodes.size = 0 then
      return released
    match fuel with
    | 0 => throw .nonTermination
    | fuel + 1 => do
      match (<- get).table.evictableNodes.head? with
      | none =>
        throw (.invariantViolationError
          "prefix cache contains no evictable terminal leaf")
      | some candidate => do
        let pruned <- evictTerminal candidate safeEpoch
        if pruned = 0 then
          throw (.invariantViolationError
            "evicting a terminal leaf did not release a cache block")
        rebuildRadix
        evictLoop targetPages safeEpoch fuel (released + pruned)

def evict (targetPages : Int) (safeEpoch : Int) : StoreM Nat := do
  if targetPages < 0 then
    throw (.valueError "target_pages must be non-negative")
  if targetPages = 0 then
    return 0
  query fun cache => validateSafeEpoch cache.allocator safeEpoch
  let fuel := (<- get).table.nodes.size
  evictLoop targetPages.toNat safeEpoch fuel 0

def clear (safeEpoch : Int) : StoreM Nat := do
  query fun cache => validateSafeEpoch cache.allocator safeEpoch
  let target := (<- get).table.nodes.size
  if target = 0 then
    return 0
  evict target safeEpoch

end RadixPagePrefixCache

end Prefix
end Ayaka
