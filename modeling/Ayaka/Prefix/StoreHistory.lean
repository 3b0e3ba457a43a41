import Ayaka.Prefix.IdentityAgreement
import Ayaka.Prefix.StoreInsert
import Ayaka.Prefix.StoreMatch

/-!
# Histories of a prefix cache

A history interleaves the public calls on the cache with the calls by which the
other owners of pages use the shared allocator.  The cache stays consistent, and
every cached block is accounted for by an insertion of the history.
-/

namespace Ayaka
namespace Prefix

open Foundation Memory PageAllocator
open PrefixOwnershipNode

inductive StoreCall where
  | insert (tokenIds : List Int) (pages : List KVPageHandle) (context : PrefixCacheContext)
  | insertResume (tokenIds : List Int) (pages : List KVPageHandle)
      (context : PrefixCacheContext)
  | matchPrefix (tokenIds : List Int) (context : PrefixCacheContext)
  | matchResume (tokenIds : List Int) (context : PrefixCacheContext)
  | acquireResume (borrowed : ValidResume)
  | acquireResumePrefix (borrowed : ValidResume) (pages : Int)
  | pinResume (borrowed : ValidResume)
  | release (handle : PrefixHandle) (safeEpoch : Int)
  | evict (targetPages safeEpoch : Int)
  | evictEntry (entryId : Option Nat) (safeEpoch : Int)
  | evictPage (page : KVPageHandle) (safeEpoch : Int)
  | clear (safeEpoch : Int)
  | allocator (call : AllocatorCall)

/-- A block in the cache: the blocks up to it and the page that holds it. -/
structure Publication where
  context : PrefixCacheContext
  blocks : List (List TokenId)
  page : KVPageHandle
  deriving DecidableEq

namespace StoreCall

variable (sha256 : List UInt8 -> Digest)

def step (call : StoreCall) (cache : RadixPagePrefixCache) : RadixPagePrefixCache :=
  match call with
  | insert tokenIds pages context =>
    finalState (RadixPagePrefixCache.insert sha256 tokenIds pages context cache)
  | insertResume tokenIds pages context =>
    finalState (RadixPagePrefixCache.insertResume sha256 tokenIds pages context cache)
  | matchPrefix tokenIds context =>
    finalState (RadixPagePrefixCache.matchPrefix sha256 tokenIds context cache)
  | matchResume tokenIds context =>
    finalState (RadixPagePrefixCache.matchResume sha256 tokenIds context cache)
  | acquireResume borrowed =>
    finalState (RadixPagePrefixCache.acquireResume borrowed cache)
  | acquireResumePrefix borrowed pages =>
    finalState (RadixPagePrefixCache.acquireResumePrefix borrowed pages cache)
  | pinResume borrowed => finalState (RadixPagePrefixCache.pinResume borrowed cache)
  | release handle safeEpoch =>
    finalState (RadixPagePrefixCache.release handle safeEpoch cache)
  | evict targetPages safeEpoch =>
    finalState (RadixPagePrefixCache.evict targetPages safeEpoch cache)
  | evictEntry entryId safeEpoch =>
    finalState (RadixPagePrefixCache.evictEntry entryId safeEpoch cache)
  | evictPage page safeEpoch =>
    finalState (RadixPagePrefixCache.evictPage page safeEpoch cache)
  | clear safeEpoch => finalState (RadixPagePrefixCache.clear safeEpoch cache)
  | allocator call => { cache with allocator := call.step cache.allocator }

/-- The handed-over blocks that became new entries of the table. -/
def stored (context : PrefixCacheContext) (blocks : List (List TokenId))
    (pages : List KVPageHandle) (cache next : RadixPagePrefixCache) : List Publication :=
  (next.table.nodes.values.filter fun node =>
    decide (cache.table.nextHandleIndex ≤ node.handle.index)).filterMap fun node =>
      pages[node.identity.blockIndex]?.map fun page =>
        { context, blocks := blocks.take (node.identity.blockIndex + 1), page }

/-- A call that raised has published nothing. -/
def storedBy (result : EStateM.Result Exc RadixPagePrefixCache alpha)
    (context : PrefixCacheContext) (blocks : List (List TokenId)) (pages : List KVPageHandle)
    (cache : RadixPagePrefixCache) : List Publication :=
  match result with
  | .ok _ next => stored context blocks pages cache next
  | .error _ _ => []

/-- What a call publishes, read off the table it returns with: a block that is cached
already keeps its page. -/
def publications (call : StoreCall) (cache : RadixPagePrefixCache) : List Publication :=
  match call with
  | insert tokenIds pages context =>
    storedBy (RadixPagePrefixCache.insert sha256 tokenIds pages context cache) context
      (RadixPagePrefixCache.fullBlocks tokenIds cache.pageSize) pages cache
  | insertResume tokenIds pages context =>
    storedBy (RadixPagePrefixCache.insertResume sha256 tokenIds pages context cache) context
      (RadixPagePrefixCache.allBlocks tokenIds cache.pageSize) pages cache
  | _ => []

/-- The other owners leave the cache's references and cached pages alone. -/
def Admissible (cache : RadixPagePrefixCache) : StoreCall -> Prop
  | allocator call => call.Beside cache.allocator
  | _ => True

end StoreCall

/-- A run of calls on a fresh cache, with what it published. -/
inductive History (sha256 : List UInt8 -> Digest) (cacheId totalPages pageSize : Nat) :
    List Publication -> RadixPagePrefixCache -> Prop where
  | fresh : History sha256 cacheId totalPages pageSize []
      { cacheId, allocator := PageAllocator.make totalPages pageSize }
  | call {log : List Publication} {cache : RadixPagePrefixCache} (call : StoreCall)
      (hbefore : History sha256 cacheId totalPages pageSize log cache)
      (hadmissible : call.Admissible cache) :
      History sha256 cacheId totalPages pageSize (log ++ call.publications sha256 cache)
        (call.step sha256 cache)

namespace RadixPagePrefixCache

open PrefixOwnershipTable

variable {sha256 : List UInt8 -> Digest} {cache next : RadixPagePrefixCache}

def Stored (t : PrefixOwnershipTable) (entry : Publication) (x : PrefixOwnershipNode) : Prop :=
  x.identity.context = entry.context ∧ x.page = entry.page ∧
    exists chain, t.Path x.handle chain ∧ chain.map blockTokenIds = entry.blocks

/-- Every block was stored by one of the publications. -/
def Accounted (log : List Publication) (t : PrefixOwnershipTable) : Prop :=
  forall x, t.Holds x -> exists entry, entry ∈ log ∧ Stored t entry x

variable {handle : PrefixHandle}
  {epoch : Nat} {context : PrefixCacheContext} {blocks : List (List TokenId)}
  {pages : List KVPageHandle}

theorem path_back {t u : PrefixOwnershipTable} {pageSize bound : Nat}
    (hok : TableOk sha256 pageSize u) (hback : forall z, u.Holds z -> z.handle.index ≤ bound ->
      exists y, t.Holds y ∧ y.core = z.core) {chain : List PrefixOwnershipNode}
    (hpath : u.Path handle chain) (hle : handle.index ≤ bound) : t.Path handle chain := by
  induction hpath with
  | root hnode hhandle hparent =>
    rcases hback _ hnode (hhandle ▸ hle) with ⟨y, hy, hcore⟩
    rw [<- hcore]
    exact .root hy ((handle_of_core hcore).trans hhandle) ((parent_of_core hcore).trans hparent)
  | child hnode hhandle hparent _ ih =>
    rcases hback _ hnode (hhandle ▸ hle) with ⟨y, hy, hcore⟩
    rcases hok.linked _ _ hnode hparent with ⟨up, _, hup, hlt, _⟩
    rw [<- hcore]
    refine .child hy ((handle_of_core hcore).trans hhandle)
      ((parent_of_core hcore).trans hparent) (ih ?_)
    rw [hup, hhandle] at hlt
    omega

/-- A block that stays keeps its chain, since blocks are only added under new handles. -/
theorem Evolved.stored {new : PrefixOwnershipNode -> Prop}
    (h : Evolved sha256 new epoch cache next) (hok : CacheOk sha256 cache)
    (hnew : forall x, new x -> cache.table.nextHandleIndex ≤ x.handle.index)
    {x y : PrefixOwnershipNode} (hx : next.table.Holds x) (hy : cache.table.Holds y)
    (hcore : y.core = x.core) {entry : Publication} (hstored : Stored cache.table entry y) :
    Stored next.table entry x := by
  rcases hstored with ⟨hcontext, hpage, chain, hpath, hblocks⟩
  have hhandle := handle_of_core hcore
  rcases h.ok.table.exists_path hx with ⟨chain', hchain⟩
  have hold : cache.table.Path x.handle chain' := by
    refine path_back h.ok.table ?_ hchain (Nat.le_refl _)
    intro z hz _
    rcases h.nodes z hz with hold | hfresh
    · exact hold
    · have hlt := hok.table.handle_lt hy
      have hge := hnew z hfresh
      rw [hhandle] at hlt
      omega
  rw [hhandle] at hpath
  cases hpath.det hold
  refine ⟨?_, ?_, chain, hchain, hblocks⟩
  · rw [<- identity_of_core hcore]
    exact hcontext
  · rw [<- page_of_core hcore]
    exact hpage

theorem Inserted.stored (hok : TableOk sha256 next.pageSize next.table)
    (h : Inserted next.table context blocks pages x) (hx : next.table.Holds x)
    (hfresh : cache.table.nextHandleIndex ≤ x.handle.index) :
    exists entry, entry ∈ StoreCall.stored context blocks pages cache next ∧
      Stored next.table entry x := by
  rcases h with ⟨hcontext, front, hpath, hblocks, hpage⟩
  have hindex : x.identity.blockIndex = front.length := by
    have hlength := (hok.path_context hpath hx rfl).2
    rw [List.length_append] at hlength
    exact Nat.add_right_cancel hlength
  refine ⟨⟨context, blocks.take (front.length + 1), x.page⟩, ?_, hcontext, rfl, _, hpath, ?_⟩
  · refine List.mem_filterMap.mpr ⟨x, List.mem_filter.mpr ⟨?_, decide_eq_true hfresh⟩, ?_⟩
    · exact IndexMap.mem_values.mpr ⟨_, hx⟩
    · rw [hindex, hpage]
      rfl
  · have htake := List.prefix_iff_eq_take.mp hblocks
    rw [List.length_map, List.length_append] at htake
    exact htake

/-- A call lets the other owners of pages move and then changes the cache by blocks
that its publications account for. -/
def Stepped (sha256 : List UInt8 -> Digest) (entries : List Publication)
    (cache next : RadixPagePrefixCache) : Prop :=
  exists allocator epoch, Undisturbed cache.allocator allocator ∧
    Evolved sha256 (fun x => cache.table.nextHandleIndex ≤ x.handle.index ∧
      exists entry, entry ∈ entries ∧ Stored next.table entry x) epoch
      { cache with allocator } next

theorem Shrunk.stepped {allocator entries} (hsteady : Undisturbed cache.allocator allocator)
    (h : Shrunk sha256 epoch { cache with allocator } next) : Stepped sha256 entries cache next :=
  ⟨allocator, epoch, hsteady, h.ok, h.follows, h.cacheId, h.handles,
    fun x hx => (h.nodes x hx).imp_right False.elim⟩

theorem Grown.stepped (h : CacheOk sha256 cache)
    (hgrown : Grown sha256 context blocks pages cache next) :
    Stepped sha256 (StoreCall.stored context blocks pages cache next) cache next := by
  refine ⟨cache.allocator, _, Undisturbed.refl h.backed.sound, hgrown.ok, hgrown.follows,
    hgrown.cacheId, hgrown.handles, fun x hx => ?_⟩
  rcases hgrown.nodes x hx with hold | ⟨hfresh, hinserted⟩
  · exact .inl hold
  · exact .inr ⟨hfresh, hinserted.stored hgrown.ok.table hx hfresh⟩

theorem Inserts.stepped (h : CacheOk sha256 cache) {x : StoreM alpha}
    (hinserts : Inserts sha256 context blocks pages cache x) :
    Stepped sha256 (StoreCall.storedBy (x cache) context blocks pages cache) cache
      (finalState (x cache)) := by
  unfold Inserts Wp at hinserts
  cases hx : x cache with
  | ok a next =>
    rw [hx] at hinserts
    exact Grown.stepped h hinserts
  | error e next =>
    rw [hx] at hinserts
    exact Shrunk.stepped (Undisturbed.refl h.backed.sound) hinserts

theorem step_stepped (h : CacheOk sha256 cache) (call : StoreCall)
    (hadmissible : call.Admissible cache) :
    Stepped sha256 (call.publications sha256 cache) cache (call.step sha256 cache) := by
  have hsteady := Undisturbed.refl h.backed.sound
  cases call with
  | insert tokenIds pages context =>
    exact Inserts.stepped h (insert_run h tokenIds pages context)
  | insertResume tokenIds pages context =>
    exact Inserts.stepped h (insertResume_run h tokenIds pages context)
  | matchPrefix tokenIds context =>
    exact Shrunk.stepped hsteady ((matchPrefix_keeps tokenIds context).final (Shrunk.refl h 0))
  | matchResume tokenIds context =>
    exact Shrunk.stepped hsteady ((matchResume_keeps tokenIds context).final (Shrunk.refl h 0))
  | acquireResume borrowed =>
    show Stepped sha256 [] cache (finalState (RadixPagePrefixCache.acquireResume borrowed cache))
    rcases acquireResume_run h borrowed with ⟨e, _, herror⟩ | ⟨nodes, hresolved, hrun⟩
    · rw [herror]
      exact Shrunk.stepped hsteady (Shrunk.refl h 0)
    · rw [hrun]
      have hbeside := referenced_undisturbed h hresolved.held (show .request ≠ _ by simp)
      exact Shrunk.stepped hbeside ((h.undisturbed hbeside).of_status (sameStatus_touch _ nodes) 0)
  | acquireResumePrefix borrowed pages =>
    show Stepped sha256 [] cache
      (finalState (RadixPagePrefixCache.acquireResumePrefix borrowed pages cache))
    rcases acquireResumePrefix_run h borrowed pages with ⟨e, herror⟩ | ⟨nodes, hresolved, hrun⟩
    · rw [herror]
      exact Shrunk.stepped hsteady (Shrunk.refl h 0)
    · rw [hrun]
      have hheld : forall node, node ∈ nodes.take pages.toNat -> cache.table.Holds node :=
        fun node hnode => hresolved.held node (List.mem_of_mem_take hnode)
      have hbeside := referenced_undisturbed h hheld (show .request ≠ _ by simp)
      exact Shrunk.stepped hbeside ((h.undisturbed hbeside).of_status (sameStatus_touch _ _) 0)
  | pinResume borrowed =>
    show Stepped sha256 [] cache (finalState (RadixPagePrefixCache.pinResume borrowed cache))
    rcases pinResume_run h borrowed with ⟨e, _, herror⟩ | ⟨nodes, hresolved, hrun⟩
    · rw [herror]
      exact Shrunk.stepped hsteady (Shrunk.refl h 0)
    · rw [hrun]
      have hbeside := referenced_undisturbed h hresolved.held (show .pin ≠ _ by simp)
      exact Shrunk.stepped hbeside (Shrunk.refl (h.undisturbed hbeside) 0)
  | release handle safeEpoch => exact Shrunk.stepped hsteady (release_run h handle safeEpoch)
  | evict targetPages safeEpoch =>
    exact Shrunk.stepped hsteady (evict_run h targetPages safeEpoch)
  | evictEntry entryId safeEpoch =>
    exact Shrunk.stepped hsteady (evictEntry_run h entryId safeEpoch)
  | evictPage page safeEpoch => exact Shrunk.stepped hsteady (evictPage_run h page safeEpoch)
  | clear safeEpoch => exact Shrunk.stepped hsteady (clear_run h safeEpoch).1
  | allocator call =>
    have hbeside := beside_undisturbed h.backed.sound hadmissible
    exact Shrunk.stepped hbeside (Shrunk.refl (h.undisturbed hbeside) 0)

theorem fresh_ok (sha256 : List UInt8 -> Digest) (cacheId totalPages pageSize : Nat) :
    CacheOk sha256 { cacheId, allocator := make totalPages pageSize } := by
  have hempty : forall {x : PrefixOwnershipNode}, ¬ ({} : PrefixOwnershipTable).Holds x := by
    intro x hx
    cases hx
  have hradix := projects_nil {}
  constructor
  case backed =>
    refine ⟨AllocatorCall.make_sound totalPages pageSize, ?_, fun x hx => absurd hx hempty⟩
    intro page
    have hlook : (make totalPages pageSize).look page = {} := by
      unfold look
      split
      · rfl
      · rfl
    show ((make totalPages pageSize).look page).refs .cache = _
    rw [hlook]
    rfl
  case table =>
    constructor
    case filed =>
      intro index _ hslot
      cases hslot
    case _ =>
      intro _ index
      simp [IndexMap.empty]
    case rooted => exact fun x hx => absurd hx hempty
    case linked => exact fun x _ hx => absurd hx hempty
    case listed => exact fun x _ hx => absurd hx hempty
    case distinct => exact fun x hx => absurd hx hempty
  case retained => exact fun x hx => absurd hx hempty
  case radix =>
    constructor
    case wellFormed => exact hradix.wellFormed
    case stored =>
      intro context word
      rw [hradix.stored]
      constructor
      · rintro ⟨_, _, hnone, _⟩
        cases hnone
      · rintro ⟨x, hx, _⟩
        exact absurd hx hempty
    case ends =>
      intro context word
      rw [hradix.ends]
      constructor
      · rintro ⟨_, hnone, _⟩
        cases hnone
      · rintro ⟨x, ⟨hx, _⟩, _⟩
        exact absurd hx hempty

/-- What holds after every history. -/
structure Consistent (sha256 : List UInt8 -> Digest) (cacheId pageSize : Nat)
    (log : List Publication) (cache : RadixPagePrefixCache) : Prop where
  ok : CacheOk sha256 cache
  cacheId : cache.cacheId = cacheId
  pageSize : cache.pageSize = pageSize
  accounted : Accounted log cache.table

variable {log : List Publication}
  {cacheId pageSize : Nat} {tokenIds : List Int} {tokens : List TokenId}

theorem Consistent.step (h : Consistent sha256 cacheId pageSize log cache) {call : StoreCall}
    (hadmissible : call.Admissible cache) :
    Consistent sha256 cacheId pageSize (log ++ call.publications sha256 cache)
      (call.step sha256 cache) := by
  rcases step_stepped h.ok call hadmissible with ⟨_, _, hsteady, hevolved⟩
  have hok := h.ok.undisturbed hsteady
  constructor
  case ok => exact hevolved.ok
  case cacheId => exact hevolved.cacheId.trans h.cacheId
  case pageSize => exact (hevolved.follows.pageSize.trans hsteady.pageSize).trans h.pageSize
  case accounted =>
    intro x hx
    rcases hevolved.nodes x hx with ⟨y, hy, hcore⟩ | ⟨_, entry, hentry, hstored⟩
    · rcases h.accounted y hy with ⟨entry, hentry, hstored⟩
      exact ⟨entry, List.mem_append_left _ hentry,
        hevolved.stored hok (fun _ hnew => hnew.1) hx hy hcore hstored⟩
    · exact ⟨entry, List.mem_append_right _ hentry, hstored⟩

theorem History.consistent {totalPages : Nat}
    (h : History sha256 cacheId totalPages pageSize log cache) :
    Consistent sha256 cacheId pageSize log cache := by
  induction h with
  | fresh =>
    refine ⟨fresh_ok sha256 cacheId totalPages pageSize, rfl, rfl, ?_⟩
    intro _ hx
    cases hx
  | call call _ hadmissible ih => exact ih.step hadmissible

/-- The counters of the allocator and the table of the cache agree after every history. -/
theorem pages_after_history {cacheId totalPages pageSize : Nat} {log : List Publication}
    (h : History sha256 cacheId totalPages pageSize log cache) :
    (forall page, (cache.allocator.look page).refs .cache = cache.table.pages.count page) ∧
      forall node, cache.table.Holds node -> cache.allocator.Live node.page ∧
        node.blockTokenIds.length ≤ (cache.allocator.look node.page).validTokens := by
  have hbacked := (History.consistent h).ok.backed
  exact ⟨hbacked.counted, fun node hnode => ⟨hbacked.live hnode, hbacked.filled node hnode⟩⟩

/-- The block messages hashed by the insertions of a history and by one lookup. -/
def hashedBy (sha256 : List UInt8 -> Digest) (pageSize : Nat) (log : List Publication)
    (context : PrefixCacheContext) (tokenIds : List Int) : Set (List UInt8) :=
  { m | (exists entry, entry ∈ log ∧
      m ∈ hashedMessages sha256 entry.context pageSize entry.blocks) ∨
    m ∈ hashedMessages sha256 context pageSize (fullBlocks tokenIds pageSize) }

theorem fullBlocks_eq (hpos : 0 < pageSize) (htokens : normalizeTokenIds tokenIds = .ok tokens) :
    fullBlocks tokenIds pageSize = slices pageSize (tokens.length / pageSize) tokens := by
  unfold fullBlocks fullTokenBlocks
  rw [if_neg (Nat.ne_of_gt hpos), htokens]
  rfl

theorem mem_hashedBy_query (sha256 : List UInt8 -> Digest) (hpos : 0 < pageSize)
    (htokens : normalizeTokenIds tokenIds = .ok tokens) (log : List Publication)
    (context : PrefixCacheContext) :
    forall m, m ∈ hashedMessages sha256 context pageSize
      (slices pageSize (tokens.length / pageSize) tokens) ->
        m ∈ hashedBy sha256 pageSize log context tokenIds := by
  intro m hm
  rw [<- fullBlocks_eq hpos htokens] at hm
  exact .inr hm

theorem Consistent.covered (h : Consistent sha256 cacheId pageSize log cache)
    (context : PrefixCacheContext) (tokenIds : List Int) :
    Covered sha256 pageSize cache.table (hashedBy sha256 pageSize log context tokenIds) := by
  intro x _ hx hpath _ hm
  rcases h.accounted x hx with ⟨entry, hentry, hcontext, _, _, hchain, hblocks⟩
  rw [hpath.det hchain, hcontext, hblocks] at hm
  exact .inl ⟨entry, hentry, hm⟩

/-- After every history a lookup finds the longest chain of complete blocks that the
ownership table holds. -/
theorem matchPrefix_after_history {cacheId totalPages pageSize : Nat} {log : List Publication}
    (h : History sha256 cacheId totalPages pageSize log cache) {tokenIds : List Int}
    {tokens : List TokenId} {context : PrefixCacheContext}
    (hfree : Set.InjOn sha256 (hashedBy sha256 pageSize log context tokenIds))
    (htokens : normalizeTokenIds tokenIds = Except.ok tokens) (hlength : tokens.length < 2 ^ 64)
    (hcontext : context.Sized) (hpos : 0 < pageSize) (hsize : pageSize < 2 ^ 64) :
    exists identities nodes result next,
      buildIdentities sha256 (fullBlocks tokenIds pageSize) pageSize context =
        Except.ok identities ∧
      LongestMatch cache.table identities nodes ∧
      matchPrefix sha256 tokenIds context cache = EStateM.Result.ok result next ∧
      result.matchedTokens = nodes.length * pageSize ∧
      result.pages = nodes.map PrefixOwnershipNode.page := by
  have hconsistent := History.consistent h
  have hcovered := hconsistent.covered context tokenIds
  have hin := mem_hashedBy_query sha256 hpos htokens log context
  rw [fullBlocks_eq hpos htokens]
  rcases hconsistent with ⟨hok, _, rfl, _⟩
  rcases matchPrefix_run hok hfree hcovered htokens hpos hsize hlength hcontext hin with
    ⟨identities, nodes, result, next, hbuilt, hmatch, hrun⟩
  exact ⟨identities, nodes, result, next, hbuilt, hmatch.longest, hrun, hmatch.matched,
    hmatch.pages⟩

/-!
## Capabilities after a history
-/

/-- The entry names a page that was published for the tokens up to its end. -/
def PublishedFor (log : List Publication) (pageSize : Nat) (borrowed : ValidResume) (i : Nat)
    (entry : PageTableEntry) : Prop :=
  i * pageSize + entry.validTokens ≤ borrowed.tokenIds.length ∧
    exists publication, publication ∈ log ∧ publication.context = borrowed.context ∧
      publication.page = entry.page ∧ publication.blocks.length = i + 1 ∧
      borrowed.tokenIds.take (i * pageSize + entry.validTokens) <+:
        publication.blocks.flatten

variable {nodes : List PrefixOwnershipNode} {t : PrefixOwnershipTable} {i pageSize : Nat}

theorem path_take (hpath : t.Path handle (nodes.map core))
    (hnode : nodes[i]? = some node) : t.Path node.handle ((nodes.take (i + 1)).map core) := by
  have hcut : (nodes.take (i + 1)).map core <+: nodes.map core := (List.take_prefix ..).map _
  have hne : (nodes.take (i + 1)).map core ≠ [] := by
    rw [List.take_add_one, hnode]
    simp
  rcases hpath.cut hcut hne with ⟨_, habove⟩
  rcases habove.last with ⟨x, front, _, hhandle, hsplit⟩
  rw [List.take_add_one, hnode, Option.toList_some, List.map_append] at hsplit
  have hcore := (List.append_inj' hsplit rfl).2
  have hsame : node.core = x.core := List.singleton_inj.mp hcore
  rw [handle_of_core hsame, hhandle]
  exact habove

/-- Blocks above the last are complete. -/
theorem length_flatMap_take (hok : TableOk sha256 pageSize t)
    (hpath : t.Path handle (nodes.map core)) (hi : i < nodes.length) :
    ((nodes.take i).flatMap blockTokenIds).length = i * pageSize := by
  have hfull : forall node, node ∈ nodes.take i -> node.blockTokenIds.length = pageSize := by
    intro node hnode
    have hshort : nodes.take i <+: nodes.dropLast := by
      rw [List.dropLast_eq_take]
      exact List.take_prefix_take_left (by omega)
    have hmem : node.core ∈ (nodes.map core).dropLast := by
      rw [<- List.map_dropLast]
      exact List.mem_map_of_mem (hshort.subset hnode)
    exact (hok.path_full hpath).2 node.core hmem
  have hlengths : (nodes.take i).map (fun node => node.blockTokenIds.length) =
      List.replicate i pageSize := by
    rw [List.eq_replicate_iff]
    refine ⟨by simpa using Nat.le_of_lt hi, ?_⟩
    intro length hlength
    rcases List.mem_map.mp hlength with ⟨node, hnode, rfl⟩
    exact hfull node hnode
  rw [List.length_flatMap, hlengths, List.sum_replicate, smul_eq_mul]

theorem Consistent.publishedFor (h : Consistent sha256 cacheId pageSize log cache)
    (hresolved : Resolved cache borrowed nodes)
    (hentry : borrowed.pages[i]? = some entry) : PublishedFor log pageSize borrowed i entry := by
  rcases hresolved.pages i entry hentry with ⟨node, hnode, hpage, htokens⟩
  rw [h.pageSize] at htokens
  rcases hresolved.path with ⟨_, hpath⟩
  have hmem := List.mem_of_getElem? hnode
  have hheld := hresolved.held node hmem
  rcases h.accounted node hheld with ⟨publication, hin, hcontext, hstored, chain, hchain, hblocks⟩
  rcases List.getElem?_eq_some_iff.mp hnode with ⟨hlt, _⟩
  rw [<- (path_take hpath hnode).det hchain, List.map_map] at hblocks
  -- the blocks up to this entry reach to its end
  have hok : TableOk sha256 pageSize cache.table := h.pageSize ▸ h.ok.table
  have hfull := length_flatMap_take hok hpath hlt
  have hreach : ((nodes.take (i + 1)).flatMap blockTokenIds).length =
      i * pageSize + node.blockTokenIds.length := by
    rw [List.take_add_one, hnode, Option.toList_some, List.flatMap_append, List.length_append,
      hfull, List.flatMap_singleton]
  have hpos := entry.validTokens_pos
  have hend : i * pageSize + entry.validTokens ≤ borrowed.tokenIds.length := by omega
  have hinside : i * pageSize + entry.validTokens ≤
      ((nodes.take (i + 1)).flatMap blockTokenIds).length := by
    by_cases hlast : i + 1 < nodes.length
    · have hnext := length_flatMap_take hok hpath hlast
      rw [hnext, Nat.succ_mul]
      omega
    · have hall : nodes.take (i + 1) = nodes := List.take_of_length_le (by omega)
      have hbelow := hresolved.below
      rw [hall, List.length_flatMap]
      omega
  refine ⟨hend, publication, hin, ?_, ?_, ?_, ?_⟩
  · rw [<- hcontext, hresolved.context node hmem]
  · rw [<- hstored, hpage]
  · rw [<- hblocks, List.length_map, List.length_take]
    omega
  · have hcut : borrowed.tokenIds.take (i * pageSize + entry.validTokens) =
        ((nodes.take (i + 1)).flatMap blockTokenIds).take (i * pageSize + entry.validTokens) := by
      rw [hresolved.tokens, List.take_take, Nat.min_eq_left hend]
      nth_rewrite 1 [<- List.take_append_drop (i + 1) nodes]
      rw [List.flatMap_append, List.take_append_of_le_length hinside]
    rw [hcut, <- hblocks]
    exact List.take_prefix ..

/-- Whatever happened since a capability was lent, acquiring it takes nothing or
returns live pages that were published for exactly its tokens and context. -/
theorem acquireResume_after_history {cacheId totalPages pageSize : Nat} {log : List Publication}
    (h : History sha256 cacheId totalPages pageSize log cache) (borrowed : ValidResume) :
    (exists e, acquireResume borrowed cache = EStateM.Result.error e cache) ∨
      exists next, acquireResume borrowed cache = EStateM.Result.ok borrowed.pages next ∧
        forall i entry, borrowed.pages[i]? = some entry ->
          next.allocator.Live entry.page ∧ PublishedFor log pageSize borrowed i entry := by
  have hconsistent := History.consistent h
  have hok := hconsistent.ok
  rcases acquireResume_run hok borrowed with ⟨e, _, hraised⟩ | ⟨_, hresolved, hrun⟩
  · exact Or.inl ⟨e, hraised⟩
  · refine Or.inr ⟨_, hrun, ?_⟩
    intro i entry hentry
    refine ⟨?_, hconsistent.publishedFor hresolved hentry⟩
    rcases hresolved.pages i entry hentry with ⟨node, hnode, hpage, _⟩
    have hbeside := referenced_undisturbed hok hresolved.held (show RefField.request ≠ _ by simp)
    rw [hpage]
    exact (hok.undisturbed hbeside).backed.live
      (hresolved.held node (List.mem_of_getElem? hnode))

/-!
## A sample history
-/

def sampleContext : PrefixCacheContext where
  modelId := "model"
  required := by decide
  optional := by decide

def samplePages : List KVPageHandle :=
  [Handle.first .kvPage 0, Handle.first .kvPage 1]

def sampleFilled : RadixPagePrefixCache :=
  [StoreCall.allocator (.allocate 2), .allocator (.commitReserved samplePages),
    .allocator (.setValidTokens (Handle.first .kvPage 0) 2),
    .allocator (.setValidTokens (Handle.first .kvPage 1) 1)].foldl
      (fun cache call => call.step checksumDigest cache) { cacheId := 1, allocator := make 3 2 }

/-- Their tokens are inserted for resumption. -/
def sampleCache : RadixPagePrefixCache :=
  (StoreCall.insertResume [7, 8, 9] samplePages sampleContext).step checksumDigest sampleFilled

def sampleLog : List Publication :=
  [⟨sampleContext, [[7, 8]], Handle.first .kvPage 0⟩,
    ⟨sampleContext, [[7, 8], [9]], Handle.first .kvPage 1⟩]

theorem sampleHistory : History checksumDigest 1 3 2 sampleLog sampleCache := by
  have hfresh : History checksumDigest 1 3 2 [] _ := .fresh
  have hallocate := History.call (.allocator (.allocate 2)) hfresh trivial
  have hcommit := History.call (.allocator (.commitReserved samplePages)) hallocate trivial
  have hfull := History.call (.allocator (.setValidTokens (Handle.first .kvPage 0) 2)) hcommit
    (by
      show _ ∨ _
      left
      decide)
  have hfilled : History checksumDigest 1 3 2 [] sampleFilled :=
    History.call (.allocator (.setValidTokens (Handle.first .kvPage 1) 1)) hfull
      (by
        show _ ∨ _
        left
        decide)
  have hinsert := History.call (.insertResume [7, 8, 9] samplePages sampleContext) hfilled trivial
  have hlog : StoreCall.publications checksumDigest
      (.insertResume [7, 8, 9] samplePages sampleContext) sampleFilled = sampleLog := by
    decide +kernel
  rw [List.nil_append, hlog] at hinsert
  exact hinsert

-- The second page was filled in part, so a complete block on it is refused.
example : returned? (insert checksumDigest [8, 8] [Handle.first .kvPage 1] sampleContext
      sampleFilled) = none ∧
    StoreCall.publications checksumDigest (.insert [8, 8] [Handle.first .kvPage 1] sampleContext)
      sampleFilled = [] := by
  decide +kernel

theorem sampleContext_sized : sampleContext.Sized := by
  intro text htext
  simp only [PrefixCacheContext.components, sampleContext, List.mem_cons, Option.some.injEq,
    reduceCtorEq, List.not_mem_nil, or_false, false_or] at htext
  rcases htext with rfl | rfl | rfl
  · decide
  · decide
  · decide

theorem sample_collisionFree : Set.InjOn checksumDigest
    (hashedBy checksumDigest 2 sampleLog sampleContext [7, 8, 9, 4]) := by
  have hall : forall m, m ∈ hashedBy checksumDigest 2 sampleLog sampleContext [7, 8, 9, 4] ->
      m ∈ hashedMessages checksumDigest sampleContext 2 [[7, 8], [9]] ++
        hashedMessages checksumDigest sampleContext 2 [[7, 8], [9, 4]] := by
    rintro m (⟨_, hentry, hm⟩ | hm)
    · refine List.mem_append_left _ ?_
      rcases List.mem_cons.mp hentry with rfl | hentry
      · exact hashedMessages_subset checksumDigest (List.prefix_append [[7, 8]] [[9]]) hm
      · rw [List.mem_singleton.mp hentry] at hm
        exact hm
    · exact List.mem_append_right _ hm
  have hapart : forall m, m ∈ hashedMessages checksumDigest sampleContext 2 [[7, 8], [9]] ++
      hashedMessages checksumDigest sampleContext 2 [[7, 8], [9, 4]] ->
        forall n, n ∈ hashedMessages checksumDigest sampleContext 2 [[7, 8], [9]] ++
          hashedMessages checksumDigest sampleContext 2 [[7, 8], [9, 4]] ->
            checksumDigest m = checksumDigest n -> m = n := by
    decide +kernel
  exact fun m hm n hn => hapart m (hall m hm) n (hall n hn)

/-- The complete block is found, and not the partial one. -/
theorem matchPrefix_after_insert : exists identities nodes result next,
    LongestMatch sampleCache.table identities nodes ∧
      matchPrefix checksumDigest [7, 8, 9, 4] sampleContext sampleCache =
        EStateM.Result.ok result next ∧
      result.matchedTokens = 2 ∧ result.pages = [Handle.first .kvPage 0] := by
  have htokens : normalizeTokenIds [7, 8, 9, 4] = Except.ok [7, 8, 9, 4] := by decide
  rcases matchPrefix_after_history sampleHistory sample_collisionFree htokens (by decide)
    sampleContext_sized (by decide) (by decide) with
    ⟨identities, nodes, result, next, _, hlongest, hrun, _⟩
  have hfound : (returned? (matchPrefix checksumDigest [7, 8, 9, 4] sampleContext sampleCache)).map
      (fun r => (r.matchedTokens, r.pages)) = some (2, [Handle.first .kvPage 0]) := by
    decide +kernel
  rw [hrun] at hfound
  have hresult := Prod.mk.inj (Option.some.inj hfound)
  exact ⟨identities, nodes, result, next, hlongest, hrun, hresult⟩

def tailResume : ValidResume where
  cacheId := 1
  entryId := 1
  context := sampleContext
  tokenIds := [7, 8, 9]
  pages := [⟨Handle.first .kvPage 0, 2, Nat.two_pos⟩, ⟨Handle.first .kvPage 1, 1, Nat.one_pos⟩]

theorem acquireResume_after_insert : exists next,
    acquireResume tailResume sampleCache = EStateM.Result.ok tailResume.pages next ∧
      forall i entry, tailResume.pages[i]? = some entry ->
        next.allocator.Live entry.page ∧ PublishedFor sampleLog 2 tailResume i entry := by
  have hreturns : (returned? (acquireResume tailResume sampleCache)).isSome = true := by
    decide +kernel
  rcases acquireResume_after_history sampleHistory tailResume with ⟨_, hraised⟩ | hacquired
  · rw [hraised] at hreturns
    cases hreturns
  · exact hacquired

theorem pages_after_insert : sampleCache.table.nodes.size = 2 ∧ forall page,
    (sampleCache.allocator.look page).refs .cache = sampleCache.table.pages.count page :=
  ⟨by decide +kernel, (pages_after_history sampleHistory).1⟩

end RadixPagePrefixCache
end Prefix
end Ayaka
