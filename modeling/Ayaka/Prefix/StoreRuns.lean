import Ayaka.Memory.AllocatorMoves
import Ayaka.Prefix.RadixInvariant

/-!
# Running the prefix cache

The cache owns each page once per block stored in it, and every block has as many
valid tokens in its page as it has ids.  Publication, pruning and the rebuild keep
this, so that no cache operation fails halfway.
-/

namespace Ayaka
namespace Prefix

open Foundation Memory PageAllocator
open PageEvent
open EStateM (Result)
open IndexMap
open PrefixOwnershipNode

namespace PrefixOwnershipTable

variable {t : PrefixOwnershipTable} {node x y : PrefixOwnershipNode}
variable {sha256 : List UInt8 -> Digest} {pageSize : Nat}

def pages (t : PrefixOwnershipTable) : List KVPageHandle :=
  t.nodes.values.map PrefixOwnershipNode.page

theorem size_eq_length_pages (t : PrefixOwnershipTable) : t.nodes.size = t.pages.length := by
  unfold pages IndexMap.size
  rw [List.length_map]

theorem pages_eq_of_shape (h : SameShape t u) : u.pages = t.pages := by
  refine map_values_congr fun index => ?_
  have hslot := congrArg (Option.map page) (h.slots index)
  simp only [Option.map_map] at hslot
  exact hslot

theorem pages_unpublish (hok : TableOk sha256 pageSize t) (hnode : t.Holds node) :
    List.Perm t.pages (node.page :: (RadixPagePrefixCache.unpublish node t).pages) := by
  have hrest : (RadixPagePrefixCache.unpublish node t).pages =
      (t.nodes.remove node.handle.index).values.map page := by
    refine map_values_congr fun index => ?_
    rw [slot_unpublish hok hnode, slot_remove, Function.update_apply]
    split
    · rfl
    · rw [Option.map_map]
      congr 1
      funext other
      exact page_of_core (core_parted node other)
  rw [hrest]
  exact (perm_values hnode).map page

theorem pages_publish (hok : TableOk sha256 pageSize t)
    (hnew : Publishable sha256 pageSize t node) :
    List.Perm (publish node t).pages (node.page :: t.pages) := by
  have hall : (publish node t).pages = (t.nodes.put node.handle.index node).values.map page := by
    refine map_values_congr fun index => ?_
    rw [slot_publish hok hnew.above, slot_put, Function.update_apply]
    split
    · rfl
    · rw [Option.map_map]
      congr 1
      funext other
      exact page_of_core (core_joined node other)
  rw [hall]
  exact (perm_values_put node hnew.fresh).map page

end PrefixOwnershipTable

open PrefixOwnershipTable

namespace RadixPagePrefixCache

variable {sha256 : List UInt8 -> Digest} {cache next : RadixPagePrefixCache}
variable {node : PrefixOwnershipNode}

theorem modifyTable_run (f : PrefixOwnershipTable -> PrefixOwnershipTable)
    (cache : RadixPagePrefixCache) :
    modifyTable f cache = .ok () { cache with table := f cache.table } := rfl

/-- The cache references are those of the cached blocks, and the blocks are filled. -/
structure Backed (cache : RadixPagePrefixCache) : Prop where
  sound : Sound cache.allocator
  counted : forall page, (cache.allocator.look page).refs .cache =
    cache.table.pages.count page
  filled : forall node, cache.table.Holds node ->
    node.blockTokenIds.length ≤ (cache.allocator.look node.page).validTokens

/-- The cache touches its own counters only. -/
def CacheEvent (epoch : Nat) : PageEvent -> Prop
  | acquire .cache _ => True
  | drop .cache _ e => e = epoch
  | _ => False

theorem CacheEvent.not_setValid (h : CacheEvent epoch event)
    (index tokens : Nat) : event ≠ setValid index tokens := by
  rintro rfl
  cases h

theorem CacheEvent.not_advance (h : CacheEvent epoch event) (e : Nat) : event ≠ advance e := by
  rintro rfl
  cases h

theorem Backed.refs_pos (h : Backed cache) (hnode : cache.table.Holds node) :
    0 < (cache.allocator.look node.page).refs .cache := by
  rw [h.counted, List.count_pos_iff]
  exact List.mem_map_of_mem (mem_values.mpr ⟨_, hnode⟩)

theorem Backed.live (h : Backed cache) (hnode : cache.table.Holds node) :
    cache.allocator.Live node.page :=
  live_of_refs h.sound .cache (h.refs_pos hnode)

/-- Blocks that stay keep their tokens, as long as nobody resizes a page. -/
theorem Backed.follows (h : Backed cache)
    (hfollows : Follows (CacheEvent epoch) cache.allocator next.allocator)
    (hcounted : forall page, (next.allocator.look page).refs .cache =
    next.table.pages.count page) (hnodes : forall x, next.table.Holds x ->
    (exists y, cache.table.Holds y ∧ y.core = x.core) ∨
    x.blockTokenIds.length ≤ (next.allocator.look x.page).validTokens) : Backed next := by
  refine ⟨hfollows.sound h.sound, hcounted, ?_⟩
  intro x hx
  rcases hnodes x hx with ⟨y, hy, hcore⟩ | hnew
  · have hpage := page_of_core hcore
    have hbefore := look_ne_of_refs .cache (h.refs_pos hy)
    have hafter : next.allocator.look y.page ≠ {} := by
      refine look_ne_of_refs .cache ?_
      rw [hcounted, List.count_pos_iff, hpage]
      exact List.mem_map_of_mem (mem_values.mpr ⟨_, hx⟩)
    have htokens := hfollows.validTokens h.sound
      (fun event hevent => hevent.not_setValid) hbefore hafter
    rw [<- hpage, htokens, <- block_of_core hcore]
    exact h.filled y hy
  · exact hnew

/-!
## Validation
-/

variable {parent : Option PrefixHandle} {page : KVPageHandle} {pageSize index : Nat}
  {safeEpoch : Int}

theorem validateCachedPage_ok {allocator} {tokens : Nat} (hsound : Sound allocator)
    (hrefs : 0 < (allocator.look page).refs .cache)
    (htokens : tokens ≤ (allocator.look page).validTokens) :
    validateCachedPage allocator page tokens = .ok () := by
  have hlive := live_of_refs hsound .cache hrefs
  have hlook := hlive.look
  rw [hlook] at hrefs htokens
  unfold validateCachedPage
  rw [getMeta_of_current hlive.1]
  have hguard : ¬ ((allocator.pages page.index).allocationState ≠ .live ∨
      (allocator.pages page.index).cacheRefs = 0 ∨
      (allocator.pages page.index).validTokens < tokens) := by
    rintro (hstate | hzero | hshort)
    · exact hstate hlive.2
    · exact Nat.ne_of_gt hrefs hzero
    · exact absurd hshort (Nat.not_lt.mpr htokens)
  simp only [hguard, if_false]
  rfl

theorem validateNode_ok (h : Backed cache) (hnode : cache.table.Holds node)
    (hparent : node.parent = parent) (hblock : node.blockTokenIds = block) :
    validateNode cache.allocator node parent block = .ok () := by
  unfold validateNode
  rw [if_neg (by simp [hparent, hblock])]
  exact validateCachedPage_ok h.sound (h.refs_pos hnode) (h.filled node hnode)

/-!
## Taking references
-/

def acquired (field : RefField) (node : PrefixOwnershipNode) (cache : RadixPagePrefixCache) :
    RadixPagePrefixCache :=
  { cache with
    allocator := (acquire field node.page.index).apply cache.allocator }

theorem foldl_acquired (field : RefField) (nodes : List PrefixOwnershipNode)
    (cache : RadixPagePrefixCache) :
    nodes.foldl (fun cache node => acquired field node cache) cache =
      { cache with
        allocator := PageEvent.applyAll cache.allocator
          (nodes.map fun x => acquire field x.page.index) } := by
  induction nodes generalizing cache with
  | nil => rfl
  | cons node rest ih =>
    rw [List.foldl_cons, ih]
    rfl

/-- References on live pages are taken one after another, with nothing to undo. -/
theorem takeEach_acquireRef_run (field : RefField) {undo : PrefixOwnershipNode -> StoreM PUnit}
    {nodes taken} (hlive : forall node, node ∈ nodes -> cache.allocator.Live node.page) :
    takeEach (fun node => inAllocator (PageAllocator.acquireRef field node.page))
        (fun _ => pure PUnit.unit) undo nodes taken cache =
      .ok PUnit.unit { cache with
        allocator := PageEvent.applyAll cache.allocator
          (nodes.map fun x => acquire field x.page.index) } := by
  rw [<- foldl_acquired]
  refine takeEach_run (acquired field)
    (fun nodes cache => forall node, node ∈ nodes -> cache.allocator.Live node.page) ?_ hlive
  intro x _ _ hready
  have hhead := hready x List.mem_cons_self
  refine ⟨zoom_run_ok (acquireRef_run field hhead), rfl, ?_⟩
  intro node hnode
  exact live_acquire hhead field (hready node (List.mem_cons_of_mem _ hnode))

/-!
## Pruning
-/

def dropLeaf (node : PrefixOwnershipNode) (epoch : Nat) (cache : RadixPagePrefixCache) :
    RadixPagePrefixCache :=
  { cache with
    allocator := (drop .cache node.page.index epoch).apply cache.allocator
    table := unpublish node cache.table }

theorem dropLeaf_follows (h : Backed cache) (hnode : cache.table.Holds node) (epoch : Nat) :
    Follows (CacheEvent epoch) cache.allocator (dropLeaf node epoch cache).allocator :=
  follows_drop (h.live hnode) .cache (h.refs_pos hnode) epoch rfl

theorem dropLeaf_backed (h : Backed cache) (hok : TableOk sha256 pageSize cache.table)
    (hnode : cache.table.Holds node) (epoch : Nat) : Backed (dropLeaf node epoch cache) := by
  refine h.follows (dropLeaf_follows h hnode epoch) ?_ ?_
  · intro page
    have hmoved : _ + _ = _ + _ :=
      moved_drop (h.live hnode) .cache (h.refs_pos hnode) epoch .cache page
    have hperm := (pages_unpublish hok hnode).count_eq page
    rw [count_single, List.count_nil, h.counted, hperm, List.count_cons] at hmoved
    show ((PageEvent.apply _ _).look page).refs _ = (unpublish node cache.table).pages.count page
    by_cases heq : node.page = page
    · simpa [RefField.kind, heq] using hmoved
    · simpa [RefField.kind, heq, Ne.symm heq] using hmoved
  · intro x hx
    rcases within_unpublish hok hnode x hx with ⟨y, hy, hcore⟩
    exact .inl ⟨y, hy, hcore⟩

theorem releaseCacheRef_run (hepoch : ¬ safeEpoch < 0) (hlive : cache.allocator.Live page)
    (hrefs : 0 < (cache.allocator.look page).refs .cache) :
    inAllocator (PageAllocator.releaseCacheRef page safeEpoch) cache = .ok () { cache with
        allocator := (drop .cache page.index safeEpoch.toNat).apply cache.allocator } := by
  refine zoom_run_ok (releaseRef_run _ hepoch hlive ?_)
  rw [RefField.count_eq, <- hlive.look]
  exact hrefs

/-- The node the loop goes on with after a leaf went. -/
def above (node : PrefixOwnershipNode) (cache : RadixPagePrefixCache) :
    Option PrefixOwnershipNode :=
  node.parent.bind fun parent =>
    (cache.table.nodes.slot parent.index).map (parted node)

theorem popNode_run (h : cache.table.nodes.slot index = some node) :
    popNode index cache = .ok ()
      { cache with table := { cache.table with nodes := cache.table.nodes.remove index } } := by
  unfold popNode
  rw [bind_run_ok _ (get_run cache)]
  simp only [h, Option.isNone_some, Bool.false_eq_true, if_false]
  rfl

theorem popIdentity_run {identity} (h : cache.table.identityToIndex.lookup identity = some index) :
    popIdentity identity cache = .ok ()
      { cache with table :=
        { cache.table with identityToIndex := cache.table.identityToIndex.erase identity } } := by
  unfold popIdentity
  rw [bind_run_ok _ (get_run cache)]
  simp only [h, Option.isNone_some, Bool.false_eq_true, if_false]
  rfl

theorem removeChild_run {up handle} (h : handle ∈ up.children) :
    removeChild up handle cache = .ok { up with children := up.children.erase handle }
        { cache with table := cache.table.modifyNode up.handle fun _ =>
          { up with children := up.children.erase handle } } := by
  unfold removeChild
  rw [if_neg (by simpa using h)]
  rfl

theorem pruneLeaf_run (h : Backed cache) (hok : TableOk sha256 pageSize cache.table)
    (hnode : cache.table.Holds node) (hepoch : ¬ safeEpoch < 0) :
    pruneLeaf node safeEpoch cache =
      .ok (above node cache) (dropLeaf node safeEpoch.toNat cache) := by
  have hlookup : cache.table.identityToIndex.lookup node.identity = some node.handle.index :=
    (hok.indexed _ _).mpr ⟨node, hnode, rfl⟩
  have hrelease := releaseCacheRef_run hepoch (h.live hnode) (h.refs_pos hnode)
  have hpop : forall allocator, popNode node.handle.index { cache with allocator } = _ :=
    fun _ => popNode_run hnode
  have hpop' : forall allocator nodes, popIdentity node.identity
      { cache with allocator, table := { cache.table with nodes } } = _ :=
    fun _ _ => popIdentity_run hlookup
  unfold pruneLeaf above
  cases hparent : node.parent with
  | none =>
    simp only
    rw [bind_run_ok _ hrelease, bind_run_ok _ (hpop _), bind_run_ok _ (hpop' _ _)]
    simp only [pure_run, Option.bind_none, dropLeaf, unpublish, hparent]
  | some parent =>
    rcases hok.linked node parent hnode hparent with ⟨up, hup, rfl, hlt, hchild, _⟩
    have hne : node.handle.index ≠ up.handle.index := Nat.ne_of_gt hlt
    have hslot : cache.table.nodes.slot up.handle.index = some up := hup
    simp only
    rw [query_bind_run, hup.get]
    simp only
    rw [bind_run_ok _ hrelease, bind_run_ok _ (hpop _), bind_run_ok _ (hpop' _ _),
      bind_run_ok _ (removeChild_run hchild)]
    simp only [pure_run, Option.bind_some, hslot, Option.map_some, parted, hparent, if_true]
    congr 1
    unfold dropLeaf unpublish
    simp only [hparent]
    congr 1
    unfold modifyNode
    congr 1
    ext1
    · simp only [slot_modify, slot_remove]
      rw [Function.update_of_ne hne.symm, hslot, Function.update_comm hne]
      rfl
    · rfl

/-- Every block of the set is retained or has a child in the set. -/
def Closed (t : PrefixOwnershipTable) (kept : PrefixHandle -> Prop) : Prop :=
  forall x, t.Holds x -> kept x.handle ->
    0 < x.terminalRefs ∨ exists child, child ∈ x.children ∧ kept child

/-- What pruning does: leaves went that no closed set contains. -/
structure Pruned (sha256 : List UInt8 -> Digest) (epoch : Nat)
    (cache next : RadixPagePrefixCache) (removed : Nat) : Prop where
  table : TableOk sha256 cache.pageSize next.table
  backed : Backed next
  follows : Follows (CacheEvent epoch) cache.allocator next.allocator
  within : Within next.table cache.table
  terminals : forall x y, next.table.Holds x -> cache.table.Holds y -> x.handle = y.handle ->
    x.terminalRefs = y.terminalRefs
  keeps : forall kept, Closed cache.table kept -> forall x, cache.table.Holds x ->
    kept x.handle -> exists y, next.table.Holds y ∧ y.core = x.core
  size : next.table.nodes.size + removed = cache.table.nodes.size
  cacheId : next.cacheId = cache.cacheId
  radix : next.radix = cache.radix
  handles : next.table.nextHandleIndex = cache.table.nextHandleIndex

theorem Pruned.refl (hok : TableOk sha256 cache.pageSize cache.table) (h : Backed cache)
    (epoch : Nat) : Pruned sha256 epoch cache cache 0 where
  table := hok
  backed := h
  follows := Follows.refl ..
  within := Within.refl _
  terminals := fun x y hx hy hsame => by rw [hx.det hy hsame]
  keeps := fun _ _ x hx _ => ⟨x, hx, rfl⟩
  size := rfl
  cacheId := rfl
  radix := rfl
  handles := rfl

theorem Pruned.trans
    (h : Pruned sha256 epoch cache middle removed) (h' : Pruned sha256 epoch middle next more)
    (hclosed : forall kept, Closed cache.table kept -> Closed middle.table kept) :
    Pruned sha256 epoch cache next (removed + more) where
  table := by
    have hsize : middle.pageSize = cache.pageSize := h.follows.pageSize
    rw [<- hsize]
    exact h'.table
  backed := h'.backed
  follows := h.follows.trans h'.follows
  within := h'.within.trans h.within
  terminals := by
    intro x y hx hy hsame
    rcases h'.within x hx with ⟨z, hz, hcore⟩
    have hhandle := handle_of_core hcore
    rw [h'.terminals x z hx hz hhandle.symm, h.terminals z y hz hy (hhandle.trans hsame)]
  keeps := by
    intro kept hkept x hx hin
    rcases h.keeps kept hkept x hx hin with ⟨y, hy, hcore⟩
    have hhandle := handle_of_core hcore
    rcases h'.keeps kept (hclosed kept hkept) y hy (hhandle ▸ hin) with ⟨z, hz, hcore'⟩
    exact ⟨z, hz, hcore'.trans hcore⟩
  size := by
    have h1 := h.size
    have h2 := h'.size
    omega
  cacheId := h'.cacheId.trans h.cacheId
  radix := h'.radix.trans h.radix
  handles := h'.handles.trans h.handles

theorem unpublish_closed (hok : TableOk sha256 pageSize t)
    (hnode : t.Holds node) (hleaf : node.children = []) (hunretained : ¬ 0 < node.terminalRefs)
    {kept : PrefixHandle -> Prop} (hclosed : Closed t kept) :
    ¬ kept node.handle ∧ Closed (unpublish node t) kept := by
  have hnot : ¬ kept node.handle := by
    intro hkept
    rcases hclosed node hnode hkept with hterminal | ⟨child, hchild, _⟩
    · exact hunretained hterminal
    · rw [hleaf] at hchild
      cases hchild
  refine ⟨hnot, ?_⟩
  intro _ hx hkept
  rcases (holds_unpublish hok hnode).mp hx with ⟨y, hy, _, rfl⟩
  rw [handle_of_core (core_parted node y)] at hkept
  rcases hclosed y hy hkept with hterminal | ⟨child, hchild, hin⟩
  · left
    unfold parted
    split
    · exact hterminal
    · exact hterminal
  · right
    refine ⟨child, (mem_parted_children hok hy).mpr ⟨hchild, ?_⟩, hin⟩
    rintro ⟨_, rfl⟩
    exact hnot hin

theorem dropLeaf_pruned (h : Backed cache) (hok : TableOk sha256 cache.pageSize cache.table)
    (hnode : cache.table.Holds node) (hleaf : node.children = [])
    (hunretained : ¬ 0 < node.terminalRefs) (epoch : Nat) :
    Pruned sha256 epoch cache (dropLeaf node epoch cache) 1 where
  table := hok.unpublish hnode hleaf
  backed := dropLeaf_backed h hok hnode epoch
  follows := dropLeaf_follows h hnode epoch
  within := within_unpublish hok hnode
  terminals := by
    intro x _ hx hy hsame
    rcases (holds_unpublish hok hnode).mp hx with ⟨z, hz, _, rfl⟩
    rw [handle_of_core (core_parted node z)] at hsame
    rw [hz.det hy hsame]
    unfold parted
    split
    · rfl
    · rfl
  keeps := by
    intro _ hclosed x hx hkept
    refine ⟨parted node x, (holds_unpublish hok hnode).mpr ⟨x, hx, ?_, rfl⟩, core_parted node x⟩
    rintro rfl
    exact (unpublish_closed hok hnode hleaf hunretained hclosed).1 hkept
  size := by
    have hlength := (pages_unpublish hok hnode).length_eq
    rw [size_eq_length_pages, size_eq_length_pages, hlength]
    rfl
  cacheId := rfl
  radix := rfl
  handles := (unpublish_index node cache.table).2

theorem above_spec (hok : TableOk sha256 cache.pageSize cache.table)
    (hnode : cache.table.Holds node) (epoch : Nat) :
    (above node cache).map handle = node.parent ∧
      forall up, above node cache = some up -> (dropLeaf node epoch cache).table.Holds up := by
  unfold above
  cases hparent : node.parent with
  | none =>
    refine ⟨rfl, ?_⟩
    intro up hup
    cases hup
  | some parent =>
    rcases hok.linked node parent hnode hparent with ⟨up, hup, rfl, hlt, _⟩
    have hslot : cache.table.nodes.slot up.handle.index = some up := hup
    simp only [Option.bind_some, hslot, Option.map_some, Option.some.injEq]
    refine ⟨handle_of_core (core_parted node up), ?_⟩
    rintro _ rfl
    refine (holds_unpublish hok hnode).mpr ⟨up, hup, ?_, rfl⟩
    rintro rfl
    exact Nat.lt_irrefl _ hlt

/-- Nothing is left to prune at the current node. -/
def Settled (current : Option PrefixOwnershipNode) : Prop :=
  forall x, current = some x -> 0 < x.terminalRefs ∨ x.children ≠ []

variable {safeEpoch : Int}

theorem pruneLoop_settled (h : Settled current) (fuel released : Nat) :
    pruneLoop safeEpoch fuel current released cache = .ok released cache := by
  cases current with
  | none =>
    unfold pruneLoop
    rfl
  | some node =>
    unfold pruneLoop
    rw [if_pos]
    · rfl
    · rcases h node rfl with hterminal | hchildren
      · left
        simpa [terminal] using hterminal
      · exact .inr hchildren

theorem retained_of_settled (h : Retained t (current.map handle)) (hsettled : Settled current)
    (hcurrent : forall x, current = some x -> t.Holds x) : Retained t none := by
  intro x hx _ hleaf
  by_cases hsame : current.map handle = some x.handle
  · rcases Option.map_eq_some_iff.mp hsame with ⟨node, hnode, hhandle⟩
    cases (hcurrent node hnode).det hx hhandle
    rcases hsettled x hnode with hterminal | hchildren
    · exact hterminal
    · exact absurd hleaf hchildren
  · exact h x hx hsame hleaf

theorem pruneLoop_run (hepoch : ¬ safeEpoch < 0) (h : Backed cache)
    (hok : TableOk sha256 cache.pageSize cache.table)
    (hcurrent : forall x, current = some x -> cache.table.Holds x)
    (hretained : Retained cache.table (current.map handle)) (hfuel : cache.table.nodes.size ≤ fuel)
    (released : Nat) :
    exists removed next, pruneLoop safeEpoch fuel current released cache =
        .ok (released + removed) next ∧
      Pruned sha256 safeEpoch.toNat cache next removed ∧ Retained next.table none ∧
      (¬ Settled current -> 0 < removed) := by
  induction fuel generalizing cache current released with
  | zero =>
    have hsettled : Settled current := by
      intro x hx
      have hmem : x.page ∈ cache.table.pages :=
        List.mem_map_of_mem (mem_values.mpr ⟨_, hcurrent x hx⟩)
      have hpos := List.length_pos_of_mem hmem
      rw [size_eq_length_pages] at hfuel
      omega
    exact ⟨0, cache, pruneLoop_settled hsettled 0 released, Pruned.refl hok h _,
      retained_of_settled hretained hsettled hcurrent, fun hnot => absurd hsettled hnot⟩
  | succ fuel ih =>
    by_cases hsettled : Settled current
    · exact ⟨0, cache, pruneLoop_settled hsettled _ released, Pruned.refl hok h _,
        retained_of_settled hretained hsettled hcurrent, fun hnot => absurd hsettled hnot⟩
    · have hexists : exists node, current = some node ∧ ¬ 0 < node.terminalRefs ∧
          node.children = [] := by
        unfold Settled at hsettled
        push Not at hsettled
        rcases hsettled with ⟨node, hnode, hterminal, hleaf⟩
        exact ⟨node, hnode, Nat.not_lt.mpr hterminal, hleaf⟩
      rcases hexists with ⟨node, rfl, hunretained, hleaf⟩
      have hnode := hcurrent node rfl
      have hdrop := dropLeaf_pruned h hok hnode hleaf hunretained safeEpoch.toNat
      rcases above_spec hok hnode safeEpoch.toNat with ⟨habove, hheld⟩
      have hpageSize : (dropLeaf node safeEpoch.toNat cache).pageSize = cache.pageSize :=
        hdrop.follows.pageSize
      have hsize := hdrop.size
      have hnext : Retained (dropLeaf node safeEpoch.toNat cache).table
          ((above node cache).map handle) := by
        rw [habove]
        exact Retained.unpublish hok hnode hretained
      rcases ih hdrop.backed (hpageSize ▸ hdrop.table) hheld hnext (by omega) (released + 1)
        with ⟨removed, final, hrun, hpruned, hfinal, _⟩
      refine ⟨1 + removed, final, ?_, hdrop.trans hpruned ?_, hfinal, fun _ => by omega⟩
      · have hgo : ¬ (node.terminal = true ∨ node.children ≠ []) := by
          simpa [terminal, hleaf] using hunretained
        rw [pruneLoop, if_neg hgo]
        show (pruneLeaf node safeEpoch >>= fun parent =>
          pruneLoop safeEpoch fuel parent (released + 1)) cache = _
        rw [bind_run_ok _ (pruneLeaf_run h hok hnode hepoch), hrun, Nat.add_assoc]
      · intro _ hclosed
        exact (unpublish_closed hok hnode hleaf hunretained hclosed).2

theorem pruneUnretained_run (hepoch : ¬ safeEpoch < 0) (h : Backed cache)
    (hok : TableOk sha256 cache.pageSize cache.table) (hnode : cache.table.Holds node)
    (hretained : Retained cache.table (some node.handle)) :
    exists removed next, pruneUnretained node.handle safeEpoch cache = .ok removed next ∧
      Pruned sha256 safeEpoch.toNat cache next removed ∧ Retained next.table none ∧
      (¬ Settled (some node) -> 0 < removed) := by
  have hslot : cache.table.nodes.slot node.handle.index = some node := hnode
  have hheld : forall x, some node = some x -> cache.table.Holds x := by
    rintro _ ⟨⟩
    exact hnode
  rcases pruneLoop_run hepoch h hok hheld hretained (Nat.le_refl _) 0 with
    ⟨removed, next, hrun, hpruned⟩
  refine ⟨removed, next, ?_, hpruned⟩
  unfold pruneUnretained
  rw [bind_run_ok _ (get_run cache), hslot, hrun, Nat.zero_add]

/-!
## Operations on a consistent cache
-/

structure CacheOk (sha256 : List UInt8 -> Digest) (cache : RadixPagePrefixCache) : Prop where
  backed : Backed cache
  table : TableOk sha256 cache.pageSize cache.table
  retained : Retained cache.table none
  radix : RadixOk cache.table cache.radix

/-- The other owners do not get in the way of the cache. -/
theorem CacheOk.undisturbed (h : CacheOk sha256 cache) {allocator}
    (hsteady : Undisturbed cache.allocator allocator) :
    CacheOk sha256 { cache with allocator } where
  __ := h
  backed := by
    refine ⟨hsteady.sound, fun page => (hsteady.refs page).trans (h.backed.counted page), ?_⟩
    intro node hnode
    show _ ≤ (allocator.look node.page).validTokens
    rw [hsteady.tokens _ (h.backed.refs_pos hnode)]
    exact h.backed.filled node hnode
  table := by
    show TableOk sha256 allocator.pageSize cache.table
    rw [hsteady.pageSize]
    exact h.table

/-- An operation led from `cache` to `next`; every block is one from before or
satisfies `new`. -/
structure Evolved (sha256 : List UInt8 -> Digest) (new : PrefixOwnershipNode -> Prop)
    (epoch : Nat) (cache next : RadixPagePrefixCache) : Prop where
  ok : CacheOk sha256 next
  follows : Follows (CacheEvent epoch) cache.allocator next.allocator
  cacheId : next.cacheId = cache.cacheId
  handles : cache.table.nextHandleIndex ≤ next.table.nextHandleIndex
  nodes : forall x, next.table.Holds x ->
    (exists y, cache.table.Holds y ∧ y.core = x.core) ∨ new x

abbrev Shrunk (sha256 : List UInt8 -> Digest) (epoch : Nat)
    (cache next : RadixPagePrefixCache) : Prop :=
  Evolved sha256 (fun _ => False) epoch cache next

theorem Shrunk.refl (h : CacheOk sha256 cache) (epoch : Nat) : Shrunk sha256 epoch cache cache where
  ok := h
  follows := Follows.refl ..
  cacheId := rfl
  handles := Nat.le_refl _
  nodes := fun x hx => .inl ⟨x, hx, rfl⟩

theorem Shrunk.trans (h : Shrunk sha256 epoch cache middle) (h' : Shrunk sha256 epoch middle next) :
    Shrunk sha256 epoch cache next where
  ok := h'.ok
  follows := h.follows.trans h'.follows
  cacheId := h'.cacheId.trans h.cacheId
  handles := Nat.le_trans h.handles h'.handles
  nodes := by
    intro x hx
    rcases h'.nodes x hx with ⟨y, hy, hcore⟩ | hfalse
    · rcases h.nodes y hy with ⟨z, hz, hcore'⟩ | hfalse
      · exact .inl ⟨z, hz, hcore'.trans hcore⟩
      · exact hfalse.elim
    · exact hfalse.elim

theorem prune_rebuild_run (hepoch : ¬ safeEpoch < 0) (h : Backed cache)
    (hok : TableOk sha256 cache.pageSize cache.table) (hdistinct : DistinctPaths cache.table)
    (hnode : cache.table.Holds node) (hretained : Retained cache.table (some node.handle)) :
    exists removed middle next, pruneUnretained node.handle safeEpoch cache = .ok removed middle ∧
      rebuildRadix middle = .ok () next ∧ Pruned sha256 safeEpoch.toNat cache middle removed ∧
      next.table = middle.table ∧ Shrunk sha256 safeEpoch.toNat cache next ∧
      (¬ Settled (some node) -> 0 < removed) := by
  rcases pruneUnretained_run hepoch h hok hnode hretained with
    ⟨removed, middle, hrun, hpruned, hmiddle, hpos⟩
  rcases rebuildRadix_run hpruned.table (hdistinct.within hpruned.within) hmiddle with
    ⟨radix, hrebuild, hradix⟩
  refine ⟨removed, middle, _, hrun, hrebuild, hpruned, rfl, ?_, hpos⟩
  have hpageSize : middle.pageSize = cache.pageSize := hpruned.follows.pageSize
  constructor
  case ok =>
    refine ⟨⟨hpruned.backed.sound, hpruned.backed.counted, hpruned.backed.filled⟩, ?_,
      hmiddle, hradix⟩
    show TableOk sha256 middle.pageSize middle.table
    rw [hpageSize]
    exact hpruned.table
  case follows => exact hpruned.follows
  case cacheId => exact hpruned.cacheId
  case handles => exact Nat.le_of_eq hpruned.handles.symm
  case nodes => exact fun x hx => .inl (hpruned.within x hx)

theorem Backed.of_shape (h : Backed cache) (hshape : SameShape cache.table u) :
    Backed { cache with table := u } := by
  refine ⟨h.sound, ?_, ?_⟩
  · intro page
    show _ = u.pages.count page
    rw [pages_eq_of_shape hshape]
    exact h.counted page
  · intro x hx
    rcases hshape.symm.within x hx with ⟨y, hy, hcore⟩
    show _ ≤ (cache.allocator.look x.page).validTokens
    rw [<- page_of_core hcore, <- block_of_core hcore]
    exact h.filled y hy

/-- Access times and further retainers of a retained block change nothing else. -/
theorem CacheOk.of_status (h : CacheOk sha256 cache) (hstatus : SameStatus cache.table u)
    (epoch : Nat) : Shrunk sha256 epoch cache { cache with table := u } where
  ok :=
    { backed := h.backed.of_shape hstatus.shape
      table := h.table.of_shape hstatus.shape
      retained := h.retained.of_status hstatus
      radix := h.radix.of_status hstatus }
  follows := Follows.refl ..
  cacheId := rfl
  handles := Nat.le_of_eq hstatus.shape.next.symm
  nodes := fun x hx => .inl (hstatus.shape.symm.within x hx)

section

variable {safeEpoch : Int} (hepoch : ¬ safeEpoch < 0) (h : CacheOk sha256 cache)
  (hnode : cache.table.Holds node)
include hepoch h hnode

/-- Taking retainers from a block, pruning below it and rebuilding the index. -/
theorem unretain_run {f : PrefixOwnershipNode -> PrefixOwnershipNode}
    (hf : forall x, shape (f x) = shape x) (hterminal : (f node).terminalRefs = 0) :
    exists removed middle next, pruneUnretained node.handle safeEpoch
          { cache with table := cache.table.modifyNode node.handle f } =
        .ok removed middle ∧
      rebuildRadix middle = .ok () next ∧
      Shrunk sha256 safeEpoch.toNat cache next ∧
      next.table.nodes.size + removed = cache.table.nodes.size ∧
      (node.children = [] -> 0 < removed) := by
  have hshape := sameShape_modifyNode cache.table node.handle hf
  have hhandle : forall x, (f x).handle = x.handle := fun x =>
    handle_of_core (core_of_shape (hf x))
  have hholds := fun {x} => h.table.holds_modifyNode (x := x) hnode hhandle
  have hfnode : (cache.table.modifyNode node.handle f).Holds (f node) :=
    hholds.mpr ⟨node, hnode, by rw [if_pos rfl]⟩
  have hretained : Retained (cache.table.modifyNode node.handle f) (some (f node).handle) := by
    intro x hx hne hleaf
    rcases hholds.mp hx with ⟨y, hy, rfl⟩
    by_cases hsame : node.handle = y.handle
    · rw [if_pos hsame, hhandle, hhandle, hsame] at hne
      exact absurd rfl hne
    · rw [if_neg hsame] at hleaf ⊢
      exact h.retained y hy (by simp) hleaf
  have hdistinct : DistinctPaths (cache.table.modifyNode node.handle f) :=
    h.radix.distinct.within hshape.symm.within
  have hbacked := h.backed.of_shape hshape
  rcases prune_rebuild_run hepoch hbacked (h.table.of_shape hshape) hdistinct hfnode hretained with
    ⟨removed, middle, next, hrun, hrebuild, hpruned, htable, hshrunk, hpos⟩
  rw [hhandle] at hrun
  refine ⟨removed, middle, next, hrun, hrebuild, ?_, ?_, ?_⟩
  · constructor
    case ok => exact hshrunk.ok
    case follows => exact hshrunk.follows
    case cacheId => exact hshrunk.cacheId
    case handles => exact hshrunk.handles
    case nodes =>
      intro x hx
      rcases hshrunk.nodes x hx with ⟨y, hy, hcore⟩ | hfalse
      · rcases hshape.symm.within y hy with ⟨z, hz, hcore'⟩
        exact .inl ⟨z, hz, hcore'.trans hcore⟩
      · exact hfalse.elim
  · have hsize := hpruned.size
    rw [size_eq_length_pages cache.table, <- pages_eq_of_shape hshape, <- size_eq_length_pages,
      htable]
    exact hsize
  · intro hleaf
    refine hpos fun hsettled => ?_
    rcases hsettled (f node) rfl with _ | hchildren
    · omega
    · rw [children_of_shape (hf node)] at hchildren
      exact hchildren hleaf

theorem evictTerminal_run (hterminal : 0 < node.terminalRefs) :
    exists removed middle next, evictTerminal node safeEpoch cache = .ok removed middle ∧
      rebuildRadix middle = .ok () next ∧ Shrunk sha256 safeEpoch.toNat cache next ∧
      next.table.nodes.size + removed = cache.table.nodes.size ∧
      (node.children = [] -> 0 < removed) := by
  rcases unretain_run (f := fun x => { x with terminalRefs := 0 }) hepoch h hnode
    (fun _ => rfl) rfl with ⟨removed, middle, next, hrun, hrest⟩
  refine ⟨removed, middle, next, ?_, hrest⟩
  unfold evictTerminal
  rw [if_neg (Nat.ne_of_gt hterminal)]
  exact hrun

end

theorem validateSafeEpoch_cases (allocator : PageAllocator) (safeEpoch : Int) :
    (validateSafeEpoch allocator safeEpoch = .ok () ∧ ¬ safeEpoch < 0) ∨
      exists e, validateSafeEpoch allocator safeEpoch = .error e := by
  unfold validateSafeEpoch
  by_cases h : safeEpoch < allocator.currentEpoch
  · rw [if_pos h]
    exact .inr ⟨_, rfl⟩
  · rw [if_neg h]
    exact .inl ⟨rfl, by omega⟩

section

variable (hok : TableOk sha256 cache.pageSize cache.table)
include hok

theorem mem_evictableNodes : node ∈ cache.table.evictableNodes <->
      cache.table.Holds node ∧ 0 < node.terminalRefs ∧ node.children = [] := by
  unfold evictableNodes
  rw [List.mem_insertionSort, List.mem_filter, hok.mem_values, Bool.and_eq_true, List.isEmpty_iff]
  simp [terminal]

theorem evictionTarget_spec (h : evictionTarget cache.table entryId = some node) :
    cache.table.Holds node ∧ 0 < node.terminalRefs := by
  cases entryId with
  | none =>
    have hmem : node ∈ cache.table.evictableNodes := List.mem_of_mem_head? h
    rw [mem_evictableNodes hok] at hmem
    exact ⟨hmem.1, hmem.2.1⟩
  | some index =>
    cases hget : cache.table.get (Handle.first .prefixNode index) with
    | error e =>
      simp only [evictionTarget, hget] at h
      cases h
    | ok found =>
      simp only [evictionTarget, hget] at h
      by_cases hterminal : found.terminal = true
      · simp only [hterminal, if_true, Option.some.injEq] at h
        cases h
        refine ⟨(get_eq_ok_iff.mp hget).1, ?_⟩
        simpa [terminal] using hterminal
      · simp [hterminal] at h

end

section

variable (h : CacheOk sha256 cache)
include h

theorem evictEntry_run (entryId : Option Nat) (safeEpoch : Int) :
    Shrunk sha256 safeEpoch.toNat cache (finalState (evictEntry entryId safeEpoch cache)) := by
  unfold evictEntry
  rw [query_bind_run]
  rcases validateSafeEpoch_cases cache.allocator safeEpoch with ⟨hvalid, hepoch⟩ | ⟨_, herror⟩
  · simp only [hvalid]
    rw [bind_run_ok _ (get_run cache)]
    cases htarget : evictionTarget cache.table entryId with
    | none => exact Shrunk.refl h _
    | some node =>
      rcases evictionTarget_spec h.table htarget with ⟨hnode, hterminal⟩
      rcases evictTerminal_run hepoch h hnode hterminal with
        ⟨_, _, next, hrun, hrebuild, hshrunk, _⟩
      simp only
      rw [bind_run_ok _ hrun, bind_run_ok _ hrebuild]
      exact hshrunk
  · simp only [herror]
    exact Shrunk.refl h _

theorem release_run (handle : PrefixHandle) (safeEpoch : Int) :
    Shrunk sha256 safeEpoch.toNat cache (finalState (release handle safeEpoch cache)) := by
  unfold release
  rw [query_bind_run]
  rcases validateSafeEpoch_cases cache.allocator safeEpoch with ⟨hvalid, hepoch⟩ | ⟨e, herror⟩
  · simp only [hvalid]
    rw [query_bind_run]
    cases hget : cache.table.get handle with
    | error e => exact Shrunk.refl h _
    | ok node =>
      rcases get_eq_ok_iff.mp hget with ⟨hnode, rfl⟩
      simp only
      by_cases hzero : node.terminalRefs = 0
      · rw [if_pos hzero]
        exact Shrunk.refl h _
      · rw [if_neg hzero]
        by_cases hone : node.terminalRefs = 1
        · rcases unretain_run (f := fun x => { x with terminalRefs := x.terminalRefs - 1 })
            hepoch h hnode (fun _ => rfl) (by simp [hone]) with
            ⟨removed, middle, next, hrun, hrebuild, hshrunk, _⟩
          rw [bind_run_ok _ (modifyTable_run ..), if_neg (by simpa using hone), bind_run_ok _ hrun,
            bind_run_ok _ hrebuild]
          exact hshrunk
        · have hstatus : SameStatus cache.table (cache.table.modifyNode node.handle fun x =>
              { x with terminalRefs := x.terminalRefs - 1 }) := by
            refine sameStatus_modifyNode _ _ (fun _ => rfl) ?_
            intro x hx
            have hsame : x = node := by
              have hslot : cache.table.nodes.slot node.handle.index = some node := hnode
              rw [hslot] at hx
              exact (Option.some.inj hx).symm
            rw [hsame]
            simp only [terminal, decide_eq_decide]
            omega
          rw [bind_run_ok _ (modifyTable_run ..), if_pos hone]
          exact h.of_status hstatus _
  · simp only [herror]
    exact Shrunk.refl h _

theorem exists_evictable (hsize : cache.table.nodes.size ≠ 0) :
    exists node, cache.table.evictableNodes.head? = some node := by
  have hne : cache.table.evictableNodes ≠ [] := by
    have hvalues : cache.table.nodes.values ≠ [] := by
      intro hnil
      unfold IndexMap.size at hsize
      rw [hnil] at hsize
      exact hsize rfl
    rcases List.exists_mem_of_ne_nil _ hvalues with ⟨_, hx⟩
    rcases h.table.exists_path (h.table.mem_values.mp hx) with ⟨blocks, hpath⟩
    rcases h.table.exists_leaf (h.table.mem_values.mp hx) hpath with ⟨leaf, _, hleaf, hchildren, _⟩
    have hmem := (mem_evictableNodes h.table).mpr
      ⟨hleaf, h.retained leaf hleaf (by simp) hchildren, hchildren⟩
    exact List.ne_nil_of_mem hmem
  cases hnodes : cache.table.evictableNodes with
  | nil => exact absurd hnodes hne
  | cons node rest => exact ⟨node, rfl⟩

end

/-- Eviction removes blocks until the target is met or nothing is left. -/
theorem evictLoop_run (hepoch : ¬ safeEpoch < 0) (target : Nat)
    (h : CacheOk sha256 cache) (hfuel : cache.table.nodes.size ≤ fuel) (released : Nat) :
    exists removed next, evictLoop target safeEpoch fuel released cache =
        .ok (released + removed) next ∧ Shrunk sha256 safeEpoch.toNat cache next ∧
      next.table.nodes.size + removed = cache.table.nodes.size ∧
      (target ≤ released + removed ∨ next.table.nodes.size = 0) := by
  induction fuel generalizing cache released with
  | zero =>
    have hempty : cache.table.nodes.size = 0 := Nat.le_zero.mp hfuel
    refine ⟨0, cache, ?_, Shrunk.refl h _, rfl, .inr hempty⟩
    unfold evictLoop
    rw [bind_run_ok _ (get_run cache), if_pos (.inr hempty)]
    rfl
  | succ fuel ih =>
    unfold evictLoop
    rw [bind_run_ok _ (get_run cache)]
    by_cases hstop : target ≤ released ∨ cache.table.nodes.size = 0
    · refine ⟨0, cache, ?_, Shrunk.refl h _, rfl, hstop⟩
      rw [if_pos hstop]
      rfl
    · rw [if_neg hstop]
      push Not at hstop
      rcases exists_evictable h hstop.2 with ⟨_, hhead⟩
      rcases (mem_evictableNodes h.table).mp (List.mem_of_mem_head? hhead) with
        ⟨hnode, hterminal, hleaf⟩
      rcases evictTerminal_run hepoch h hnode hterminal with
        ⟨pruned, _, next, hrun, hrebuild, hshrunk, _, hpos⟩
      have _ := hpos hleaf
      rcases ih hshrunk.ok (by omega) (released + pruned) with
        ⟨removed, final, hrest, hfinal, _, hdone⟩
      refine ⟨pruned + removed, final, ?_, hshrunk.trans hfinal, by omega, ?_⟩
      · simp only
        rw [bind_run_ok _ (get_run cache), hhead]
        simp only
        rw [bind_run_ok _ hrun, if_neg (by omega), bind_run_ok _ hrebuild, hrest, Nat.add_assoc]
      · rw [<- Nat.add_assoc]
        exact hdone

section

variable (h : CacheOk sha256 cache)
include h

theorem evict_run (targetPages safeEpoch : Int) :
    Shrunk sha256 safeEpoch.toNat cache (finalState (evict targetPages safeEpoch cache)) := by
  unfold evict
  by_cases hneg : targetPages < 0
  · rw [if_pos hneg]
    exact Shrunk.refl h _
  · rw [if_neg hneg]
    by_cases hzero : targetPages = 0
    · rw [if_pos hzero]
      exact Shrunk.refl h _
    · rw [if_neg hzero]
      beta_reduce
      rw [query_bind_run]
      rcases validateSafeEpoch_cases cache.allocator safeEpoch with ⟨hvalid, hepoch⟩ | ⟨_, herror⟩
      · simp only [hvalid]
        rw [bind_run_ok _ (get_run cache)]
        rcases evictLoop_run hepoch targetPages.toNat h (Nat.le_refl _) 0 with
          ⟨_, next, hrun, hshrunk, _⟩
        rw [hrun]
        exact hshrunk
      · simp only [herror]
        exact Shrunk.refl h _

/-- An eviction that starts takes the target or everything, and says how much. -/
theorem evict_ok (hepoch : ¬ safeEpoch < cache.allocator.currentEpoch) (targetPages : Nat) :
    exists released next, evict targetPages safeEpoch cache = .ok released next ∧
      Shrunk sha256 safeEpoch.toNat cache next ∧
      next.table.nodes.size + released = cache.table.nodes.size ∧
      (targetPages ≤ released ∨ next.table.nodes.size = 0) := by
  unfold evict
  rw [if_neg (by omega)]
  cases targetPages with
  | zero => exact ⟨0, cache, rfl, Shrunk.refl h _, rfl, .inl (Nat.le_refl 0)⟩
  | succ target =>
    have hvalid : validateSafeEpoch cache.allocator safeEpoch = .ok () := if_neg hepoch
    have hpos : ¬ safeEpoch < 0 := by omega
    rcases evictLoop_run hpos (target + 1) h (Nat.le_refl _) 0 with ⟨removed, next, hrun, hrest⟩
    rw [Nat.zero_add] at hrun hrest
    refine ⟨removed, next, ?_, hrest⟩
    rw [if_neg (by omega)]
    beta_reduce
    rw [query_bind_run]
    simp only [hvalid]
    rw [bind_run_ok _ (get_run cache), Int.toNat_natCast, hrun]

/-- `clear` empties the cache, unless the epoch is refused. -/
theorem clear_run (safeEpoch : Int) :
    Shrunk sha256 safeEpoch.toNat cache (finalState (clear safeEpoch cache)) ∧
      (¬ safeEpoch < cache.allocator.currentEpoch ->
        (finalState (clear safeEpoch cache)).table.nodes.size = 0) := by
  unfold clear
  rw [query_bind_run]
  rcases validateSafeEpoch_cases cache.allocator safeEpoch with ⟨hvalid, hepoch⟩ | ⟨e, herror⟩
  · simp only [hvalid]
    rw [bind_run_ok _ (get_run cache)]
    by_cases hempty : cache.table.nodes.size = 0
    · rw [if_pos hempty]
      exact ⟨Shrunk.refl h _, fun _ => hempty⟩
    · rw [if_neg hempty]
      refine ⟨evict_run h cache.table.nodes.size safeEpoch, fun hlate => ?_⟩
      rcases evict_ok h hlate cache.table.nodes.size with ⟨_, next, hrun, _, hsize, hdone⟩
      rw [hrun]
      show next.table.nodes.size = 0
      omega
  · simp only [herror]
    refine ⟨Shrunk.refl h _, fun hlate => ?_⟩
    unfold validateSafeEpoch at herror
    rw [if_neg hlate] at herror
    cases herror

theorem evictPage_run (page : KVPageHandle) (safeEpoch : Int) :
    Shrunk sha256 safeEpoch.toNat cache (finalState (evictPage page safeEpoch cache)) := by
  refine wp_inv_iff.mp ?_
  refine wp_query_bind (fun _ _ => ?_) fun _ _ => Shrunk.refl h _
  refine wp_query_bind (fun chains _ => ?_) fun _ _ => Shrunk.refl h _
  simp only [wp_bind, wp_get]
  refine wp_mono (wp_forM ?_ (Shrunk.refl h _)) (fun _ _ hs => hs) (fun _ _ hs => hs)
  intro _ _ _ hs
  refine wp_seq (wp_inv_iff.mpr ?_) fun _ _ hs' => hs'
  exact hs.trans (evictEntry_run hs.ok _ _)

end

end RadixPagePrefixCache
end Prefix
end Ayaka
