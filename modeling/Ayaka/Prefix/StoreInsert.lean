import Ayaka.Prefix.StoreMatch

/-!
# Inserting a chain

An insertion resolves the leading blocks it knows, plans a fresh chain for the
others, publishes the plan leaf by leaf and hands the whole path to the radix
index.  When the index refuses the path, which takes a digest collision, the plan
is withdrawn and nothing but the handle counter has moved.
-/

namespace Ayaka
namespace Prefix

open Foundation Memory PageAllocator

namespace RadixPagePrefixCache

open PrefixOwnershipTable
open EStateM (Result)
open PrefixOwnershipNode

variable {sha256 : List UInt8 -> Digest} {cache next : RadixPagePrefixCache}
variable {node : PrefixOwnershipNode} {items : List InsertItem} {parent : Option PrefixHandle}

def bumped (count : Nat) (cache : RadixPagePrefixCache) : RadixPagePrefixCache :=
  { cache with table := cache.table.bump count }

theorem bumped_bumped (cache : RadixPagePrefixCache) (i j : Nat) :
    (cache.bumped i).bumped j = cache.bumped (i + j) := by
  unfold bumped
  rw [<- bump_bump]

variable {block : List TokenId} {identity : PrefixBlockIdentity}

theorem resolveBlocks_unknown {page rest} (hfind : cache.table.find identity = .ok none) :
    resolveBlocks ((identity, block, page) :: rest) parent cache = (resolveBlocks rest
          (some (Handle.first .prefixNode cache.table.nextHandleIndex)) >>= fun pair =>
        pure (cache.table.plannedNode identity block page parent :: pair.1,
          cache.table.plannedNode identity block page parent :: pair.2)) (cache.bumped 1) := by
  rw [resolveBlocks, query_bind_run]
  simp only [hfind]
  rfl

theorem resolveBlocks_known {page rest} (hfind : cache.table.find identity = .ok (some node)) :
    resolveBlocks ((identity, block, page) :: rest) parent cache =
      match validateNode cache.allocator node parent block with
      | .error e => .error e cache
      | .ok _ => (resolveBlocks rest (some node.handle) >>= fun pair =>
        pure (node :: pair.1, pair.2)) cache := by
  rw [resolveBlocks, query_bind_run]
  simp only [hfind]
  rw [query_bind_run]
  cases validateNode cache.allocator node parent block with
  | error e => rfl
  | ok _ => rfl

theorem validateNode_error (allocator : PageAllocator)
    (h : node.parent ≠ parent ∨ node.blockTokenIds ≠ block) :
    exists e, validateNode allocator node parent block = .error e := by
  unfold validateNode
  rw [if_pos h]
  exact ⟨_, rfl⟩

section

variable (hok : TableOk sha256 cache.pageSize cache.table)
include hok

/-- Below a fresh handle every block is planned, or a known block gives a
collision away. -/
theorem resolveBlocks_fresh (hparent : forall x, cache.table.Holds x -> x.parent ≠ parent) :
    (exists e count, resolveBlocks items parent cache = .error e (cache.bumped count)) ∨
      (resolveBlocks items parent cache = .ok (plan cache.table.nextHandleIndex parent items,
            plan cache.table.nextHandleIndex parent items) (cache.bumped items.length) ∧
        forall item, item ∈ items -> cache.table.identityToIndex.lookup item.1 = none) := by
  induction items generalizing cache parent with
  | nil => exact .inr ⟨rfl, by simp⟩
  | cons item rest ih =>
    rcases item with ⟨identity, block, _⟩
    rcases hok.find_cases identity with ⟨node, hnode, _, hfind⟩ | ⟨hfind, hlookup, _⟩
    · have hbad : node.parent ≠ parent ∨ node.blockTokenIds ≠ block :=
        .inl (hparent node hnode)
      rcases validateNode_error cache.allocator hbad with ⟨e, herror⟩
      refine .inl ⟨e, 0, ?_⟩
      rw [resolveBlocks_known hfind, herror]
      rfl
    · have hfresh : forall x, (cache.bumped 1).table.Holds x ->
          x.parent ≠ some (Handle.first .prefixNode cache.table.nextHandleIndex) :=
        fun x hx => hok.parent_ne hx (Nat.le_refl _)
      rw [resolveBlocks_unknown hfind]
      rcases ih (hok.bump 1) hfresh with ⟨e, count, herror⟩ | ⟨hrun, hrest⟩
      · refine .inl ⟨e, 1 + count, ?_⟩
        rw [bind_run_error _ herror, bumped_bumped]
      · refine .inr ⟨?_, ?_⟩
        · rw [bind_run_ok _ hrun, bumped_bumped, List.length_cons, Nat.add_comm 1]
          rfl
        · intro item hitem
          rcases List.mem_cons.mp hitem with rfl | hin
          · exact hlookup
          · exact hrest item hin

/-- A resolution finds a known chain and plans the rest, or raises; in both cases
only the handle counter moves. -/
theorem resolveBlocks_cases (hbacked : Backed cache) :
    (exists e count, resolveBlocks items parent cache = .error e (cache.bumped count)) ∨
      exists front rest known, items = front ++ rest ∧ KnownChain cache.table parent front known ∧
        resolveBlocks items parent cache = .ok
            (known ++ plan cache.table.nextHandleIndex (lastHandle parent known) rest,
              plan cache.table.nextHandleIndex (lastHandle parent known) rest)
            (cache.bumped rest.length) ∧
        forall item, item ∈ rest -> cache.table.identityToIndex.lookup item.1 = none := by
  induction items generalizing parent with
  | nil => exact .inr ⟨[], [], [], rfl, .nil _, rfl, by simp⟩
  | cons item rest ih =>
    rcases item with ⟨identity, block, page⟩
    rcases hok.find_cases identity with ⟨node, hnode, hidentity, hfind⟩ | ⟨hfind, hlookup, _⟩
    · by_cases hvalid : node.parent = parent ∧ node.blockTokenIds = block
      · rw [resolveBlocks_known hfind, validateNode_ok hbacked hnode hvalid.1 hvalid.2]
        rcases @ih (some node.handle) with
          ⟨e, count, herror⟩ | ⟨front, later, known, hitems, hchain, hrun, hlater⟩
        · exact .inl ⟨e, count, bind_run_error _ herror⟩
        · refine .inr ⟨(identity, block, page) :: front, later, node :: known, ?_,
            .cons hnode hvalid.1 hidentity hvalid.2 hchain, ?_, hlater⟩
          · rw [hitems]
            rfl
          · exact bind_run_ok _ hrun
      · have hbad : node.parent ≠ parent ∨ node.blockTokenIds ≠ block := by
          rw [not_and_or] at hvalid
          exact hvalid
        rcases validateNode_error cache.allocator hbad with ⟨e, herror⟩
        refine .inl ⟨e, 0, ?_⟩
        rw [resolveBlocks_known hfind, herror]
        rfl
    · have hfresh : forall x, (cache.bumped 1).table.Holds x ->
          x.parent ≠ some (Handle.first .prefixNode cache.table.nextHandleIndex) :=
        fun x hx => hok.parent_ne hx (Nat.le_refl _)
      have hbumped : TableOk sha256 (cache.bumped 1).pageSize (cache.bumped 1).table :=
        hok.bump 1
      rcases @resolveBlocks_fresh sha256 (cache.bumped 1) rest _ hbumped hfresh with
        ⟨e, count, herror⟩ | ⟨hrun, hunknown⟩
      · refine .inl ⟨e, 1 + count, ?_⟩
        rw [resolveBlocks_unknown hfind, bind_run_error _ herror, bumped_bumped]
      · refine .inr ⟨[], (identity, block, page) :: rest, [], rfl, .nil _, ?_, ?_⟩
        · rw [resolveBlocks_unknown hfind, bind_run_ok _ hrun, bumped_bumped,
            List.length_cons, Nat.add_comm 1]
          rfl
        · intro item hitem
          rcases List.mem_cons.mp hitem with rfl | hin
          · exact hlookup
          · exact hunknown item hin

end

/-!
## Publication
-/

/-- The pages of the nodes are live and filled as far as the nodes need. -/
def Sourced (nodes : List PrefixOwnershipNode) (allocator : PageAllocator) : Prop :=
  Sound allocator ∧ forall x, x ∈ nodes -> allocator.Live x.page ∧
    x.blockTokenIds.length ≤ (allocator.look x.page).validTokens

theorem Sourced.acquire (h : Sourced (node :: rest) a) :
    Sourced rest ((PageEvent.acquire RefField.cache node.page.index).apply a) := by
  have hlive := (h.2 node List.mem_cons_self).1
  have henabled : (PageEvent.acquire RefField.cache node.page.index).Enabled False a :=
    ⟨hlive.1.1, hlive.2⟩
  refine ⟨h.1.event henabled, ?_⟩
  intro x hx
  rcases h.2 x (List.mem_cons_of_mem _ hx) with ⟨hx, htokens⟩
  have hsame := look_acquire_kept hlive .cache x.page
  rw [live_iff, hsame.1, hsame.2]
  exact ⟨live_iff.mp hx, htokens⟩

theorem takeEach_acquire_run {nodes taken} (h : Sourced nodes cache.allocator) :
    takeEach (fun node => inAllocator (PageAllocator.acquireCacheRef node.page))
        (fun node => query fun cache =>
          validateCachedPage cache.allocator node.page node.blockTokenIds.length)
        (fun node => releaseCacheRefNow node.page) nodes taken cache =
      .ok () (nodes.foldl (fun cache node => acquired .cache node cache) cache) := by
  refine takeEach_run (acquired .cache) (fun nodes cache => Sourced nodes cache.allocator) ?_ h
  intro x rest s hready
  rcases hready.2 x List.mem_cons_self with ⟨hlive, htokens⟩
  refine ⟨zoom_run_ok (acquireRef_run .cache hlive), query_run_ok ?_, hready.acquire⟩
  have hnext : Sourced rest (acquired .cache x s).allocator := hready.acquire
  have hsame := look_acquire_kept hlive .cache x.page
  refine validateCachedPage_ok hnext.1 ?_ ?_
  · show 0 < (((PageEvent.acquire RefField.cache x.page.index).apply s.allocator).look
      x.page).refs .cache
    rw [look_acquire hlive, Function.update_self]
    exact Nat.succ_pos _
  · exact hsame.2 ▸ htokens

theorem publishNode_run {pageSize : Nat} (hnew : Publishable sha256 pageSize cache.table node) :
    publishNode node cache = .ok () { cache with table := publish node cache.table } := by
  unfold publishNode publish
  rw [bind_run_ok _ (modifyTable_run ..)]
  cases hparent : node.parent with
  | none => rfl
  | some parent =>
    rcases hnew.linked parent hparent with ⟨up, hup, rfl, hlt, _⟩
    have hslot : (cache.table.nodes.put node.handle.index node).slot up.handle.index = some up := by
      rw [IndexMap.slot_put, Function.update_of_ne (Nat.ne_of_lt hlt)]
      exact hup
    simp only
    rw [query_bind_run]
    simp only [PrefixOwnershipTable.get, hslot, if_true]
    rfl

theorem publishLoop_run {pageSize : Nat} {pages planned published}
    (hchain : PublishChain sha256 pageSize cache.table planned) :
    publishLoop pages published planned cache =
      .ok () { cache with table := publishAll planned cache.table } := by
  induction planned generalizing cache published with
  | nil => rfl
  | cons node rest ih =>
    rcases hchain with ⟨hnew, _, hrest⟩
    rw [publishLoop, bind_run_ok _ (tryCatch_run_ok _ (publishNode_run hnew))]
    have hnext : PublishChain sha256 pageSize
        ({ cache with table := publish node cache.table } : RadixPagePrefixCache).table rest :=
      hrest
    exact ih hnext

/-- Publication succeeds on a plan with sources. -/
theorem publishNew_run {planned} (hok : TableOk sha256 cache.pageSize cache.table)
    (hchain : PublishChain sha256 cache.pageSize cache.table planned)
    (hsources : Sourced planned cache.allocator) :
    publishNew planned cache = .ok ()
      { cache with
        allocator := PageEvent.applyAll cache.allocator
          (planned.map fun x => .acquire .cache x.page.index)
        table := publishAll planned cache.table } := by
  unfold publishNew
  rw [query_bind_run, checkPlanned_ok hok (Grew.refl hok) hchain]
  simp only
  rw [bind_run_ok _ (takeEach_acquire_run hsources), foldl_acquired]
  exact publishLoop_run hchain

/-!
## The stages of an insertion
-/

/-- The state between publication and the radix index. -/
structure Staged (sha256 : List UInt8 -> Digest) (context : PrefixCacheContext)
    (cache stage : RadixPagePrefixCache) (known planned : List PrefixOwnershipNode) : Prop where
  backed : Backed stage
  follows : Follows (CacheEvent cache.allocator.currentEpoch) cache.allocator stage.allocator
  grew : Grew sha256 cache.pageSize (cache.table.bump planned.length) stage.table
    planned.reverse
  chain : ChainIn stage.table none (known ++ planned)
  context : forall n, n ∈ known ++ planned -> n.identity.context = context
  retained : Retained stage.table (lastHandle none (known ++ planned))
  fresh : forall n, n ∈ planned -> cache.table.nextHandleIndex ≤ n.handle.index
  cacheId : stage.cacheId = cache.cacheId

variable {nodes : List PrefixOwnershipNode}

theorem follows_acquires (epoch : Nat) (hsources : Sourced nodes a) :
    Follows (CacheEvent epoch) a (PageEvent.applyAll a
        (nodes.map fun x => .acquire .cache x.page.index)) ∧
      forall page, ((PageEvent.applyAll a (nodes.map fun x =>
        .acquire .cache x.page.index)).look page).refs .cache = (a.look page).refs .cache +
            (nodes.map PrefixOwnershipNode.page).count page := by
  have hlive : forall h, h ∈ nodes.map PrefixOwnershipNode.page -> a.Live h := by
    intro h hh
    rcases List.mem_map.mp hh with ⟨x, hx, rfl⟩
    exact (hsources.2 x hx).1
  have hbatch := acquires_moved False .cache hsources.1 hlive
  rw [List.map_map] at hbatch
  refine ⟨⟨_, hbatch.1, rfl, ?_⟩, ?_⟩
  · intro _ hevent
    rcases List.mem_map.mp hevent with ⟨x, _, rfl⟩
    trivial
  · intro page
    have hmoved := hbatch.2 .cache page
    rw [count_held, List.count_nil] at hmoved
    exact hmoved

theorem stage_run (h : CacheOk sha256 cache)
    (hseed : contextSeed sha256 context cache.pageSize = .ok seed)
    (hitems : Continues sha256 context cache.pageSize seed 0 (front ++ rest))
    (hknown : KnownChain cache.table none front known) (hunknown : forall item, item ∈ rest ->
    cache.table.identityToIndex.lookup item.1 = none)
    (hplanned : planned = plan cache.table.nextHandleIndex (lastHandle none known) rest)
    (hsources : Sourced planned cache.allocator) :
    exists stage, publishNew planned (cache.bumped planned.length) =
        .ok () stage ∧ stage.radix = cache.radix ∧
      Staged sha256 context cache stage known planned := by
  have hlength : planned.length = rest.length := by rw [hplanned, plan_length]
  have hbump : TableOk sha256 (cache.bumped planned.length).pageSize
      (cache.bumped planned.length).table := h.table.bump _
  have hanchor : Anchored sha256 context cache.pageSize cache.table none seed 0
      (front ++ rest ≠ []) := .inl ⟨rfl, hseed, rfl⟩
  rcases hknown.anchored hanchor hitems with ⟨_, _, hanchored, hrest⟩
  have hchain : PublishChain sha256 cache.pageSize (cache.table.bump planned.length) planned := by
    rw [hlength, hplanned]
    refine plan_publishChain (h.table.bump _) hanchored hrest ?_ (Nat.le_refl _) hunknown
    intro index hindex
    cases hslot : cache.table.nodes.slot index with
    | none => exact hslot
    | some x => exact absurd (h.table.filed index x hslot).2 (Nat.not_lt.mpr hindex)
  have hgrew := (Grew.refl (h.table.bump planned.length)).publishAll hchain
  rw [List.append_nil] at hgrew
  rcases follows_acquires cache.allocator.currentEpoch hsources with ⟨hfollows, hcounted⟩
  refine ⟨_, publishNew_run hbump hchain hsources, rfl, ?_⟩
  have hcontext : forall item, item ∈ front ++ rest -> item.1.context = context :=
    fun item hitem => (hitems.below item hitem).2
  constructor
  case backed =>
    refine h.backed.follows hfollows ?_ ?_
    · intro page
      have hperm := hgrew.pages.count_eq page
      show _ = (publishAll planned (cache.table.bump planned.length)).pages.count page
      rw [hperm, List.count_append, List.map_reverse, List.count_reverse, Nat.add_comm]
      refine (hcounted page).trans ?_
      rw [h.backed.counted]
      rfl
    · intro x hx
      rcases hgrew.only x hx with hold | ⟨n, hn, hcore⟩
      · exact .inl hold
      · right
        have hin : n ∈ planned := List.mem_reverse.mp hn
        rcases hsources.2 n hin with ⟨hlive, htokens⟩
        have hpage := page_of_core hcore
        have hafter : (PageEvent.applyAll cache.allocator (planned.map fun x =>
            .acquire .cache x.page.index)).look n.page ≠ {} := by
          refine look_ne_of_refs .cache ?_
          rw [hcounted]
          exact Nat.add_pos_right _ (List.count_pos_iff.mpr (List.mem_map_of_mem hin))
        have hbefore : cache.allocator.look n.page ≠ {} := hlive.steppable.look_ne
        have hkept := hfollows.validTokens h.backed.sound
          (fun event hevent => hevent.not_setValid) hbefore hafter
        rw [<- hpage, <- block_of_core hcore]
        exact hkept ▸ htokens
  case follows => exact hfollows
  case grew => exact hgrew
  case chain =>
    refine (KnownChain.chainIn hknown).mono hgrew.within |>.append ?_
    rw [hplanned]
    refine plan_chainIn fun n hn => ?_
    rw [<- hplanned] at hn
    rcases hgrew.new n (List.mem_reverse.mpr hn) with ⟨x, hx, hcore, _⟩
    exact ⟨x, hplanned ▸ hx, hcore⟩
  case context =>
    intro n hn
    rcases List.mem_append.mp hn with hin | hin
    · exact hknown.same_context
        (fun item hitem => hcontext item (List.mem_append_left _ hitem)) n hin
    · rw [hplanned] at hin
      rcases (mem_plan hin).2 with ⟨item, hitem, hidentity, _⟩
      rw [hidentity]
      exact hcontext item (List.mem_append_right _ hitem)
  case retained =>
    have hretained : Retained (cache.table.bump planned.length) (lastHandle none known) :=
      fun x hx _ => h.retained x hx (by simp)
    rw [lastHandle_append]
    subst hplanned
    exact Retained.publishAll (h.table.bump _) hchain hretained
  case fresh =>
    intro n hn
    rw [hplanned] at hn
    exact (mem_plan hn).1
  case cacheId => rfl

section

variable (retain : Bool) (node : PrefixOwnershipNode)

def retained : PrefixOwnershipNode :=
  if retain || !node.terminal then
    { node with terminalRefs := node.terminalRefs + 1 }
  else
    node

theorem shape_retained : shape (retained retain node) = shape node := by
  unfold retained
  split
  · rfl
  · rfl

theorem retained_pos : 0 < (retained retain node).terminalRefs := by
  unfold retained
  split
  · exact Nat.succ_pos _
  · rename_i h
    simp only [terminal, Bool.or_eq_true, Bool.not_eq_true', not_or,
      decide_eq_false_iff_not, not_not] at h
    exact h.2

end

variable {context : PrefixCacheContext} {stage : RadixPagePrefixCache}
variable {known planned : List PrefixOwnershipNode}

theorem Backed.with_radix (h : Backed cache) (radix : PageRadixIndex) :
    Backed { cache with radix } :=
  ⟨h.sound, h.counted, h.filled⟩

/-- The path joined the index: retaining its last block completes the insertion. -/
theorem accept_ok (h : CacheOk sha256 cache)
    (hstage : Staged sha256 context cache stage known planned)
    (hlast : (known ++ planned).getLast? = some last)
    (hforest : (cache.radix.root context).insertWord
    ((known ++ planned).map step) = .ok forest) (retain : Bool) :
    CacheOk sha256 { stage with
      radix := (cache.radix.setRoot context (cache.radix.root context)).setRoot context forest
      table := stage.table.modifyNode last.handle (retained retain) } := by
  have hne : known ++ planned ≠ [] := by
    intro hnil
    rw [hnil] at hlast
    cases hlast
  rcases hstage.chain.spells_last hne hstage.context with ⟨_, x, hsame, hcore, hspells⟩
  cases hlast.symm.trans hsame
  have hx := hspells.1
  have hhandle := handle_of_core hcore
  have hpageSize : stage.pageSize = cache.pageSize := hstage.follows.pageSize
  have hkeep : forall y, (retained retain y).handle = y.handle := fun y =>
    handle_of_core (core_of_shape (shape_retained retain y))
  have hshape := sameShape_modifyNode stage.table last.handle (shape_retained retain)
  have hholds : forall {z}, (stage.table.modifyNode last.handle (retained retain)).Holds z <->
      exists y, stage.table.Holds y ∧ z = if x.handle = y.handle then retained retain y else y := by
    intro z
    rw [<- hhandle]
    exact hstage.grew.table.holds_modifyNode hx hkeep
  rcases RadixOk.insert (h.radix.bump planned.length) (h.table.bump _) hstage.grew hstage.chain hne
    hstage.context (fun n hn => List.mem_append_right _ (List.mem_reverse.mp hn)) hforest with
    ⟨hwellFormed, hstored, hends⟩
  constructor
  case backed => exact (hstage.backed.of_shape hshape).with_radix _
  case table =>
    show TableOk sha256 stage.pageSize (stage.table.modifyNode last.handle (retained retain))
    rw [hpageSize]
    exact hstage.grew.table.of_shape hshape
  case retained =>
    intro z hz _ hleaf
    rcases hholds.mp hz with ⟨y, hy, rfl⟩
    by_cases hyx : x.handle = y.handle
    · rw [if_pos hyx]
      exact retained_pos retain y
    · rw [if_neg hyx] at hleaf ⊢
      refine hstage.retained y hy ?_ hleaf
      rcases List.eq_nil_or_concat' (known ++ planned) with hnil | ⟨_, _, hconcat⟩
      · exact absurd hnil hne
      · rw [hconcat, List.getLast?_concat] at hlast
        cases hlast
        rw [hconcat, lastHandle_concat, <- hhandle]
        exact fun heq => hyx (Option.some.inj heq)
  case radix =>
    have hforth : forall {other word y}, stage.table.Spells other word y ->
        exists z, (stage.table.modifyNode last.handle (retained retain)).Spells other word z ∧
          (0 < y.terminalRefs ∨ y = x -> 0 < z.terminalRefs) := by
      intro other word y hy
      rcases hy.mono hshape.within with ⟨z, hz, hzcore⟩
      refine ⟨z, hz, ?_⟩
      rcases hholds.mp hz.1 with ⟨w, hw, rfl⟩
      have hwy : w = y := by
        refine hw.det hy.1 ?_
        rw [<- handle_of_core hzcore]
        split
        · exact (hkeep w).symm
        · rfl
      subst hwy
      rintro (hrefs | rfl)
      · split
        · exact retained_pos retain w
        · exact hrefs
      · rw [if_pos rfl]
        exact retained_pos retain w
    have hback : forall {other word z},
        (stage.table.modifyNode last.handle (retained retain)).Spells other word z ->
        exists y, stage.table.Spells other word y ∧
          (0 < z.terminalRefs -> 0 < y.terminalRefs ∨ y = x) := by
      intro other word z hz
      rcases hz.mono hshape.symm.within with ⟨y, hy, hycore⟩
      refine ⟨y, hy, ?_⟩
      rcases hholds.mp hz.1 with ⟨w, hw, rfl⟩
      have hwy : w = y := by
        refine hw.det hy.1 ?_
        rw [handle_of_core hycore]
        split
        · exact (hkeep w).symm
        · rfl
      subst hwy
      intro hrefs
      by_cases hxw : x.handle = w.handle
      · exact .inr (hw.det hx hxw.symm)
      · rw [if_neg hxw] at hrefs
        exact .inl hrefs
    constructor
    case wellFormed => exact hwellFormed
    case stored =>
      intro other word
      rw [hstored]
      constructor
      · rintro ⟨y, hy⟩
        rcases hforth hy with ⟨z, hz, _⟩
        exact ⟨z, hz⟩
      · rintro ⟨z, hz⟩
        rcases hback hz with ⟨y, hy, _⟩
        exact ⟨y, hy⟩
    case _ =>
      intro other word
      rw [hends]
      constructor
      · rintro (⟨y, hy, hrefs⟩ | ⟨rfl, rfl⟩)
        · rcases hforth hy with ⟨z, hz, hpos⟩
          exact ⟨z, hz, hpos (.inl hrefs)⟩
        · rcases hforth hspells with ⟨z, hz, hpos⟩
          exact ⟨z, hz, hpos (.inr rfl)⟩
      · rintro ⟨z, hz, hrefs⟩
        rcases hback hz with ⟨y, hy, hpos⟩
        rcases hpos hrefs with hrefs' | rfl
        · exact .inl ⟨y, hy, hrefs'⟩
        · have hother : other = context := hy.2.1.symm.trans hspells.2.1
          subst hother
          exact .inr ⟨rfl, hy.word_det hspells⟩

/-!
## Withdrawing a plan
-/

theorem Grew.old_retained {t u} {pageSize : Nat} {added} (h : Grew sha256 pageSize t u added)
    (hretained : Retained t none) {x y} (hx : u.Holds x) (hy : t.Holds y) (hcore : y.core = x.core)
    (hleaf : x.children = []) : 0 < x.terminalRefs := by
  rcases h.old y hy with ⟨_, hz, hzcore, hterminal, hchildren⟩
  cases hz.det hx (handle_of_core (hzcore.trans hcore))
  rw [hleaf] at hchildren
  rw [hterminal]
  exact hretained y hy (by simp) (List.subset_nil.mp hchildren)

/-- No planned node survives: below it there would be a leaf nobody retains. -/
theorem Staged.within_of_pruned (h : CacheOk sha256 cache)
    (hstage : Staged sha256 context cache stage known planned)
    (hpruned : Pruned sha256 epoch stage middle removed)
    (hretained : Retained middle.table none) : Within middle.table cache.table := by
  intro x hx
  rcases hpruned.within x hx with ⟨z, hz, hcore⟩
  rcases hstage.grew.only z hz with ⟨y, hy, hycore⟩ | ⟨n, hn, hncore⟩
  · exact ⟨y, hy, hycore.trans hcore⟩
  · exfalso
    have hok := hpruned.table
    rcases hok.exists_path hx with ⟨_, hpath⟩
    rcases hok.exists_leaf hx hpath with ⟨leaf, rest, hleaf, hchildren, hlong⟩
    have hrefs := hretained leaf hleaf (by simp) hchildren
    rcases hpruned.within leaf hleaf with ⟨low, hlow, hlowCore⟩
    have hlowHandle := handle_of_core hlowCore
    have hsame := hpruned.terminals leaf low hleaf hlow hlowHandle.symm
    rcases hstage.grew.only low hlow with ⟨y, hy, hycore⟩ | ⟨m, hm, hmcore⟩
    · have hyheld : cache.table.Holds y := hy
      rcases h.table.exists_path hyheld with ⟨old, hold⟩
      have hstaged := (hold.mono (within_bump cache.table planned.length).1).mono hstage.grew.within
      have hpruned' := hlong.mono hpruned.within
      rw [<- hlowHandle, <- handle_of_core hycore] at hpruned'
      have hall := hstaged.det hpruned'
      rcases hpath.last with ⟨_, _, hx', hxhandle, rfl⟩
      cases hx'.det hx hxhandle
      have hmem : x.core ∈ old := by
        rw [hall]
        simp
      rcases hold.mem hmem with ⟨w, hw, hwcore⟩
      have hlt := h.table.handle_lt hw
      have hfresh := hstage.fresh n (List.mem_reverse.mp hn)
      have hhandle := handle_of_core (hwcore.trans (hcore.symm.trans hncore.symm))
      rw [hhandle] at hlt
      omega
    · rcases hstage.grew.new m hm with ⟨w, hw, hwcore, hzero⟩
      have hwlow := hw.det hlow (handle_of_core (hwcore.trans hmcore))
      rw [hsame, <- hwlow, hzero] at hrefs
      exact Nat.lt_irrefl 0 hrefs

theorem Staged.with_radix (h : Staged sha256 context cache stage known planned)
    (radix : PageRadixIndex) : Staged sha256 context cache { stage with radix } known planned :=
  ⟨h.backed.with_radix radix, h.follows, h.grew, h.chain, h.context, h.retained, h.fresh, h.cacheId⟩

section

variable (h : CacheOk sha256 cache) (hstage : Staged sha256 context cache stage known planned)
include h hstage

/-- Before the rebuild, withdrawing prunes the plan from its last block on. -/
theorem withdraw_prune :
    exists removed middle, withdraw planned stage = rebuildRadix middle ∧
      Pruned sha256 cache.allocator.currentEpoch stage middle removed ∧
      Retained middle.table none := by
  have hpageSize : stage.pageSize = cache.pageSize := hstage.follows.pageSize
  have hepoch : stage.allocator.currentEpoch = cache.allocator.currentEpoch :=
    hstage.follows.currentEpoch fun _ hevent => hevent.not_advance
  have hok : TableOk sha256 stage.pageSize stage.table := hpageSize ▸ hstage.grew.table
  unfold withdraw
  rcases List.eq_nil_or_concat' planned with rfl | ⟨_, last, hplanned⟩
  · refine ⟨0, stage, rfl, Pruned.refl hok hstage.backed _, ?_⟩
    intro x hx _ hleaf
    rcases hstage.grew.only x hx with ⟨y, hy, hcore⟩ | ⟨n, hn, _⟩
    · exact Grew.old_retained hstage.grew h.retained hx hy hcore hleaf
    · cases hn
  · have hin : last ∈ planned.reverse := by
      rw [hplanned]
      simp
    rcases hstage.grew.new last hin with ⟨x, hx, hcore, _⟩
    have hhandle := handle_of_core hcore
    have hleft : Retained stage.table (some x.handle) := by
      have hlast := hstage.retained
      rw [hplanned, <- List.append_assoc, lastHandle_concat] at hlast
      rw [hhandle]
      exact hlast
    have hnonneg : ¬ (stage.allocator.currentEpoch : Int) < 0 := by omega
    rcases pruneUnretained_run hnonneg hstage.backed hok hx hleft with
      ⟨removed, middle, hrun, hpruned, hmiddle, _⟩
    refine ⟨removed, middle, ?_, ?_, hmiddle⟩
    · rw [hhandle] at hrun
      rw [hplanned, List.getLast?_concat]
      exact (get_bind_run ..).trans (bind_run_ok _ hrun)
    · rw [Int.toNat_natCast, hepoch] at hpruned
      exact hpruned

/-- Withdrawing leads back to the blocks from before. -/
theorem withdraw_run :
    exists next, withdraw planned stage = .ok () next ∧
      Shrunk sha256 cache.allocator.currentEpoch cache next := by
  rcases withdraw_prune h hstage with ⟨_, middle, hrun, hpruned, hmiddle⟩
  have hwithin := hstage.within_of_pruned h hpruned hmiddle
  have hdistinct : DistinctPaths middle.table := h.radix.distinct.within hwithin
  rcases rebuildRadix_run hpruned.table hdistinct hmiddle with ⟨radix, hrebuild, hradix⟩
  have hpageSize : middle.pageSize = stage.pageSize := hpruned.follows.pageSize
  refine ⟨_, hrun.trans hrebuild, ?_⟩
  constructor
  case ok =>
    refine ⟨hpruned.backed.with_radix radix, ?_, hmiddle, hradix⟩
    show TableOk sha256 middle.pageSize middle.table
    rw [hpageSize]
    exact hpruned.table
  case follows => exact hstage.follows.trans hpruned.follows
  case cacheId => exact hpruned.cacheId.trans hstage.cacheId
  case handles =>
    show _ ≤ middle.table.nextHandleIndex
    rw [hpruned.handles, hstage.grew.handles]
    exact Nat.le_add_right _ _
  case nodes => exact fun x hx => .inl (hwithin x hx)

end

/-!
## A whole insertion
-/

/-- The block ends a path of inserted blocks and lies in the page given for it. -/
def Inserted (t : PrefixOwnershipTable) (context : PrefixCacheContext)
    (blocks : List (List TokenId)) (pages : List KVPageHandle) (x : PrefixOwnershipNode) : Prop :=
  x.identity.context = context ∧ exists front, t.Path x.handle (front ++ [x.core]) ∧
    (front ++ [x.core]).map PrefixOwnershipNode.blockTokenIds <+: blocks ∧
    pages[front.length]? = some x.page

/-- Every block that is new was inserted under a handle that is new. -/
abbrev Grown (sha256 : List UInt8 -> Digest) (context : PrefixCacheContext)
    (blocks : List (List TokenId)) (pages : List KVPageHandle)
    (cache next : RadixPagePrefixCache) : Prop :=
  Evolved sha256 (fun x => cache.table.nextHandleIndex ≤ x.handle.index ∧
    Inserted next.table context blocks pages x) cache.allocator.currentEpoch cache next

variable {blocks : List (List TokenId)} {pages : List KVPageHandle}

theorem Shrunk.grown (h : Shrunk sha256 cache.allocator.currentEpoch cache next) :
    Grown sha256 context blocks pages cache next where
  __ := h
  nodes := fun x hx => (h.nodes x hx).imp_right False.elim

/-- An insertion that returns has grown the cache, and one that raises has added no block. -/
def Inserts (sha256 : List UInt8 -> Digest) (context : PrefixCacheContext)
    (blocks : List (List TokenId)) (pages : List KVPageHandle) (cache : RadixPagePrefixCache)
    (x : StoreM alpha) : Prop :=
  Wp x (fun _ next => Grown sha256 context blocks pages cache next)
    (fun _ next => Shrunk sha256 cache.allocator.currentEpoch cache next) cache

/-- The handle names the last of the inserted blocks. -/
def Spans (blocks : List (List TokenId)) (result : Option PrefixHandle)
    (cache : RadixPagePrefixCache) : Prop :=
  forall handle, result = some handle ->
    exists chain, cache.table.Path handle chain ∧ chain.map blockTokenIds = blocks

def Joins (sha256 : List UInt8 -> Digest) (context : PrefixCacheContext)
    (blocks : List (List TokenId)) (pages : List KVPageHandle) (cache : RadixPagePrefixCache)
    (x : StoreM (Option PrefixHandle)) : RadixPagePrefixCache -> Prop :=
  Wp x (fun result next => Grown sha256 context blocks pages cache next ∧ Spans blocks result next)
    (fun _ next => Shrunk sha256 cache.allocator.currentEpoch cache next)

theorem Inserted.mono (h : Inserted t context blocks pages x) (hwithin : Within t u)
    (hcore : x.core = y.core) : Inserted u context blocks pages y := by
  rcases h with ⟨hcontext, front, hpath, hblocks, hpage⟩
  refine ⟨?_, front, ?_, ?_, ?_⟩
  · rw [<- identity_of_core hcore]
    exact hcontext
  · rw [<- handle_of_core hcore, <- hcore]
    exact hpath.mono hwithin
  · rw [<- hcore]
    exact hblocks
  · rw [<- page_of_core hcore]
    exact hpage

theorem Staged.inserted (h : Staged sha256 context cache stage known planned)
    (hknown : forall n, n ∈ known -> n.handle.index < cache.table.nextHandleIndex)
    (hblocks : (known ++ planned).map blockTokenIds = blocks)
    (hpages : planned.map PrefixOwnershipNode.page = pages.drop known.length)
    (hx : stage.table.Holds x) :
    (exists y, cache.table.Holds y ∧ y.core = x.core) ∨
      (cache.table.nextHandleIndex ≤ x.handle.index ∧
        Inserted stage.table context blocks pages x) := by
  rcases h.grew.only x hx with hold | ⟨n, hn, hcore⟩
  · exact .inl hold
  · right
    have hin : n ∈ planned := List.mem_reverse.mp hn
    have hall : n ∈ known ++ planned := List.mem_append_right _ hin
    have hfresh := h.fresh n hin
    refine ⟨handle_of_core hcore ▸ hfresh, ?_⟩
    refine Inserted.mono ?_ (Within.refl _) hcore
    rcases h.chain.path (.inl ⟨rfl, rfl⟩) hall with ⟨front, hfront, hpath⟩
    refine ⟨h.context n hall, front.map core, ?_, ?_, ?_⟩
    · rw [List.nil_append, List.map_append] at hpath
      exact hpath
    · have hcut := hfront.map blockTokenIds
      rw [hblocks] at hcut
      rw [List.map_append, List.map_map]
      rw [List.map_append] at hcut
      exact hcut
    · rw [List.length_map]
      rcases hfront with ⟨_, hsplit⟩
      have hat : (known ++ planned)[front.length]? = some n := by
        rw [<- hsplit, List.append_assoc, List.getElem?_append_right (Nat.le_refl _)]
        simp
      by_cases hlt : front.length < known.length
      · rw [List.getElem?_append_left hlt] at hat
        have hsmall := hknown n (List.mem_of_getElem? hat)
        omega
      · rw [List.getElem?_append_right (Nat.not_lt.mp hlt)] at hat
        have hpage := congrArg (Option.map PrefixOwnershipNode.page) hat
        rw [<- List.getElem?_map, hpages, List.getElem?_drop,
          Nat.add_sub_cancel' (Nat.not_lt.mp hlt)] at hpage
        exact hpage

theorem inRadix_insert_run (hne : nodes ≠ []) :
    inRadix (PageRadixIndex.insert context (nodes.map fun n => n.identity.digest)
        (nodes.map handle)) cache =
      match (cache.radix.root context).insertWord (nodes.map step) with
      | .error fault => .error (PageRadixIndex.faultMessage fault)
          { cache with radix := cache.radix.setRoot context (cache.radix.root context) }
      | .ok grown => .ok ()
          { cache with radix :=
            (cache.radix.setRoot context (cache.radix.root context)).setRoot context grown } := by
  have hinsert := @PageRadixIndex.insert_eq context cache.radix
    (nodes.map step) (by simpa using hne)
  rw [List.map_map, List.map_map] at hinsert
  cases hforest : (cache.radix.root context).insertWord (nodes.map step) with
  | error fault =>
    simp only [hforest] at hinsert
    exact zoom_run_error hinsert
  | ok grown =>
    simp only [hforest] at hinsert
    exact zoom_run_ok hinsert

/-- The last part of an insertion, from the radix index on. -/
def joinPath (context : PrefixCacheContext) (resolved planned : List PrefixOwnershipNode)
    (retain : Bool) : StoreM (Option PrefixHandle) := do
  tryCatch
    (inRadix (PageRadixIndex.insert context (resolved.map fun n => n.identity.digest)
      (resolved.map PrefixOwnershipNode.handle)))
    fun e => do
      withdraw planned
      throw e
  match resolved.getLast? with
  | none => return none
  | some terminal => do
    retainTerminal terminal.handle retain
    modifyTable fun table => table.touch resolved
    return some terminal.handle

theorem Staged.spans (h : Staged sha256 context cache stage known planned)
    (hlast : (known ++ planned).getLast? = some last)
    (hblocks : (known ++ planned).map blockTokenIds = blocks)
    (hwithin : Within stage.table next.table) : Spans blocks (some last.handle) next := by
  intro handle hhandle
  cases hhandle
  rcases List.getLast?_eq_some_iff.mp hlast with ⟨_, hconcat⟩
  have habove := h.chain.above (.inl ⟨rfl, rfl⟩)
  rw [hconcat, lastHandle_concat, List.nil_append, <- hconcat] at habove
  rcases habove with ⟨hnone, _⟩ | ⟨_, hsome, hpath⟩
  · cases hnone
  · cases hsome
    refine ⟨_, hpath.mono hwithin, ?_⟩
    rw [List.map_map]
    exact hblocks

theorem joinPath_run (h : CacheOk sha256 cache)
    (hstage : Staged sha256 context cache stage known planned)
    (hradix : stage.radix = cache.radix) (hne : known ++ planned ≠ [])
    (hinserted : forall x, stage.table.Holds x ->
      (exists y, cache.table.Holds y ∧ y.core = x.core) ∨
        (cache.table.nextHandleIndex ≤ x.handle.index ∧
          Inserted stage.table context blocks pages x))
    (hblocks : (known ++ planned).map blockTokenIds = blocks) (retain : Bool) :
    Joins sha256 context blocks pages cache
      (joinPath context (known ++ planned) planned retain) stage := by
  have hinsert := @inRadix_insert_run stage _ context hne
  rw [hradix] at hinsert
  unfold joinPath
  cases hforest : (cache.radix.root context).insertWord ((known ++ planned).map step) with
  | error fault =>
    simp only [hforest] at hinsert
    rcases withdraw_run h (hstage.with_radix _) with ⟨next, hrun, hshrunk⟩
    exact wp_of_run_error
      (bind_run_error _ ((tryCatch_run_error _ hinsert).trans (bind_run_ok _ hrun))) hshrunk
  | ok forest =>
    simp only [hforest] at hinsert
    unfold Joins Wp
    rw [bind_run_ok _ (tryCatch_run_ok _ hinsert)]
    cases hlast : (known ++ planned).getLast? with
    | none => exact absurd (List.getLast?_eq_none_iff.mp hlast) hne
    | some last =>
      have haccept := accept_ok h hstage hlast hforest retain
      have htouched := haccept.of_status (sameStatus_touch _ (known ++ planned))
        cache.allocator.currentEpoch
      have hshape := sameShape_modifyNode stage.table last.handle (shape_retained retain)
      have hwithin := hshape.within.trans (sameStatus_touch _ (known ++ planned)).shape.within
      constructor
      · constructor
        case ok => exact htouched.ok
        case follows => exact hstage.follows
        case cacheId => exact hstage.cacheId
        case handles =>
          refine Nat.le_trans ?_ htouched.handles
          show _ ≤ stage.table.nextHandleIndex
          rw [hstage.grew.handles]
          exact Nat.le_add_right _ _
        case nodes =>
          intro x hx
          rcases htouched.nodes x hx with ⟨y, hy, hcore⟩ | hfalse
          · rcases hshape.symm.within y hy with ⟨z, hz, hcore'⟩
            rcases hinserted z hz with ⟨w, hw, hsame⟩ | ⟨hfresh, hnew⟩
            · exact .inl ⟨w, hw, hsame.trans (hcore'.trans hcore)⟩
            · right
              rw [<- handle_of_core (hcore'.trans hcore)]
              exact ⟨hfresh, hnew.mono hwithin (hcore'.trans hcore)⟩
          · exact hfalse.elim
      · exact hstage.spans hlast hblocks hwithin

/-!
## The checks before an insertion
-/

theorem validateSourcePages_ok {allocator counts}
    (h : validateSourcePages allocator pages counts = .ok ()) :
    forall pair, pair ∈ pages.zip counts -> allocator.Live pair.1 ∧
      pair.2 ≤ (allocator.look pair.1).validTokens := by
  unfold validateSourcePages at h
  by_cases hnodup : pages.Nodup
  · rw [if_neg (by simpa using hnodup)] at h
    have hall := forM_eq_ok_iff.mp h
    rintro ⟨page, count⟩ hpair
    have hone := hall (page, count) hpair
    simp only at hone
    by_cases hcount : 0 < count ∧ count ≤ allocator.pageSize
    · rw [if_neg (by simpa using hcount)] at hone
      rcases except_bind_eq_ok_iff.mp hone with ⟨_, hinfo, hchecked⟩
      rcases getMeta_eq_ok_iff.mp hinfo with ⟨hcurrent, rfl⟩
      by_cases hbad : (allocator.pages page.index).allocationState ≠ .live ∨
          (allocator.pages page.index).requestRefs = 0 ∨
          (allocator.pages page.index).validTokens < count
      · rw [if_pos hbad] at hchecked
        cases hchecked
      · push Not at hbad
        have hlive : allocator.Live page := ⟨hcurrent, hbad.1⟩
        refine ⟨hlive, ?_⟩
        rw [hlive.look]
        exact hbad.2.2
    · rw [if_pos (by simpa using hcount)] at hone
      cases hone
  · rw [if_pos (by simpa using hnodup)] at h
    cases h

theorem sourced_of_valid {allocator} {pair : List TokenId × KVPageHandle}
    (h : validateSourcePages allocator pages (blocks.map List.length) = .ok ())
    (hpair : pair ∈ blocks.zip pages) :
    allocator.Live pair.2 ∧ pair.1.length ≤ (allocator.look pair.2).validTokens := by
  refine validateSourcePages_ok h (pair.2, pair.1.length) ?_
  rw [List.zip_map_right, <- List.zip_swap]
  simp only [List.mem_map]
  exact ⟨(pair.2, pair.1), ⟨pair, hpair, rfl⟩, rfl⟩

theorem zip_items {items : List InsertItem} (hpages : pages.length = blocks.length)
    (hidentities : identities.length = blocks.length)
    (hitems : identities.zip (blocks.zip pages) = items) :
    items.map Prod.fst = identities ∧ items.map (fun item => item.2.1) = blocks ∧
      items.map (fun item => item.2.2) = pages := by
  have hpairs : (blocks.zip pages).length = blocks.length := by
    rw [List.length_zip, hpages, Nat.min_self]
  have hsnd : items.map Prod.snd = blocks.zip pages := by
    rw [<- hitems, List.map_snd_zip (by omega)]
  have hblocks := congrArg (List.map Prod.fst) hsnd
  have hsources := congrArg (List.map Prod.snd) hsnd
  rw [List.map_map, List.map_fst_zip (by omega)] at hblocks
  rw [List.map_map, List.map_snd_zip (by omega)] at hsources
  refine ⟨?_, hblocks, hsources⟩
  rw [<- hitems, List.map_fst_zip (by omega)]

section

variable (h : CacheOk sha256 cache)
include h

theorem bumped_shrunk (count : Nat) :
    Shrunk sha256 cache.allocator.currentEpoch cache (cache.bumped count) where
  ok := ⟨⟨h.backed.sound, h.backed.counted, h.backed.filled⟩, h.table.bump count, h.retained,
    h.radix.bump count⟩
  follows := Follows.refl ..
  cacheId := rfl
  handles := Nat.le_add_right _ _
  nodes := fun x hx => .inl ⟨x, hx, rfl⟩

/-- Publication and the radix index, once the blocks are resolved. -/
theorem publish_join_run (hseed : contextSeed sha256 context cache.pageSize = .ok seed)
    (hitems : Continues sha256 context cache.pageSize seed 0 (front ++ rest))
    (hne : front ++ rest ≠ []) (hknown : KnownChain cache.table none front known)
    (hunknown : forall item, item ∈ rest -> cache.table.identityToIndex.lookup item.1 = none)
    (hplanned : planned = plan cache.table.nextHandleIndex (lastHandle none known) rest)
    (hsources : forall item, item ∈ rest -> cache.allocator.Live item.2.2 ∧
    item.2.1.length ≤ (cache.allocator.look item.2.2).validTokens) (retain : Bool) :
    Joins sha256 context ((front ++ rest).map fun item => item.2.1)
      ((front ++ rest).map fun item => item.2.2) cache
      (publishNew planned >>= fun _ => joinPath context (known ++ planned) planned retain)
      (cache.bumped rest.length) := by
  have hlength : planned.length = rest.length := by rw [hplanned, plan_length]
  have hsourced : Sourced planned cache.allocator := by
    refine ⟨h.backed.sound, fun n hn => ?_⟩
    rw [hplanned] at hn
    rcases (mem_plan hn).2 with ⟨item, hitem, _, hblock, hpage⟩
    rw [hblock, hpage]
    exact hsources item hitem
  rcases stage_run h hseed hitems hknown hunknown hplanned hsourced with ⟨_, hrun, hradix, hstage⟩
  rw [hlength] at hrun
  refine (wp_bind _ _).mpr (wp_of_run_ok hrun ?_)
  have hfront := hknown.items
  have hrest : planned.map (fun n => (n.identity, n.blockTokenIds, n.page)) = rest := by
    rw [hplanned, plan_items]
  have hknownLength : known.length = front.length := by
    have hlengths := congrArg List.length hfront
    rw [List.length_map, List.length_map] at hlengths
    exact hlengths
  have hblocks : (known ++ planned).map blockTokenIds =
      (front ++ rest).map (fun item => item.2.1) := by
    have hfrontBlocks := congrArg (List.map Prod.snd) hfront
    rw [List.map_map, List.map_map] at hfrontBlocks
    rw [List.map_append, List.map_append, <- hrest, List.map_map]
    exact congrArg (· ++ _) hfrontBlocks
  refine joinPath_run h hstage hradix ?_ ?_ hblocks retain
  · intro hnil
    rcases List.append_eq_nil_iff.mp hnil with ⟨rfl, rfl⟩
    rw [List.eq_nil_of_length_eq_zero hknownLength.symm,
      List.eq_nil_of_length_eq_zero hlength.symm] at hne
    exact hne rfl
  · intro _ hx
    refine hstage.inserted ?_ hblocks ?_ hx
    · intro n hn
      rcases hknown.chainIn.holds hn with ⟨y, hy, hcore⟩
      rw [<- handle_of_core hcore]
      exact h.table.handle_lt hy
    · rw [List.map_append, hknownLength, <- List.length_map (fun item : InsertItem => item.2.2),
        List.drop_left, <- hrest, List.map_map]
      rfl

theorem insertBlocks_run (blocks : List (List TokenId)) (pages : List KVPageHandle)
    (context : PrefixCacheContext) (retain : Bool) :
    Joins sha256 context blocks pages cache (insertBlocks sha256 blocks pages context retain)
      cache := by
  have hsame := Shrunk.refl h cache.allocator.currentEpoch
  unfold insertBlocks Joins
  rw [wp_bind, wp_get]
  refine wp_query_bind (fun identities hidentities => ?_) fun _ _ => hsame
  refine wp_if (fun _ => hsame) fun hlength => ?_
  refine wp_if (fun _ => ⟨hsame.grown, fun _ hnone => nomatch hnone⟩) fun hempty => ?_
  refine wp_query_bind (fun _ hvalid => ?_) fun _ _ => hsame
  rcases except_bind_eq_ok_iff.mp hidentities with ⟨seed, hseed, hchained⟩
  rcases zip_items (not_not.mp hlength) (chainIdentities_length hchained) rfl with
    ⟨hfst, hblocks, hpages⟩
  rcases @resolveBlocks_cases sha256 cache (identities.zip (blocks.zip pages)) none h.table
    h.backed with ⟨e, count, herror⟩ | ⟨front, rest, known, hitems, hknown, hrun, hunknown⟩
  · exact wp_of_run_error (bind_run_error _ herror) (bumped_shrunk h count)
  · refine (wp_bind _ _).mpr (wp_of_run_ok hrun ?_)
    have hsources : forall item, item ∈ rest -> cache.allocator.Live item.2.2 ∧
        item.2.1.length ≤ (cache.allocator.look item.2.2).validTokens := by
      intro item hitem
      have hmem := List.mem_append_right front hitem
      rw [<- hitems] at hmem
      exact sourced_of_valid hvalid (List.of_mem_zip hmem).2
    rw [hitems] at hfst hblocks hpages
    have hcontinues : Continues sha256 context cache.pageSize seed 0 (front ++ rest) := by
      unfold Continues
      rw [hblocks]
      exact hchained.trans (congrArg Except.ok hfst.symm)
    have hne : front ++ rest ≠ [] := by
      intro hnil
      rw [hnil] at hblocks
      exact hempty hblocks.symm
    have hjoin := publish_join_run h hseed hcontinues hne hknown hunknown rfl hsources retain
    rw [hblocks, hpages] at hjoin
    have hdigests := hknown.digests cache.table.nextHandleIndex (lastHandle none known) rest
    rw [hfst] at hdigests
    simp only [hdigests]
    exact hjoin

end

def fullBlocks (tokenIds : List Int) (pageSize : Nat) : List (List TokenId) :=
  match fullTokenBlocks tokenIds pageSize with
  | .error _ => []
  | .ok blocks => blocks

theorem insert_run (h : CacheOk sha256 cache) (tokenIds : List Int) (pages : List KVPageHandle)
    (context : PrefixCacheContext) :
    Inserts sha256 context (fullBlocks tokenIds cache.pageSize) pages cache
      (insert sha256 tokenIds pages context) := by
  refine wp_query_bind (fun blocks hblocks => ?_) fun _ _ => Shrunk.refl h _
  unfold fullBlocks
  rw [hblocks]
  exact wp_mono (insertBlocks_run h blocks pages context true) (fun _ _ hjoined => hjoined.1)
    fun _ _ hshrunk => hshrunk

def allBlocks (tokenIds : List Int) (pageSize : Nat) : List (List TokenId) :=
  match normalizeTokenIds tokenIds with
  | .error _ => []
  | .ok tokens => slices pageSize (rangeLength tokens.length pageSize) tokens

theorem rangeLength_pos {stop step : Nat} (h : 0 < rangeLength stop step) : 0 < step := by
  refine Nat.pos_of_ne_zero fun hzero => ?_
  rw [rangeLength, hzero, Nat.div_zero] at h
  exact Nat.lt_irrefl 0 h

theorem rangeLength_reach {stop step : Nat} (h : 0 < rangeLength stop step) :
    (rangeLength stop step - 1) * step < stop := by
  have hdiv : rangeLength stop step * step ≤ stop + step - 1 := Nat.div_mul_le_self ..
  have hstep := rangeLength_pos h
  rcases Nat.exists_eq_succ_of_ne_zero (Nat.ne_of_gt h) with ⟨last, hlast⟩
  rw [hlast, Nat.succ_mul] at hdiv
  rw [hlast, Nat.succ_sub_one]
  omega

/-- Once the blocks are in, the capability on them can be made. -/
theorem insertResume_run (h : CacheOk sha256 cache) (tokenIds : List Int)
    (pages : List KVPageHandle) (context : PrefixCacheContext) :
    Inserts sha256 context (allBlocks tokenIds cache.pageSize) pages cache
      (insertResume sha256 tokenIds pages context) := by
  have hsame := Shrunk.refl h cache.allocator.currentEpoch
  unfold Inserts insertResume
  rw [wp_bind, wp_get]
  refine wp_query_bind (fun _ _ => ?_) fun _ _ => hsame
  refine wp_query_bind (fun tokens htokens => ?_) fun _ _ => hsame
  unfold allBlocks
  rw [htokens]
  refine wp_then (insertBlocks_run h _ pages context false) (fun result next hjoined => ?_)
    fun _ _ hshrunk => hshrunk
  rcases hjoined with ⟨hgrown, hspans⟩
  cases result with
  | none => exact hgrown
  | some handle =>
    rcases hspans handle rfl with ⟨chain, hpath, hblocks⟩
    rcases hgrown.ok.table.chain_run hpath with ⟨nodes, hchain, hcores, _⟩
    have hlength : nodes.length = rangeLength tokens.length cache.pageSize := by
      rw [<- List.length_map core, hcores, <- List.length_map blockTokenIds, hblocks]
      simp [slices]
    have hcount : 0 < nodes.length := by
      rw [<- List.length_map core, hcores]
      exact List.length_pos_of_ne_nil hpath.ne_nil
    have hreach : (nodes.length - 1) * cache.pageSize < tokens.length := by
      rw [hlength] at hcount ⊢
      exact rangeLength_reach hcount
    have hsize : next.pageSize = cache.pageSize := hgrown.follows.pageSize
    refine wp_query_bind (fun found hfound => ?_) fun _ herror => ?_
    · cases hchain.symm.trans hfound
      rcases resume_run next.cacheId (rangeLength_pos (hlength ▸ hcount))
        (List.ne_nil_of_length_pos hcount) hreach with ⟨r, hresume, _⟩
      rw [wp_query, hsize, hresume]
      refine ⟨fun _ _ => hgrown, ?_⟩
      intro _ hraised
      cases hraised
    · cases hchain.symm.trans herror

end RadixPagePrefixCache
end Prefix
end Ayaka
