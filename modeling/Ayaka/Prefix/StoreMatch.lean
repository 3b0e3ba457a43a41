import Ayaka.Foundation.Invariant
import Ayaka.Prefix.IdentityChains
import Ayaka.Prefix.InsertionPlan

/-!
# Matching and borrowing

Matching reads the radix index and moves nothing but access times.  A borrowed
capability is resolved against the table again before any reference is taken.
-/

namespace Ayaka
namespace Prefix

open Foundation Memory PageAllocator

namespace RadixPagePrefixCache

open PrefixOwnershipTable
open PrefixOwnershipNode (blockTokenIds core handle identity step)

variable {sha256 : List UInt8 -> Digest} {cache next : RadixPagePrefixCache}
variable {context : PrefixCacheContext}

theorem touch_keeps (nodes : List PrefixOwnershipNode) :
    Keeps (Shrunk sha256 epoch cache) (modifyTable fun table => table.touch nodes) :=
  maintains_modify fun _ h => h.trans (h.ok.of_status (sameStatus_touch _ nodes) epoch)

theorem matchPrefix_keeps (tokenIds : List Int) (context : PrefixCacheContext) :
    Keeps (Shrunk sha256 epoch cache) (matchPrefix sha256 tokenIds context) := by
  refine maintains_get.bind fun _ => (keeps_query _).bind fun blocks =>
    (keeps_query _).bind fun identities => Maintains.ite ?_ ?_
  · exact keeps_query _
  · refine maintains_get.bind fun _ => (keeps_query _).bind fun matched =>
      (keeps_query _).bind fun _ => ?_
    cases matched.getLast? with
    | none => exact keeps_query _
    | some last => exact (touch_keeps matched).bind fun _ => keeps_query _

theorem matchResume_keeps (tokenIds : List Int) (context : PrefixCacheContext) :
    Keeps (Shrunk sha256 epoch cache) (matchResume sha256 tokenIds context) := by
  refine (matchPrefix_keeps tokenIds context).bind fun full =>
    (keeps_query _).bind fun tokens => ?_
  cases full.terminalHandle
  case' none => refine (maintains_pure _).bind fun nodes => ?_
  case' some handle => refine (keeps_query _).bind fun nodes => ?_
  all_goals
    refine (keeps_query _).bind fun candidates => ?_
    cases bestCandidate (tokens.drop full.matchedTokens) candidates none with
    | some best =>
      exact (keeps_query _).bind fun _ => (touch_keeps _).bind fun _ => keeps_query _
    | none => exact Maintains.ite (maintains_pure _) ((touch_keeps _).bind fun _ => keeps_query _)

/-!
## Matching without collisions
-/

theorem path_nodes {t handle chain} (h : t.Path handle chain) :
    exists nodes, nodes.map core = chain ∧
      (forall node, node ∈ nodes -> t.Holds node) ∧ ChainIn t none nodes ∧
      lastHandle none nodes = some handle := by
  induction h with
  | @root node handle hnode hhandle hparent =>
    refine ⟨[node], rfl, ?_, .cons ⟨node, hnode, rfl⟩ hparent (.nil _), ?_⟩
    · intro x hx
      rw [List.mem_singleton.mp hx]
      exact hnode
    · rw [<- hhandle]
      rfl
  | @child node handle parent chain hnode hhandle hparent _ ih =>
    rcases ih with ⟨nodes, rfl, hheld, hchain, hlast⟩
    refine ⟨nodes ++ [node], by simp, ?_, hchain.append ?_, ?_⟩
    · intro x hx
      rcases List.mem_append.mp hx with hin | hself
      · exact hheld x hin
      · rw [List.mem_singleton.mp hself]
        exact hnode
    · rw [hlast]
      exact .cons ⟨node, hnode, rfl⟩ hparent (.nil _)
    · rw [lastHandle_concat, hhandle]

/-- The messages contain every block message of a cached chain. -/
def Covered (sha256 : List UInt8 -> Digest) (pageSize : Nat) (t : PrefixOwnershipTable)
    (messages : Set (List UInt8)) : Prop :=
  forall x chain, t.Holds x -> t.Path x.handle chain ->
    forall m, m ∈ hashedMessages sha256 x.identity.context pageSize
      (chain.map PrefixOwnershipNode.blockTokenIds) -> m ∈ messages

/-- The nodes are the cached blocks under the leading identities, and there is none
under the next identity. -/
structure LongestMatch (t : PrefixOwnershipTable) (identities : List PrefixBlockIdentity)
    (nodes : List PrefixOwnershipNode) : Prop where
  held : forall node, node ∈ nodes -> t.Holds node
  found : nodes.map PrefixOwnershipNode.identity <+: identities
  longest : forall node identity, t.Holds node ->
    identities[nodes.length]? = some identity -> node.identity ≠ identity

section CollisionFree

variable {pageSize : Nat} {t : PrefixOwnershipTable} {messages : Set (List UInt8)}
variable {blocks : List (List TokenId)} {identities : List PrefixBlockIdentity}

/-- A cached chain that ends in the digest of a block chain holds its tokens. -/
theorem path_blocks (hok : TableOk sha256 pageSize t) (hfree : Set.InjOn sha256 messages)
    (hcovered : Covered sha256 pageSize t messages) {x chain} (hx : t.Holds x)
    (hpath : t.Path x.handle chain) (hcontext : x.identity.context = context)
    (hbuilt : buildIdentities sha256 blocks pageSize context = .ok identities)
    (hin : forall m, m ∈ hashedMessages sha256 context pageSize blocks -> m ∈ messages)
    (hlength : chain.length = blocks.length)
    (hlast : forall digest, lastDigest digest (chain.map identity) = lastDigest digest identities) :
    chain.map blockTokenIds = blocks ∧ chain.map identity = identities := by
  have hown := hok.path_identities hpath hx rfl
  have hall := hcovered x chain hx hpath
  rw [hcontext] at hown hall
  rcases except_bind_eq_ok_iff.mp hown with ⟨seed, hseed, hchain⟩
  rcases except_bind_eq_ok_iff.mp hbuilt with ⟨seed', hseed', hchain'⟩
  cases hseed.symm.trans hseed'
  unfold hashedMessages at hall hin
  simp only [hseed] at hall hin
  have hblocks := (chainIdentities_det hfree hchain hchain' hall hin (by simpa using hlength)
    (hlast seed)).2
  rw [hblocks] at hchain
  exact ⟨hblocks, Except.ok.inj (hchain.symm.trans hchain')⟩

theorem lastDigest_eq_of_digests (h : identities.map PrefixBlockIdentity.digest =
    identities'.map PrefixBlockIdentity.digest) (digest : Digest) :
    lastDigest digest identities = lastDigest digest identities' := by
  unfold lastDigest
  rw [<- List.getLast?_map, <- List.getLast?_map, h]

/-- Without collisions the index leads along the longest cached chain of blocks. -/
theorem matchPath_longest (h : CacheOk sha256 cache) (hfree : Set.InjOn sha256 messages)
    (hcovered : Covered sha256 cache.pageSize cache.table messages)
    (hbuilt : buildIdentities sha256 blocks cache.pageSize context = .ok identities)
    (hin : forall m, m ∈ hashedMessages sha256 context cache.pageSize blocks -> m ∈ messages) :
    exists nodes, cache.radix.matchPath context
        (identities.map PrefixBlockIdentity.digest) = nodes.map handle ∧
      LongestMatch cache.table identities nodes ∧ ChainIn cache.table none nodes ∧
      nodes.map blockTokenIds <+: blocks := by
  rcases RadixForest.matchWord_longest (h.radix.wellFormed context)
    (identities.map PrefixBlockIdentity.digest) with
    ⟨word, hmatch, hstored, hword, hlongest⟩
  rcases except_bind_eq_ok_iff.mp hbuilt with ⟨seed, hseed, hchain⟩
  have hlengths := chainIdentities_length hchain
  -- a cached chain that ends in the digest at its length spells the leading identities
  have hleading : forall {x chain}, cache.table.Holds x -> cache.table.Path x.handle chain ->
      x.identity.context = context -> chain.length ≤ blocks.length ->
      (forall digest, lastDigest digest (chain.map identity) =
        lastDigest digest (identities.take chain.length)) ->
      chain.map blockTokenIds = blocks.take chain.length ∧
        chain.map identity = identities.take chain.length := by
    intro x chain hx hpath hcontext hle hlast
    have hcut : buildIdentities sha256 (blocks.take chain.length) cache.pageSize context =
        .ok (identities.take chain.length) :=
      except_bind_eq_ok_iff.mpr ⟨seed, hseed, chainIdentities_take hchain _⟩
    refine path_blocks h.table hfree hcovered hx hpath hcontext hcut ?_ (by simpa using hle) hlast
    exact fun m hm => hin m (hashedMessages_subset sha256 (List.take_prefix ..) hm)
  have hnext : forall node identity, cache.table.Holds node ->
      identities[word.length]? = some identity -> node.identity ≠ identity := by
    rintro node identity hnode hidentity rfl
    rcases h.table.exists_path hnode with ⟨chain, hpath⟩
    rcases chainIdentities_getElem hchain hidentity with ⟨hcontext, hindex⟩
    have hlong := (h.table.path_context hpath hnode rfl).2
    rw [hindex, Nat.zero_add] at hlong
    have hlt : word.length < identities.length := by
      rcases List.getElem?_eq_some_iff.mp hidentity with ⟨hlt, _⟩
      exact hlt
    have hlast : forall digest, lastDigest digest (chain.map identity) =
        lastDigest digest (identities.take chain.length) := by
      intro digest
      rcases hpath.last with ⟨last, above, hlastHeld, hhandle, rfl⟩
      cases hlastHeld.det hnode hhandle
      rw [<- hlong, List.take_add_one, hidentity]
      unfold lastDigest
      simp
    have hsame := (hleading hnode hpath hcontext (by omega) hlast).2
    have hstep : (chain.map step).map Prod.fst =
        (chain.map identity).map PrefixBlockIdentity.digest := by
      rw [List.map_map, List.map_map]
      rfl
    have hshort := hlongest (chain.map step)
      ((h.radix.stored _ _).mpr ⟨node, hnode, hcontext, chain, hpath, rfl⟩) (by
        rw [hstep, hsame]
        exact (List.take_prefix ..).map _)
    have hle := hshort.length_le
    rw [List.length_map] at hle
    omega
  rcases hstored with rfl | hstored
  · exact ⟨[], hmatch, ⟨by simp, List.nil_prefix, hnext⟩, .nil _, List.nil_prefix⟩
  · rcases (h.radix.stored _ _).mp hstored with ⟨x, hx, hcontext, chain, hpath, rfl⟩
    rcases path_nodes hpath with ⟨nodes, hnodes, hheld, hchainIn, _⟩
    rw [List.map_map] at hword
    have hle := hword.length_le
    rw [List.length_map, List.length_map] at hle
    have hlast : forall digest, lastDigest digest (chain.map identity) =
        lastDigest digest (identities.take chain.length) := by
      refine lastDigest_eq_of_digests ?_
      rw [List.map_map, List.map_take]
      have hcut := List.prefix_iff_eq_take.mp hword
      rw [List.length_map] at hcut
      exact hcut
    rcases hleading hx hpath hcontext (by omega) hlast with ⟨hblocks, hidentities⟩
    subst hnodes
    rw [List.map_map] at hmatch hblocks hidentities
    rw [List.length_map] at hblocks hidentities
    rw [List.length_map, List.length_map] at hnext
    refine ⟨nodes, ?_, ⟨hheld, ?_, hnext⟩, hchainIn, ?_⟩
    · rw [List.map_map] at hmatch
      exact hmatch
    · exact (List.prefix_iff_eq_take.mpr (by rw [List.length_map]; exact hidentities))
    · exact (List.prefix_iff_eq_take.mpr (by rw [List.length_map]; exact hblocks))

theorem validateChain_ok (h : Backed cache) {nodes}
    {parent} (hchain : ChainIn cache.table parent nodes)
    (hheld : forall node, node ∈ nodes -> cache.table.Holds node)
    (hblocks : nodes.map blockTokenIds <+: blocks) :
    validateChain cache.allocator (nodes.zip blocks) parent = .ok () := by
  induction hchain generalizing blocks with
  | nil parent => rfl
  | @cons parent node nodes _ hparent _ ih =>
    rcases hblocks with ⟨rest, rfl⟩
    rw [List.map_cons, List.cons_append, List.zip_cons_cons, validateChain,
      validateNode_ok h (hheld node List.mem_cons_self) hparent rfl]
    exact ih (fun x hx => hheld x (List.mem_cons_of_mem _ hx)) ⟨rest, rfl⟩

theorem mapM_get {nodes : List PrefixOwnershipNode}
    (hheld : forall node, node ∈ nodes -> t.Holds node) :
    (nodes.map handle).mapM t.get = .ok nodes := by
  rw [mapM_eq_ok_iff, List.forall₂_map_left_iff, List.forall₂_same]
  exact fun node hnode => (hheld node hnode).get

theorem slices_full (hpos : 0 < size) (tokens : List TokenId) :
    forall block, block ∈ slices size (tokens.length / size) tokens ->
      block.length = size ∧ forall token, token ∈ block -> token ∈ tokens := by
  intro block hblock
  rcases List.mem_map.mp hblock with ⟨i, hi, rfl⟩
  have hlt := List.mem_range.mp hi
  have hroom : (i + 1) * size ≤ tokens.length :=
    Nat.le_trans (Nat.mul_le_mul_right _ hlt) (Nat.div_mul_le_self _ _)
  rw [Nat.succ_mul] at hroom
  refine ⟨?_, fun token htoken => List.mem_of_mem_drop (List.mem_of_mem_take htoken)⟩
  rw [List.length_take, List.length_drop]
  omega

theorem validateTokenId_lt (h : validateTokenId tokenId = .ok token) : token < 2 ^ 64 := by
  unfold validateTokenId at h
  by_cases hrange : 0 ≤ tokenId ∧ tokenId ≤ maxTokenId
  · rw [if_pos hrange] at h
    cases h
    have hmax : maxTokenId < 2 ^ 64 := by decide
    have hle : tokenId.toNat ≤ maxTokenId := by omega
    exact Nat.lt_of_le_of_lt hle hmax
  · rw [if_neg hrange] at h
    cases h

theorem normalizeTokenIds_lt (h : normalizeTokenIds tokenIds = .ok tokens) :
    forall token, token ∈ tokens -> token < 2 ^ 64 := by
  have hall := mapM_eq_ok_iff.mp h
  clear h
  induction hall with
  | nil => simp
  | cons hfirst _ ih =>
    intro token htoken
    rcases List.mem_cons.mp htoken with rfl | hin
    · exact validateTokenId_lt hfirst
    · exact ih token hin

theorem PrefixMatch.new_ok (hpos : 0 < pageSize) {pages}
    {terminal} (hterminal : terminal = none <-> pages = []) :
    PrefixMatch.new context pageSize (pages.length * pageSize) pages terminal =
      .ok (PrefixMatch.mk context pageSize (pages.length * pageSize) pages terminal) := by
  unfold PrefixMatch.new
  have hcount : terminal = none <-> pages.length * pageSize = 0 := by
    rw [hterminal, Nat.mul_eq_zero, List.length_eq_zero_iff]
    exact ⟨.inl, fun h => h.resolve_right (Nat.ne_of_gt hpos)⟩
  rw [if_neg (Nat.ne_of_gt hpos), if_neg (by simp), Nat.mul_div_cancel _ hpos,
    if_neg (by simp), if_neg (by simpa using hcount)]
  rfl

theorem PrefixMatch.empty_ok (hpos : 0 < pageSize) :
    PrefixMatch.empty context pageSize = .ok (PrefixMatch.mk context pageSize 0 [] none) := by
  have hnew := @PrefixMatch.new_ok context pageSize hpos [] none (by simp)
  rw [List.length_nil, Nat.zero_mul] at hnew
  exact hnew

/-- What a lookup of complete blocks returns and the state it leaves. -/
structure FullMatch (cache : RadixPagePrefixCache) (blocks : List (List TokenId))
    (identities : List PrefixBlockIdentity) (nodes : List PrefixOwnershipNode)
    (result : PrefixMatch) (next : RadixPagePrefixCache) : Prop where
  longest : LongestMatch cache.table identities nodes
  chain : ChainIn cache.table none nodes
  blocks : nodes.map PrefixOwnershipNode.blockTokenIds <+: blocks
  matched : result.matchedTokens = nodes.length * cache.pageSize
  pages : result.pages = nodes.map PrefixOwnershipNode.page
  terminal : result.terminalHandle = lastHandle none nodes
  table : exists u, SameStatus cache.table u ∧ next = { cache with table := u }

/-- Matching never raises and finds the longest cached chain of complete blocks. -/
theorem matchPrefix_run (h : CacheOk sha256 cache) (hfree : Set.InjOn sha256 messages)
    (hcovered : Covered sha256 cache.pageSize cache.table messages) {tokenIds : List Int}
    {tokens : List TokenId} (htokens : normalizeTokenIds tokenIds = .ok tokens)
    (hpos : 0 < cache.pageSize) (hsize : cache.pageSize < 2 ^ 64)
    (hlength : tokens.length < 2 ^ 64) (hcontext : context.Sized)
    (hin : forall m, m ∈ hashedMessages sha256 context cache.pageSize
      (slices cache.pageSize (tokens.length / cache.pageSize) tokens) -> m ∈ messages) :
    exists identities nodes result next,
      buildIdentities sha256 (slices cache.pageSize (tokens.length / cache.pageSize) tokens)
        cache.pageSize context = .ok identities ∧
      FullMatch cache (slices cache.pageSize (tokens.length / cache.pageSize) tokens) identities
        nodes result next ∧
      matchPrefix sha256 tokenIds context cache = .ok result next := by
  generalize hblocks : slices cache.pageSize (tokens.length / cache.pageSize) tokens = blocks at hin
  have hfull := slices_full hpos tokens
  rw [hblocks] at hfull
  have hcount : blocks.length = tokens.length / cache.pageSize := by
    rw [<- hblocks]
    simp [slices]
  have hroom : 0 + blocks.length ≤ 2 ^ 64 := by
    have hdiv := Nat.div_le_self tokens.length cache.pageSize
    omega
  rcases contextSeed_ok sha256 hsize hcontext with ⟨seed, hseed⟩
  rcases @chainIdentities_ok context cache.pageSize 0 seed blocks sha256 hpos
    (fun block hblock => (hfull block hblock).1)
    (fun block hblock token htoken =>
      normalizeTokenIds_lt htokens token ((hfull block hblock).2 token htoken)) hroom with
    ⟨identities, hchain⟩
  have hbuilt : buildIdentities sha256 blocks cache.pageSize context = .ok identities :=
    except_bind_eq_ok_iff.mpr ⟨seed, hseed, hchain⟩
  rcases matchPath_longest h hfree hcovered hbuilt hin with
    ⟨nodes, hpath, hlongest, hchainIn, hinit⟩
  have hsplit : fullTokenBlocks tokenIds cache.pageSize = .ok blocks := by
    unfold fullTokenBlocks
    rw [if_neg (Nat.ne_of_gt hpos), htokens, <- hblocks]
    rfl
  have hnothing : LongestMatch cache.table identities [] ->
      ([] : List PrefixOwnershipNode).map blockTokenIds <+: blocks ->
      FullMatch cache blocks identities [] ⟨context, cache.pageSize, 0, [], none⟩ cache :=
    fun hlongest hinit => ⟨hlongest, .nil _, hinit, (Nat.zero_mul _).symm, rfl, rfl, _,
      SameStatus.refl _, rfl⟩
  refine ⟨identities, nodes, ?_⟩
  unfold matchPrefix
  rw [bind_run_ok _ (get_run cache), query_bind_run, hsplit]
  simp only
  rw [query_bind_run, hbuilt]
  simp only
  by_cases hempty : blocks = []
  · have hnone : nodes = [] := by
      rw [hempty] at hinit
      simpa using hinit
    subst hnone
    rw [if_pos hempty]
    exact ⟨_, cache, trivial, hnothing hlongest hinit, query_run_ok (PrefixMatch.empty_ok hpos)⟩
  · rw [if_neg hempty, bind_run_ok _ (get_run cache), hpath, query_bind_run, mapM_get hlongest.held]
    simp only
    rw [query_bind_run, validateChain_ok h.backed hchainIn hlongest.held hinit]
    simp only
    rcases List.eq_nil_or_concat' nodes with rfl | ⟨_, last, hnodes⟩
    · exact ⟨_, cache, trivial, hnothing hlongest hinit, query_run_ok (PrefixMatch.empty_ok hpos)⟩
    · have hlast : nodes.getLast? = some last := by
        rw [hnodes, List.getLast?_concat]
      have hterminal : some last.handle = none <-> nodes.map PrefixOwnershipNode.page = [] := by
        rw [hnodes]
        simp
      rw [hlast]
      simp only
      rw [bind_run_ok _ (modifyTable_run ..)]
      refine ⟨_, _, trivial, ?_, query_run_ok (PrefixMatch.new_ok hpos hterminal)⟩
      refine ⟨hlongest, hchainIn, hinit, ?_, rfl, ?_, _, sameStatus_touch _ nodes, rfl⟩
      · rw [List.length_map]
      · rw [hnodes, lastHandle_concat]

end CollisionFree

/-!
## Borrowed capabilities
-/

theorem chain_eq_ok {t} {pageSize : Nat} (hok : TableOk sha256 pageSize t) {handle nodes}
    (h : t.chain handle = .ok nodes) :
    t.Path handle (nodes.map core) ∧ forall node, node ∈ nodes -> t.Holds node := by
  have hget : exists node, t.get handle = .ok node := by
    rcases except_bind_eq_ok_iff.mp h with ⟨node, hnode, _⟩
    exact ⟨node, hnode⟩
  rcases hget with ⟨node, hget⟩
  rcases get_eq_ok_iff.mp hget with ⟨hnode, rfl⟩
  rcases hok.exists_path hnode with ⟨_, hpath⟩
  rcases hok.chain_run hpath with ⟨found, hrun, hcores, hheld⟩
  cases h.symm.trans hrun
  exact ⟨hcores ▸ hpath, hheld⟩

variable {borrowed : ValidResume} {nodes : List PrefixOwnershipNode}

/-- What a resolved capability stands for. -/
structure Resolved (cache : RadixPagePrefixCache) (borrowed : ValidResume)
    (nodes : List PrefixOwnershipNode) : Prop where
  path : exists handle, cache.table.Path handle (nodes.map PrefixOwnershipNode.core)
  held : forall node, node ∈ nodes -> cache.table.Holds node
  above : (nodes.length - 1) * cache.pageSize < borrowed.tokenIds.length
  below : borrowed.tokenIds.length ≤ (nodes.map fun node => node.blockTokenIds.length).sum
  tokens : borrowed.tokenIds = (nodes.flatMap PrefixOwnershipNode.blockTokenIds).take
    borrowed.tokenIds.length
  context : forall node, node ∈ nodes -> node.identity.context = borrowed.context
  pages : forall i entry, borrowed.pages[i]? = some entry -> exists node,
    nodes[i]? = some node ∧ entry.page = node.page ∧
      entry.validTokens = min cache.pageSize (borrowed.tokenIds.length - i * cache.pageSize)
  length : borrowed.pages.length = nodes.length

theorem resume_eq_ok {cacheId pageSize n : Nat}
    (h : resume cacheId pageSize nodes n = .ok (some borrowed)) :
    exists last, nodes.getLast? = some last ∧ borrowed.context = last.identity.context ∧
      borrowed.tokenIds = (nodes.flatMap blockTokenIds).take n ∧
      borrowed.pages.length = nodes.length ∧
      forall i entry, borrowed.pages[i]? = some entry -> exists node,
        nodes[i]? = some node ∧ entry.page = node.page ∧
          entry.validTokens = min pageSize (n - i * pageSize) := by
  unfold resume at h
  cases hlast : nodes.getLast? with
  | none =>
    rw [hlast] at h
    cases h
  | some last =>
    rw [hlast] at h
    rcases except_bind_eq_ok_iff.mp h with ⟨pages, hpages, heq⟩
    cases heq
    have hlength := (mapM_eq_ok_iff.mp hpages).length_eq
    rw [List.length_zip, List.length_range, Nat.min_self] at hlength
    refine ⟨last, rfl, rfl, rfl, hlength.symm, ?_⟩
    intro i entry hentry
    rcases mapM_getElem hpages hentry with ⟨⟨node, _⟩, hpair, hnew⟩
    rcases List.getElem?_zip_eq_some.mp hpair with ⟨hnode, hj⟩
    rcases List.getElem?_eq_some_iff.mp hj with ⟨_, hget⟩
    rw [List.getElem_range] at hget
    subst hget
    unfold PageTableEntry.new at hnew
    by_cases hpos : 0 < min pageSize (n - i * pageSize)
    · simp only [hpos, dite_true] at hnew
      cases hnew
      exact ⟨node, hnode, rfl, rfl⟩
    · simp only [hpos, dite_false] at hnew
      cases hnew

/-- A capability on a chain reaches into its last block. -/
theorem resume_run (cacheId : Nat) {pageSize n : Nat} (hpos : 0 < pageSize) (hne : nodes ≠ [])
    (hreach : (nodes.length - 1) * pageSize < n) :
    exists r, resume cacheId pageSize nodes n = .ok (some r)
      ∧ r.tokenIds = (nodes.flatMap blockTokenIds).take n := by
  have hentries : exists pages, (nodes.zip (List.range nodes.length)).mapM (fun pair =>
      PageTableEntry.new pair.1.page (min pageSize (n - pair.2 * pageSize))) = .ok pages := by
    rw [mapM_isOk_iff]
    intro pair hpair
    have _ := List.mem_range.mp (List.of_mem_zip hpair).2
    have hle : pair.2 * pageSize ≤ (nodes.length - 1) * pageSize :=
      Nat.mul_le_mul_right _ (by omega)
    have htokens : 0 < min pageSize (n - pair.2 * pageSize) := by
      rw [Nat.lt_min]
      exact ⟨hpos, by omega⟩
    unfold PageTableEntry.new
    rw [dif_pos htokens]
    exact ⟨_, rfl⟩
  rcases hentries with ⟨pages, hpages⟩
  cases hlast : nodes.getLast? with
  | none => exact absurd (List.getLast?_eq_none_iff.mp hlast) hne
  | some last =>
    unfold resume
    rw [hlast]
    exact ⟨_, except_bind_eq_ok_iff.mpr ⟨pages, hpages, rfl⟩, rfl⟩

theorem resolveResume_ok (h : CacheOk sha256 cache)
    (hresolve : cache.resolveResume borrowed = .ok nodes) : Resolved cache borrowed nodes := by
  unfold resolveResume at hresolve
  by_cases hcache : borrowed.cacheId ≠ cache.cacheId
  · rw [if_pos hcache] at hresolve
    cases hresolve
  · rw [if_neg hcache] at hresolve
    rcases except_bind_eq_ok_iff.mp hresolve with ⟨found, hchain, hrest⟩
    generalize hn : borrowed.logicalPosition = n at hrest
    by_cases hrange : (found.length - 1) * cache.pageSize < n ∧
        n ≤ (found.map fun node => node.blockTokenIds.length).sum
    · rw [if_neg (by simpa using hrange)] at hrest
      rcases except_bind_eq_ok_iff.mp hrest with ⟨rebuilt, hrebuilt, hchecked⟩
      by_cases hsame : some borrowed ≠ rebuilt
      · rw [if_pos hsame] at hchecked
        cases hchecked
      · rw [if_neg hsame] at hchecked
        rcases except_bind_eq_ok_iff.mp hchecked with ⟨_, _, hfinal⟩
        cases hfinal
        rw [not_not] at hsame
        subst hsame
        rcases chain_eq_ok h.table hchain with ⟨hpath, hheld⟩
        rcases resume_eq_ok hrebuilt with ⟨last, hlast, hcontext, htokens, hcount, hpages⟩
        have hlength : n = borrowed.tokenIds.length := hn.symm
        subst hlength
        refine ⟨⟨_, hpath⟩, hheld, hrange.1, hrange.2, htokens, ?_, hpages, hcount⟩
        rcases hpath.last with ⟨x, _, hx, hhandle, hcores⟩
        have hall := (h.table.path_context hpath hx hhandle).1
        have hlastCore : last.core = x.core := by
          have hgot := congrArg List.getLast? hcores
          rw [List.getLast?_map, hlast, List.getLast?_concat] at hgot
          exact Option.some.inj hgot
        intro node hnode
        rw [hcontext, PrefixOwnershipNode.identity_of_core hlastCore,
          <- hall node.core (List.mem_map_of_mem hnode)]
        rfl
    · rw [if_pos (by simpa using hrange)] at hrest
      cases hrest

def referenced (field : RefField) (nodes : List PrefixOwnershipNode)
    (cache : RadixPagePrefixCache) : RadixPagePrefixCache :=
  { cache with
    allocator := PageEvent.applyAll cache.allocator
      (nodes.map fun node => .acquire field node.page.index) }

section

variable (h : CacheOk sha256 cache)
include h

theorem referenced_undisturbed (hheld : forall node, node ∈ nodes -> cache.table.Holds node)
    (hfield : field ≠ .cache) :
    Undisturbed cache.allocator (cache.referenced field nodes).allocator := by
  have hlive : forall page, page ∈ nodes.map PrefixOwnershipNode.page ->
      cache.allocator.Live page := by
    intro page hpage
    rcases List.mem_map.mp hpage with ⟨node, hnode, rfl⟩
    exact h.backed.live (hheld node hnode)
  have hlegal := (acquires_moved False field h.backed.sound hlive).1
  rw [List.map_map] at hlegal
  refine undisturbed_applyAll h.backed.sound hlegal ?_
  intro _ hevent
  rcases List.mem_map.mp hevent with ⟨node, _, rfl⟩
  exact hfield

/-- Acquiring fails before it takes anything, or takes one request reference per
page of the chain. -/
theorem acquireResume_run (borrowed : ValidResume) :
    (exists e, cache.resolveResume borrowed = .error e ∧
        acquireResume borrowed cache = .error e cache) ∨
      exists nodes, Resolved cache borrowed nodes ∧
        acquireResume borrowed cache = .ok borrowed.pages
          { cache.referenced .request nodes with table := cache.table.touch nodes } := by
  unfold acquireResume
  rw [query_bind_run]
  cases hresolve : cache.resolveResume borrowed with
  | error e => exact .inl ⟨e, rfl, rfl⟩
  | ok nodes =>
    have hresolved := resolveResume_ok h hresolve
    have hlive : forall node, node ∈ nodes -> cache.allocator.Live node.page :=
      fun node hnode => h.backed.live (hresolved.held node hnode)
    refine .inr ⟨nodes, hresolved, ?_⟩
    simp only
    exact bind_run_ok _ (takeEach_acquireRef_run .request hlive)

/-- Of a trimmed capability only the first pages are acquired. -/
theorem acquireResumePrefix_run (borrowed : ValidResume) (pages : Int) :
    (exists e, acquireResumePrefix borrowed pages cache = .error e cache) ∨
      exists nodes, Resolved cache borrowed nodes ∧
        acquireResumePrefix borrowed pages cache = .ok (borrowed.pages.take pages.toNat)
          { cache.referenced .request (nodes.take pages.toNat) with
            table := cache.table.touch (nodes.take pages.toNat) } := by
  unfold acquireResumePrefix
  by_cases hpositive : pages < 1
  · rw [if_pos hpositive]
    exact .inl ⟨_, rfl⟩
  · rw [if_neg hpositive]
    dsimp only
    rw [query_bind_run]
    cases hresolve : cache.resolveResume borrowed with
    | error e => exact .inl ⟨e, rfl⟩
    | ok nodes =>
      simp only
      by_cases hfewer : nodes.length < pages
      · rw [if_pos hfewer]
        exact .inl ⟨_, rfl⟩
      · have hresolved := resolveResume_ok h hresolve
        have hlive : forall node, node ∈ nodes.take pages.toNat ->
            cache.allocator.Live node.page :=
          fun node hnode => h.backed.live (hresolved.held node (List.mem_of_mem_take hnode))
        refine .inr ⟨nodes, hresolved, ?_⟩
        rw [if_neg hfewer]
        exact bind_run_ok _ (takeEach_acquireRef_run .request hlive)

theorem pinResume_run (borrowed : ValidResume) :
    (exists e, cache.resolveResume borrowed = .error e ∧
        pinResume borrowed cache = .error e cache) ∨ exists nodes, Resolved cache borrowed nodes ∧
        pinResume borrowed cache = .ok borrowed.pages (cache.referenced .pin nodes) := by
  unfold pinResume
  rw [query_bind_run]
  cases hresolve : cache.resolveResume borrowed with
  | error e => exact .inl ⟨e, rfl, rfl⟩
  | ok nodes =>
    have hresolved := resolveResume_ok h hresolve
    have hlive : forall node, node ∈ nodes -> cache.allocator.Live node.page :=
      fun node hnode => h.backed.live (hresolved.held node hnode)
    refine .inr ⟨nodes, hresolved, ?_⟩
    simp only
    exact bind_run_ok _ (takeEach_acquireRef_run .pin hlive)

end

end RadixPagePrefixCache
end Prefix
end Ayaka
