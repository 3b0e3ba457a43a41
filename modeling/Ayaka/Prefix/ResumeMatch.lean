import Ayaka.Prefix.StoreHistory

/-!
# The longest resumable chain

A lookup for a resume goes on below the longest match of complete blocks, with the child
that shares most of the remaining tokens.  No cached chain of the context shares more
with the query: a chain that leaves the matched blocks leaves the query there, and one
that goes on with a complete block of the query would have been matched further.
-/

namespace Ayaka
namespace Prefix

open Foundation Memory PageAllocator

namespace RadixPagePrefixCache

open PrefixOwnershipTable
open PrefixOwnershipNode (blockTokenIds block_of_core core identity parent_of_core)

/-! ## Shared tokens -/

section Shared

variable {block more tokens : List TokenId}

@[simp]
theorem sharedTokens_nil (tokens : List TokenId) : sharedTokens [] tokens = 0 := by
  cases tokens with
  | nil => rfl
  | cons token rest => rfl

theorem sharedTokens_le_length (block tokens : List TokenId) :
    sharedTokens block tokens ≤ block.length := by
  induction block generalizing tokens with
  | nil => rw [sharedTokens_nil]; exact Nat.zero_le _
  | cons a block ih =>
    cases tokens with
    | nil => exact Nat.zero_le _
    | cons b tokens =>
      unfold sharedTokens
      split
      · exact Nat.succ_le_succ (ih tokens)
      · exact Nat.zero_le _

theorem sharedTokens_append_spelled (h : block <+: tokens) (more : List TokenId) :
    sharedTokens (block ++ more) tokens
      = block.length + sharedTokens more (tokens.drop block.length) := by
  rcases h with ⟨_, rfl⟩
  rw [List.drop_left]
  induction block with
  | nil => rw [List.nil_append, List.nil_append, List.length_nil, Nat.zero_add]
  | cons a block ih =>
    rw [List.cons_append, List.cons_append, sharedTokens, if_pos rfl, ih, List.length_cons]
    omega

theorem sharedTokens_append_unspelled (h : ¬ block <+: tokens) (more : List TokenId) :
    sharedTokens (block ++ more) tokens = sharedTokens block tokens
      ∧ sharedTokens block tokens < block.length := by
  induction block generalizing tokens with
  | nil => exact absurd List.nil_prefix h
  | cons a block ih =>
    cases tokens with
    | nil => exact ⟨rfl, Nat.succ_pos _⟩
    | cons b tokens =>
      rw [List.cons_append, sharedTokens, sharedTokens]
      split
      · next hab =>
          have hrest : ¬ block <+: tokens :=
            fun hcutShort => h (List.cons_prefix_cons.mpr ⟨hab, hcutShort⟩)
          rcases ih hrest with ⟨heq, hlt⟩
          exact ⟨congrArg (· + 1) heq, Nat.succ_lt_succ hlt⟩
      · exact ⟨rfl, Nat.succ_pos _⟩

theorem sharedTokens_spelled (h : block <+: tokens) : sharedTokens block tokens = block.length := by
  have hshared := sharedTokens_append_spelled h []
  rw [List.append_nil, sharedTokens_nil, Nat.add_zero] at hshared
  exact hshared

theorem take_sharedTokens (block tokens : List TokenId) :
    block.take (sharedTokens block tokens) = tokens.take (sharedTokens block tokens) := by
  induction block generalizing tokens with
  | nil => rw [sharedTokens_nil, List.take_zero, List.take_zero]
  | cons a block ih =>
    cases tokens with
    | nil => rfl
    | cons b tokens =>
      unfold sharedTokens
      split
      · next hab => rw [List.take_succ_cons, List.take_succ_cons, ih, hab]
      · rfl

variable {blocks : List (List TokenId)}

theorem length_flatten_full (hfull : forall b, b ∈ blocks -> b.length = size) :
    blocks.flatten.length = blocks.length * size := by
  induction blocks with
  | nil => rw [List.flatten_nil, List.length_nil, List.length_nil, Nat.zero_mul]
  | cons b blocks ih =>
    rw [List.flatten_cons, List.length_append, hfull b List.mem_cons_self,
      ih fun x hx => hfull x (List.mem_cons_of_mem _ hx), List.length_cons, Nat.succ_mul,
      Nat.add_comm]

theorem slice_flatten (hfull : forall b, b ∈ blocks -> b.length = size)
    (rest : List TokenId) (hi : blocks[i]? = some block) :
    ((blocks.flatten ++ rest).drop (i * size)).take size = block := by
  induction blocks generalizing i with
  | nil => cases hi
  | cons b blocks ih =>
    have hb := hfull b List.mem_cons_self
    rw [List.flatten_cons, List.append_assoc]
    cases i with
    | zero =>
      cases hi
      rw [Nat.zero_mul, List.drop_zero, <- hb, List.take_left]
    | succ i =>
      have hshift : (i + 1) * size = b.length + i * size := by
        rw [Nat.succ_mul, hb, Nat.add_comm]
      rw [hshift, List.drop_length_add_append]
      exact ih (fun x hx => hfull x (List.mem_cons_of_mem _ hx)) hi

/-- Complete blocks that spell the query are its leading slices. -/
theorem prefix_slices (hpos : 0 < size) (hfull : forall b, b ∈ blocks -> b.length = size)
    (h : blocks.flatten <+: tokens) : blocks <+: slices size (tokens.length / size) tokens := by
  have hlength := length_flatten_full hfull
  have hcount : blocks.length ≤ tokens.length / size :=
    (Nat.le_div_iff_mul_le hpos).mpr (hlength ▸ h.length_le)
  rcases h with ⟨rest, hrest⟩
  rw [List.prefix_iff_eq_take]
  apply List.ext_getElem?
  intro _
  unfold slices
  rw [List.getElem?_take]
  split
  · next hi =>
      rw [List.getElem?_map, List.getElem?_range (hi.trans_le hcount), Option.map_some,
        List.getElem?_eq_getElem hi, <- hrest,
        slice_flatten hfull rest (List.getElem?_eq_getElem hi)]
  · next hi => exact List.getElem?_eq_none (Nat.not_lt.mp hi)

end Shared

/-! ## The best child -/

/-- The best candidate shares most tokens, and more than none. -/
theorem bestCandidate_spec (tokens : List TokenId) (nodes : List PrefixOwnershipNode)
    (best : Option (PrefixOwnershipNode × Nat)) :
    (bestCandidate tokens nodes best = none ->
      best = none ∧ forall x, x ∈ nodes -> sharedTokens x.blockTokenIds tokens = 0)
      ∧ forall node shared, bestCandidate tokens nodes best = some (node, shared) ->
        (best = some (node, shared)
          ∨ (node ∈ nodes ∧ shared = sharedTokens node.blockTokenIds tokens ∧ 0 < shared))
        ∧ best.elim 0 Prod.snd ≤ shared
        ∧ forall x, x ∈ nodes -> sharedTokens x.blockTokenIds tokens ≤ shared := by
  induction nodes generalizing best with
  | nil =>
    unfold bestCandidate
    refine ⟨fun h => ⟨h, (fun x hx => nomatch hx)⟩, fun node shared h => ⟨.inl h, ?_, ?_⟩⟩
    · rw [h]
      exact Nat.le_refl _
    · exact fun x hx => nomatch hx
  | cons first rest ih =>
    unfold bestCandidate
    dsimp only
    split
    · next hmore =>
        rcases ih (some (first, sharedTokens first.blockTokenIds tokens)) with ⟨hnone, hsome⟩
        refine ⟨(fun h => nomatch (hnone h).1), fun node shared h => ?_⟩
        rcases hsome node shared h with ⟨hwhere, hle, hall⟩
        have hfirst : sharedTokens first.blockTokenIds tokens ≤ shared := hle
        refine ⟨.inr ?_, hmore.le.trans hfirst, List.forall_mem_cons.mpr ⟨hfirst, hall⟩⟩
        rcases hwhere with hself | ⟨hmem, hrest⟩
        · cases hself
          exact ⟨List.mem_cons_self, rfl, Nat.zero_lt_of_lt hmore⟩
        · exact ⟨List.mem_cons_of_mem _ hmem, hrest⟩
    · next hmore =>
        rcases ih best with ⟨hnone, hsome⟩
        refine ⟨fun h => ?_, fun node shared h => ?_⟩
        · rcases hnone h with ⟨hbest, hall⟩
          refine ⟨hbest, List.forall_mem_cons.mpr ⟨?_, hall⟩⟩
          rw [hbest] at hmore
          exact Nat.le_zero.mp (Nat.not_lt.mp hmore)
        · rcases hsome node shared h with ⟨hwhere, hle, hall⟩
          refine ⟨hwhere.imp_right fun hin => ⟨List.mem_cons_of_mem _ hin.1, hin.2⟩, hle,
            List.forall_mem_cons.mpr ⟨(Nat.not_lt.mp hmore).trans hle, hall⟩⟩

variable {sha256 : List UInt8 -> Digest} {cache next : RadixPagePrefixCache}
variable {context : PrefixCacheContext} {pageSize : Nat} {t : PrefixOwnershipTable}

/-- The children of a cached block, or the roots. -/
theorem childNodes_run (hok : TableOk sha256 pageSize t) (parent : Option PrefixHandle)
    (hparent : forall handle, parent = some handle -> exists above, t.Holds above ∧
      above.handle = handle) (context : PrefixCacheContext) :
    exists nodes, t.childNodes parent context = .ok nodes
      ∧ forall x, x ∈ nodes <-> t.Holds x ∧ x.parent = parent ∧ x.identity.context = context := by
  cases parent with
  | none =>
    refine ⟨_, rfl, fun x => ?_⟩
    rw [List.mem_filter, hok.mem_values, Bool.and_eq_true, decide_eq_true_iff, decide_eq_true_iff]
  | some handle =>
    rcases hparent handle rfl with ⟨above, habove, rfl⟩
    have hall : forall child, child ∈ above.children.insertionSort
        (fun x y => x.index ≤ y.index) -> exists below, t.get child = .ok below := by
      intro child hchild
      rcases hok.listed above child habove ((List.mem_insertionSort _).mp hchild) with
        ⟨below, hbelow, rfl, _⟩
      exact ⟨below, hbelow.get⟩
    rcases mapM_isOk_iff.mpr hall with ⟨children, hchildren⟩
    refine ⟨children.filter fun node => decide (node.parent = some above.handle)
      && decide (node.identity.context = context), ?_, fun x => ?_⟩
    · unfold childNodes
      simp only [habove.get, hchildren, bind, Except.bind, pure, Except.pure]
    · rw [List.mem_filter, Bool.and_eq_true, decide_eq_true_iff, decide_eq_true_iff]
      constructor
      · intro hx
        rcases mapM_mem hchildren hx.1 with ⟨child, _, hget⟩
        exact ⟨(get_eq_ok_iff.mp hget).1, hx.2⟩
      · intro hx
        refine ⟨?_, hx.2⟩
        rcases hok.linked x _ hx.1 hx.2.1 with ⟨_, hup, huphandle, _, hchild, _⟩
        cases hup.det habove huphandle
        exact mem_of_mapM hchildren ((List.mem_insertionSort _).mpr hchild) hx.1.get

/-! ## Chains of the context -/

/-- A chain of cached blocks of the context, from its root. -/
def CachedChain (t : PrefixOwnershipTable) (context : PrefixCacheContext)
    (chain : List PrefixOwnershipNode) : Prop :=
  exists x, t.Holds x ∧ x.identity.context = context ∧ t.Path x.handle chain

def chainTokens (chain : List PrefixOwnershipNode) : List TokenId :=
  chain.flatMap PrefixOwnershipNode.blockTokenIds

/-- The most tokens of a query that a cached chain of the context shares. -/
structure LongestShared (t : PrefixOwnershipTable) (context : PrefixCacheContext)
    (tokens : List TokenId) (n : Nat) : Prop where
  bound : forall chain, CachedChain t context chain ->
    sharedTokens (chainTokens chain) tokens ≤ n
  attained : 0 < n -> exists chain, CachedChain t context chain
    ∧ sharedTokens (chainTokens chain) tokens = n

theorem block_size (hok : TableOk sha256 pageSize t) (hx : t.Holds x) :
    0 < x.blockTokenIds.length ∧ x.blockTokenIds.length ≤ pageSize := by
  cases hparent : x.parent with
  | none =>
    rcases hok.rooted x hx hparent with ⟨_, _, hidentity⟩
    exact ((identityForBlock_eq_ok_iff sha256).mp hidentity).1
  | some parent =>
    rcases hok.linked x parent hx hparent with ⟨_, _, _, _, _, _, _, hidentity⟩
    exact ((identityForBlock_eq_ok_iff sha256).mp hidentity).1

variable {xs ys : List PrefixOwnershipNode}

theorem lastHandle_eq_of_append
    (h : ChainIn t parent (xs ++ node :: ys)) : node.parent = lastHandle parent xs := by
  induction xs generalizing parent with
  | nil =>
    cases h with
    | cons _ hparent _ => exact hparent
  | cons x xs ih =>
    cases h with
    | cons _ _ hrest => exact ih hrest

variable {nodes : List PrefixOwnershipNode}

theorem length_chainTokens_le (h : forall x, x ∈ nodes -> x.blockTokenIds.length ≤ size) :
    (chainTokens nodes).length ≤ nodes.length * size := by
  induction nodes with
  | nil => exact Nat.zero_le _
  | cons x nodes ih =>
    have hx := h x List.mem_cons_self
    have hrest := ih fun y hy => h y (List.mem_cons_of_mem _ hy)
    unfold chainTokens at hrest ⊢
    rw [List.flatMap_cons, List.length_append, List.length_cons, Nat.succ_mul]
    omega

theorem length_chainTokens (h : forall x, x ∈ nodes -> x.blockTokenIds.length = size) :
    (chainTokens nodes).length = nodes.length * size := by
  have hfull : forall b, b ∈ nodes.map blockTokenIds -> b.length = size := by
    simpa using h
  have hlength := length_flatten_full hfull
  rw [List.length_map] at hlength
  exact hlength

theorem eq_of_identities (hok : TableOk sha256 pageSize t) (hxs : forall x, x ∈ xs -> t.Holds x)
    (hys : forall y, y ∈ ys -> t.Holds y) (h : xs.map identity = ys.map identity) : xs = ys := by
  induction xs generalizing ys with
  | nil => exact (List.map_eq_nil_iff.mp h.symm).symm
  | cons x xs ih =>
    cases ys with
    | nil => cases h
    | cons y ys =>
      rw [List.map_cons, List.map_cons, List.cons.injEq] at h
      rw [hok.identity_inj (hxs x List.mem_cons_self) (hys y List.mem_cons_self) h.1,
        ih (fun z hz => hxs z (List.mem_cons_of_mem _ hz))
          (fun z hz => hys z (List.mem_cons_of_mem _ hz)) h.2]

section Bound

variable {tokens : List TokenId} {identities : List PrefixBlockIdentity}
variable {nodes chain : List PrefixOwnershipNode} {x : PrefixOwnershipNode}

/-- The complete blocks of a chain that spell the query have its leading identities. -/
theorem cut_identities (hok : TableOk sha256 pageSize t) (hpos : 0 < pageSize)
    (hbuilt : buildIdentities sha256 (slices pageSize (tokens.length / pageSize) tokens) pageSize
    context = .ok identities)
    (hx : t.Holds x) (hcontext : x.identity.context = context) (hpath : t.Path x.handle chain)
    (hcut : cut <+: chain)
    (hfull : forall b, b ∈ cut -> b.blockTokenIds.length = pageSize)
    (htokens : chainTokens cut <+: tokens) : cut.map identity = identities.take cut.length := by
  have hown := hok.path_identities hpath hx rfl
  rw [hcontext] at hown
  rcases except_bind_eq_ok_iff.mp hown with ⟨_, hseed, hchain⟩
  rcases except_bind_eq_ok_iff.mp hbuilt with ⟨seed', hseed', hquery⟩
  cases hseed.symm.trans hseed'
  have hblocks : forall b, b ∈ cut.map blockTokenIds -> b.length = pageSize := by
    simpa using hfull
  have htake := List.prefix_iff_eq_take.mp (prefix_slices hpos hblocks htokens)
  have hcutBlocks := List.prefix_iff_eq_take.mp (hcut.map blockTokenIds)
  have hcutIdentities := List.prefix_iff_eq_take.mp (hcut.map identity)
  rw [List.length_map] at htake hcutBlocks hcutIdentities
  have hleft := chainIdentities_take hchain cut.length
  have hright := chainIdentities_take hquery cut.length
  rw [<- hcutBlocks, <- hcutIdentities, htake] at hleft
  exact Except.ok.inj (hleft.symm.trans hright)

/-- No chain shares more than the matched blocks and the best child below them. -/
theorem shared_bound (hok : TableOk sha256 pageSize t) (hpos : 0 < pageSize)
    (hbuilt : buildIdentities sha256 (slices pageSize (tokens.length / pageSize) tokens) pageSize
    context = .ok identities) (hlongest : LongestMatch t identities nodes)
    (hcommon : forall y, t.Holds y -> y.parent = lastHandle none nodes ->
    y.identity.context = context ->
    sharedTokens y.blockTokenIds (tokens.drop (nodes.length * pageSize)) ≤ common)
    (hchain : CachedChain t context chain) :
    sharedTokens (chainTokens chain) tokens ≤ nodes.length * pageSize + common := by
  rcases hchain with ⟨_, hx, hcontext, hpath⟩
  rcases path_nodes hpath with ⟨held, rfl, hheld, hchainIn, _⟩
  have hcores : chainTokens (held.map core) = chainTokens held :=
    List.flatMap_map ..
  rw [hcores]
  have hsize : forall y, y ∈ held -> y.blockTokenIds.length ≤ pageSize :=
    fun y hy => (block_size hok (hheld y hy)).2
  have hfull : forall front y rest, held = front ++ y :: rest ->
      forall z, z ∈ front -> z.blockTokenIds.length = pageSize := by
    intro front y rest hsplit z hz
    refine (hok.path_full hpath).2 z.core ?_
    rw [hsplit, <- List.map_dropLast, List.dropLast_append_of_ne_nil (List.cons_ne_nil _ _)]
    exact List.mem_map_of_mem (List.mem_append_left _ hz)
  by_cases hlong : held.length ≤ nodes.length
  · -- a chain no longer than the match
    calc sharedTokens (chainTokens held) tokens
        ≤ (chainTokens held).length := sharedTokens_le_length _ _
      _ ≤ held.length * pageSize := length_chainTokens_le hsize
      _ ≤ nodes.length * pageSize := Nat.mul_le_mul_right _ hlong
      _ ≤ _ := Nat.le_add_right _ _
  · have hdrop : held.drop nodes.length ≠ [] := by
      rw [Ne, List.drop_eq_nil_iff]
      exact hlong
    rcases List.exists_cons_of_ne_nil hdrop with ⟨y, rest, hrest⟩
    have hsplit : held = held.take nodes.length ++ y :: rest := by
      rw [<- hrest, List.take_append_drop]
    generalize hfront : held.take nodes.length = front at hsplit
    have hcount : front.length = nodes.length := by
      rw [<- hfront, List.length_take]
      omega
    have hfrontFull := hfull front y rest hsplit
    have hfrontLength : (chainTokens front).length = nodes.length * pageSize := by
      rw [length_chainTokens hfrontFull, hcount]
    have htokens : chainTokens held
        = chainTokens front ++ (y.blockTokenIds ++ chainTokens rest) := by
      rw [hsplit]
      unfold chainTokens
      rw [List.flatMap_append, List.flatMap_cons]
    have hcut : forall cut : List PrefixOwnershipNode, cut <+: held ->
        (forall b, b ∈ cut -> b.blockTokenIds.length = pageSize) -> chainTokens cut <+: tokens ->
        cut.map identity = identities.take cut.length := by
      intro cut hcutShort hcutFull hspell
      have hcutCores : chainTokens (cut.map core) <+: tokens := by
        rw [show chainTokens (cut.map core) = chainTokens cut from List.flatMap_map ..]
        exact hspell
      have hids := cut_identities hok hpos hbuilt hx hcontext hpath (hcutShort.map _)
        (by simpa using hcutFull) hcutCores
      rw [List.map_map, List.length_map] at hids
      exact hids
    rw [htokens]
    by_cases hspell : chainTokens front <+: tokens
    · rw [sharedTokens_append_spelled hspell, hfrontLength]
      refine Nat.add_le_add_left ?_ _
      have hy : y ∈ held := by
        rw [hsplit]
        exact List.mem_append_right _ List.mem_cons_self
      -- the blocks above are the matched ones
      have hsame : front = nodes := by
        have hids := hcut front ⟨_, hsplit.symm⟩ hfrontFull hspell
        have hfound := List.prefix_iff_eq_take.mp hlongest.found
        rw [hcount] at hids
        rw [List.length_map] at hfound
        have hmem : forall z, z ∈ front -> t.Holds z := by
          intro z hz
          refine hheld z ?_
          rw [hsplit]
          exact List.mem_append_left _ hz
        exact eq_of_identities hok hmem hlongest.held (hids.trans hfound.symm)
      have hparent : y.parent = lastHandle none nodes := by
        rw [<- hsame]
        rw [hsplit] at hchainIn
        exact lastHandle_eq_of_append hchainIn
      have hown : y.identity.context = context := by
        rw [<- hcontext]
        exact (hok.path_context hpath hx rfl).1 y.core (List.mem_map_of_mem hy)
      refine le_trans (Nat.le_of_eq ?_) (hcommon y (hheld y hy) hparent hown)
      cases rest with
      | nil =>
        show sharedTokens (y.blockTokenIds ++ []) _ = _
        rw [List.append_nil]
      | cons z rest =>
        refine (sharedTokens_append_unspelled (fun hnext => ?_) _).1
        -- a complete block that goes on with the query would have been matched
        have hsplit' : held = (front ++ [y]) ++ z :: rest := by
          rw [hsplit, List.append_assoc]
          rfl
        have hspell' : chainTokens (front ++ [y]) <+: tokens := by
          rcases hspell with ⟨_, hafter⟩
          rw [<- hafter, <- hfrontLength, List.drop_left] at hnext
          rw [<- hafter]
          unfold chainTokens
          rw [List.flatMap_append, List.flatMap_singleton]
          exact (List.prefix_append_right_inj _).mpr hnext
        have hids := hcut (front ++ [y]) ⟨_, hsplit'.symm⟩ (hfull _ _ _ hsplit') hspell'
        have hget : identities[nodes.length]? = some y.identity := by
          have hlast := congrArg (fun ids => ids[nodes.length]?) hids
          rw [List.length_append, hcount, List.length_singleton, List.map_append] at hlast
          rw [List.getElem?_take_of_lt (Nat.lt_succ_self _),
            List.getElem?_append_right (by simp [hcount]), List.length_map, hcount,
            Nat.sub_self] at hlast
          exact hlast.symm
        exact hlongest.longest y y.identity (hheld y hy) hget rfl
    · have hshort := sharedTokens_append_unspelled hspell (y.blockTokenIds ++ chainTokens rest)
      omega

end Bound

/-! ## The lookup -/

theorem flatten_slices (size count : Nat) (tokens : List TokenId) :
    (slices size count tokens).flatten = tokens.take (count * size) := by
  induction count with
  | zero => rw [Nat.zero_mul, List.take_zero]; rfl
  | succ count ih =>
    unfold slices at ih ⊢
    rw [List.range_succ, List.map_append, List.flatten_append, ih, Nat.succ_mul, List.take_add]
    simp

variable {tokens : List TokenId}

theorem flatten_of_prefix_slices
    (h : blocks <+: slices size (tokens.length / size) tokens) : blocks.flatten <+: tokens := by
  rcases h with ⟨_, hmore⟩
  have hflat := flatten_slices size (tokens.length / size) tokens
  rw [<- hmore, List.flatten_append] at hflat
  exact (List.prefix_append _ _).trans (hflat ▸ List.take_prefix _ _)

def resumeBelow (full : PrefixMatch) (context : PrefixCacheContext) (tokens : List TokenId)
    (nodes : List PrefixOwnershipNode) : StoreM (Option ValidResume) := do
  let candidates <- query fun cache => cache.table.childNodes full.terminalHandle context
  match bestCandidate (tokens.drop full.matchedTokens) candidates none with
  | some (best, common) => do
    query fun cache =>
      validateNode cache.allocator best full.terminalHandle best.blockTokenIds
    modifyTable fun table => table.touch (nodes ++ [best])
    query fun cache =>
      resume cache.cacheId cache.pageSize (nodes ++ [best]) (full.matchedTokens + common)
  | none => do
    if nodes = [] then
      return none
    modifyTable fun table => table.touch nodes
    query fun cache => resume cache.cacheId cache.pageSize nodes full.matchedTokens

/-- The chain above is read from the table again. -/
theorem matchResume_eq (hrun : matchPrefix sha256 tokenIds context cache = .ok full next)
    (htokens : normalizeTokenIds tokenIds = .ok tokens)
    (hok : TableOk sha256 next.pageSize next.table)
    (habove : Above next.table full.terminalHandle blocks) :
    exists nodes, nodes.map core = blocks
      ∧ matchResume sha256 tokenIds context cache = resumeBelow full context tokens nodes next := by
  unfold matchResume
  rw [bind_run_ok _ hrun, query_bind_run, htokens]
  rcases habove with ⟨hnone, rfl⟩ | ⟨_, hsome, hpath⟩
  · refine ⟨[], rfl, ?_⟩
    unfold resumeBelow
    rw [hnone]
    rfl
  · rcases hok.chain_run hpath with ⟨nodes, hchain, hcores, _⟩
    refine ⟨nodes, hcores, ?_⟩
    unfold resumeBelow
    rw [hsome]
    exact bind_run_ok _ (query_run_ok hchain)

theorem chainTokens_cores (nodes : List PrefixOwnershipNode) :
    chainTokens (nodes.map core) = chainTokens nodes :=
  List.flatMap_map ..

theorem chainTokens_of_cores (h : xs.map core = ys.map core) : chainTokens xs = chainTokens ys := by
  rw [<- chainTokens_cores xs, h, chainTokens_cores]

/-- What a lookup for a resume returns: nothing, or the shared part of a chain that shares
most. -/
def LongestResume (t : PrefixOwnershipTable) (context : PrefixCacheContext)
    (tokens : List TokenId) (result : Option ValidResume) : Prop :=
  exists n, LongestShared t context tokens n ∧ (result = none <-> n = 0)
    ∧ forall r, result = some r -> r.logicalPosition = n ∧ r.tokenIds = tokens.take n

variable {chain : List PrefixOwnershipNode}

theorem cachedChain_of_path (hpath : t.Path handle chain)
    (hcontext : forall b, b ∈ chain -> b.identity.context = context) :
    CachedChain t context chain := by
  rcases hpath.last with ⟨x, _, hx, hhandle, rfl⟩
  refine ⟨x, hx, hcontext x.core (List.mem_append_right _ List.mem_cons_self), ?_⟩
  rw [hhandle]
  exact hpath

theorem context_of_mem {blocks identities}
    (hbuilt : buildIdentities sha256 blocks pageSize context = .ok identities) {identity}
    (hmem : identity ∈ identities) : identity.context = context := by
  rcases except_bind_eq_ok_iff.mp hbuilt with ⟨_, _, hchain⟩
  rcases List.mem_iff_getElem?.mp hmem with ⟨i, hi⟩
  exact (chainIdentities_getElem hchain hi).1

theorem longestResume_of_chain (hn : 0 < n)
    (hchain : CachedChain t context chain) (hsame : chainTokens nodes = chainTokens chain)
    (hshared : sharedTokens (chainTokens chain) tokens = n)
    (hbound : forall other, CachedChain t context other ->
    sharedTokens (chainTokens other) tokens ≤ n) (hr : r.tokenIds = (chainTokens nodes).take n) :
    LongestResume t context tokens (some r) := by
  have htake : r.tokenIds = tokens.take n := by
    rw [hr, hsame, <- hshared]
    exact take_sharedTokens _ _
  have hlength : r.tokenIds.length = n := by
    rw [hr, hsame, List.length_take, Nat.min_eq_left (hshared ▸ sharedTokens_le_length _ _)]
  refine ⟨n, ⟨hbound, fun _ => ⟨chain, hchain, hshared⟩⟩, ?_, ?_⟩
  · exact ⟨(fun h => nomatch h), fun h => absurd h (Nat.ne_of_gt hn)⟩
  · intro _ hr'
    cases hr'
    exact ⟨hlength, htake⟩

section Lookup

variable {tokenIds : List Int} {tokens : List TokenId}

/-- Looking a resume up never raises and returns the longest shared part. -/
theorem matchResume_run (h : CacheOk sha256 cache) (hfree : Set.InjOn sha256 messages)
    (hcovered : Covered sha256 cache.pageSize cache.table messages)
    (htokens : normalizeTokenIds tokenIds = .ok tokens)
    (hpos : 0 < cache.pageSize) (hsize : cache.pageSize < 2 ^ 64)
    (hlength : tokens.length < 2 ^ 64) (hcontext : context.Sized)
    (hin : forall m, m ∈ hashedMessages sha256 context cache.pageSize
      (slices cache.pageSize (tokens.length / cache.pageSize) tokens) -> m ∈ messages) :
    exists result next, matchResume sha256 tokenIds context cache = .ok result next
      ∧ LongestResume cache.table context tokens result := by
  rcases matchPrefix_run h hfree hcovered htokens hpos hsize hlength hcontext hin with
    ⟨_, nodes, full, next, hbuilt, hmatch, hrun⟩
  rcases hmatch.table with ⟨u, hstatus, rfl⟩
  have hok := (h.of_status hstatus 0).ok
  have habove : Above cache.table (lastHandle none nodes) (nodes.map core) :=
    hmatch.chain.above (.inl ⟨rfl, rfl⟩)
  have haboveU : Above u full.terminalHandle (nodes.map core) := by
    rw [hmatch.terminal]
    exact habove.imp_right fun ⟨handle, hsome, hpath⟩ =>
      ⟨handle, hsome, hpath.mono hstatus.shape.within⟩
  rcases matchResume_eq hrun htokens hok.table haboveU with ⟨above, hcores, hmatchResume⟩
  rcases childNodes_run hok.table full.terminalHandle (by
    intro handle hhandle
    rcases haboveU with ⟨hnone, _⟩ | ⟨_, hsome, hpath⟩
    · rw [hhandle] at hnone
      cases hnone
    · rw [hhandle] at hsome
      cases hsome
      rcases hpath.last with ⟨x, _, hx, hxhandle, _⟩
      exact ⟨x, hx, hxhandle⟩) context with ⟨candidates, hcandidates, hmem⟩
  have hspell : chainTokens nodes <+: tokens := flatten_of_prefix_slices hmatch.blocks
  have hfull : forall x, x ∈ nodes -> x.blockTokenIds.length = cache.pageSize := by
    intro x hx
    exact (slices_full hpos tokens _ (hmatch.blocks.subset (List.mem_map_of_mem hx))).1
  have hreach : (chainTokens nodes).length = nodes.length * cache.pageSize :=
    length_chainTokens hfull
  have haboveLength : above.length = nodes.length := by
    have hlengths := congrArg List.length hcores
    rw [List.length_map, List.length_map] at hlengths
    exact hlengths
  have haboveTokens := chainTokens_of_cores hcores
  have hcoresContext : forall b, b ∈ nodes.map core -> b.identity.context = context := by
    intro b hb
    rcases List.mem_map.mp hb with ⟨node, hnode, rfl⟩
    have hin : node.identity ∈ nodes.map identity :=
      List.mem_map_of_mem hnode
    exact context_of_mem hbuilt (hmatch.longest.found.subset hin)
  -- what no candidate shares, no chain below the match shares
  have hbound : forall common, (forall x, x ∈ candidates ->
        sharedTokens x.blockTokenIds (tokens.drop (nodes.length * cache.pageSize)) ≤ common) ->
      forall chain, CachedChain cache.table context chain ->
        sharedTokens (chainTokens chain) tokens ≤ nodes.length * cache.pageSize + common := by
    intro common hcommon chain hchain
    refine shared_bound h.table hpos hbuilt hmatch.longest (fun y hy hparent hown => ?_) hchain
    rcases hstatus.holds hy with ⟨z, hz, hshape, _⟩
    have hcore := core_of_shape hshape
    have hshared := hcommon z ((hmem z).mpr ⟨hz,
      ((parent_of_core hcore).trans hparent).trans hmatch.terminal.symm,
      (congrArg PrefixBlockIdentity.context
        (PrefixOwnershipNode.identity_of_core hcore)).trans hown⟩)
    rw [block_of_core hcore] at hshared
    exact hshared
  rcases bestCandidate_spec (tokens.drop full.matchedTokens) candidates none with ⟨hnone, hsome⟩
  rw [hmatchResume]
  unfold resumeBelow
  rw [query_bind_run, hcandidates]
  dsimp only
  cases hbest : bestCandidate (tokens.drop full.matchedTokens) candidates none with
  | none =>
    have hzero := (hnone hbest).2
    rw [hmatch.matched] at hzero
    have hall := hbound 0 fun x hx => Nat.le_of_eq (hzero x hx)
    dsimp only
    by_cases hempty : above = []
    · have hnodes : nodes.length = 0 := by
        rw [<- haboveLength, hempty]
        rfl
      rw [if_pos hempty]
      refine ⟨none, _, rfl, 0, ⟨fun chain hchain => ?_, (fun h => absurd h (Nat.lt_irrefl 0))⟩,
        ⟨fun _ => rfl, fun _ => rfl⟩, (fun r hr => nomatch hr)⟩
      have hle := hall chain hchain
      rw [hnodes, Nat.zero_mul] at hle
      exact hle
    · have hcount : 0 < nodes.length := by
        rw [<- haboveLength]
        exact List.length_pos_of_ne_nil hempty
      have hlast : (above.length - 1) * cache.pageSize < nodes.length * cache.pageSize := by
        exact Nat.mul_lt_mul_of_pos_right (by omega) hpos
      rcases resume_run cache.cacheId hpos hempty hlast with ⟨r, hresume, hr⟩
      rw [if_neg hempty, bind_run_ok _ (modifyTable_run ..), hmatch.matched]
      refine ⟨some r, _, query_run_ok hresume, ?_⟩
      rcases habove with ⟨_, hnil⟩ | ⟨handle, _, hpath⟩
      · rw [List.map_eq_nil_iff] at hnil
        rw [hnil] at hcount
        exact absurd hcount (Nat.lt_irrefl 0)
      · have hchain := cachedChain_of_path hpath hcoresContext
        refine longestResume_of_chain (Nat.mul_pos hcount hpos) hchain
          (by rw [haboveTokens, chainTokens_cores]) ?_ hall hr
        rw [chainTokens_cores, sharedTokens_spelled hspell, hreach]
  | some pair =>
    rcases pair with ⟨best, common⟩
    rcases hsome best common hbest with ⟨hwhere, _, hall⟩
    rcases hwhere with hself | ⟨hin', hshared, hcommon⟩
    · cases hself
    rw [hmatch.matched] at hshared hall
    rcases (hmem best).mp hin' with ⟨hheld, hparent, hown⟩
    dsimp only
    rw [query_bind_run, validateNode_ok hok.backed hheld hparent rfl]
    rw [bind_run_ok _ (modifyTable_run ..), hmatch.matched]
    have hlast : ((above ++ [best]).length - 1) * cache.pageSize
        < nodes.length * cache.pageSize + common := by
      rw [List.length_append, List.length_singleton, Nat.add_sub_cancel, haboveLength]
      exact Nat.lt_add_of_pos_right hcommon
    rcases resume_run cache.cacheId hpos (List.append_ne_nil_of_right_ne_nil above
      (List.cons_ne_nil best [])) hlast with ⟨r, hresume, hr⟩
    refine ⟨some r, _, query_run_ok hresume, ?_⟩
    rcases hstatus.symm.holds hheld with ⟨z, hz, hshape, _⟩
    rcases habove.next ⟨z, hz, core_of_shape hshape⟩ (hparent.trans hmatch.terminal) with
      ⟨hnone, _⟩ | ⟨handle, _, hpath⟩
    · cases hnone
    have hchain := cachedChain_of_path hpath (by
      intro b hb
      rcases List.mem_append.mp hb with hfront | hself
      · exact hcoresContext b hfront
      · rw [List.mem_singleton.mp hself]
        exact hown)
    have hchainTokens : chainTokens (nodes.map core ++ [best.core])
        = chainTokens nodes ++ best.blockTokenIds := by
      unfold chainTokens
      rw [List.flatMap_append, List.flatMap_singleton, List.flatMap_map]
      rfl
    refine longestResume_of_chain (Nat.add_pos_right _ hcommon) hchain ?_ ?_ (hbound common hall) hr
    · rw [hchainTokens, <- haboveTokens]
      unfold chainTokens
      rw [List.flatMap_append, List.flatMap_singleton]
    · rw [hchainTokens, sharedTokens_append_spelled hspell, hreach, <- hshared]

/-- After every history a lookup for a resume returns the longest part of the query that
a cached chain of the context shares. -/
theorem matchResume_after_history {cacheId totalPages pageSize : Nat} {log : List Publication}
    (h : History sha256 cacheId totalPages pageSize log cache)
    (hfree : Set.InjOn sha256 (hashedBy sha256 pageSize log context tokenIds))
    (htokens : normalizeTokenIds tokenIds = Except.ok tokens) (hlength : tokens.length < 2 ^ 64)
    (hcontext : context.Sized) (hpos : 0 < pageSize) (hsize : pageSize < 2 ^ 64) :
    exists result next, matchResume sha256 tokenIds context cache = EStateM.Result.ok result next
      ∧ exists n, LongestShared cache.table context tokens n ∧ (result = none <-> n = 0)
        ∧ forall r, result = some r -> r.logicalPosition = n ∧ r.tokenIds = tokens.take n := by
  have hconsistent := History.consistent h
  have hcovered := hconsistent.covered context tokenIds
  have hin := mem_hashedBy_query sha256 hpos htokens log context
  rcases hconsistent with ⟨hok, _, rfl, _⟩
  exact matchResume_run hok hfree hcovered htokens hpos hsize hlength hcontext hin

/-- The partial tail of the sample history is found too. -/
theorem matchResume_after_insert : exists r next,
    LongestShared sampleCache.table sampleContext [7, 8, 9, 4] 3 ∧
      matchResume checksumDigest [7, 8, 9, 4] sampleContext sampleCache =
        EStateM.Result.ok (some r) next ∧
      r.tokenIds = [7, 8, 9] := by
  have htokens : normalizeTokenIds [7, 8, 9, 4] = Except.ok [7, 8, 9, 4] := by decide
  rcases matchResume_after_history sampleHistory sample_collisionFree htokens (by decide)
    sampleContext_sized (by decide) (by decide) with ⟨result, next, hrun, n, hlongest, _, hfound⟩
  have hposition :
      (returned? (matchResume checksumDigest [7, 8, 9, 4] sampleContext sampleCache)).map
      (fun r => r.map ValidResume.logicalPosition) = some (some 3) := by
    decide +kernel
  rw [hrun] at hposition
  cases result with
  | none => cases hposition
  | some r =>
    rcases hfound r rfl with ⟨hn, htaken⟩
    rw [Option.some.inj (Option.some.inj hposition)] at hn
    subst hn
    exact ⟨r, next, hlongest, hrun, htaken⟩

end Lookup

end RadixPagePrefixCache
end Prefix
end Ayaka
