import Ayaka.Prefix.ResumeMatch

/-!
# Stale capabilities

A borrowed capability is current while its entry is cached and the chain above it still
gives this capability.  Resolving a capability that is not current raises; whether it
raises the error that callers take for a miss depends on what it finds first.
-/

namespace Ayaka
namespace Prefix

open Foundation Memory PageAllocator

/-- `isinstance(exc, PrefixCapabilityStaleError)`. -/
def isStaleError : Exc -> Bool
  | .prefixCapabilityStaleError _ => true
  | _ => false

namespace RadixPagePrefixCache

open PrefixOwnershipTable

def chainIdentities (cache : RadixPagePrefixCache) (borrowed : ValidResume) :
    Except Exc (Option (List PrefixBlockIdentity)) :=
  match cache.resolveResume borrowed with
  | .ok nodes => .ok (some (nodes.map PrefixOwnershipNode.identity))
  | .error exc => if isStaleError exc then .ok none else .error exc

variable {sha256 : List UInt8 -> Digest} {cache next : RadixPagePrefixCache}
variable {borrowed : ValidResume}

def Cached (cache : RadixPagePrefixCache) (borrowed : ValidResume) : Prop :=
  exists node, cache.table.Holds node ∧ node.handle.index = borrowed.entryId

/-- The chain of the entry still gives the capability. -/
def Current (cache : RadixPagePrefixCache) (borrowed : ValidResume) : Prop :=
  exists nodes, cache.table.chain (Handle.first .prefixNode borrowed.entryId)
      = .ok nodes
    ∧ (nodes.length - 1) * cache.pageSize < borrowed.logicalPosition
    ∧ borrowed.logicalPosition ≤ (nodes.map fun node => node.blockTokenIds.length).sum
    ∧ resume cache.cacheId cache.pageSize nodes borrowed.logicalPosition
      = .ok (some borrowed)

theorem eq_of_cores {t : PrefixOwnershipTable} {xs ys : List PrefixOwnershipNode}
    (hxs : forall x, x ∈ xs -> t.Holds x) (hys : forall y, y ∈ ys -> t.Holds y)
    (h : xs.map PrefixOwnershipNode.core = ys.map PrefixOwnershipNode.core) : xs = ys := by
  induction xs generalizing ys with
  | nil => exact (List.map_eq_nil_iff.mp h.symm).symm
  | cons x xs ih =>
    cases ys with
    | nil => cases h
    | cons y ys =>
      rw [List.map_cons, List.map_cons, List.cons.injEq] at h
      have hhandle := PrefixOwnershipNode.handle_of_core h.1
      rw [(hxs x List.mem_cons_self).det (hys y List.mem_cons_self) hhandle,
        ih (fun z hz => hxs z (List.mem_cons_of_mem _ hz))
          (fun z hz => hys z (List.mem_cons_of_mem _ hz)) h.2]

variable {nodes : List PrefixOwnershipNode}

/-- The nodes of a chain pass the validation in every consistent state. -/
theorem validateChain_self (h : CacheOk sha256 cache) {handle : PrefixHandle}
    (hchain : cache.table.chain handle = .ok nodes) :
    validateChain cache.allocator (nodes.map fun node => (node, node.blockTokenIds)) none
      = .ok () := by
  rcases chain_eq_ok h.table hchain with ⟨hpath, hheld⟩
  rcases path_nodes hpath with ⟨_, hcores, hfound, hchainIn, _⟩
  cases eq_of_cores hfound hheld hcores
  have hzip : nodes.map (fun node => (node, node.blockTokenIds))
      = nodes.zip (nodes.map PrefixOwnershipNode.blockTokenIds) := List.map_prod_left_eq_zip
  rw [hzip]
  exact validateChain_ok h.backed hchainIn hfound (List.prefix_refl _)

theorem resume_cacheId {cacheId pageSize n : Nat}
    (h : resume cacheId pageSize nodes n = .ok (some borrowed)) : borrowed.cacheId = cacheId := by
  unfold resume at h
  cases hlast : nodes.getLast? with
  | none =>
    rw [hlast] at h
    cases h
  | some last =>
    rw [hlast] at h
    rcases except_bind_eq_ok_iff.mp h with ⟨_, _, heq⟩
    cases heq
    rfl

theorem resolveResume_of_current (h : CacheOk sha256 cache) (hcurrent : Current cache borrowed) :
    exists nodes, cache.resolveResume borrowed = .ok nodes := by
  rcases hcurrent with ⟨nodes, hchain, habove, hbelow, hresume⟩
  have hcache := resume_cacheId hresume
  unfold resolveResume
  rw [if_neg (not_not.mpr hcache), hchain]
  simp only [bind, Except.bind]
  rw [if_neg (not_not.mpr ⟨habove, hbelow⟩), hresume]
  dsimp only
  rw [if_neg (not_not.mpr rfl), validateChain_self h hchain]
  exact ⟨nodes, rfl⟩

theorem current_of_resolveResume (h : cache.resolveResume borrowed = .ok nodes) :
    Current cache borrowed := by
  unfold resolveResume at h
  by_cases hcache : borrowed.cacheId ≠ cache.cacheId
  · rw [if_pos hcache] at h
    cases h
  · rw [if_neg hcache] at h
    rcases except_bind_eq_ok_iff.mp h with ⟨found, hchain, hrest⟩
    by_cases hrange : (found.length - 1) * cache.pageSize < borrowed.logicalPosition ∧
        borrowed.logicalPosition ≤ (found.map fun node => node.blockTokenIds.length).sum
    · rw [if_neg (not_not.mpr hrange)] at hrest
      rcases except_bind_eq_ok_iff.mp hrest with ⟨rebuilt, hrebuilt, hchecked⟩
      by_cases hsame : some borrowed ≠ rebuilt
      · rw [if_pos hsame] at hchecked
        cases hchecked
      · rw [not_not] at hsame
        rw [<- hsame] at hrebuilt
        exact ⟨found, hchain, hrange.1, hrange.2, hrebuilt⟩
    · rw [if_pos hrange] at hrest
      cases hrest

/-- A cached entry that changed is reported as stale. -/
theorem resolveResume_of_cached (h : CacheOk sha256 cache) (hcached : Cached cache borrowed)
    (hcurrent : ¬ Current cache borrowed) :
    exists exc, cache.resolveResume borrowed = .error exc ∧ isStaleError exc = true := by
  rcases hcached with ⟨node, hnode, hindex⟩
  have hpos : 0 < cache.pageSize :=
    (block_size h.table hnode).1.trans_le (block_size h.table hnode).2
  rcases h.table.exists_path hnode with ⟨_, hpath⟩
  rw [h.table.handle_eq hnode, hindex] at hpath
  rcases h.table.chain_run hpath with ⟨nodes, hchain, hcores, _⟩
  unfold resolveResume
  by_cases hcache : borrowed.cacheId ≠ cache.cacheId
  · rw [if_pos hcache]
    exact ⟨_, rfl, rfl⟩
  · rw [if_neg hcache, hchain]
    simp only [bind, Except.bind]
    by_cases hrange : (nodes.length - 1) * cache.pageSize < borrowed.logicalPosition ∧
        borrowed.logicalPosition ≤ (nodes.map fun node => node.blockTokenIds.length).sum
    · have hne : nodes ≠ [] := by
        intro hnil
        rw [hnil] at hcores
        exact hpath.ne_nil hcores.symm
      rcases resume_run cache.cacheId hpos hne hrange.1 with ⟨rebuilt, hresume, _⟩
      have hchanged : some borrowed ≠ some rebuilt := by
        intro heq
        cases heq
        exact hcurrent ⟨nodes, hchain, hrange.1, hrange.2, hresume⟩
      rw [if_neg (not_not.mpr hrange), hresume]
      dsimp only
      rw [if_pos hchanged]
      exact ⟨_, rfl, rfl⟩
    · rw [if_pos hrange]
      exact ⟨_, rfl, rfl⟩

/-- An evicted entry is not. -/
theorem resolveResume_of_evicted (hcache : borrowed.cacheId = cache.cacheId)
    (hcached : ¬ Cached cache borrowed) :
    exists text, cache.resolveResume borrowed = .error (.invalidHandleError text) := by
  have hfree : forall node, cache.table.Holds node ->
      node.handle ≠ Handle.first .prefixNode borrowed.entryId :=
    fun node hnode hhandle => hcached ⟨node, hnode, congrArg Handle.index hhandle⟩
  rcases get_error hfree with ⟨text, hget⟩
  unfold resolveResume PrefixOwnershipTable.chain
  rw [if_neg (not_not.mpr hcache), chainUp, hget]
  exact ⟨text, rfl⟩

/-! ## Failing as stale only -/

/-- Resolving fails with the stale error only and when the capability is not current,
acquiring and pinning fail likewise, and the identities are missing in just these cases. -/
structure FailsStale (cache : RadixPagePrefixCache) (borrowed : ValidResume) : Prop where
  resolve : forall exc, cache.resolveResume borrowed = .error exc ->
    isStaleError exc = true ∧ ¬ Current cache borrowed
  acquire : forall exc next, acquireResume borrowed cache = .error exc next ->
    isStaleError exc = true ∧ ¬ Current cache borrowed
  pin : forall exc next, pinResume borrowed cache = .error exc next ->
    isStaleError exc = true ∧ ¬ Current cache borrowed
  identities : exists found, cache.chainIdentities borrowed = .ok found
    ∧ (found = none <-> ¬ Current cache borrowed)

theorem failsStale_of_resolve (h : CacheOk sha256 cache)
    (hresolve : forall exc, cache.resolveResume borrowed = .error exc ->
      isStaleError exc = true ∧ ¬ Current cache borrowed) : FailsStale cache borrowed := by
  refine ⟨hresolve, fun exc next hrun => ?_, fun exc next hrun => ?_, ?_⟩
  · rcases acquireResume_run h borrowed with ⟨e, herror, hraised⟩ | ⟨nodes, _, hok⟩
    · cases hraised.symm.trans hrun
      exact hresolve exc herror
    · cases hok.symm.trans hrun
  · rcases pinResume_run h borrowed with ⟨e, herror, hraised⟩ | ⟨nodes, _, hok⟩
    · cases hraised.symm.trans hrun
      exact hresolve exc herror
    · cases hok.symm.trans hrun
  · unfold chainIdentities
    cases hrun : cache.resolveResume borrowed with
    | error exc =>
      rcases hresolve exc hrun with ⟨hstale, hcurrent⟩
      dsimp only
      rw [if_pos hstale]
      exact ⟨none, rfl, fun _ => hcurrent, fun _ => rfl⟩
    | ok nodes =>
      exact ⟨_, rfl, (fun hnone => nomatch hnone),
        fun hcurrent => absurd (current_of_resolveResume hrun) hcurrent⟩

/-- After every history, capabilities fail as they should exactly when they come from
another incarnation or their entry is still cached. -/
theorem failsStale_iff {cacheId totalPages pageSize : Nat} {log : List Publication}
    (h : History sha256 cacheId totalPages pageSize log cache) (borrowed : ValidResume) :
    FailsStale cache borrowed <-> borrowed.cacheId ≠ cache.cacheId ∨ Cached cache borrowed := by
  have hok := (History.consistent h).ok
  constructor
  · intro hfails
    by_contra hnot
    rcases not_or.mp hnot with ⟨hcache, hcached⟩
    rcases resolveResume_of_evicted (not_not.mp hcache) hcached with ⟨_, herror⟩
    exact nomatch (hfails.resolve _ herror).1
  · intro hcases
    refine failsStale_of_resolve hok fun _ hexc => ?_
    have hcurrent : ¬ Current cache borrowed := by
      intro hcurrent
      rcases resolveResume_of_current hok hcurrent with ⟨_, hresolved⟩
      exact nomatch hresolved.symm.trans hexc
    rcases hcases with hcache | hcached
    · unfold resolveResume at hexc
      rw [if_pos hcache] at hexc
      cases hexc
      exact ⟨rfl, hcurrent⟩
    · rcases resolveResume_of_cached hok hcached hcurrent with ⟨_, herror, hstale⟩
      cases herror.symm.trans hexc
      exact ⟨hstale, hcurrent⟩

/-- The capability of the sample history names a cached chain. -/
theorem failsStale_iff_sample : FailsStale sampleCache tailResume := by
  have hentry : (sampleCache.table.get (Handle.first .prefixNode 1)).toOption.isSome = true := by
    decide +kernel
  cases hget : sampleCache.table.get (Handle.first .prefixNode 1) with
  | error e =>
    rw [hget] at hentry
    cases hentry
  | ok node =>
    rcases PrefixOwnershipTable.get_eq_ok_iff.mp hget with ⟨hnode, hhandle⟩
    have hcached : Cached sampleCache tailResume := ⟨node, hnode, by rw [hhandle]; rfl⟩
    exact (failsStale_iff sampleHistory tailResume).mpr (.inr hcached)

/-! ## An evicted entry -/

def sampleDigest : Digest :=
  ⟨List.replicate 32 0, List.length_replicate⟩

def sampleResume : ValidResume where
  cacheId := 1
  entryId := 0
  context := sampleContext
  tokenIds := [7]
  pages := [⟨Handle.first .kvPage 0, 1, Nat.one_pos⟩]

def filledCache : RadixPagePrefixCache :=
  [StoreCall.allocator (AllocatorCall.allocate 1),
    StoreCall.allocator (AllocatorCall.commitReserved [Handle.first HandleKind.kvPage 0]),
    StoreCall.allocator (AllocatorCall.setValidTokens (Handle.first HandleKind.kvPage 0) 1)].foldl
      (fun cache call => call.step (fun _ => sampleDigest) cache)
      { cacheId := 1, allocator := PageAllocator.make 2 1 }

/-- Its token is published for resumption, and the entry is evicted. -/
def evictedCache : RadixPagePrefixCache :=
  [StoreCall.insertResume [7] [Handle.first HandleKind.kvPage 0] sampleContext,
    StoreCall.evictEntry (some 0) 0].foldl
      (fun cache call => call.step (fun _ => sampleDigest) cache) filledCache

/-- The capability the publication lends is then refused as an invalid handle, which is
not the error of a miss, and its identities are not answered with a miss either. -/
theorem evicted_entry_raises :
    returned? (insertResume (fun _ => sampleDigest) [7] [Handle.first HandleKind.kvPage 0]
      sampleContext filledCache) = some (some sampleResume)
    ∧ evictedCache.resolveResume sampleResume = Except.error (Exc.invalidHandleError
        "stale prefix handle: PrefixHandle(index=0, generation=1)")
    ∧ evictedCache.chainIdentities sampleResume = Except.error (Exc.invalidHandleError
        "stale prefix handle: PrefixHandle(index=0, generation=1)") := by
  decide

end RadixPagePrefixCache
end Prefix
end Ayaka
