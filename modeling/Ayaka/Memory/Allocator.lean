import Ayaka.Foundation.Effect
import Ayaka.Memory.State

/-!
# The page allocator

A direct model of the allocator for fixed-size KV pages: its metadata list, the
ready-free queue, the reclaim heap and the completion epoch, with every public
method.  Read-only checks are functions into `Except`; methods that change the
allocator are computations whose state survives a raised exception.
-/

namespace Ayaka
namespace Memory

open Foundation

/-- One reclaim-heap tuple `(pending_free_epoch, physical_index, generation)`. -/
structure ReclaimEntry where
  epoch : Nat
  index : Nat
  generation : Nat
  deriving DecidableEq, Repr

/-- The tuple order of the heap. -/
def ReclaimEntry.Le (x y : ReclaimEntry) : Prop :=
  x.epoch < y.epoch ∨ (x.epoch = y.epoch ∧
    (x.index < y.index ∨ (x.index = y.index ∧ x.generation ≤ y.generation)))

instance : DecidableRel ReclaimEntry.Le := fun x y => by
  unfold ReclaimEntry.Le
  infer_instance

/-- The heap is kept as its sorted list of entries: `heappop` takes the head. -/
def heappush (heap : List ReclaimEntry) (entry : ReclaimEntry) : List ReclaimEntry :=
  heap.orderedInsert ReclaimEntry.Le entry

structure PageAllocator where
  totalPages : Nat
  pageSize : Nat
  pages : Nat -> PageMetadata
  readyFree : List Nat
  reclaimHeap : List ReclaimEntry
  currentEpoch : Nat
  reclaimedPagesTotal : Nat

abbrev AllocatorM := EStateM Exc PageAllocator

namespace PageAllocator

/-- `PageAllocator.__init__` on positive sizes. -/
def make (totalPages pageSize : Nat) : PageAllocator where
  totalPages := totalPages
  pageSize := pageSize
  pages := fun _ => {}
  readyFree := List.range totalPages
  reclaimHeap := []
  currentEpoch := 0
  reclaimedPagesTotal := 0

@[simps -fullyApplied]
def modifyPage (a : PageAllocator) (index : Nat) (f : PageMetadata -> PageMetadata) :
    PageAllocator :=
  { a with pages := Function.update a.pages index (f (a.pages index)) }

def getMeta (a : PageAllocator) (handle : KVPageHandle) : Except Exc PageMetadata :=
  if handle.index < a.totalPages then
    let page := a.pages handle.index
    if page.generation ≠ handle.generation ∨
        page.allocationState = .free then
      .error (.invalidHandleError
        ("stale page handle: " ++ handle.text "KVPageHandle"))
    else
      .ok page
  else
    .error (.invalidHandleError
      ("page index " ++ toString handle.index ++ " is out of range"))

def requireState (a : PageAllocator) (expected : PageAllocationState)
    (handle : KVPageHandle) : Except Exc PageMetadata := do
  let page <- a.getMeta handle
  if page.allocationState = expected then
    pure page
  else
    throw (.invalidStateTransitionError
      ("page " ++ handle.text "KVPageHandle" ++ " is " ++ page.allocationState.name ++
        ", expected " ++ expected.name))

def requireLiveOrReserved (a : PageAllocator) (handle : KVPageHandle) :
    Except Exc PageMetadata := do
  let page <- a.getMeta handle
  if page.allocationState = .reserved ∨
      page.allocationState = .live then
    pure page
  else
    throw (.invalidStateTransitionError
      ("page " ++ handle.text "KVPageHandle" ++
        " cannot participate in an execution step"))

def validateEpoch (epoch : Int) : Except Exc Nat :=
  if epoch < 0 then
    .error (.valueError "epoch must be non-negative")
  else
    .ok epoch.toNat

/-- `_unique_pages`: first occurrences, in order. -/
def uniquePages (pages : List KVPageHandle) : List KVPageHandle :=
  pages.reverse.dedup.reverse

def resetForNewGeneration (index : Nat) : AllocatorM Unit := do
  let a <- get
  let page := a.pages index
  if page.allocationState ≠ .free then
    throw (.invariantViolationError "only a free page can start a new generation")
  if maxHandleGeneration ≤ page.generation then
    throw (.invariantViolationError
      "page generation space exhausted; rebuild the KV owner instead of wrapping")
  set (a.modifyPage index fun page => page.startGeneration a.currentEpoch)

def makeFree (index : Nat) : AllocatorM Unit := do
  let a <- get
  let page := a.pages index
  if page.allocationState = .free then
    throw (.invariantViolationError "cannot free an already-free page")
  if page.totalRefs ≠ 0 then
    throw (.invariantViolationError "cannot free a referenced page")
  set { a.modifyPage index (fun page => page.freed a.currentEpoch) with
    readyFree := a.readyFree ++ [index] }

/-- The epoch `max(previous or safe_epoch, safe_epoch)`; zero is falsy. -/
def requiredEpoch (previous : Option Nat) (safeEpoch : Nat) : Nat :=
  match previous with
  | none => safeEpoch
  | some epoch => max (if epoch = 0 then safeEpoch else epoch) safeEpoch

def markForReclaimIfUnowned (a : PageAllocator) (index safeEpoch : Nat) : PageAllocator :=
  let page := a.pages index
  if page.ownershipRefs ≠ 0 then
    a
  else
    let pending := requiredEpoch page.pendingFreeEpoch safeEpoch
    let a' := a.modifyPage index fun page => { page with pendingFreeEpoch := some pending }
    if page.inflightRefs ≠ 0 then
      a'
    else
      { a'.modifyPage index fun page =>
          { page with allocationState := .reclaimPending } with
        reclaimHeap := heappush a.reclaimHeap
          { epoch := pending, index, generation := page.generation } }

/-- The loop of `_reclaim_completed_locked` over the heap, smallest entry
first, with the count of pages freed so far. -/
def reclaimLoop (completedEpoch : Nat) : List ReclaimEntry -> Nat -> AllocatorM Nat
  | [], reclaimed => pure reclaimed
  | entry :: rest, reclaimed =>
    if entry.epoch ≤ completedEpoch then do
      modify fun a => { a with reclaimHeap := rest }
      let page := (<- get).pages entry.index
      if page.generation ≠ entry.generation ∨
          page.allocationState ≠ .reclaimPending ∨
          page.pendingFreeEpoch ≠ some entry.epoch then
        reclaimLoop completedEpoch rest reclaimed
      else if page.totalRefs ≠ 0 then
        throw (.invariantViolationError "reclaim queue contains a referenced page")
      else do
        makeFree entry.index
        modify fun a => { a with reclaimedPagesTotal := a.reclaimedPagesTotal + 1 }
        reclaimLoop completedEpoch rest (reclaimed + 1)
    else
      pure reclaimed

def reclaimCompletedLocked (completedEpoch : Nat) : AllocatorM Nat := do
  reclaimLoop completedEpoch (<- get).reclaimHeap 0

def reservePermanentPage : AllocatorM KVPageHandle := do
  match (<- get).readyFree with
  | [] =>
    throw (.invalidStateTransitionError
      "no page is available for the permanent padding page")
  | index :: rest =>
    modify fun a => { a with readyFree := rest }
    resetForNewGeneration index
    modify fun a => a.modifyPage index fun page =>
      { page with
        allocationState := .permanent
        validTokens := a.pageSize }
    query fun a => Handle.new .kvPage index (a.pages index).generation

/-- One iteration of the loop of `allocate`: start a lifetime and reserve it. -/
def reserveSlot (index : Nat) : AllocatorM KVPageHandle := do
  resetForNewGeneration index
  modify fun a => a.modifyPage index fun page =>
    { page with
      allocationState := .reserved
      reservationRefs := 1 }
  query fun a => Handle.new .kvPage index (a.pages index).generation

def allocate (numPages : Int) : AllocatorM (Option (List KVPageHandle)) := do
  if numPages < 0 then
    throw (.valueError "num_pages must be non-negative")
  if numPages = 0 then
    return some []
  let count := numPages.toNat
  let _ <- reclaimCompletedLocked (<- get).currentEpoch
  let ready := (<- get).readyFree
  if ready.length < count then
    return none
  modify fun a => { a with readyFree := ready.drop count }
  let handles <- (ready.take count).mapM reserveSlot
  return some handles

/-- Every listed page is reserved with exactly one reservation owner. -/
def validateReserved (a : PageAllocator) (message : String) (pages : List KVPageHandle) :
    Except Exc Unit := do
  let metas <- pages.mapM (a.requireState .reserved)
  metas.forM fun page =>
    if page.reservationRefs ≠ 1 then
      throw (.invariantViolationError message)
    else
      pure ()

def commitReserved (pages : List KVPageHandle) : AllocatorM Unit := do
  query fun a =>
    a.validateReserved "a reserved page must have exactly one reservation owner" pages
  modify fun a => pages.foldl
    (fun a handle => a.modifyPage handle.index fun page =>
      { page with
        reservationRefs := 0
        requestRefs := page.requestRefs + 1
        allocationState := .live }) a

def validateRollbackReserved (a : PageAllocator) (pages : List KVPageHandle) : Except Exc Unit := do
  let metas <- pages.mapM (a.requireState .reserved)
  metas.forM fun page =>
    if page.inflightRefs ≠ 0 then
      throw (.invalidStateTransitionError
        "an in-flight reserved page cannot be rolled back immediately")
    else if page.reservationRefs ≠ 1 then
      throw (.invariantViolationError "invalid reservation refcount")
    else
      pure ()

def validateReleaseRequestRefs (a : PageAllocator) (pages : List KVPageHandle) : Except Exc Unit :=
  pages.forM fun handle => do
    let page <- a.requireState .live handle
    if page.requestRefs = 0 then
      throw (.invariantViolationError "request refcount underflow")
    else
      pure ()

def rollbackReserved (pages : List KVPageHandle) : AllocatorM Unit := do
  query fun a => a.validateRollbackReserved pages
  pages.forM fun handle => do
    modify fun a => a.modifyPage handle.index fun page => { page with reservationRefs := 0 }
    makeFree handle.index

def abandonReserved (pages : List KVPageHandle) (safeEpoch : Int) : AllocatorM Unit := do
  let epoch <- query fun _ => validateEpoch safeEpoch
  query fun a => a.validateReserved "invalid reservation refcount" pages
  modify fun a => pages.foldl
    (fun a handle =>
      (a.modifyPage handle.index fun page =>
        { page with reservationRefs := 0 }).markForReclaimIfUnowned handle.index epoch) a

def markInflight (pages : List KVPageHandle) : AllocatorM Unit := do
  let unique := uniquePages pages
  let _ <- query fun a => unique.mapM a.requireLiveOrReserved
  modify fun a => unique.foldl
    (fun a handle => a.modifyPage handle.index fun page =>
      { page with inflightRefs := page.inflightRefs + 1 }) a

/-- One iteration of the second loop of `unmark_inflight`. -/
def dropInflight (a : PageAllocator) (index : Nat) : PageAllocator :=
  let a' := a.modifyPage index fun page => { page with inflightRefs := page.inflightRefs - 1 }
  match (a'.pages index).pendingFreeEpoch with
  | some epoch =>
    if (a'.pages index).ownershipRefs = 0 then
      a'.markForReclaimIfUnowned index epoch
    else
      a'
  | none => a'

def unmarkInflight (pages : List KVPageHandle) : AllocatorM Unit := do
  let unique := uniquePages pages
  query fun a => do
    let metas <- unique.mapM a.requireLiveOrReserved
    metas.forM fun page =>
      if page.inflightRefs = 0 then
        throw (.invariantViolationError "in-flight refcount underflow")
      else
        pure ()
  modify fun a => unique.foldl (fun a handle => a.dropInflight handle.index) a

def setValidTokens (handle : KVPageHandle) (validTokens : Int) : AllocatorM Unit := do
  if ¬ (0 ≤ validTokens ∧ validTokens ≤ (<- get).pageSize) then
    throw (.valueError "valid_tokens is outside the page boundary")
  let _ <- query fun a => a.requireLiveOrReserved handle
  modify fun a => a.modifyPage handle.index fun page =>
    { page with validTokens := validTokens.toNat }

/-- The reference counters a durable owner holds on a page. -/
inductive RefField where
  | request
  | cache
  | pin
  deriving DecidableEq, Repr

def RefField.count : RefField -> PageMetadata -> Nat
  | .request, page => page.requestRefs
  | .cache, page => page.cacheRefs
  | .pin, page => page.pinRefs

def RefField.add : RefField -> PageMetadata -> PageMetadata
  | .request, page => { page with requestRefs := page.requestRefs + 1 }
  | .cache, page => { page with cacheRefs := page.cacheRefs + 1 }
  | .pin, page => { page with pinRefs := page.pinRefs + 1 }

def RefField.sub : RefField -> PageMetadata -> PageMetadata
  | .request, page => { page with requestRefs := page.requestRefs - 1 }
  | .cache, page => { page with cacheRefs := page.cacheRefs - 1 }
  | .pin, page => { page with pinRefs := page.pinRefs - 1 }

/-- The shape shared by `acquire_request_ref`, `acquire_cache_ref` and
`pin_page`. -/
def acquireRef (field : RefField) (handle : KVPageHandle) : AllocatorM Unit := do
  let _ <- query fun a => a.requireState .live handle
  modify fun a => a.modifyPage handle.index field.add

/-- The shape shared by `release_request_ref`, `release_cache_ref` and
`unpin_page`. -/
def releaseRef (field : RefField) (underflow : String)
    (handle : KVPageHandle) (safeEpoch : Int) : AllocatorM Unit := do
  let epoch <- query fun _ => validateEpoch safeEpoch
  let page <- query fun a => a.requireState .live handle
  if field.count page = 0 then
    throw (.invariantViolationError underflow)
  modify fun a =>
    (a.modifyPage handle.index field.sub).markForReclaimIfUnowned handle.index epoch

section

variable (handle : KVPageHandle)
include handle

def acquireRequestRef : AllocatorM Unit :=
  acquireRef .request handle

def releaseRequestRef (safeEpoch : Int) : AllocatorM Unit :=
  releaseRef .request "request refcount underflow" handle safeEpoch

def acquireCacheRef : AllocatorM Unit :=
  acquireRef .cache handle

def releaseCacheRef (safeEpoch : Int) : AllocatorM Unit :=
  releaseRef .cache "cache refcount underflow" handle safeEpoch

def pinPage : AllocatorM Unit :=
  acquireRef .pin handle

def unpinPage (safeEpoch : Int) : AllocatorM Unit :=
  releaseRef .pin
    ("Page PhysicalPageId(value=" ++ toString handle.index ++ ") is not pinned.")
    handle safeEpoch

end

def advanceEpoch (completedEpoch : Int) : AllocatorM Nat := do
  let epoch <- query fun _ => validateEpoch completedEpoch
  if epoch < (<- get).currentEpoch then
    throw (.valueError "completed epoch must be monotonic")
  modify fun a => { a with currentEpoch := epoch }
  reclaimCompletedLocked epoch

def reclaimCompleted : AllocatorM Nat := do
  reclaimCompletedLocked (<- get).currentEpoch

def physicalId (a : PageAllocator) (handle : KVPageHandle) : Except Exc Nat := do
  let _ <- a.getMeta handle
  pure handle.index

end PageAllocator

end Memory
end Ayaka
