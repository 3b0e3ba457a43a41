import Ayaka.Memory.Allocator

/-!
# Allocator reports and self-check

The O(N) capacity snapshot and `assert_invariants`.  The counters are naturals
here, so the self-check's test for a negative counter has nothing to test.
-/

namespace Ayaka
namespace Memory

open Foundation
open PageAllocationState

structure AllocatorSnapshot where
  totalPages : Nat
  usablePages : Nat
  freePages : Nat
  reservedPages : Nat
  livePages : Nat
  reclaimPendingPages : Nat
  permanentPages : Nat
  requestOwnedPages : Nat
  cacheOwnedPages : Nat
  pinnedPages : Nat
  sharedPages : Nat
  inflightPages : Nat
  evictablePages : Nat
  reclaimedPagesTotal : Nat
  deriving DecidableEq, Repr

namespace PageAllocator

def countPages (a : PageAllocator) (test : PageMetadata -> Bool) : Nat :=
  (List.range a.totalPages).countP fun index => test (a.pages index)

def countState (a : PageAllocator) (state : PageAllocationState) : Nat :=
  a.countPages fun page => decide (page.allocationState = state)

def snapshot (a : PageAllocator) : AllocatorSnapshot where
  totalPages := a.totalPages
  usablePages := a.totalPages - a.countState permanent
  freePages := a.countState free
  reservedPages := a.countState reserved
  livePages := a.countState live
  reclaimPendingPages := a.countState reclaimPending
  permanentPages := a.countState permanent
  requestOwnedPages := a.countPages fun page => decide (0 < page.requestRefs)
  cacheOwnedPages := a.countPages fun page => decide (0 < page.cacheRefs)
  pinnedPages := a.countPages PageMetadata.isPinned
  sharedPages := a.countPages PageMetadata.isShared
  inflightPages := a.countPages fun page => decide (0 < page.inflightRefs)
  evictablePages := a.countPages PageMetadata.isEvictable
  reclaimedPagesTotal := a.reclaimedPagesTotal

def entryCurrent (a : PageAllocator) (entry : ReclaimEntry) : Bool :=
  decide (entry.index < a.totalPages) &&
    decide ((a.pages entry.index).generation = entry.generation) &&
    decide ((a.pages entry.index).allocationState = reclaimPending) &&
    decide ((a.pages entry.index).pendingFreeEpoch = some entry.epoch)

def raiseIf (condition : Prop) [Decidable condition] (message : String) : Except Exc Unit :=
  if condition then .error (.invariantViolationError message) else .ok ()

/-- The per-page part of `assert_invariants`. -/
def assertPage (a : PageAllocator) (index : Nat) : Except Exc Unit := do
  let page := a.pages index
  raiseIf (a.pageSize < page.validTokens) "invalid page token count"
  if page.allocationState = free then
    raiseIf (index ∉ a.readyFree) "free page missing from free queue"
    raiseIf (page.totalRefs ≠ 0 ∨ page.validTokens ≠ 0 ∨ page.pendingFreeEpoch ≠ none)
      "free page retains live metadata"
  else
    raiseIf (index ∈ a.readyFree) "allocated page appears in free queue"
  match page.allocationState with
  | reserved =>
    raiseIf (¬ (page.reservationRefs = 0 ∨ page.reservationRefs = 1))
      "invalid reserved-page owner count"
    raiseIf (page.pinRefs ≠ 0) "reserved page cannot be pinned"
    raiseIf (page.reservationRefs = 0 ∧
        ¬ (0 < page.inflightRefs ∧ page.pendingFreeEpoch ≠ none))
      "unowned reserved page is not in flight"
  | live =>
    raiseIf (page.reservationRefs ≠ 0) "live page retains reservation owner"
    raiseIf (page.ownershipRefs = 0 ∧
        ¬ (0 < page.inflightRefs ∧ page.pendingFreeEpoch ≠ none))
      "unowned live page is not deferred"
  | reclaimPending =>
    raiseIf (page.totalRefs ≠ 0) "deferred page still has references"
    raiseIf (page.pendingFreeEpoch = none) "deferred page has no safe epoch"
  | permanent =>
    raiseIf (page.pendingFreeEpoch ≠ none) "permanent page cannot be reclaimed"
  | free => pure ()

def assertInvariants (a : PageAllocator) : Except Exc Unit := do
  raiseIf (¬ a.readyFree.Nodup) "duplicate page in ready-free queue"
  let current := a.reclaimHeap.filter a.entryCurrent
  let pendingCount := a.countState reclaimPending
  raiseIf (current.length ≠ pendingCount ∨ current.dedup.length ≠ pendingCount)
    "reclaim heap does not uniquely cover every pending page"
  (List.range a.totalPages).forM a.assertPage
  let report := a.snapshot
  raiseIf
    (report.freePages + report.reservedPages + report.livePages +
      report.reclaimPendingPages + report.permanentPages ≠ a.totalPages)
    "page-state partition does not equal capacity"

end PageAllocator

end Memory
end Ayaka
