import Ayaka.Handles

/-!
# Lifecycle vocabulary

The states of a page and the per-page metadata record.
-/

namespace Ayaka
namespace Memory

inductive PageAllocationState where
  | free
  | reserved
  | live
  | reclaimPending
  | permanent
  deriving DecidableEq, Repr

def PageAllocationState.name : PageAllocationState -> String
  | .free => "FREE"
  | .reserved => "RESERVED"
  | .live => "LIVE"
  | .reclaimPending => "RECLAIM_PENDING"
  | .permanent => "PERMANENT"

/-- Authoritative metadata of one physical page slot.  The slot's index is its
position in the allocator's page list. -/
structure PageMetadata where
  generation : Nat := 0
  allocationState : PageAllocationState := .free
  requestRefs : Nat := 0
  cacheRefs : Nat := 0
  reservationRefs : Nat := 0
  inflightRefs : Nat := 0
  pinRefs : Nat := 0
  validTokens : Nat := 0
  lastAccessEpoch : Nat := 0
  pendingFreeEpoch : Option Nat := none
  deriving DecidableEq, Repr

namespace PageMetadata

section

variable (page : PageMetadata)

def isPinned : Bool :=
  decide (0 < page.pinRefs)

def isEvictable : Bool :=
  decide (page.allocationState = .live) && !page.isPinned &&
    decide (page.requestRefs = 0) && decide (page.reservationRefs = 0) &&
      decide (0 < page.cacheRefs)

def ownershipRefs : Nat :=
  page.requestRefs + page.cacheRefs + page.reservationRefs + page.pinRefs

def totalRefs : Nat :=
  page.ownershipRefs + page.inflightRefs

def isShared : Bool :=
  decide (1 < page.requestRefs + page.cacheRefs)

end

@[simps] def startGeneration (epoch : Nat) (page : PageMetadata) : PageMetadata :=
  { page with
    generation := page.generation + 1
    requestRefs := 0
    cacheRefs := 0
    reservationRefs := 0
    inflightRefs := 0
    pinRefs := 0
    validTokens := 0
    pendingFreeEpoch := none
    lastAccessEpoch := epoch }

/-- The end of a lifetime; the generation stays until the slot is reused. -/
@[simps] def freed (epoch : Nat) (page : PageMetadata) : PageMetadata :=
  { page with
    allocationState := .free
    validTokens := 0
    pendingFreeEpoch := none
    lastAccessEpoch := epoch }

end PageMetadata

end Memory
end Ayaka
