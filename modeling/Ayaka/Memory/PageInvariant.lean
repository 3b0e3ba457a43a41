import Ayaka.Memory.Allocator

/-!
# The invariant of one page

Every allocator method rewrites the metadata of single slots.  This module names
those rewrites, states what holds of a slot between calls, and shows that each
rewrite keeps it under the check its method makes first.
-/

namespace Ayaka
namespace Memory

open Foundation
open PageAllocationState

structure PageOk (pageSize : Nat) (page : PageMetadata) : Prop where
  valid : page.validTokens ≤ pageSize
  generation_le : page.generation ≤ maxHandleGeneration
  started : page.allocationState ≠ free -> 0 < page.generation
  of_free : page.allocationState = free ->
    page.totalRefs = 0 ∧ page.validTokens = 0 ∧ page.pendingFreeEpoch = none
  of_reserved : page.allocationState = reserved ->
    page.requestRefs = 0 ∧ page.cacheRefs = 0 ∧ page.pinRefs = 0 ∧
      page.reservationRefs ≤ 1
  of_live : page.allocationState = live -> page.reservationRefs = 0
  of_pending : page.allocationState = reclaimPending -> page.totalRefs = 0
  of_permanent : page.allocationState = permanent ->
    page.totalRefs = 0 ∧ page.pendingFreeEpoch = none
  unowned : page.ownershipRefs = 0 ->
    page.allocationState = reserved ∨
      page.allocationState = live -> 0 < page.inflightRefs
  required : page.ownershipRefs = 0 ->
    page.allocationState ≠ free ->
    page.allocationState ≠ permanent ->
    page.pendingFreeEpoch ≠ none

def PageMetadata.Active (page : PageMetadata) : Prop :=
  page.allocationState = reserved ∨ page.allocationState = live

/-!
## Page updates
-/

namespace PageMetadata

/-- The update made on a slot that `allocate` hands out. -/
@[simps] def reserve (epoch : Nat) (page : PageMetadata) : PageMetadata :=
  { page.startGeneration epoch with
    allocationState := reserved
    reservationRefs := 1 }

/-- The update made by `reserve_permanent_page`. -/
@[simps] def makePermanent (pageSize epoch : Nat) (page : PageMetadata) : PageMetadata :=
  { page.startGeneration epoch with
    allocationState := permanent
    validTokens := pageSize }

/-- The update made by `commit_reserved`. -/
@[simps] def commit (page : PageMetadata) : PageMetadata :=
  { page with
    reservationRefs := 0
    requestRefs := page.requestRefs + 1
    allocationState := live }

@[simps] def dropReservation (page : PageMetadata) : PageMetadata :=
  { page with reservationRefs := 0 }

@[simps] def enterStep (page : PageMetadata) : PageMetadata :=
  { page with inflightRefs := page.inflightRefs + 1 }

@[simps] def leaveStep (page : PageMetadata) : PageMetadata :=
  { page with inflightRefs := page.inflightRefs - 1 }

@[simps] def setValid (tokens : Nat) (page : PageMetadata) : PageMetadata :=
  { page with validTokens := tokens }

variable {page : PageMetadata}

theorem dropReservation_eq_self (h : page.reservationRefs = 0) : page.dropReservation = page := by
  cases page
  simp only at h
  rw [h]
  rfl

/-- The metadata `_mark_for_reclaim_if_unowned` leaves on its page. -/
def marked (safeEpoch : Nat) (page : PageMetadata) : PageMetadata :=
  if page.ownershipRefs ≠ 0 then
    page
  else
    let pending := PageAllocator.requiredEpoch page.pendingFreeEpoch safeEpoch
    if page.inflightRefs ≠ 0 then
      { page with pendingFreeEpoch := some pending }
    else
      { page with pendingFreeEpoch := some pending, allocationState := reclaimPending }

/-- Whether that marking queues the page for reclamation. -/
def Queues (page : PageMetadata) : Prop :=
  page.ownershipRefs = 0 ∧ page.inflightRefs = 0

instance (page : PageMetadata) : Decidable page.Queues :=
  inferInstanceAs (Decidable (_ ∧ _))

section

variable (epoch : Nat) (page : PageMetadata)

@[simp] theorem marked_generation : (page.marked epoch).generation = page.generation := by
  unfold marked
  split
  · rfl
  · dsimp only
    split <;> rfl

@[simp] theorem marked_ownershipRefs : (page.marked epoch).ownershipRefs = page.ownershipRefs := by
  unfold marked
  split
  · rfl
  · dsimp only
    split <;> rfl

end

variable {epoch : Nat}

theorem marked_of_owned (h : page.ownershipRefs ≠ 0) : page.marked epoch = page := by
  unfold marked
  rw [if_pos h]

theorem marked_of_inflight (h : page.ownershipRefs = 0) (hflight : page.inflightRefs ≠ 0) :
    page.marked epoch = { page with
      pendingFreeEpoch := some (PageAllocator.requiredEpoch page.pendingFreeEpoch epoch) } := by
  unfold marked
  rw [if_neg (by simp [h])]
  rw [if_pos hflight]

theorem marked_of_queues (h : page.Queues) :
    page.marked epoch = { page with
      pendingFreeEpoch := some (PageAllocator.requiredEpoch page.pendingFreeEpoch epoch)
      allocationState := reclaimPending } := by
  unfold marked
  rw [if_neg (by simp [h.1])]
  rw [if_neg (by simp [h.2])]

theorem marked_state_of_not_queues (h : ¬ page.Queues) :
    (page.marked epoch).allocationState = page.allocationState := by
  by_cases howned : page.ownershipRefs = 0
  · rw [marked_of_inflight howned (fun hflight => h ⟨howned, hflight⟩)]
  · rw [marked_of_owned howned]

theorem marked_ne_free (h : page.allocationState ≠ free) :
    (page.marked epoch).allocationState ≠ free := by
  by_cases hqueues : page.Queues
  · rw [marked_of_queues hqueues]
    simp
  · rw [marked_state_of_not_queues hqueues]
    exact h

end PageMetadata

/-- A page whose owners were just changed and which is about to be marked. -/
structure Markable (pageSize : Nat) (page : PageMetadata) : Prop where
  valid : page.validTokens ≤ pageSize
  generation_le : page.generation ≤ maxHandleGeneration
  generation_pos : 0 < page.generation
  state : page.Active ∨ page.allocationState = reclaimPending
  of_reserved : page.allocationState = reserved ->
    page.requestRefs = 0 ∧ page.cacheRefs = 0 ∧ page.pinRefs = 0 ∧
      page.reservationRefs ≤ 1
  of_live : page.allocationState = live -> page.reservationRefs = 0
  of_pending : page.allocationState = reclaimPending -> page.totalRefs = 0

variable {page : PageMetadata}

theorem Markable.pageOk_marked (h : Markable pageSize page) (epoch : Nat) :
    PageOk pageSize (page.marked epoch) := by
  by_cases howned : page.ownershipRefs ≠ 0
  · rw [PageMetadata.marked_of_owned howned]
    have hnot : page.allocationState ≠ reclaimPending := by
      intro hstate
      have htotal := h.of_pending hstate
      unfold PageMetadata.totalRefs at htotal
      omega
    have hactive : page.Active := by
      rcases h.state with hactive | hpending
      · exact hactive
      · exact absurd hpending hnot
    have hcases := hactive
    constructor
    · exact h.valid
    · exact h.generation_le
    · exact fun _ => h.generation_pos
    · rcases hcases with hs | hs <;> simp [hs]
    · exact h.of_reserved
    · exact h.of_live
    · exact fun hstate => absurd hstate hnot
    · rcases hcases with hs | hs <;> simp [hs]
    · exact fun hzero => absurd hzero howned
    · exact fun hzero => absurd hzero howned
  · have hzero : page.ownershipRefs = 0 := by omega
    by_cases hflight : page.inflightRefs = 0
    · rw [PageMetadata.marked_of_queues ⟨hzero, hflight⟩]
      have htotal : page.totalRefs = 0 := by
        unfold PageMetadata.totalRefs
        omega
      constructor <;> simp [h.valid, h.generation_le, h.generation_pos]
      exact htotal
    · rw [PageMetadata.marked_of_inflight hzero hflight]
      have hnot : page.allocationState ≠ reclaimPending := by
        intro hstate
        have htotal := h.of_pending hstate
        unfold PageMetadata.totalRefs at htotal
        omega
      have hactive : page.Active := by
        rcases h.state with hactive | hpending
        · exact hactive
        · exact absurd hpending hnot
      constructor
      · exact h.valid
      · exact h.generation_le
      · exact fun _ => h.generation_pos
      · rcases hactive with hs | hs <;> simp [hs]
      · exact h.of_reserved
      · exact h.of_live
      · exact fun hstate => absurd hstate hnot
      · rcases hactive with hs | hs <;> simp [hs]
      · exact fun _ _ => Nat.pos_of_ne_zero hflight
      · simp

theorem PageOk.markable (h : PageOk pageSize page) (hactive : page.Active) :
    Markable pageSize page := by
  have hstate : page.allocationState ≠ free := by
    rcases hactive with hs | hs <;> simp [hs]
  exact
    { h with
      generation_pos := h.started hstate
      state := .inl hactive }

section

variable (hgen : page.generation < maxHandleGeneration)
include hgen

theorem PageOk.reserve : PageOk pageSize (page.reserve epoch) := by
  constructor <;>
    simp [PageMetadata.reserve, PageMetadata.startGeneration, PageMetadata.totalRefs,
      PageMetadata.ownershipRefs]
  omega

theorem PageOk.makePermanent : PageOk pageSize (page.makePermanent pageSize epoch) := by
  constructor <;>
    simp [PageMetadata.makePermanent, PageMetadata.startGeneration, PageMetadata.totalRefs,
      PageMetadata.ownershipRefs]
  omega

end

variable {pageSize : Nat}

theorem PageOk.freed (hgen : page.generation ≤ maxHandleGeneration)
    (hrefs : page.totalRefs = 0) : PageOk pageSize (page.freed epoch) := by
  constructor <;> simp [PageMetadata.freed, hgen]
  simpa [PageMetadata.totalRefs, PageMetadata.ownershipRefs] using hrefs

section

variable (h : PageOk pageSize page)
include h

theorem PageOk.commit (hactive : page.Active) : PageOk pageSize page.commit := by
  have hmark := h.markable hactive
  constructor <;>
    simp [PageMetadata.commit, PageMetadata.ownershipRefs, h.valid, h.generation_le,
      hmark.generation_pos]

theorem PageOk.enterStep (hactive : page.Active) : PageOk pageSize page.enterStep := by
  have hcases := hactive
  constructor
  · exact h.valid
  · exact h.generation_le
  · exact h.started
  · rcases hcases with hs | hs <;> simp [hs]
  · exact h.of_reserved
  · exact h.of_live
  · rcases hcases with hs | hs <;> simp [hs]
  · rcases hcases with hs | hs <;> simp [hs]
  · simp
  · exact h.required

theorem PageOk.setValid (hactive : page.Active) (htokens : tokens ≤ pageSize) :
    PageOk pageSize (page.setValid tokens) := by
  have hcases := hactive
  constructor
  · exact htokens
  · exact h.generation_le
  · exact h.started
  · rcases hcases with hs | hs <;> simp [hs]
  · exact h.of_reserved
  · exact h.of_live
  · exact h.of_pending
  · exact h.of_permanent
  · exact h.unowned
  · exact h.required

end

section

variable {pageSize : Nat} (field : PageAllocator.RefField) (h : PageOk pageSize page)
  (hlive : page.allocationState = live)
include h hlive

theorem PageOk.add : PageOk pageSize (field.add page) := by
  have hgen := h.started (by simp [hlive])
  have hres := h.of_live hlive
  cases field <;>
    constructor <;>
      simp [PageAllocator.RefField.add, PageMetadata.ownershipRefs, hlive, h.valid,
        h.generation_le, hgen, hres]

theorem PageOk.sub : Markable pageSize (field.sub page) := by
  have hgen := h.started (by simp [hlive])
  have hres := h.of_live hlive
  cases field <;>
    constructor <;>
      simp [PageAllocator.RefField.sub, PageMetadata.Active, hlive, h.valid,
        h.generation_le, hgen, hres]

end

/-- Abandoning may meet a page that an earlier copy of the handle has already
queued. -/
theorem PageOk.dropReservation (h : PageOk pageSize page)
    (hstate : page.allocationState = reserved ∨
    page.allocationState = reclaimPending) : Markable pageSize page.dropReservation := by
  have hgen : 0 < page.generation := by
    apply h.started
    rcases hstate with hs | hs <;> simp [hs]
  constructor
  · exact h.valid
  · exact h.generation_le
  · exact hgen
  · rcases hstate with hs | hs <;> simp [PageMetadata.Active, hs]
  · intro hs
    rcases h.of_reserved hs with ⟨hreq, hcache, hpin, _⟩
    exact ⟨hreq, hcache, hpin, by simp⟩
  · simp
  · intro hs
    have htotal := h.of_pending hs
    simp [PageMetadata.totalRefs, PageMetadata.ownershipRefs] at htotal ⊢
    omega

theorem PageOk.leaveStep (h : PageOk pageSize page)
    (hstate : page.Active ∨ page.allocationState = reclaimPending) :
    Markable pageSize page.leaveStep := by
  have hgen : 0 < page.generation := by
    apply h.started
    rcases hstate with (hs | hs) | hs <;> simp [hs]
  constructor
  · exact h.valid
  · exact h.generation_le
  · exact hgen
  · exact hstate
  · exact h.of_reserved
  · exact h.of_live
  · intro hs
    have htotal := h.of_pending hs
    simp [PageMetadata.totalRefs, PageMetadata.ownershipRefs] at htotal ⊢
    omega

end Memory
end Ayaka
