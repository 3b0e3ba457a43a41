import Ayaka.Memory.AllocatorReport
import Ayaka.Memory.PageInvariant

/-!
# Allocator events

Whatever public method is called, with whatever arguments, the allocator changes
by a sequence of the atomic events named here.  Each invariant is proved once per
event; the methods themselves are taken apart in `AllocatorTrace`.
-/

namespace Ayaka
namespace Memory

open PageAllocationState

namespace PageAllocator

/-- Rewrite a slot and then mark it for reclamation if nobody owns it. -/
def settle (a : PageAllocator) (index epoch : Nat) (f : PageMetadata -> PageMetadata) :
    PageAllocator :=
  (a.modifyPage index f).markForReclaimIfUnowned index epoch

/-- Rewrite a slot and then return it to the ready queue, as `_make_free` does. -/
@[simps -fullyApplied +simpRhs]
def release (a : PageAllocator) (index : Nat) (f : PageMetadata -> PageMetadata) : PageAllocator :=
  { a.modifyPage index (fun page => (f page).freed a.currentEpoch) with
    readyFree := a.readyFree ++ [index] }

end PageAllocator

inductive PageEvent where
  | reserve
  | permanent
  | lose (count : Nat)
  | commit (index : Nat)
  | rollback (index : Nat)
  | abandon (index epoch : Nat)
  | enter (index : Nat)
  | leave (index : Nat)
  | setValid (index tokens : Nat)
  | acquire (field : PageAllocator.RefField) (index : Nat)
  | drop (field : PageAllocator.RefField) (index epoch : Nat)
  | advance (epoch : Nat)
  | reclaim
  deriving DecidableEq, Repr

namespace PageEvent

/-- Start a new lifetime on the slot at the head of the ready queue. -/
def startHead (a : PageAllocator) (f : PageMetadata -> PageMetadata) : PageAllocator :=
  match a.readyFree with
  | [] => a
  | index :: rest => { a.modifyPage index f with readyFree := rest }

/-- Pop the smallest heap entry; a current one frees its page. -/
def popHeap (a : PageAllocator) : PageAllocator :=
  match a.reclaimHeap with
  | [] => a
  | entry :: rest =>
    let popped := { a with reclaimHeap := rest }
    if a.entryCurrent entry then
      { popped.release entry.index id with
        reclaimedPagesTotal := a.reclaimedPagesTotal + 1 }
    else
      popped

def apply (a : PageAllocator) : PageEvent -> PageAllocator
  | reserve => startHead a fun page => page.reserve a.currentEpoch
  | permanent => startHead a fun page => page.makePermanent a.pageSize a.currentEpoch
  | lose count => { a with readyFree := a.readyFree.drop count }
  | commit index => a.modifyPage index PageMetadata.commit
  | rollback index => a.release index PageMetadata.dropReservation
  | abandon index epoch => a.settle index epoch PageMetadata.dropReservation
  | enter index => a.modifyPage index PageMetadata.enterStep
  | leave index =>
    a.settle index ((a.pages index).pendingFreeEpoch.getD 0) PageMetadata.leaveStep
  | setValid index tokens => a.modifyPage index (PageMetadata.setValid tokens)
  | acquire field index => a.modifyPage index field.add
  | drop field index epoch => a.settle index epoch field.sub
  | advance epoch => { a with currentEpoch := epoch }
  | reclaim => popHeap a

def HeadFresh (a : PageAllocator) : Prop :=
  exists index rest, a.readyFree = index :: rest ∧
    (a.pages index).generation < maxHandleGeneration

/-- What the methods have checked when they make the change.  With `repeated` a
batch may name a page twice, and abandoning may then meet a page it has just
queued. -/
def Enabled (repeated : Prop) (a : PageAllocator) : PageEvent -> Prop
  | reserve => HeadFresh a
  | permanent => HeadFresh a
  | lose _ => exists index rest, a.readyFree = index :: rest ∧
      maxHandleGeneration ≤ (a.pages index).generation
  | commit index => index < a.totalPages ∧ (a.pages index).Active
  | rollback index => index < a.totalPages ∧
      (a.pages index).allocationState = reserved ∧ (a.pages index).inflightRefs = 0
  | abandon index _ => index < a.totalPages ∧
      ((a.pages index).allocationState = reserved ∨
        repeated ∧ (a.pages index).allocationState = reclaimPending)
  | enter index => index < a.totalPages ∧ (a.pages index).Active
  | leave index => index < a.totalPages ∧ (a.pages index).Active ∧
      0 < (a.pages index).inflightRefs
  | setValid index tokens => index < a.totalPages ∧ (a.pages index).Active ∧
      tokens ≤ a.pageSize
  | acquire _ index => index < a.totalPages ∧ (a.pages index).allocationState = live
  | drop field index _ => index < a.totalPages ∧
      (a.pages index).allocationState = live ∧ 0 < field.count (a.pages index)
  | advance epoch => a.currentEpoch ≤ epoch
  | reclaim => exists entry rest, a.reclaimHeap = entry :: rest ∧
      entry.epoch ≤ a.currentEpoch

def applyAll (a : PageAllocator) (events : List PageEvent) : PageAllocator :=
  events.foldl apply a

def Legal (repeated : Prop) : PageAllocator -> List PageEvent -> Prop
  | _, [] => True
  | a, event :: events => event.Enabled repeated a ∧ Legal repeated (event.apply a) events

section Legal

variable {repeated : Prop}

@[simp] theorem applyAll_nil : applyAll a [] = a := rfl

@[simp] theorem applyAll_cons (event : PageEvent) :
    applyAll a (event :: events) = applyAll (event.apply a) events := rfl

theorem applyAll_append : applyAll a (events ++ later) = applyAll (applyAll a events) later :=
  List.foldl_append

@[simp] theorem legal_nil : Legal repeated a [] := trivial

theorem legal_single (henabled : event.Enabled repeated a) : Legal repeated a [event] :=
  ⟨henabled, trivial⟩

theorem Legal.append (h : Legal repeated a events)
    (hlater : Legal repeated (applyAll a events) later) : Legal repeated a (events ++ later) := by
  induction events generalizing a with
  | nil => exact hlater
  | cons event events ih => exact ⟨h.1, ih h.2 hlater⟩

/-- A property every enabled event of a sequence keeps is kept by the sequence. -/
theorem Legal.preserves (h : Legal repeated a events) (inv : PageAllocator -> Prop)
    (hstep : forall a event, event ∈ events -> event.Enabled repeated a -> inv a ->
      inv (event.apply a)) (ha : inv a) : inv (applyAll a events) := by
  induction events generalizing a with
  | nil => exact ha
  | cons event events ih =>
    apply ih h.2
    · exact fun a later hmem => hstep a later (List.mem_cons_of_mem _ hmem)
    · exact hstep _ _ (List.mem_cons_self ..) h.1 ha

theorem legal_batch {item : Type} {event : item -> PageEvent}
    (inv : List item -> PageAllocator -> Prop) (hstep : forall x rest a, inv (x :: rest) a ->
      (event x).Enabled repeated a ∧ inv rest ((event x).apply a))
    {items} (hitems : inv items a) : Legal repeated a (items.map event) := by
  induction items generalizing a with
  | nil => trivial
  | cons x rest ih => exact ⟨(hstep x rest a hitems).1, ih (hstep x rest a hitems).2⟩

end Legal

end PageEvent

/-!
## What marking does
-/

namespace PageAllocator

theorem markForReclaimIfUnowned_eq (a : PageAllocator) (index epoch : Nat) :
    a.markForReclaimIfUnowned index epoch = { a.modifyPage index (PageMetadata.marked epoch) with
        reclaimHeap :=
          if (a.pages index).Queues then
            heappush a.reclaimHeap
              { epoch := requiredEpoch (a.pages index).pendingFreeEpoch epoch
                index
                generation := (a.pages index).generation }
          else
            a.reclaimHeap } := by
  unfold markForReclaimIfUnowned
  by_cases howned : (a.pages index).ownershipRefs ≠ 0
  · have hnot : ¬ (a.pages index).Queues := fun h => howned h.1
    simp only [if_pos howned, if_neg hnot, modifyPage,
      PageMetadata.marked_of_owned howned, Function.update_eq_self]
  · have hzero : (a.pages index).ownershipRefs = 0 := by omega
    by_cases hflight : (a.pages index).inflightRefs = 0
    · have hqueues : (a.pages index).Queues := ⟨hzero, hflight⟩
      simp [hzero, hflight, if_pos hqueues, modifyPage, PageMetadata.marked_of_queues hqueues]
    · have hnot : ¬ (a.pages index).Queues := fun h => hflight h.2
      simp [hzero, hflight, if_neg hnot, modifyPage, PageMetadata.marked_of_inflight hzero hflight]

variable (a : PageAllocator) (index epoch : Nat) (f : PageMetadata -> PageMetadata)

@[simp] theorem settle_pages :
    (a.settle index epoch f).pages =
      Function.update a.pages index ((f (a.pages index)).marked epoch) := by
  simp [settle, markForReclaimIfUnowned_eq]

@[simp] theorem settle_totalPages : (a.settle index epoch f).totalPages = a.totalPages := by
  simp [settle, markForReclaimIfUnowned_eq]

@[simp] theorem settle_pageSize : (a.settle index epoch f).pageSize = a.pageSize := by
  simp [settle, markForReclaimIfUnowned_eq]

@[simp] theorem settle_readyFree : (a.settle index epoch f).readyFree = a.readyFree := by
  simp [settle, markForReclaimIfUnowned_eq]

@[simp] theorem settle_currentEpoch : (a.settle index epoch f).currentEpoch = a.currentEpoch := by
  simp [settle, markForReclaimIfUnowned_eq]

theorem settle_reclaimHeap :
    (a.settle index epoch f).reclaimHeap = if (f (a.pages index)).Queues then
        heappush a.reclaimHeap
          { epoch := requiredEpoch (f (a.pages index)).pendingFreeEpoch epoch
            index
            generation := (f (a.pages index)).generation }
      else
        a.reclaimHeap := by
  simp [settle, markForReclaimIfUnowned_eq]

end PageAllocator

/-!
## What no event changes
-/

namespace PageEvent

theorem startHead_totalPages (f : PageMetadata -> PageMetadata) :
    (startHead a f).totalPages = a.totalPages := by
  unfold startHead
  split <;> rfl

theorem popHeap_totalPages : (popHeap a).totalPages = a.totalPages := by
  unfold popHeap
  split
  · rfl
  · split <;> rfl

@[simp] theorem apply_totalPages (event : PageEvent) :
    (event.apply a).totalPages = a.totalPages := by
  cases event with
  | reserve | permanent => exact startHead_totalPages _
  | abandon | leave | drop => exact a.settle_totalPages _ _ _
  | reclaim => exact popHeap_totalPages
  | _ => rfl

@[simp] theorem applyAll_totalPages (events : List PageEvent) :
    (applyAll a events).totalPages = a.totalPages := by
  induction events generalizing a with
  | nil => rfl
  | cons event events ih => rw [applyAll_cons, ih, apply_totalPages]

end PageEvent

end Memory
end Ayaka
