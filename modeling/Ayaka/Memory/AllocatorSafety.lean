import Ayaka.Memory.AllocatorRuns

/-!
# The allocator's self-check over whole runs

`assert_invariants` accepts every state that a run reaches without taking a slot
whose generation space is spent.  Taking such a slot raises after the ready queue
has already been popped, and the slot is then free but in no queue.
-/

namespace Ayaka
namespace Memory

open Foundation
open PageAllocationState
open PageEvent (Legal applyAll)
open PageAllocator (make modifyPage release)
open PageMetadata (freed ownershipRefs reserve totalRefs)
open AllocatorCall (allocate run)

namespace PageAllocator

/-!
## From the invariants to the self-check
-/

theorem raiseIf_eq_ok {condition : Prop} [Decidable condition] (message : String)
    (h : ¬ condition) : raiseIf condition message = .ok () := by
  unfold raiseIf
  rw [if_neg h]

theorem countP_states (pages : Nat -> PageMetadata) (slots : List Nat) :
    slots.countP (fun i => decide ((pages i).allocationState = free)) +
      slots.countP (fun i => decide ((pages i).allocationState = reserved)) +
      slots.countP (fun i => decide ((pages i).allocationState = live)) +
      slots.countP (fun i => decide ((pages i).allocationState = reclaimPending)) +
      slots.countP (fun i => decide ((pages i).allocationState = permanent)) =
    slots.length := by
  induction slots with
  | nil => rfl
  | cons i rest ih =>
    simp only [List.countP_cons, List.length_cons]
    cases (pages i).allocationState <;> simp <;> omega

/-- The five states partition the slots. -/
theorem snapshot_partition (a : PageAllocator) :
    a.snapshot.freePages + a.snapshot.reservedPages + a.snapshot.livePages +
      a.snapshot.reclaimPendingPages + a.snapshot.permanentPages = a.totalPages := by
  have h := countP_states a.pages (List.range a.totalPages)
  rw [List.length_range] at h
  exact h

variable {a : PageAllocator}

theorem filter_entryCurrent (hexact : HeapExact a) :
    a.reclaimHeap.filter a.entryCurrent = a.reclaimHeap :=
  List.filter_eq_self.mpr hexact.current

theorem heap_length (hexact : HeapExact a) :
    a.reclaimHeap.length = a.countState reclaimPending := by
  have hperm : (a.reclaimHeap.map ReclaimEntry.index).Perm
      ((List.range a.totalPages).filter fun i =>
        decide ((a.pages i).allocationState = reclaimPending)) := by
    rw [List.perm_ext_iff_of_nodup hexact.nodup (List.nodup_range.filter _)]
    intro i
    simp only [List.mem_map, List.mem_filter, List.mem_range, decide_eq_true_eq]
    constructor
    · rintro ⟨entry, hentry, hindex⟩
      have hcurrent := entryCurrent_iff.mp (hexact.current entry hentry)
      rw [hindex] at hcurrent
      exact ⟨hcurrent.1, hcurrent.2.2.1⟩
    · rintro ⟨hlt, hstate⟩
      exact hexact.covers i hlt hstate
  have hlength := hperm.length_eq
  rw [List.length_map, <- List.countP_eq_length_filter] at hlength
  exact hlength

theorem heap_nodup (hexact : HeapExact a) : a.reclaimHeap.Nodup :=
  hexact.nodup.of_map _

theorem assertPage_eq_ok (hsound : Sound a) (htight : Tight a)
    (hindex : index < a.totalPages) : a.assertPage index = .ok () := by
  have hpage := hsound.pages index hindex
  have hready : (a.pages index).allocationState ≠ free -> index ∉ a.readyFree :=
    fun hne hmem => hne (hsound.ready_free index hmem)
  have htokens := raiseIf_eq_ok "invalid page token count" (Nat.not_lt.mpr hpage.valid)
  unfold assertPage
  simp only [htokens]
  cases hstate : (a.pages index).allocationState with
  | free =>
    have hmem := htight index hindex hstate
    have hclear := hpage.of_free hstate
    simp [raiseIf, hmem, hclear, bind, Except.bind, pure, Except.pure]
  | reserved =>
    have hfacts := hpage.of_reserved hstate
    have hnot := hready (by simp [hstate])
    have howned : (a.pages index).reservationRefs = 0 ∨
        (a.pages index).reservationRefs = 1 := by omega
    have hunowned : (a.pages index).reservationRefs = 0 ->
        0 < (a.pages index).inflightRefs ∧ (a.pages index).pendingFreeEpoch ≠ none := by
      intro hzero
      have hnone : (a.pages index).ownershipRefs = 0 := by
        simp [ownershipRefs, hfacts, hzero]
      exact ⟨hpage.unowned hnone (.inl hstate),
        hpage.required hnone (by simp [hstate]) (by simp [hstate])⟩
    have hstep := raiseIf_eq_ok "unowned reserved page is not in flight"
      (show ¬ ((a.pages index).reservationRefs = 0 ∧ ¬ (0 < (a.pages index).inflightRefs ∧
        (a.pages index).pendingFreeEpoch ≠ none)) from fun h => h.2 (hunowned h.1))
    have hcount := raiseIf_eq_ok "invalid reserved-page owner count"
      (show ¬ ¬ _ from not_not.mpr howned)
    simp only [hstep, hcount]
    simp [raiseIf, hnot, hfacts, bind, Except.bind]
  | live =>
    have hres := hpage.of_live hstate
    have hnot := hready (by simp [hstate])
    have hstep := raiseIf_eq_ok "unowned live page is not deferred"
      (show ¬ ((a.pages index).ownershipRefs = 0 ∧ ¬ (0 < (a.pages index).inflightRefs ∧
        (a.pages index).pendingFreeEpoch ≠ none)) from fun h =>
          h.2 ⟨hpage.unowned h.1 (.inr hstate),
            hpage.required h.1 (by simp [hstate]) (by simp [hstate])⟩)
    simp only [hstep]
    simp [raiseIf, hnot, hres, bind, Except.bind]
  | reclaimPending =>
    have htotal := hpage.of_pending hstate
    have hnot := hready (by simp [hstate])
    have hzero : (a.pages index).ownershipRefs = 0 := by
      unfold totalRefs at htotal
      omega
    have hpending := hpage.required hzero (by simp [hstate]) (by simp [hstate])
    simp [raiseIf, hnot, htotal, hpending, bind, Except.bind]
  | permanent =>
    have hfacts := hpage.of_permanent hstate
    have hnot := hready (by simp [hstate])
    simp [raiseIf, hnot, hfacts, bind, Except.bind]

theorem assertInvariants_eq_ok (hsound : Sound a) (hexact : HeapExact a) (htight : Tight a) :
    a.assertInvariants = .ok () := by
  have hpages : (List.range a.totalPages).forM a.assertPage = .ok () := by
    rw [forM_eq_ok_iff]
    intro _ hindex
    exact assertPage_eq_ok hsound htight (List.mem_range.mp hindex)
  have hpartition := a.snapshot_partition
  unfold assertInvariants
  simp [filter_entryCurrent hexact, (heap_nodup hexact).dedup, heap_length hexact,
    hsound.ready_nodup, raiseIf, hpages, hpartition, bind, Except.bind]

end PageAllocator

/-!
## Whole runs
-/

/-- Every part of the allocator agrees with every other. -/
structure Intact (a : PageAllocator) : Prop where
  sound : Sound a
  exact : HeapExact a
  tight : Tight a

namespace AllocatorCall

variable {a : PageAllocator}

theorem step_intact (h : Intact a) {call : AllocatorCall} (hbatch : call.batch.Nodup)
    (hfresh : call.Fresh a) : Intact (call.step a) := by
  rcases exists_performed False h.sound call (fun _ => hbatch) with ⟨_, hperformed⟩
  have hlossless := hperformed.lossless h.exact hfresh
  rw [hperformed.final]
  refine hperformed.legal.preserves Intact ?_ h
  intro a event hmem henabled ha
  refine ⟨ha.sound.event henabled, ha.exact.event ha.sound henabled, ha.tight.event henabled ?_⟩
  intro count heq
  rw [heq] at hmem
  exact hlossless count hmem

/-- No call of the run takes a slot whose generation space is spent. -/
def FreshRun : PageAllocator -> List AllocatorCall -> Prop
  | _, [] => True
  | a, call :: calls => call.Fresh a ∧ FreshRun (call.step a) calls

theorem run_intact (h : Intact a) (hbatches : forall call, call ∈ calls -> call.batch.Nodup)
    (hfresh : FreshRun a calls) : Intact (run a calls) := by
  induction calls generalizing a with
  | nil => exact h
  | cons call calls ih =>
    apply ih (step_intact h (hbatches call (by simp)) hfresh.1)
    · exact fun later hmem => hbatches later (by simp [hmem])
    · exact hfresh.2

theorem make_intact (totalPages pageSize : Nat) : Intact (make totalPages pageSize) :=
  ⟨make_sound _ _, make_heapExact _ _, make_tight _ _⟩

instance (a : PageAllocator) (call : AllocatorCall) : Decidable (call.Fresh a) :=
  match call with
  | reservePermanentPage => inferInstanceAs (Decidable (forall index, index ∈ _ -> _))
  | allocate _ =>
    inferInstanceAs (Decidable (_ ∨ forall index, index ∈ _ -> _))
  | commitReserved _ | rollbackReserved _ | abandonReserved _ _ | markInflight _
  | unmarkInflight _ | setValidTokens _ _ | acquireRequestRef _ | releaseRequestRef _ _
  | acquireCacheRef _ | releaseCacheRef _ _ | pinPage _ | unpinPage _ _ | advanceEpoch _
  | reclaimCompleted | validateRollbackReserved _ | validateReleaseRequestRefs _
  | getMeta _ | physicalId _ => inferInstanceAs (Decidable True)

instance FreshRun.decidable : (a : PageAllocator) -> (calls : List AllocatorCall) ->
    Decidable (FreshRun a calls)
  | _, [] => inferInstanceAs (Decidable True)
  | a, call :: calls =>
    have := FreshRun.decidable (call.step a) calls
    inferInstanceAs (Decidable (_ ∧ _))

end AllocatorCall

theorem assertInvariants_of_freshRun (totalPages pageSize : Nat) (calls : List AllocatorCall)
    (hbatches : forall call, call ∈ calls -> call.batch.Nodup)
    (hfresh : AllocatorCall.FreshRun (PageAllocator.make totalPages pageSize) calls) :
    let a := AllocatorCall.run (PageAllocator.make totalPages pageSize) calls
    a.assertInvariants = Except.ok () ∧
      a.snapshot.freePages + a.snapshot.reservedPages + a.snapshot.livePages +
        a.snapshot.reclaimPendingPages + a.snapshot.permanentPages = a.totalPages ∧
      a.readyFree.Nodup ∧
      (forall index, index ∈ a.readyFree <->
        index < a.totalPages ∧ (a.pages index).allocationState = free) ∧
      (forall index, index < a.totalPages ->
        (a.pages index).allocationState = reclaimPending ->
          (a.reclaimHeap.filter fun entry =>
            a.entryCurrent entry && decide (entry.index = index)).length = 1) := by
  have h := AllocatorCall.run_intact (AllocatorCall.make_intact totalPages pageSize)
    hbatches hfresh
  intro a
  refine ⟨PageAllocator.assertInvariants_eq_ok h.sound h.exact h.tight,
    a.snapshot_partition, h.sound.ready_nodup, ?_, ?_⟩
  · intro index
    constructor
    · exact fun hmem => ⟨h.sound.ready_lt index hmem, h.sound.ready_free index hmem⟩
    · exact fun hfree => h.tight index hfree.1 hfree.2
  · exact fun index hlt hstate => h.exact.unique_entry hlt hstate

/-- A page that is written, released for epoch three and then reclaimed. -/
theorem assertInvariants_of_freshRun_reclaimed :
    let page : KVPageHandle := Handle.first HandleKind.kvPage 0
    (AllocatorCall.run (PageAllocator.make 2 4)
      [AllocatorCall.allocate 1, AllocatorCall.commitReserved [page],
        AllocatorCall.releaseRequestRef page 3,
        AllocatorCall.advanceEpoch 3]).assertInvariants = Except.ok () :=
  (assertInvariants_of_freshRun 2 4 _ (by decide) (by decide)).1

/-!
## A spent generation space

`allocate` pops the ready queue first and checks the generation afterwards.
-/

/-- A one-page allocator whose page is free after `generation` lifetimes. -/
def idleSlot (generation : Nat) : PageAllocator :=
  (PageAllocator.make 1 1).modifyPage 0 fun page => { page with generation }

def slotHandle (generation : Nat) : KVPageHandle :=
  if h : 0 < generation ∧ generation ≤ maxHandleGeneration then
    { index := 0, generation, generation_pos := h.1, generation_le := h.2 }
  else
    Handle.first .kvPage 0

/-- One lifetime: allocate the page and roll it back. -/
def lifetime (generation : Nat) : List AllocatorCall :=
  [.allocate 1, .rollbackReserved [slotHandle generation]]

theorem idleSlot_sound (h : generation ≤ maxHandleGeneration) : Sound (idleSlot generation) := by
  constructor
  · intro index _
    by_cases hindex : index = 0
    · rw [hindex]
      constructor <;>
        simp [idleSlot, make, totalRefs, ownershipRefs, h]
    · constructor <;>
        simp [idleSlot, make, totalRefs, ownershipRefs, hindex]
  · exact List.nodup_range
  · simp [idleSlot, make]
  · simp [idleSlot, make]
  · simp [idleSlot, make]
  · simp [idleSlot, make]

theorem allocate_idleSlot (h : generation < maxHandleGeneration) :
    (allocate 1).step (idleSlot generation) = PageEvent.reserve.apply (idleSlot generation) := by
  have hreclaim : PageAllocator.reclaimCompletedLocked (idleSlot generation).currentEpoch
      (idleSlot generation) = .ok 0 (idleSlot generation) := rfl
  have hready : (idleSlot generation).readyFree = [0] ++ [] := rfl
  rcases PageAllocator.reserveSlots_run False (idleSlot_sound h.le) hready (fun _ _ => rfl)
    (by simpa [idleSlot] using h) with ⟨_, hloop, _⟩
  have _ : ¬ (idleSlot generation).readyFree.length < Int.toNat 1 := Nat.lt_irrefl 1
  refine (finalState_bind_pure _ _ _).trans ?_
  exact (finalState_bind_pure _ _ _).trans (congrArg finalState hloop)

theorem run_lifetime (h : generation < maxHandleGeneration) :
    run (idleSlot generation) (lifetime (generation + 1)) = idleSlot (generation + 1) := by
  have hhandle : slotHandle (generation + 1) =
      { index := 0
        generation := generation + 1
        generation_pos := Nat.succ_pos _
        generation_le := h } := by
    unfold slotHandle
    rw [dif_pos ⟨Nat.succ_pos _, h⟩]
  have henabled : PageEvent.reserve.Enabled False (idleSlot generation) := ⟨0, [], rfl, h⟩
  have hpage : (PageEvent.reserve.apply (idleSlot generation)).pages 0 =
      ((idleSlot generation).pages 0).reserve 0 := rfl
  have hreserved : forall page, page ∈ [slotHandle (generation + 1)] ->
      (PageEvent.reserve.apply (idleSlot generation)).ReservedOnce page ∧
        ((PageEvent.reserve.apply (idleSlot generation)).pages page.index).inflightRefs = 0 := by
    simp only [List.mem_singleton, forall_eq, hhandle, PageAllocator.ReservedOnce,
      PageAllocator.Current, hpage]
    exact ⟨⟨⟨Nat.zero_lt_one, by simp [idleSlot], by simp⟩, rfl, rfl⟩, rfl⟩
  rcases PageAllocator.rollbackReserved_run False ((idleSlot_sound h.le).event henabled)
    (List.nodup_singleton _) hreserved with ⟨hrun, _⟩
  change (AllocatorCall.rollbackReserved [slotHandle (generation + 1)]).step
    ((allocate 1).step (idleSlot generation)) = _
  rw [allocate_idleSlot h]
  refine (finalState_bind_pure _ _ _).trans ?_
  rw [hrun, hhandle]
  simp [PageEvent.apply, PageEvent.startHead, idleSlot, make, release,
    modifyPage, reserve, PageMetadata.startGeneration,
    freed, PageMetadata.dropReservation]

/-- Every lifetime the page's generation space has room for. -/
def lifetimes (count : Nat) : List AllocatorCall :=
  (List.range count).flatMap fun generation => lifetime (generation + 1)

theorem run_lifetimes (h : count ≤ maxHandleGeneration) :
    run (make 1 1) (lifetimes count) = idleSlot count := by
  induction count with
  | zero =>
    simp [lifetimes, run, idleSlot, make, modifyPage]
  | succ count ih =>
    have hsplit : lifetimes (count + 1) = lifetimes count ++ lifetime (count + 1) := by
      simp [lifetimes, List.range_succ]
    rw [hsplit, AllocatorCall.run_append, ih (by omega), run_lifetime (by omega)]

theorem lifetimes_batch_nodup (count : Nat) :
    forall call, call ∈ lifetimes count -> call.batch.Nodup := by
  intro call hmem
  simp only [lifetimes, lifetime, List.mem_flatMap, List.mem_cons, List.not_mem_nil,
    or_false] at hmem
  rcases hmem with ⟨_, _, heq | heq⟩
  · rw [heq]
    exact List.nodup_nil
  · rw [heq]
    exact List.nodup_singleton _

theorem assertInvariants_spent :
    let calls := lifetimes maxHandleGeneration ++ [AllocatorCall.allocate 1]
    (forall call, call ∈ calls -> call.batch.Nodup) ∧
      (AllocatorCall.run (PageAllocator.make 1 1) calls).assertInvariants =
        Except.error (Exc.invariantViolationError "free page missing from free queue") := by
  constructor
  · intro call hmem
    rw [List.mem_append, List.mem_singleton] at hmem
    rcases hmem with hmem | heq
    · exact lifetimes_batch_nodup _ call hmem
    · rw [heq]
      exact List.nodup_nil
  · rw [AllocatorCall.run_append, run_lifetimes (Nat.le_refl _)]
    decide

end Memory
end Ayaka
