import Ayaka.Memory.AllocatorRuns

/-!
# Atomicity of the batch methods

Five methods take a batch of handles and `allocate` takes a count.  A raising
call should leave the books as they were, and a returning call should move every
distinct handle once.  The methods check the whole batch first, and two of them
collapse repeated handles; this module says exactly when the others keep the
promise, and when `allocate` does.
-/

namespace Ayaka
namespace Memory

open Foundation
open PageAllocationState
open PageEvent

inductive BatchMethod where
  | commitReserved
  | rollbackReserved
  | abandonReserved (safeEpoch : Int)
  | markInflight
  | unmarkInflight
  deriving DecidableEq, Repr

namespace BatchMethod

def perform : BatchMethod -> List KVPageHandle -> AllocatorM Unit
  | commitReserved, pages => PageAllocator.commitReserved pages
  | rollbackReserved, pages => PageAllocator.rollbackReserved pages
  | abandonReserved safeEpoch, pages => PageAllocator.abandonReserved pages safeEpoch
  | markInflight, pages => PageAllocator.markInflight pages
  | unmarkInflight, pages => PageAllocator.unmarkInflight pages

def transition : BatchMethod -> KVPageHandle -> PageEvent
  | commitReserved, page => commit page.index
  | rollbackReserved, page => rollback page.index
  | abandonReserved safeEpoch, page => abandon page.index safeEpoch.toNat
  | markInflight, page => enter page.index
  | unmarkInflight, page => leave page.index

end BatchMethod

namespace PageAllocator

/-- All page metadata, the free queue and the reclaim heap are as before. -/
def Untouched (a b : PageAllocator) : Prop :=
  b.pages = a.pages ∧ b.readyFree = a.readyFree ∧ b.reclaimHeap = a.reclaimHeap

/-- A raising call changed nothing; a returning one made the transition of every
distinct handle once. -/
def BatchAtomic (a : PageAllocator) (method : BatchMethod) (pages : List KVPageHandle) : Prop :=
  match method.perform pages a with
  | .error _ b => a.Untouched b
  | .ok _ b => b = applyAll a ((uniquePages pages).map method.transition)

/-- A raising `allocate` changed nothing.  A returning one first reclaims what is
due; it then hands out nothing, or starts one lifetime on each of `numPages`
distinct slots, each with the handle it returns. -/
def AllocateAtomic (a : PageAllocator) (numPages : Int) : Prop :=
  match allocate numPages a with
  | .error _ b => a.Untouched b
  | .ok none b =>
    exists count, b = applyAll a (List.replicate count reclaim)
  | .ok (some handles) b =>
    handles.length = numPages.toNat ∧ (handles.map fun h => h.index).Nodup ∧
      (forall h, h ∈ handles -> b.ReservedOnce h ∧
        h.generation = (a.pages h.index).generation + 1) ∧
      exists count, b = applyAll a
        (List.replicate count reclaim ++
          List.replicate handles.length reserve)

/-- The batch passes the checks of a method that does not collapse repetitions,
and repeats a handle.  Abandoning a page a second time while a step still
accesses it changes nothing more. -/
def CountsTwice (a : PageAllocator) (pages : List KVPageHandle) : BatchMethod -> Prop
  | .commitReserved =>
    (forall h, h ∈ pages -> a.ReservedOnce h) ∧ ¬ pages.Nodup
  | .rollbackReserved =>
    (forall h, h ∈ pages -> a.ReservedOnce h ∧ (a.pages h.index).inflightRefs = 0) ∧
      ¬ pages.Nodup
  | .abandonReserved safeEpoch =>
    0 ≤ safeEpoch ∧ (forall h, h ∈ pages -> a.ReservedOnce h) ∧
      exists h, 2 ≤ pages.count h ∧ (a.pages h.index).inflightRefs = 0
  | .markInflight => False
  | .unmarkInflight => False

/-!
## Repeated handles
-/

variable {a : PageAllocator} {pages : List KVPageHandle}

theorem uniquePages_of_nodup (h : pages.Nodup) : uniquePages pages = pages := by
  unfold uniquePages
  rw [(List.nodup_reverse.mpr h).dedup, List.reverse_reverse]

theorem uniquePages_append (pages : List KVPageHandle) (page : KVPageHandle) :
    uniquePages (pages ++ [page]) =
      if page ∈ pages then uniquePages pages else uniquePages pages ++ [page] := by
  unfold uniquePages
  rw [List.reverse_append, List.reverse_singleton, List.singleton_append]
  split
  · rename_i hmem
    rw [List.dedup_cons_of_mem (List.mem_reverse.mpr hmem)]
  · rename_i hmem
    rw [List.dedup_cons_of_notMem (fun h => hmem (List.mem_reverse.mp h)), List.reverse_cons]

variable {page : KVPageHandle}

/-- A repeated handle counts more often in the batch than among its distinct
handles. -/
theorem count_index_lt (hcurrent : forall h, h ∈ pages -> a.Current h)
    (htwice : 2 ≤ pages.count page) :
    ((uniquePages pages).map fun h => h.index).count page.index <
      (pages.map fun h => h.index).count page.index := by
  have hunique : ((uniquePages pages).map fun h => h.index).Nodup :=
    indices_nodup (fun h hh => hcurrent h (mem_uniquePages.mp hh)) (uniquePages_nodup pages)
  have honce := List.nodup_iff_count_le_one.mp hunique page.index
  have hmap : pages.count page ≤ (pages.map fun h => h.index).count page.index :=
    List.count_le_count_map
  omega

theorem exists_count_of_not_nodup (h : ¬ pages.Nodup) : exists page, 2 ≤ pages.count page := by
  by_contra hnone
  apply h
  rw [List.nodup_iff_count_le_one]
  intro page
  by_contra _
  exact hnone ⟨page, by omega⟩

theorem raised_untouched (method : BatchMethod)
    (h : exists e, method.perform pages a = .error e a) : a.BatchAtomic method pages := by
  rcases h with ⟨e, he⟩
  unfold BatchAtomic
  rw [he]
  exact ⟨rfl, rfl, rfl⟩

theorem returned_atomic (method : BatchMethod) (h : method.perform pages a = .ok () b) :
    a.BatchAtomic method pages <-> b = applyAll a ((uniquePages pages).map method.transition) := by
  unfold BatchAtomic
  rw [h]

/-!
## Committing and rolling back
-/

theorem commits_requestRefs (pages : List KVPageHandle) (a : PageAllocator) (index : Nat) :
    ((applyAll a (pages.map fun h => commit h.index)).pages index).requestRefs =
      (a.pages index).requestRefs + (pages.map fun h => h.index).count index := by
  induction pages generalizing a with
  | nil => rfl
  | cons page rest ih =>
    rw [List.map_cons, applyAll_cons, ih, List.map_cons, List.count_cons]
    by_cases hindex : index = page.index
    · simp [apply, hindex]
      omega
    · have hne : ¬ page.index = index := fun h => hindex h.symm
      simp [apply, hindex, hne]

theorem commitReserved_atomic :
    a.BatchAtomic .commitReserved pages <-> ¬ a.CountsTwice pages .commitReserved := by
  by_cases hvalid : forall h, h ∈ pages -> a.ReservedOnce h
  · rw [returned_atomic .commitReserved (commitReserved_run hvalid)]
    constructor
    · intro heq htwice
      rcases exists_count_of_not_nodup htwice.2 with ⟨page, hcount⟩
      have hrefs := congrArg (fun b => (b.pages page.index).requestRefs) heq
      change ((applyAll a (pages.map fun h => commit h.index)).pages _).requestRefs =
        ((applyAll a ((uniquePages pages).map fun h => commit h.index)).pages
          _).requestRefs at hrefs
      rw [commits_requestRefs, commits_requestRefs] at hrefs
      have hlt := count_index_lt (fun h hh => (hvalid h hh).1) hcount
      omega
    · intro honce
      rw [uniquePages_of_nodup (not_not.mp fun hnodup => honce ⟨hvalid, hnodup⟩)]
      rfl
  · constructor
    · intro _ htwice
      exact hvalid htwice.1
    · intro _
      exact raised_untouched .commitReserved (commitReserved_error hvalid)

/-- Over a batch that repeats a slot the loop of `rollback_reserved` raises.  Its
first page is free by then, and what was free stays free. -/
theorem rollbackLoop_repeated (hsound : Sound a) (h : forall h, h ∈ pages -> a.RollbackReady h)
    (hrepeat : (exists h, h ∈ pages ∧ (a.pages h.index).allocationState = free) ∨
      ¬ (pages.map fun h => h.index).Nodup) :
    exists e b, pages.forM rollbackOne a = .error e b ∧
      (forall h, pages.head? = some h -> (b.pages h.index).allocationState = free) ∧
      forall index, (a.pages index).allocationState = free ->
        (b.pages index).allocationState = free := by
  induction pages generalizing a with
  | nil => simp at hrepeat
  | cons page rest ih =>
    have hready := h page (by simp)
    rw [forM_cons_run]
    rcases hready.2 with ⟨hstate, hflight⟩ | hstate
    · have henabled : (rollback page.index).Enabled True a :=
        ⟨hready.1, hstate, hflight⟩
      rw [bind_run_ok _ (rollbackOne_run hsound hready.1 hstate hflight)]
      have hfreed : forall index, (a.pages index).allocationState = free ∨ index = page.index ->
            (((rollback page.index).apply a).pages index).allocationState = free := by
        intro index hcase
        by_cases hindex : index = page.index
        · simp [apply, hindex]
        · rw [rollback_apply_other hindex]
          exact hcase.resolve_right hindex
      have hrest : forall h, h ∈ rest -> ((rollback page.index).apply a).RollbackReady h := by
        intro other hother
        have hbefore := h other (by simp [hother])
        by_cases hindex : other.index = page.index
        · exact ⟨by simpa [apply] using hbefore.1,
            .inr (hfreed _ (.inr hindex))⟩
        · unfold RollbackReady
          rw [rollback_apply_other hindex]
          exact ⟨by simpa [apply] using hbefore.1, hbefore.2⟩
      have hagain : (exists h, h ∈ rest ∧
          (((rollback page.index).apply a).pages h.index).allocationState = free) ∨
            ¬ (rest.map fun h => h.index).Nodup := by
        rcases hrepeat with ⟨other, hmem, hfree⟩ | hrepeat
        · rcases List.mem_cons.mp hmem with heq | hmem
          · rw [heq, hstate] at hfree
            cases hfree
          · exact .inl ⟨other, hmem, hfreed _ (.inl hfree)⟩
        · rw [List.map_cons, List.nodup_cons, not_and_or, not_not, List.mem_map] at hrepeat
          rcases hrepeat with ⟨other, hmem, hindex⟩ | hagain
          · exact .inl ⟨other, hmem, hfreed _ (.inr hindex)⟩
          · exact .inr hagain
      rcases ih (hsound.event henabled) hrest hagain with ⟨e, b, hrun, _, hkept⟩
      refine ⟨e, b, hrun, ?_, fun index hfree => hkept index (hfreed index (.inl hfree))⟩
      intro first hfirst
      cases hfirst
      exact hkept _ (hfreed _ (.inr rfl))
    · rcases rollbackOne_freed hsound hready.1 hstate with ⟨e, he⟩
      rw [bind_run_error _ he]
      refine ⟨e, a, rfl, ?_, fun _ hfree => hfree⟩
      intro first hfirst
      cases hfirst
      exact hstate

theorem rollbackReserved_repeated (hsound : Sound a)
    (hvalid : forall h, h ∈ pages -> a.ReservedOnce h ∧ (a.pages h.index).inflightRefs = 0)
    (hrepeat : ¬ pages.Nodup) : ¬ a.BatchAtomic .rollbackReserved pages := by
  have hindices : ¬ (pages.map fun h => h.index).Nodup := fun h => hrepeat h.of_map
  have hready : forall h, h ∈ pages -> a.RollbackReady h := by
    intro h hh
    exact ⟨(hvalid h hh).1.1.1, .inl ⟨(hvalid h hh).1.2.1, (hvalid h hh).2⟩⟩
  rcases rollbackLoop_repeated hsound hready (.inr hindices) with ⟨e, b, hrun, hhead, _⟩
  have hresult : BatchMethod.rollbackReserved.perform pages a = .error e b := by
    change rollbackReserved pages a = _
    rw [rollbackReserved_eq, query_bind_run, validateRollbackReserved_eq_ok_iff.mpr hvalid]
    exact hrun
  unfold BatchAtomic
  rw [hresult]
  intro huntouched
  cases pages with
  | nil => exact hrepeat List.nodup_nil
  | cons page rest =>
    have hfree := hhead page rfl
    rw [huntouched.1, (hvalid page (by simp)).1.2.1] at hfree
    cases hfree

theorem rollbackReserved_atomic (hsound : Sound a) :
    a.BatchAtomic .rollbackReserved pages <-> ¬ a.CountsTwice pages .rollbackReserved := by
  constructor
  · intro hatomic htwice
    exact rollbackReserved_repeated hsound htwice.1 htwice.2 hatomic
  · intro honce
    by_cases hvalid :
        forall h, h ∈ pages -> a.ReservedOnce h ∧ (a.pages h.index).inflightRefs = 0
    · have hnodup : pages.Nodup := not_not.mp fun hnodup => honce ⟨hvalid, hnodup⟩
      rw [returned_atomic .rollbackReserved
        (rollbackReserved_run True hsound hnodup hvalid).1, uniquePages_of_nodup hnodup]
      rfl
    · exact raised_untouched .rollbackReserved (rollbackReserved_error hvalid)

/-!
## Abandoning

A second abandonment of a page pushes a second heap record, unless a step still
accesses the page: then the first one has already left what the second would.
-/

/-- An abandoned page a step still accesses, with its epoch promised. -/
def Parked (epoch : Nat) (page : PageMetadata) : Prop :=
  page.ownershipRefs = 0 ∧ page.inflightRefs ≠ 0 ∧
    exists pending, page.pendingFreeEpoch = some pending ∧ epoch ≤ pending

theorem requiredEpoch_of_le (h : epoch ≤ pending) :
    requiredEpoch (some pending) epoch = pending := by
  unfold requiredEpoch
  dsimp only
  split <;> omega

theorem abandon_parked (h : Parked epoch (a.pages index)) : (abandon index epoch).apply a = a := by
  rcases h with ⟨hunowned, hflight, _, hpending, hle⟩
  have hreserved : (a.pages index).reservationRefs = 0 := by
    unfold PageMetadata.ownershipRefs at hunowned
    omega
  have hdrop := PageMetadata.dropReservation_eq_self hreserved
  have hmarked : (a.pages index).marked epoch = a.pages index := by
    rw [PageMetadata.marked_of_inflight hunowned hflight, hpending, requiredEpoch_of_le hle,
      <- hpending]
  have hqueues : ¬ (a.pages index).Queues := fun hqueues => hflight hqueues.2
  change (a.modifyPage index PageMetadata.dropReservation).markForReclaimIfUnowned index epoch = a
  rw [markForReclaimIfUnowned_eq]
  simp only [modifyPage, hdrop, hmarked, hqueues, if_false, Function.update_eq_self]

theorem abandon_parks (hunowned : (a.pages index).dropReservation.ownershipRefs = 0)
    (hflight : (a.pages index).inflightRefs ≠ 0) :
    Parked epoch (((abandon index epoch).apply a).pages index) := by
  have hpage : ((abandon index epoch).apply a).pages index =
      (a.pages index).dropReservation.marked epoch := by
    simp [apply]
  rw [hpage, PageMetadata.marked_of_inflight hunowned hflight]
  refine ⟨hunowned, hflight, _, rfl, ?_⟩
  unfold requiredEpoch
  split
  · exact Nat.le_refl _
  · exact Nat.le_max_right _ _

theorem abandon_other (hne : other ≠ index) :
    ((abandon index epoch).apply a).pages other = a.pages other := by
  simp [apply, hne]

theorem abandons_parked (h : Parked epoch (a.pages page.index) ∨
    page ∈ pages ∧ (a.pages page.index).dropReservation.ownershipRefs = 0 ∧
    (a.pages page.index).inflightRefs ≠ 0) :
    Parked epoch ((applyAll a (pages.map fun h => abandon h.index epoch)).pages page.index) := by
  induction pages generalizing a with
  | nil =>
    rcases h with hparked | ⟨hmem, _⟩
    · exact hparked
    · cases hmem
  | cons first rest ih =>
    apply ih
    by_cases hindex : page.index = first.index
    · left
      rcases h with hparked | ⟨_, hunowned, hflight⟩
      · rw [hindex] at hparked ⊢
        rw [abandon_parked hparked]
        exact hparked
      · rw [hindex] at hunowned hflight ⊢
        exact abandon_parks hunowned hflight
    · rw [abandon_other hindex]
      rcases h with hparked | ⟨hmem, hpage⟩
      · exact .inl hparked
      · rcases List.mem_cons.mp hmem with heq | hmem
        · exact absurd (congrArg (fun h : KVPageHandle => h.index) heq) hindex
        · exact .inr ⟨hmem, hpage⟩

theorem dropped_unowned (hsound : Sound a) (h : a.ReservedOnce page) :
    (a.pages page.index).dropReservation.ownershipRefs = 0 := by
  have hreserved := (hsound.pages page.index h.1.1).of_reserved h.2.1
  simp [PageMetadata.ownershipRefs, hreserved.1, hreserved.2.1, hreserved.2.2.1]

theorem abandons_unique (hsound : Sound a) (hvalid : forall h, h ∈ pages -> a.ReservedOnce h)
    (honce : forall h, 2 ≤ pages.count h -> (a.pages h.index).inflightRefs ≠ 0) :
    applyAll a (pages.map fun h => abandon h.index epoch) =
      applyAll a ((uniquePages pages).map fun h => abandon h.index epoch) := by
  induction pages using List.reverseRecOn with
  | nil => rfl
  | append_singleton rest page ih =>
    have hrest := ih (fun h hh => hvalid h (by simp [hh]))
      (fun h hh => honce h (by rw [List.count_append]; omega))
    rw [List.map_append, applyAll_append, hrest, uniquePages_append]
    split
    · rename_i hmem
      have htwice : 2 ≤ (rest ++ [page]).count page := by
        have hpos := List.count_pos_iff.mpr hmem
        rw [List.count_append, List.count_singleton_self]
        omega
      have hparked : Parked epoch ((applyAll a ((uniquePages rest).map fun h =>
          abandon h.index epoch)).pages page.index) :=
        abandons_parked (.inr ⟨mem_uniquePages.mpr hmem,
          dropped_unowned hsound (hvalid page (by simp)), honce page htwice⟩)
      exact abandon_parked hparked
    · rw [List.map_append, applyAll_append]

theorem abandons_records (hunowned : (a.pages index).dropReservation.ownershipRefs = 0)
    (hflight : (a.pages index).inflightRefs = 0) :
    (applyAll a (pages.map fun h => abandon h.index epoch)).reclaimHeap.countP
        (fun entry => decide (entry.index = index)) =
      a.reclaimHeap.countP (fun entry => decide (entry.index = index)) +
        (pages.map fun h => h.index).count index := by
  induction pages generalizing a with
  | nil => rfl
  | cons first rest ih =>
    rw [List.map_cons, applyAll_cons, List.map_cons, List.count_cons]
    by_cases hindex : index = first.index
    · have hqueues : (a.pages first.index).dropReservation.Queues := by
        rw [hindex] at hunowned hflight
        exact ⟨hunowned, hflight⟩
      have hpage : ((abandon first.index epoch).apply a).pages index =
          (a.pages first.index).dropReservation.marked epoch := by
        simp [apply, hindex]
      rw [PageMetadata.marked_of_queues hqueues] at hpage
      rw [ih (by rw [hpage]; exact hqueues.1) (by rw [hpage]; exact hqueues.2)]
      have hpush : ((abandon first.index epoch).apply a).reclaimHeap.countP
          (fun entry => decide (entry.index = index)) =
            a.reclaimHeap.countP (fun entry => decide (entry.index = index)) + 1 := by
        rw [apply, settle_reclaimHeap, if_pos hqueues,
          (heappush_perm _ _).countP_eq, List.countP_cons, if_pos (by simp [hindex])]
      rw [hpush]
      simp [hindex]
      omega
    · have hne : ¬ first.index = index := fun h => hindex h.symm
      rw [ih (by rw [abandon_other hindex]; exact hunowned)
        (by rw [abandon_other hindex]; exact hflight), apply, settle_reclaimHeap]
      split
      · rw [(heappush_perm _ _).countP_eq, List.countP_cons, if_neg (by simp [hne])]
        simp [hne]
      · simp [hne]

theorem abandonReserved_atomic (hsound : Sound a) :
    a.BatchAtomic (.abandonReserved safeEpoch) pages <->
      ¬ a.CountsTwice pages (.abandonReserved safeEpoch) := by
  by_cases hvalid : ¬ safeEpoch < 0 ∧ forall h, h ∈ pages -> a.ReservedOnce h
  · rw [returned_atomic (.abandonReserved safeEpoch) (abandonReserved_run hvalid.1 hvalid.2)]
    change applyAll a (pages.map fun h => abandon h.index safeEpoch.toNat) =
      applyAll a ((uniquePages pages).map fun h => abandon h.index safeEpoch.toNat) <-> _
    constructor
    · rintro heq ⟨_, _, page, htwice, hflight⟩
      have hmem : page ∈ pages := List.count_pos_iff.mp (by omega)
      have hunowned := dropped_unowned hsound (hvalid.2 page hmem)
      have hrecords := congrArg (fun b : PageAllocator => b.reclaimHeap.countP
        (fun entry => decide (entry.index = page.index))) heq
      rw [abandons_records hunowned hflight, abandons_records hunowned hflight] at hrecords
      have hlt := count_index_lt (fun h hh => (hvalid.2 h hh).1) htwice
      omega
    · intro honce
      apply abandons_unique hsound hvalid.2
      intro page htwice hflight
      exact honce ⟨by omega, hvalid.2, page, htwice, hflight⟩
  · constructor
    · rintro _ ⟨_, hall, _⟩
      exact hvalid ⟨by omega, hall⟩
    · intro _
      rw [not_and_or, not_not] at hvalid
      exact raised_untouched (.abandonReserved safeEpoch) (abandonReserved_error hvalid)

/-- A batch is atomic unless it makes a method move one handle twice. -/
theorem batchAtomic_iff (hsound : Sound a) (method : BatchMethod) :
    a.BatchAtomic method pages <-> ¬ a.CountsTwice pages method := by
  cases method with
  | commitReserved => exact commitReserved_atomic
  | rollbackReserved => exact rollbackReserved_atomic hsound
  | abandonReserved safeEpoch => exact abandonReserved_atomic hsound
  | markInflight =>
    refine iff_of_true ?_ not_false
    by_cases hvalid : forall h, h ∈ pages -> a.Steppable h
    · rw [returned_atomic .markInflight (markInflight_run hvalid)]
      rfl
    · exact raised_untouched .markInflight (markInflight_error hvalid)
  | unmarkInflight =>
    refine iff_of_true ?_ not_false
    by_cases hvalid :
        forall h, h ∈ pages -> a.Steppable h ∧ 0 < (a.pages h.index).inflightRefs
    · rw [returned_atomic .unmarkInflight (unmarkInflight_run True hsound hvalid).1]
      rfl
    · exact raised_untouched .unmarkInflight (unmarkInflight_error hvalid)

/-!
## Allocating
-/

/-- The slots whose reclamation is due, in the order they are freed.  A slot with
several records is freed by the first. -/
def dueFree (a : PageAllocator) : List Nat :=
  ((a.reclaimHeap.filter fun entry =>
    decide (entry.epoch ≤ a.currentEpoch) && a.entryCurrent entry).map
      ReclaimEntry.index).eraseDups

/-- The slots `allocate` draws from, in order. -/
def nextFree (a : PageAllocator) : List Nat :=
  a.readyFree ++ a.dueFree

/-- Too few slots are free, or none of those taken has used up its generations. -/
def Unspent (a : PageAllocator) (numPages : Int) : Prop :=
  a.nextFree.length < numPages.toNat ∨
    forall index, index ∈ a.nextFree.take numPages.toNat ->
      (a.pages index).generation < maxHandleGeneration

theorem popHeap_entryCurrent (hheap : a.reclaimHeap = entry :: rest)
    (hcurrent : a.entryCurrent entry = true) (other : ReclaimEntry) :
    (popHeap a).entryCurrent other = (a.entryCurrent other && !(other.index == entry.index)) := by
  rw [Bool.eq_iff_iff, Bool.and_eq_true, entryCurrent_iff, entryCurrent_iff]
  unfold popHeap
  rw [hheap]
  dsimp only
  rw [if_pos hcurrent]
  by_cases hindex : other.index = entry.index
  · simp [hindex]
  · simp [hindex]

theorem reclaim_nextFree {repeated : Prop} (h : reclaim.Enabled repeated a) :
    (reclaim.apply a).nextFree = a.nextFree := by
  rcases h with ⟨entry, rest, hheap, hdue⟩
  change (popHeap a).nextFree = a.nextFree
  by_cases hcurrent : a.entryCurrent entry = true
  · unfold nextFree dueFree
    rw [popHeap_currentEpoch, popHeap_reclaimHeap hheap, popHeap_readyFree hheap hcurrent, hheap,
      List.filter_cons_of_pos (by simp [hdue, hcurrent]), List.map_cons, List.eraseDups_cons,
      List.filter_map, List.filter_filter, List.append_assoc, List.singleton_append]
    congr 5
    funext other
    rw [popHeap_entryCurrent hheap hcurrent, <- Bool.and_assoc, Bool.and_comm]
    rfl
  · have hpop : popHeap a = { a with reclaimHeap := rest } := by
      unfold popHeap
      rw [hheap]
      exact if_neg hcurrent
    have hskip : (decide (entry.epoch ≤ a.currentEpoch) && a.entryCurrent entry) = false := by
      simp [hcurrent]
    unfold nextFree dueFree
    rw [hpop, hheap, List.filter_cons_of_neg (by simp [hskip])]
    rfl

theorem reclaims_nextFree {repeated : Prop} (h : Legal repeated a (List.replicate count reclaim)) :
    (applyAll a (List.replicate count reclaim)).nextFree = a.nextFree := by
  induction count generalizing a with
  | zero => rfl
  | succ count ih =>
    rw [List.replicate_succ, applyAll_cons, ih h.2, reclaim_nextFree h.1]

theorem dueFree_of_late (h : forall entry, entry ∈ a.reclaimHeap -> a.currentEpoch < entry.epoch) :
    a.dueFree = [] := by
  unfold dueFree
  rw [List.filter_eq_nil_iff.mpr]
  · rfl
  · intro entry hentry
    have _ := h entry hentry
    simp only [Bool.and_eq_true, decide_eq_true_eq, not_and]
    omega

theorem reclaims_currentEpoch (a : PageAllocator) (count : Nat) :
    (applyAll a (List.replicate count reclaim)).currentEpoch = a.currentEpoch := by
  induction count generalizing a with
  | zero => rfl
  | succ count ih =>
    rw [List.replicate_succ, applyAll_cons, ih]
    exact popHeap_currentEpoch a

theorem Reclaimed.nextFree {repeated : Prop} (h : Reclaimed repeated a b) :
    b.readyFree = a.nextFree := by
  rcases h.events with ⟨count, rfl, hlegal⟩
  have hdue := dueFree_of_late (a := applyAll a (List.replicate count reclaim)) (by
    rw [reclaims_currentEpoch]
    exact h.late)
  have hnext := reclaims_nextFree hlegal
  unfold PageAllocator.nextFree at hnext
  rw [hdue, List.append_nil] at hnext
  exact hnext

/-- Reserving and losing slots leaves the heap alone, and a lost slot shortens
the queue. -/
theorem reserves_frame (a : PageAllocator) (count : Nat) :
    (applyAll a (List.replicate count reserve)).reclaimHeap = a.reclaimHeap ∧
      (applyAll a (List.replicate count reserve)).readyFree.length ≤ a.readyFree.length := by
  induction count generalizing a with
  | zero => exact ⟨rfl, Nat.le_refl _⟩
  | succ count ih =>
    have hstep : (reserve.apply a).reclaimHeap = a.reclaimHeap ∧
        (reserve.apply a).readyFree.length ≤ a.readyFree.length := by
      change (startHead a _).reclaimHeap = _ ∧ (startHead a _).readyFree.length ≤ _
      unfold startHead
      split
      · exact ⟨rfl, Nat.le_refl _⟩
      · rename_i hready
        exact ⟨rfl, by simp [hready]⟩
    exact ⟨(ih _).1.trans hstep.1, (ih _).2.trans hstep.2⟩

section Outcomes

variable {b c : PageAllocator} {handles : List KVPageHandle} {repeated : Prop}

section

variable (h : Allocated repeated a b handles c)
include h

theorem Allocated.taken : a.nextFree.take handles.length = handles.map fun h => h.index := by
  rcases h.reclaims with ⟨_, hb, hlegal⟩
  have hlength := h.take_length
  rw [List.length_take] at hlength
  rw [h.slots, <- reclaims_nextFree hlegal, <- hb]
  exact List.take_append_of_le_length (by omega)

theorem Allocated.reservedOnce (hsound : Sound a) (hmem : handle ∈ handles) :
    c.ReservedOnce handle := by
  have hslot : handle.index ∈ b.readyFree.take handles.length := by
    rw [<- h.slots]
    exact List.mem_map_of_mem hmem
  have hbound := (h.sound_reclaimed hsound).ready_lt _ (List.mem_of_mem_take hslot)
  have hpage := h.pages hsound handle.index
  rw [if_pos hslot] at hpage
  refine ⟨⟨?_, ?_, ?_⟩, ?_, ?_⟩
  · rw [h.final, applyAll_totalPages]
    exact hbound
  · rw [hpage, h.generations handle hmem]
    rfl
  · simp [hpage]
  · simp [hpage]
  · simp [hpage]

theorem Allocated.atomic (hsound : Sound a) :
    (handles.map fun h => h.index).Nodup ∧ (forall h, h ∈ handles -> c.ReservedOnce h ∧
        h.generation = (a.pages h.index).generation + 1) ∧
      exists count, c = applyAll a (List.replicate count reclaim ++
          List.replicate handles.length reserve) := by
  refine ⟨?_, ?_, ?_⟩
  · rw [h.slots]
    exact (h.sound_reclaimed hsound).ready_nodup.sublist (List.take_sublist _ _)
  · intro handle hmem
    refine ⟨h.reservedOnce hsound hmem, ?_⟩
    rw [h.generations handle hmem, h.generation_reclaimed]
  · rcases h.reclaims with ⟨count, hb, _⟩
    refine ⟨count, ?_⟩
    rw [applyAll_append, <- hb]
    exact h.final

theorem Allocated.unspent :
    forall index, index ∈ a.nextFree.take handles.length ->
      (a.pages index).generation < maxHandleGeneration := by
  intro index hmem
  rw [h.taken] at hmem
  rcases List.mem_map.mp hmem with ⟨handle, hhandle, rfl⟩
  have hissued := h.generations handle hhandle
  rw [h.generation_reclaimed] at hissued
  have hle := handle.generation_le
  omega

end

/-- Losing a slot shows: either something was due and left the heap, or the queue
is shorter than before. -/
theorem not_untouched_of_lost {reserved lost : Nat} (hreclaimed : Reclaimed repeated a b)
    (hready : b.readyFree ≠ []) (hlost : 0 < lost) :
    ¬ a.Untouched (applyAll b (List.replicate reserved reserve ++ [lose lost])) := by
  rw [applyAll_append]
  rintro ⟨_, hqueue, hheap⟩
  have hframe := reserves_frame b reserved
  have hsame : b.reclaimHeap = a.reclaimHeap := hframe.1.symm.trans hheap
  have hnext := hreclaimed.nextFree
  have hdue : a.dueFree = [] := dueFree_of_late (by
    rw [<- hsame]
    exact hreclaimed.late)
  unfold nextFree at hnext
  rw [hdue, List.append_nil] at hnext
  have hlength := congrArg List.length hqueue
  change ((applyAll b (List.replicate reserved reserve)).readyFree.drop lost).length = _ at hlength
  rw [List.length_drop, <- hnext] at hlength
  have hpos := List.length_pos_iff.mpr hready
  omega

end Outcomes

theorem allocateAtomic_iff (hsound : Sound a) (numPages : Int) :
    a.AllocateAtomic numPages <-> a.Unspent numPages := by
  by_cases hneg : numPages < 0
  · rcases allocate_negative hneg with ⟨_, he⟩
    refine iff_of_true ?_ (.inr ?_)
    · unfold AllocateAtomic
      rw [he]
      exact ⟨rfl, rfl, rfl⟩
    · rw [Int.toNat_of_nonpos (by omega), List.take_zero]
      simp
  · lift numPages to Nat using (by omega) with count
    have houtcome := allocate_outcome True hsound count
    unfold AllocateAtomic Unspent
    generalize allocate count a = result at houtcome ⊢
    cases houtcome with
    | refused hreclaimed hshort =>
      rcases hreclaimed.events with ⟨reclaimed, hb, _⟩
      rw [hreclaimed.nextFree] at hshort
      exact iff_of_true ⟨reclaimed, hb⟩ (.inl hshort)
    | granted hallocated hlength =>
      refine iff_of_true ⟨hlength, hallocated.atomic hsound⟩ (.inr ?_)
      rw [<- hlength]
      exact hallocated.unspent
    | exhausted hreclaimed _ hlost hlength hspent =>
      rcases hspent with ⟨index, hmem, _⟩
      refine iff_of_false
        (not_untouched_of_lost hreclaimed (List.ne_nil_of_mem (List.mem_of_mem_take hmem)) hlost)
        ?_
      rw [hreclaimed.nextFree] at hlength hmem
      rintro (hshort | hfresh)
      · omega
      · have hlt := hfresh index hmem
        omega

end PageAllocator

open PageAllocator in
/-- In every state an allocator can reach, a batch is atomic exactly when no
method counts a handle of it twice, and `allocate` is exactly when no slot it
takes has used up its generations. -/
theorem batches_atomic_iff (totalPages pageSize : Nat) (calls : List AllocatorCall) :
    let a := AllocatorCall.run (PageAllocator.make totalPages pageSize) calls
    (forall method pages, a.BatchAtomic method pages <-> ¬ a.CountsTwice pages method) ∧
      forall numPages, a.AllocateAtomic numPages <-> a.Unspent numPages := by
  intro a
  have hsound : Sound a :=
    AllocatorCall.run_preserves Sound (fun _ call _ h => AllocatorCall.step_sound h call)
      (AllocatorCall.make_sound totalPages pageSize)
  exact ⟨fun method _ => batchAtomic_iff hsound method, allocateAtomic_iff hsound⟩

open PageAllocator in
/-- Rolling back a fresh page named twice raises after the page was freed. -/
theorem rollbackReserved_named_twice :
    let page : KVPageHandle := Handle.first HandleKind.kvPage 0
    let a := AllocatorCall.run (PageAllocator.make 1 1) [AllocatorCall.allocate 1]
    ¬ a.BatchAtomic BatchMethod.rollbackReserved [page, page] := by
  intro page a hatomic
  have hpages : a.pages 0 = (finalState (rollbackReserved [page, page] a)).pages 0 :=
    (congrFun hatomic.1 0).symm
  exact absurd hpages (by decide)

end Memory
end Ayaka
