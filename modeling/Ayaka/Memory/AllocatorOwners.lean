import Ayaka.Memory.AllocatorTrace

/-!
# Reservation, in-flight and reference methods as events

The batch methods validate every handle before the first change.  A batch may
still name one page twice; only `rollback_reserved` can then raise after a
change.
-/

namespace Ayaka
namespace Memory

open Foundation
open PageAllocationState

namespace PageAllocator

open EStateM (Result)
open PageEvent

variable {repeated : Prop} {a : PageAllocator} {pages : List KVPageHandle}
variable {handle : KVPageHandle}

section

variable (a : PageAllocator) (handle : KVPageHandle)
include handle

def ReservedOnce : Prop :=
  a.Current handle ∧ (a.pages handle.index).allocationState = reserved ∧
    (a.pages handle.index).reservationRefs = 1

/-- A current page a step may touch. -/
def Steppable : Prop :=
  a.Current handle ∧ (a.pages handle.index).Active

def Live : Prop :=
  a.Current handle ∧ (a.pages handle.index).allocationState = live

end

variable {alpha : Type} {validTokens : Int}

/-- Distinct handles of current pages name distinct slots. -/
theorem indices_nodup (hcurrent : forall h, h ∈ pages -> a.Current h)
    (hnodup : pages.Nodup) : (pages.map fun h => h.index).Nodup := by
  apply hnodup.map_on
  intro h hh h' hh' hindex
  exact (hcurrent h hh).eq_of_index (hcurrent h' hh') hindex

/-!
## Validation
-/

theorem validateReserved_eq_ok_iff :
    a.validateReserved message pages = .ok () <-> forall h, h ∈ pages -> a.ReservedOnce h := by
  unfold validateReserved
  rw [mapM_forM_eq_ok_iff]
  refine forall_congr' fun h => imp_congr_right fun _ => ?_
  simp only [requireState_eq_ok_iff]
  constructor
  · rintro ⟨_, ⟨hcurrent, hpage, hstate⟩, htest⟩
    rw [<- hpage] at hstate htest
    refine ⟨hcurrent, hstate, ?_⟩
    by_contra hne
    simp [hne, throw, throwThe, MonadExceptOf.throw] at htest
  · rintro ⟨hcurrent, hstate, hrefs⟩
    exact ⟨_, ⟨hcurrent, rfl, hstate⟩, by simp [hrefs, pure, Except.pure]⟩

theorem validateRollbackReserved_eq_ok_iff :
    a.validateRollbackReserved pages = .ok () <->
      forall h, h ∈ pages -> a.ReservedOnce h ∧ (a.pages h.index).inflightRefs = 0 := by
  unfold validateRollbackReserved
  rw [mapM_forM_eq_ok_iff]
  refine forall_congr' fun h => imp_congr_right fun _ => ?_
  simp only [requireState_eq_ok_iff]
  constructor
  · rintro ⟨_, ⟨hcurrent, hpage, hstate⟩, htest⟩
    rw [<- hpage] at hstate htest
    by_cases hflight : (a.pages h.index).inflightRefs = 0
    · refine ⟨⟨hcurrent, hstate, ?_⟩, hflight⟩
      by_contra hne
      simp [hne, hflight, throw, throwThe, MonadExceptOf.throw] at htest
    · simp [hflight, throw, throwThe, MonadExceptOf.throw] at htest
  · rintro ⟨⟨hcurrent, hstate, hrefs⟩, hflight⟩
    exact ⟨_, ⟨hcurrent, rfl, hstate⟩, by simp [hrefs, hflight, pure, Except.pure]⟩

theorem validateReleaseRequestRefs_eq_ok_iff :
    a.validateReleaseRequestRefs pages = .ok () <->
      forall h, h ∈ pages -> a.Live h ∧ 0 < (a.pages h.index).requestRefs := by
  unfold validateReleaseRequestRefs
  rw [forM_eq_ok_iff]
  refine forall_congr' fun h => imp_congr_right fun _ => ?_
  cases hfound : a.requireState live h with
  | error e =>
    simp only [bind, Except.bind, reduceCtorEq, false_iff]
    rintro ⟨⟨hcurrent, hstate⟩, _⟩
    have hok := requireState_eq_ok_iff.mpr ⟨hcurrent, rfl, hstate⟩
    rw [hok] at hfound
    cases hfound
  | ok page =>
    rcases requireState_eq_ok_iff.mp hfound with ⟨hcurrent, hpage, hstate⟩
    rw [<- hpage] at hstate
    by_cases hrefs : (a.pages h.index).requestRefs = 0
    · simp [bind, Except.bind, hrefs, <- hpage, throw, throwThe, MonadExceptOf.throw]
    · simp [bind, Except.bind, hrefs, <- hpage, pure, Except.pure, Live, hcurrent, hstate,
        Nat.pos_of_ne_zero hrefs]

theorem validateEpoch_bind (h : ¬ safeEpoch < 0) (next : Nat -> AllocatorM alpha) :
    (query (fun _ => validateEpoch safeEpoch) >>= next) a = next safeEpoch.toNat a := by
  rw [query_bind_run]
  simp [validateEpoch, h]

theorem validateEpoch_bind_negative (h : safeEpoch < 0) (next : Nat -> AllocatorM alpha) :
    (query (fun _ => validateEpoch safeEpoch) >>= next) a =
      .error (.valueError "epoch must be non-negative") a := by
  rw [query_bind_run]
  simp [validateEpoch, h]

/-!
## Reservation batches
-/

theorem commitReserved_run (h : forall h, h ∈ pages -> a.ReservedOnce h) :
    commitReserved pages a = .ok () (applyAll a (pages.map fun h => commit h.index)) := by
  unfold commitReserved
  rw [query_bind_run, validateReserved_eq_ok_iff.mpr h, applyAll, List.foldl_map]
  rfl

theorem commitReserved_error (h : ¬ forall h, h ∈ pages -> a.ReservedOnce h) :
    exists e, commitReserved pages a = .error e a := by
  unfold commitReserved
  rw [query_bind_run]
  rcases exists_error_of_ne_ok (fun hok => h (validateReserved_eq_ok_iff.mp hok)) with ⟨e, he⟩
  rw [he]
  exact ⟨e, rfl⟩

theorem commit_legal (h : forall h, h ∈ pages -> a.Steppable h) :
    Legal repeated a (pages.map fun h => commit h.index) := by
  refine legal_batch (fun rest a => forall h, h ∈ rest -> h.index < a.totalPages ∧
      (a.pages h.index).Active) ?_ (fun h' hh => ⟨(h h' hh).1.1, (h h' hh).2⟩)
  intro x rest a hall
  refine ⟨hall x (by simp), ?_⟩
  intro y hy
  refine ⟨(hall y (by simp [hy])).1, ?_⟩
  by_cases hindex : y.index = x.index
  · simp [apply, hindex, PageMetadata.Active]
  · simpa [apply, hindex] using (hall y (by simp [hy])).2

theorem abandonReserved_run (hepoch : ¬ safeEpoch < 0)
    (h : forall h, h ∈ pages -> a.ReservedOnce h) :
    abandonReserved pages safeEpoch a = .ok ()
        (applyAll a (pages.map fun h => abandon h.index safeEpoch.toNat)) := by
  unfold abandonReserved
  rw [validateEpoch_bind hepoch, query_bind_run, validateReserved_eq_ok_iff.mpr h, applyAll,
    List.foldl_map]
  rfl

theorem abandonReserved_error (h : safeEpoch < 0 ∨ ¬ forall h, h ∈ pages -> a.ReservedOnce h) :
    exists e, abandonReserved pages safeEpoch a = .error e a := by
  unfold abandonReserved
  by_cases hneg : safeEpoch < 0
  · exact ⟨_, validateEpoch_bind_negative hneg _⟩
  · have hpages := h.resolve_left hneg
    rcases exists_error_of_ne_ok
      (fun hok => hpages (validateReserved_eq_ok_iff.mp hok)) with ⟨e, he⟩
    rw [validateEpoch_bind hneg, query_bind_run, he]
    exact ⟨e, rfl⟩

theorem abandon_legal (hnodup : ¬ repeated -> pages.Nodup)
    (h : forall h, h ∈ pages -> a.ReservedOnce h) :
    Legal repeated a (pages.map fun h => abandon h.index epoch) := by
  refine legal_batch (fun rest a => (¬ repeated -> (rest.map fun h => h.index).Nodup) ∧
      forall h, h ∈ rest -> h.index < a.totalPages ∧ ((a.pages h.index).allocationState = reserved ∨
          repeated ∧ (a.pages h.index).allocationState = reclaimPending)) ?_
    ⟨fun hnot => indices_nodup (fun x hx => (h x hx).1) (hnodup hnot),
      fun x hx => ⟨(h x hx).1.1, .inl (h x hx).2.1⟩⟩
  rintro x rest a ⟨hdistinct, hall⟩
  refine ⟨hall x (by simp), ?_, ?_⟩
  · intro hnot
    exact (List.nodup_cons.mp (hdistinct hnot)).2
  · intro y hy
    refine ⟨by simpa [apply] using (hall y (by simp [hy])).1, ?_⟩
    by_cases hindex : y.index = x.index
    · have hrepeated : repeated := by
        by_contra hnot
        have hcons := List.nodup_cons.mp (hdistinct hnot)
        exact hcons.1 (List.mem_map.mpr ⟨y, hy, hindex⟩)
      simp only [apply, settle_pages, hindex, Function.update_self]
      by_cases hqueues : (a.pages x.index).dropReservation.Queues
      · rw [PageMetadata.marked_of_queues hqueues]
        exact .inr ⟨hrepeated, rfl⟩
      · rw [PageMetadata.marked_state_of_not_queues hqueues]
        exact (hall x (by simp)).2
    · simpa [apply, hindex] using (hall y (by simp [hy])).2

/-- The body of the loop of `rollback_reserved`. -/
def rollbackOne (handle : KVPageHandle) : AllocatorM Unit := do
  modify fun a => a.modifyPage handle.index PageMetadata.dropReservation
  makeFree handle.index

theorem rollbackReserved_eq (pages : List KVPageHandle) :
    rollbackReserved pages = (do
      query fun a => a.validateRollbackReserved pages
      pages.forM rollbackOne) := rfl

/-- The pages a rollback still has to visit: reserved and not in flight, or
already freed through another copy of the handle. -/
def RollbackReady (a : PageAllocator) (handle : KVPageHandle) : Prop :=
  handle.index < a.totalPages ∧
    ((a.pages handle.index).allocationState = reserved ∧
        (a.pages handle.index).inflightRefs = 0 ∨
      (a.pages handle.index).allocationState = free)

theorem rollbackOne_run (hsound : Sound a) (hlt : handle.index < a.totalPages)
    (hstate : (a.pages handle.index).allocationState = reserved)
    (hflight : (a.pages handle.index).inflightRefs = 0) :
    rollbackOne handle a = .ok () ((rollback handle.index).apply a) := by
  have hok := (hsound.pages _ hlt).of_reserved hstate
  have hfree : makeFree handle.index (a.modifyPage handle.index PageMetadata.dropReservation) = _ :=
    makeFree_run (by simp [hstate])
      (by simp [PageMetadata.totalRefs, PageMetadata.ownershipRefs, hok, hflight])
  unfold rollbackOne
  rw [bind_run, modify_run]
  dsimp only
  rw [hfree]
  simp [apply, release, modifyPage]

theorem rollbackOne_freed (hsound : Sound a) (hlt : handle.index < a.totalPages)
    (hstate : (a.pages handle.index).allocationState = free) :
    exists e, rollbackOne handle a = .error e a := by
  have hrefs := ((hsound.pages _ hlt).of_free hstate).1
  simp only [PageMetadata.totalRefs, PageMetadata.ownershipRefs, Nat.add_eq_zero_iff] at hrefs
  have hsame := PageMetadata.dropReservation_eq_self hrefs.1.1.2
  have hunchanged : a.modifyPage handle.index PageMetadata.dropReservation = a := by
    simp [modifyPage, hsame]
  unfold rollbackOne
  rw [bind_run, modify_run]
  dsimp only
  rw [hunchanged, makeFree, get_bind_run]
  rw [if_pos hstate]
  exact ⟨_, rfl⟩

theorem forM_cons_run {item : Type} (body : item -> AllocatorM Unit) (x : item) (rest : List item) :
    (x :: rest).forM body = (body x >>= fun _ => rest.forM body) := rfl

theorem rollback_apply_other (hne : other ≠ index) :
    ((rollback index).apply a).pages other = a.pages other := by
  simp [apply, hne]

theorem rollbackLoop_trace (repeated : Prop) (hsound : Sound a)
    (h : forall h, h ∈ pages -> a.RollbackReady h) :
    exists visited : List Nat, finalState (pages.forM rollbackOne a) =
        applyAll a (visited.map rollback) ∧ Legal repeated a (visited.map rollback) := by
  induction pages generalizing a with
  | nil => exact ⟨[], rfl, trivial⟩
  | cons x rest ih =>
    rcases h x (by simp) with ⟨hlt, ⟨hstate, hflight⟩ | hstate⟩
    · have henabled : (rollback x.index).Enabled repeated a :=
        ⟨hlt, hstate, hflight⟩
      have hnext : forall y, y ∈ rest -> ((rollback x.index).apply a).RollbackReady y := by
        intro y hy
        refine ⟨(h y (by simp [hy])).1, ?_⟩
        by_cases hindex : y.index = x.index
        · simp [hindex, apply]
        · rw [rollback_apply_other hindex]
          exact (h y (by simp [hy])).2
      rcases ih (hsound.event henabled) hnext with ⟨visited, hfinal, hlegal⟩
      refine ⟨x.index :: visited, ?_, henabled, hlegal⟩
      rw [forM_cons_run, bind_run_ok _ (rollbackOne_run hsound hlt hstate hflight), hfinal]
      rfl
    · rcases rollbackOne_freed hsound hlt hstate with ⟨_, hrun⟩
      refine ⟨[], ?_, trivial⟩
      rw [forM_cons_run, bind_run_error _ hrun]
      rfl

theorem rollbackLoop_run (hsound : Sound a) (hnodup : (pages.map fun h => h.index).Nodup)
    (h : forall h, h ∈ pages -> h.index < a.totalPages ∧
      (a.pages h.index).allocationState = reserved ∧ (a.pages h.index).inflightRefs = 0) :
    pages.forM rollbackOne a = .ok () (applyAll a (pages.map fun h => rollback h.index)) ∧
      Legal repeated a (pages.map fun h => rollback h.index) := by
  induction pages generalizing a with
  | nil => exact ⟨rfl, trivial⟩
  | cons x rest ih =>
    rw [List.map_cons, List.nodup_cons] at hnodup
    rcases h x (by simp) with ⟨hlt, hstate, hflight⟩
    have henabled : (rollback x.index).Enabled repeated a :=
      ⟨hlt, hstate, hflight⟩
    rcases ih (hsound.event henabled) hnodup.2 (by
        intro y hy
        have hne : y.index ≠ x.index := by
          intro heq
          exact hnodup.1 (List.mem_map.mpr ⟨y, hy, heq⟩)
        rw [rollback_apply_other hne]
        exact h y (by simp [hy])) with ⟨hrun, hlegal⟩
    refine ⟨?_, henabled, hlegal⟩
    rw [forM_cons_run, bind_run_ok _ (rollbackOne_run hsound hlt hstate hflight), hrun]
    rfl

theorem rollbackReserved_run (repeated : Prop) (hsound : Sound a) (hnodup : pages.Nodup)
    (h : forall h, h ∈ pages -> a.ReservedOnce h ∧ (a.pages h.index).inflightRefs = 0) :
    rollbackReserved pages a = .ok () (applyAll a (pages.map fun h => rollback h.index)) ∧
      Legal repeated a (pages.map fun h => rollback h.index) := by
  have hindices := indices_nodup (fun x hx => (h x hx).1.1) hnodup
  rw [rollbackReserved_eq, query_bind_run, validateRollbackReserved_eq_ok_iff.mpr h]
  exact rollbackLoop_run hsound hindices fun x hx => ⟨(h x hx).1.1.1, (h x hx).1.2.1, (h x hx).2⟩

theorem rollbackReserved_final
    (h : forall h, h ∈ pages -> a.ReservedOnce h ∧ (a.pages h.index).inflightRefs = 0) :
    finalState (rollbackReserved pages a) = finalState (pages.forM rollbackOne a) := by
  rw [rollbackReserved_eq, query_bind_run, validateRollbackReserved_eq_ok_iff.mpr h]

theorem rollbackReserved_error
    (h : ¬ forall h, h ∈ pages -> a.ReservedOnce h ∧ (a.pages h.index).inflightRefs = 0) :
    exists e, rollbackReserved pages a = .error e a := by
  rcases exists_error_of_ne_ok
    (fun hok => h (validateRollbackReserved_eq_ok_iff.mp hok)) with ⟨e, he⟩
  rw [rollbackReserved_eq, query_bind_run, he]
  exact ⟨e, rfl⟩

/-!
## In-flight batches
-/

theorem uniquePages_nodup (pages : List KVPageHandle) : (uniquePages pages).Nodup := by
  unfold uniquePages
  rw [List.nodup_reverse]
  exact List.nodup_dedup _

@[simp] theorem mem_uniquePages : handle ∈ uniquePages pages <-> handle ∈ pages := by
  simp [uniquePages]

theorem requireAll_isOk_iff :
    (exists metas, (uniquePages pages).mapM a.requireLiveOrReserved = .ok metas) <->
      forall h, h ∈ pages -> a.Steppable h := by
  rw [mapM_isOk_iff]
  simp only [mem_uniquePages, requireLiveOrReserved_eq_ok_iff]
  refine forall_congr' fun h => imp_congr_right fun _ => ?_
  constructor
  · rintro ⟨_, hcurrent, hpage, hactive⟩
    rw [<- hpage] at hactive
    exact ⟨hcurrent, hactive⟩
  · rintro ⟨hcurrent, hactive⟩
    exact ⟨_, hcurrent, rfl, hactive⟩

theorem markInflight_run (h : forall h, h ∈ pages -> a.Steppable h) :
    markInflight pages a = .ok ()
        (applyAll a ((uniquePages pages).map fun h => enter h.index)) := by
  rcases requireAll_isOk_iff.mpr h with ⟨_, hmetas⟩
  unfold markInflight
  rw [query_bind_run, hmetas, applyAll, List.foldl_map]
  rfl

theorem markInflight_error (h : ¬ forall h, h ∈ pages -> a.Steppable h) :
    exists e, markInflight pages a = .error e a := by
  unfold markInflight
  rw [query_bind_run]
  cases hmetas : (uniquePages pages).mapM a.requireLiveOrReserved with
  | error e => exact ⟨e, rfl⟩
  | ok metas => exact absurd (requireAll_isOk_iff.mp ⟨metas, hmetas⟩) h

theorem enter_legal (h : forall h, h ∈ pages -> a.Steppable h) :
    Legal repeated a (pages.map fun h => enter h.index) := by
  refine legal_batch (fun rest a => forall h, h ∈ rest -> h.index < a.totalPages ∧
      (a.pages h.index).Active) ?_ (fun h' hh => ⟨(h h' hh).1.1, (h h' hh).2⟩)
  intro x rest a hall
  refine ⟨hall x (by simp), ?_⟩
  intro y hy
  refine ⟨(hall y (by simp [hy])).1, ?_⟩
  by_cases hindex : y.index = x.index
  · simpa [apply, hindex, PageMetadata.Active] using (hall x (by simp)).2
  · simpa [apply, hindex] using (hall y (by simp [hy])).2

theorem markForReclaimIfUnowned_of_owned (h : (a.pages index).ownershipRefs ≠ 0) :
    a.markForReclaimIfUnowned index epoch = a := by
  unfold markForReclaimIfUnowned
  rw [if_pos h]

theorem dropInflight_eq
    (h : (a.pages index).ownershipRefs = 0 -> (a.pages index).pendingFreeEpoch ≠ none) :
    a.dropInflight index = (leave index).apply a := by
  have hpage : (a.modifyPage index fun page =>
      { page with inflightRefs := page.inflightRefs - 1 }).pages index =
        (a.pages index).leaveStep := by
    simp [PageMetadata.leaveStep]
  have howners : (a.pages index).leaveStep.ownershipRefs = (a.pages index).ownershipRefs := rfl
  unfold dropInflight apply settle
  dsimp only
  rw [hpage, PageMetadata.leaveStep_pendingFreeEpoch, howners]
  cases hpending : (a.pages index).pendingFreeEpoch with
  | none =>
    have howned : (a.pages index).ownershipRefs ≠ 0 := fun hzero => h hzero hpending
    rw [markForReclaimIfUnowned_of_owned]
    · rfl
    · simpa [howners] using howned
  | some epoch =>
    dsimp only
    by_cases hzero : (a.pages index).ownershipRefs = 0
    · rw [if_pos hzero]
      rfl
    · rw [if_neg hzero, markForReclaimIfUnowned_of_owned]
      · rfl
      · simpa [howners] using hzero

theorem leave_apply_other (hne : other ≠ index) :
    ((leave index).apply a).pages other = a.pages other := by
  simp [apply, hne]

theorem leaveLoop_run (repeated : Prop) (hsound : Sound a)
    (hnodup : (pages.map fun h => h.index).Nodup)
    (h : forall h, h ∈ pages -> h.index < a.totalPages ∧ (a.pages h.index).Active ∧
      0 < (a.pages h.index).inflightRefs) :
    pages.foldl (fun a handle => a.dropInflight handle.index) a =
        applyAll a (pages.map fun h => leave h.index) ∧
      Legal repeated a (pages.map fun h => leave h.index) := by
  induction pages generalizing a with
  | nil => exact ⟨rfl, trivial⟩
  | cons x rest ih =>
    rw [List.map_cons, List.nodup_cons] at hnodup
    have henabled : (leave x.index).Enabled repeated a := h x (by simp)
    have hpage := hsound.pages x.index henabled.1
    have hdrop : a.dropInflight x.index = (leave x.index).apply a := by
      apply dropInflight_eq
      intro hzero
      apply hpage.required hzero henabled.2.1.ne_free
      rcases henabled.2.1 with hs | hs <;> simp [hs]
    rcases ih (hsound.event henabled) hnodup.2 (by
        intro y hy
        have hne : y.index ≠ x.index := by
          intro heq
          exact hnodup.1 (List.mem_map.mpr ⟨y, hy, heq⟩)
        rw [leave_apply_other hne]
        have htotal : ((leave x.index).apply a).totalPages = a.totalPages := by
          simp [apply]
        rw [htotal]
        exact h y (by simp [hy])) with ⟨hrun, hlegal⟩
    refine ⟨?_, henabled, hlegal⟩
    rw [List.foldl_cons, hdrop, hrun]
    rfl

theorem requireInflight_eq_ok_iff :
    ((uniquePages pages).mapM a.requireLiveOrReserved >>= fun metas =>
        metas.forM fun page =>
          if page.inflightRefs = 0 then
            throw (.invariantViolationError "in-flight refcount underflow")
          else
            pure ()) = .ok () <->
      forall h, h ∈ pages -> a.Steppable h ∧ 0 < (a.pages h.index).inflightRefs := by
  rw [mapM_forM_eq_ok_iff]
  simp only [mem_uniquePages, requireLiveOrReserved_eq_ok_iff]
  refine forall_congr' fun h => imp_congr_right fun _ => ?_
  constructor
  · rintro ⟨page, ⟨hcurrent, hpage, hactive⟩, htest⟩
    rw [<- hpage] at hactive htest
    refine ⟨⟨hcurrent, hactive⟩, Nat.pos_of_ne_zero ?_⟩
    intro hzero
    simp [hzero, throw, throwThe, MonadExceptOf.throw] at htest
  · rintro ⟨⟨hcurrent, hactive⟩, hflight⟩
    exact ⟨_, ⟨hcurrent, rfl, hactive⟩,
      by simp [Nat.ne_of_gt hflight, pure, Except.pure]⟩

theorem unmarkInflight_run (repeated : Prop) (hsound : Sound a)
    (h : forall h, h ∈ pages -> a.Steppable h ∧ 0 < (a.pages h.index).inflightRefs) :
    unmarkInflight pages a = .ok () (applyAll a ((uniquePages pages).map fun h => leave h.index)) ∧
      Legal repeated a ((uniquePages pages).map fun h => leave h.index) := by
  have hindices := indices_nodup
    (fun x hx => (h x (mem_uniquePages.mp hx)).1.1) (uniquePages_nodup pages)
  rcases leaveLoop_run repeated hsound hindices (fun x hx =>
    ⟨(h x (mem_uniquePages.mp hx)).1.1.1, (h x (mem_uniquePages.mp hx)).1.2,
      (h x (mem_uniquePages.mp hx)).2⟩) with ⟨hloop, hlegal⟩
  refine ⟨?_, hlegal⟩
  rw [<- hloop]
  unfold unmarkInflight
  rw [query_bind_run, requireInflight_eq_ok_iff.mpr h]
  rfl

theorem unmarkInflight_error
    (h : ¬ forall h, h ∈ pages -> a.Steppable h ∧ 0 < (a.pages h.index).inflightRefs) :
    exists e, unmarkInflight pages a = .error e a := by
  rcases exists_error_of_ne_ok (fun hok => h (requireInflight_eq_ok_iff.mp hok)) with ⟨e, he⟩
  unfold unmarkInflight
  rw [query_bind_run, he]
  exact ⟨e, rfl⟩

/-!
## Single pages
-/

theorem setValidTokens_run (hrange : 0 ≤ validTokens ∧ validTokens ≤ a.pageSize)
    (h : a.Steppable handle) :
    setValidTokens handle validTokens a = .ok ()
        ((setValid handle.index validTokens.toNat).apply a) := by
  have hok := requireLiveOrReserved_eq_ok_iff.mpr ⟨h.1, rfl, h.2⟩
  unfold setValidTokens
  rw [get_bind_run]
  dsimp only
  rw [if_neg (by simpa using hrange), query_bind_run, hok]
  rfl

theorem setValidTokens_error
    (h : ¬ ((0 ≤ validTokens ∧ validTokens ≤ a.pageSize) ∧ a.Steppable handle)) :
    exists e, setValidTokens handle validTokens a = .error e a := by
  unfold setValidTokens
  rw [get_bind_run]
  dsimp only
  by_cases hrange : 0 ≤ validTokens ∧ validTokens ≤ a.pageSize
  · rw [if_neg (by simpa using hrange), query_bind_run]
    cases hfound : a.requireLiveOrReserved handle with
    | error e => exact ⟨e, rfl⟩
    | ok page =>
      rcases requireLiveOrReserved_eq_ok_iff.mp hfound with ⟨hcurrent, hpage, hactive⟩
      rw [<- hpage] at hactive
      exact absurd ⟨hrange, hcurrent, hactive⟩ h
  · rw [if_pos hrange]
    exact ⟨_, rfl⟩

theorem acquireRef_run (field : RefField) (h : a.Live handle) :
    acquireRef field handle a = .ok () ((acquire field handle.index).apply a) := by
  have hok := requireState_eq_ok_iff.mpr ⟨h.1, rfl, h.2⟩
  unfold acquireRef
  rw [query_bind_run, hok]
  rfl

theorem acquireRef_error (h : ¬ a.Live handle) :
    exists e, acquireRef field handle a = .error e a := by
  unfold acquireRef
  rw [query_bind_run]
  cases hfound : a.requireState live handle with
  | error e => exact ⟨e, rfl⟩
  | ok page =>
    rcases requireState_eq_ok_iff.mp hfound with ⟨hcurrent, hpage, hstate⟩
    rw [<- hpage] at hstate
    exact absurd ⟨hcurrent, hstate⟩ h

theorem releaseRef_run (underflow : String) (hepoch : ¬ safeEpoch < 0)
    (h : a.Live handle) (hcount : 0 < field.count (a.pages handle.index)) :
    releaseRef field underflow handle safeEpoch a = .ok ()
        ((drop field handle.index safeEpoch.toNat).apply a) := by
  have hok := requireState_eq_ok_iff.mpr ⟨h.1, rfl, h.2⟩
  unfold releaseRef
  rw [validateEpoch_bind hepoch, query_bind_run, hok]
  dsimp only
  rw [if_neg (by omega)]
  rfl

theorem releaseRef_error
    (h : ¬ (¬ safeEpoch < 0 ∧ a.Live handle ∧ 0 < field.count (a.pages handle.index))) :
    exists e, releaseRef field underflow handle safeEpoch a = .error e a := by
  unfold releaseRef
  by_cases hneg : safeEpoch < 0
  · exact ⟨_, validateEpoch_bind_negative hneg _⟩
  · rw [validateEpoch_bind hneg, query_bind_run]
    cases hfound : a.requireState live handle with
    | error e => exact ⟨e, rfl⟩
    | ok page =>
      rcases requireState_eq_ok_iff.mp hfound with ⟨hcurrent, hpage, hstate⟩
      dsimp only
      rw [<- hpage] at hstate ⊢
      by_cases hcount : field.count (a.pages handle.index) = 0
      · rw [if_pos hcount]
        exact ⟨_, rfl⟩
      · exact absurd ⟨hneg, ⟨hcurrent, hstate⟩, Nat.pos_of_ne_zero hcount⟩ h

/-!
## Epochs
-/

theorem advanceEpoch_run (hepoch : ¬ completedEpoch < 0)
    (h : a.currentEpoch ≤ completedEpoch.toNat) :
    advanceEpoch completedEpoch a = reclaimCompletedLocked completedEpoch.toNat
        ((advance completedEpoch.toNat).apply a) := by
  unfold advanceEpoch
  rw [validateEpoch_bind hepoch, get_bind_run]
  rw [if_neg (by omega)]
  rfl

theorem advanceEpoch_error (h : ¬ (¬ completedEpoch < 0 ∧ a.currentEpoch ≤ completedEpoch.toNat)) :
    exists e, advanceEpoch completedEpoch a = .error e a := by
  unfold advanceEpoch
  by_cases hneg : completedEpoch < 0
  · exact ⟨_, validateEpoch_bind_negative hneg _⟩
  · rw [validateEpoch_bind hneg, get_bind_run]
    rw [if_pos (by omega)]
    exact ⟨_, rfl⟩

end PageAllocator

end Memory
end Ayaka
