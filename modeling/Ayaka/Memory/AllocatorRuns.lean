import Ayaka.Memory.AllocatorOwners

/-!
# Runs of the allocator

A run is any list of public calls with any arguments.  A call that raises is part
of the run and leaves whatever state it had reached.
-/

namespace Ayaka
namespace Memory

open Foundation
open PageAllocationState
open PageAllocator
open PageEvent
open EStateM (Result)

inductive AllocatorCall where
  | reservePermanentPage
  | allocate (numPages : Int)
  | commitReserved (pages : List KVPageHandle)
  | rollbackReserved (pages : List KVPageHandle)
  | abandonReserved (pages : List KVPageHandle) (safeEpoch : Int)
  | markInflight (pages : List KVPageHandle)
  | unmarkInflight (pages : List KVPageHandle)
  | setValidTokens (page : KVPageHandle) (validTokens : Int)
  | acquireRequestRef (page : KVPageHandle)
  | releaseRequestRef (page : KVPageHandle) (safeEpoch : Int)
  | acquireCacheRef (page : KVPageHandle)
  | releaseCacheRef (page : KVPageHandle) (safeEpoch : Int)
  | pinPage (page : KVPageHandle)
  | unpinPage (page : KVPageHandle) (safeEpoch : Int)
  | advanceEpoch (completedEpoch : Int)
  | reclaimCompleted
  | validateRollbackReserved (pages : List KVPageHandle)
  | validateReleaseRequestRefs (pages : List KVPageHandle)
  | getMeta (page : KVPageHandle)
  | physicalId (page : KVPageHandle)

inductive AllocatorReply where
  | none
  | page (handle : KVPageHandle)
  | pages (handles : Option (List KVPageHandle))
  | count (value : Nat)
  | metadata (value : PageMetadata)

namespace AllocatorCall

def perform : AllocatorCall -> AllocatorM AllocatorReply
  | reservePermanentPage => do
    return .page (<- PageAllocator.reservePermanentPage)
  | allocate numPages => do
    return .pages (<- PageAllocator.allocate numPages)
  | commitReserved pages => do
    PageAllocator.commitReserved pages
    return .none
  | rollbackReserved pages => do
    PageAllocator.rollbackReserved pages
    return .none
  | abandonReserved pages safeEpoch => do
    PageAllocator.abandonReserved pages safeEpoch
    return .none
  | markInflight pages => do
    PageAllocator.markInflight pages
    return .none
  | unmarkInflight pages => do
    PageAllocator.unmarkInflight pages
    return .none
  | setValidTokens page validTokens => do
    PageAllocator.setValidTokens page validTokens
    return .none
  | acquireRequestRef page => do
    PageAllocator.acquireRequestRef page
    return .none
  | releaseRequestRef page safeEpoch => do
    PageAllocator.releaseRequestRef page safeEpoch
    return .none
  | acquireCacheRef page => do
    PageAllocator.acquireCacheRef page
    return .none
  | releaseCacheRef page safeEpoch => do
    PageAllocator.releaseCacheRef page safeEpoch
    return .none
  | pinPage page => do
    PageAllocator.pinPage page
    return .none
  | unpinPage page safeEpoch => do
    PageAllocator.unpinPage page safeEpoch
    return .none
  | advanceEpoch completedEpoch => do
    return .count (<- PageAllocator.advanceEpoch completedEpoch)
  | reclaimCompleted => do
    return .count (<- PageAllocator.reclaimCompleted)
  | validateRollbackReserved pages => do
    query fun a => a.validateRollbackReserved pages
    return .none
  | validateReleaseRequestRefs pages => do
    query fun a => a.validateReleaseRequestRefs pages
    return .none
  | getMeta page => do
    return .metadata (<- query fun a => a.getMeta page)
  | physicalId page => do
    return .count (<- query fun a => a.physicalId page)

def step (call : AllocatorCall) (a : PageAllocator) : PageAllocator :=
  finalState (call.perform a)

def run (a : PageAllocator) (calls : List AllocatorCall) : PageAllocator :=
  calls.foldl (fun a call => call.step a) a

/-- The batch argument of a call that the allocator does not deduplicate itself. -/
def batch : AllocatorCall -> List KVPageHandle
  | commitReserved pages => pages
  | rollbackReserved pages => pages
  | abandonReserved pages _ => pages
  | markInflight pages => pages
  | unmarkInflight pages => pages
  | validateRollbackReserved pages => pages
  | validateReleaseRequestRefs pages => pages
  | _ => []

/-- The call takes no slot whose generation space is spent.  `allocate` draws from
the ready queue followed by the pending slots that are due. -/
def Fresh (a : PageAllocator) : AllocatorCall -> Prop
  | reservePermanentPage => forall index, index ∈ a.readyFree.take 1 ->
      (a.pages index).generation < maxHandleGeneration
  | allocate numPages => a.nextSlots.length < numPages.toNat ∨
      forall index, index ∈ a.nextSlots.take numPages.toNat ->
        (a.pages index).generation < maxHandleGeneration
  | _ => True

/-- The safety promises a successful call makes: a page and its safe epoch. -/
def promises : AllocatorCall -> List (KVPageHandle × Nat)
  | abandonReserved pages safeEpoch => pages.map fun h => (h, safeEpoch.toNat)
  | releaseRequestRef page safeEpoch => [(page, safeEpoch.toNat)]
  | releaseCacheRef page safeEpoch => [(page, safeEpoch.toNat)]
  | unpinPage page safeEpoch => [(page, safeEpoch.toNat)]
  | _ => []

/-- The call leaves the references of the prefix cache and the token counts alone. -/
def SparesCache : AllocatorCall -> Prop
  | acquireCacheRef _ => False
  | releaseCacheRef _ _ => False
  | setValidTokens _ _ => False
  | _ => True

end AllocatorCall

/-- The event leaves the references of the prefix cache and the token counts alone. -/
def PageEvent.SparesCache : PageEvent -> Prop
  | acquire field _ => field ≠ .cache
  | drop field _ _ => field ≠ .cache
  | setValid _ _ => False
  | _ => True

/-- The promise an event makes: a slot and its safe epoch. -/
def PageEvent.promise : PageEvent -> Option (Nat × Nat)
  | abandon index epoch => some (index, epoch)
  | drop _ index epoch => some (index, epoch)
  | _ => none

/-- The events by which a call changed the allocator. -/
structure Performed (repeated : Prop) (call : AllocatorCall) (a : PageAllocator)
    (events : List PageEvent) : Prop where
  final : call.step a = applyAll a events
  legal : Legal repeated a events
  lossless : HeapExact a -> call.Fresh a -> forall count, lose count ∉ events
  promises : events.filterMap PageEvent.promise =
    if (returned? (call.perform a)).isSome then
      call.promises.map fun promise => (promise.1.index, promise.2)
    else
      []
  spares : call.SparesCache -> forall event, event ∈ events -> event.SparesCache

namespace Performed

variable {repeated : Prop} {a : PageAllocator}
variable {events : List PageEvent}

theorem raised (h : exists e, call.perform a = .error e a) : Performed repeated call a [] := by
  rcases h with ⟨e, h⟩
  constructor
  · simp [AllocatorCall.step, h]
  · trivial
  · simp
  · simp [h, returned?]
  · simp

theorem returned (h : call.perform a = .ok reply (applyAll a events))
    (hlegal : Legal repeated a events) (hlose : forall count, lose count ∉ events)
    (hpromises : events.filterMap PageEvent.promise =
    call.promises.map fun promise => (promise.1.index, promise.2))
    (hspares : call.SparesCache -> forall event, event ∈ events -> event.SparesCache) :
    Performed repeated call a events := by
  constructor
  · simp [AllocatorCall.step, h]
  · exact hlegal
  · exact fun _ _ => hlose
  · simp [h, returned?, hpromises]
  · exact hspares

theorem unchanged (h : call.step a = a) (hpromises : call.promises = []) :
    Performed repeated call a [] := by
  constructor
  · exact h
  · trivial
  · simp
  · simp [hpromises]
  · simp

end Performed

section Unit

variable {a : PageAllocator} {x : AllocatorM Unit}

theorem replied_of_error (h : exists e, x a = .error e a) :
    exists e, (do x; return .none : AllocatorM AllocatorReply) a = .error e a := by
  rcases h with ⟨e, h⟩
  exact ⟨e, bind_run_error _ h⟩

theorem replied_of_ok (h : x a = .ok () b) :
    (do x; return .none : AllocatorM AllocatorReply) a = .ok .none b :=
  bind_run_ok _ h

end Unit

namespace AllocatorCall

variable {repeated : Prop} {a : PageAllocator} {pages : List KVPageHandle}

theorem acquire_performed (hcall : call.perform = do
    PageAllocator.acquireRef field page
    return .none) (hpromises : call.promises = [])
    (hspares : call.SparesCache -> field ≠ .cache) :
    exists events, Performed repeated call a events := by
  by_cases h : a.Live page
  · have hrun := replied_of_ok (acquireRef_run field h)
    rw [<- hcall] at hrun
    refine ⟨[acquire field page.index], ?_⟩
    exact Performed.returned hrun (legal_single ⟨h.1.1, h.2⟩) (by simp)
      (by simp [PageEvent.promise, hpromises])
      (by simpa [PageEvent.SparesCache] using hspares)
  · refine ⟨[], Performed.raised ?_⟩
    rw [hcall]
    exact replied_of_error (acquireRef_error h)

theorem release_performed (hcall : call.perform = do
    PageAllocator.releaseRef field underflow page safeEpoch
    return .none) (hpromises : call.promises = [(page, safeEpoch.toNat)])
    (hspares : call.SparesCache -> field ≠ .cache) :
    exists events, Performed repeated call a events := by
  by_cases h : ¬ safeEpoch < 0 ∧ a.Live page ∧ 0 < field.count (a.pages page.index)
  · have hrun := replied_of_ok (releaseRef_run underflow h.1 h.2.1 h.2.2)
    rw [<- hcall] at hrun
    refine ⟨[drop field page.index safeEpoch.toNat], ?_⟩
    exact Performed.returned hrun (legal_single ⟨h.2.1.1.1, h.2.1.2, h.2.2⟩) (by simp)
      (by simp [PageEvent.promise, hpromises])
      (by simpa [PageEvent.SparesCache] using hspares)
  · refine ⟨[], Performed.raised ?_⟩
    rw [hcall]
    exact replied_of_error (releaseRef_error h)

theorem commitReserved_performed :
    exists events, Performed repeated (commitReserved pages) a events := by
  by_cases h : forall h, h ∈ pages -> a.ReservedOnce h
  · refine ⟨pages.map fun h => commit h.index, ?_⟩
    refine Performed.returned (replied_of_ok (commitReserved_run h))
      (commit_legal fun x hx => ⟨(h x hx).1, .inl (h x hx).2.1⟩)
      (by simp) ?_ (by simp [PageEvent.SparesCache])
    simp [List.filterMap_map, Function.comp_def, PageEvent.promise, promises]
  · exact ⟨[], Performed.raised (replied_of_error (commitReserved_error h))⟩

theorem rollbackReserved_performed (hsound : Sound a) :
    exists events, Performed repeated (rollbackReserved pages) a events := by
  by_cases h : forall h, h ∈ pages -> a.ReservedOnce h ∧ (a.pages h.index).inflightRefs = 0
  · rcases rollbackLoop_trace repeated hsound
      (fun x hx => ⟨(h x hx).1.1.1, .inl ⟨(h x hx).1.2.1, (h x hx).2⟩⟩) with
      ⟨visited, hfinal, hlegal⟩
    refine ⟨visited.map rollback, ?_, hlegal, by simp, ?_,
      by simp [PageEvent.SparesCache]⟩
    · rw [<- hfinal]
      exact (finalState_bind_pure _ _ _).trans (rollbackReserved_final h)
    · simp [List.filterMap_map, Function.comp_def, PageEvent.promise, promises]
  · exact ⟨[], Performed.raised (replied_of_error (rollbackReserved_error h))⟩

theorem abandonReserved_performed (hnodup : ¬ repeated -> pages.Nodup) :
    exists events, Performed repeated (abandonReserved pages safeEpoch) a events := by
  by_cases hepoch : safeEpoch < 0
  · exact ⟨[], Performed.raised (replied_of_error (abandonReserved_error (.inl hepoch)))⟩
  · by_cases h : forall h, h ∈ pages -> a.ReservedOnce h
    · refine ⟨pages.map fun h => abandon h.index safeEpoch.toNat, ?_⟩
      refine Performed.returned (replied_of_ok (abandonReserved_run hepoch h))
        (abandon_legal hnodup h) (by simp) ?_ (by simp [PageEvent.SparesCache])
      simp [List.filterMap_map, Function.comp_def, PageEvent.promise, promises]
    · exact ⟨[], Performed.raised (replied_of_error (abandonReserved_error (.inr h)))⟩

theorem markInflight_performed :
    exists events, Performed repeated (markInflight pages) a events := by
  by_cases h : forall h, h ∈ pages -> a.Steppable h
  · refine ⟨(uniquePages pages).map fun h => enter h.index, ?_⟩
    refine Performed.returned (replied_of_ok (markInflight_run h))
      (enter_legal fun x hx => h x (mem_uniquePages.mp hx))
      (by simp) ?_ (by simp [PageEvent.SparesCache])
    simp [List.filterMap_map, Function.comp_def, PageEvent.promise, promises]
  · exact ⟨[], Performed.raised (replied_of_error (markInflight_error h))⟩

theorem unmarkInflight_performed (hsound : Sound a) :
    exists events, Performed repeated (unmarkInflight pages) a events := by
  by_cases h : forall h, h ∈ pages -> a.Steppable h ∧ 0 < (a.pages h.index).inflightRefs
  · rcases unmarkInflight_run repeated hsound h with ⟨hrun, hlegal⟩
    refine ⟨(uniquePages pages).map fun h => leave h.index, ?_⟩
    refine Performed.returned (replied_of_ok hrun) hlegal (by simp) ?_
      (by simp [PageEvent.SparesCache])
    simp [List.filterMap_map, Function.comp_def, PageEvent.promise, promises]
  · exact ⟨[], Performed.raised (replied_of_error (unmarkInflight_error h))⟩

theorem setValidTokens_performed :
    exists events, Performed repeated (setValidTokens page validTokens) a events := by
  by_cases h : (0 ≤ validTokens ∧ validTokens ≤ a.pageSize) ∧ a.Steppable page
  · refine ⟨[setValid page.index validTokens.toNat], ?_⟩
    refine Performed.returned (replied_of_ok (setValidTokens_run h.1 h.2))
      (legal_single ⟨h.2.1.1, h.2.2, by omega⟩) (by simp) ?_ (by simp [SparesCache])
    simp [PageEvent.promise, promises]
  · exact ⟨[], Performed.raised (replied_of_error (setValidTokens_error h))⟩

/-- A reclaim makes no promise and loses no slot. -/
theorem Reclaimed.performed (h : PageAllocator.Reclaimed repeated a b) (hfinal : call.step a = b)
    (hpromises : call.promises = []) : exists events, Performed repeated call a events := by
  rcases h.events with ⟨count, hb, hlegal⟩
  refine ⟨List.replicate count reclaim, hfinal.trans hb, hlegal, ?_, ?_, ?_⟩
  · intro _ _ _ hmem
    cases List.eq_of_mem_replicate hmem
  · simp [hpromises, PageEvent.promise]
  · intro _ _ hmem
    rw [List.eq_of_mem_replicate hmem]
    trivial

section

variable (hsound : Sound a)
include hsound

theorem reclaimCompleted_performed :
    exists events, Performed repeated reclaimCompleted a events := by
  rcases reclaimCompletedLocked_run repeated hsound with ⟨_, _, hrun, h⟩
  refine Reclaimed.performed h ?_ rfl
  refine (finalState_bind_pure _ _ _).trans ?_
  unfold PageAllocator.reclaimCompleted
  rw [get_bind_run]
  rw [hrun]
  rfl

theorem advanceEpoch_performed (completedEpoch : Int) :
    exists events, Performed repeated (advanceEpoch completedEpoch) a events := by
  by_cases h : ¬ completedEpoch < 0 ∧ a.currentEpoch ≤ completedEpoch.toNat
  · have henabled : (advance completedEpoch.toNat).Enabled repeated a := h.2
    rcases reclaimCompletedLocked_run repeated (hsound.event henabled) with ⟨_, _, hrun, hreclaimed⟩
    rcases hreclaimed.events with ⟨count, hb, hlegal⟩
    refine ⟨advance completedEpoch.toNat ::
      List.replicate count reclaim, ?_, ⟨henabled, hlegal⟩, ?_, ?_, ?_⟩
    · rw [applyAll_cons, <- hb]
      refine (finalState_bind_pure _ _ _).trans ?_
      rw [advanceEpoch_run h.1 h.2]
      rw [show PageAllocator.reclaimCompletedLocked completedEpoch.toNat _ = _ from hrun]
      rfl
    · intro _ _ _ hmem
      rw [List.mem_cons] at hmem
      rcases hmem with heq | hmem
      · cases heq
      · cases List.eq_of_mem_replicate hmem
    · simp [promises, PageEvent.promise]
    · intro _ event hmem
      rcases List.mem_cons.mp hmem with rfl | hmem
      · trivial
      · rw [List.eq_of_mem_replicate hmem]
        trivial
  · refine ⟨[], Performed.raised ?_⟩
    rcases advanceEpoch_error h with ⟨e, he⟩
    exact ⟨e, bind_run_error _ he⟩

theorem reservePermanentPage_performed :
    exists events, Performed repeated reservePermanentPage a events := by
  cases hready : a.readyFree with
  | nil =>
    refine ⟨[], Performed.raised ?_⟩
    rcases reservePermanentPage_empty hready with ⟨e, he⟩
    exact ⟨e, bind_run_error _ he⟩
  | _ index rest =>
    by_cases hgen : (a.pages index).generation < maxHandleGeneration
    · rcases reservePermanentPage_run hsound hready hgen with ⟨_, _, hrun⟩
      refine ⟨[permanent], ?_⟩
      exact Performed.returned (bind_run_ok _ hrun)
        (legal_single ⟨index, rest, hready, hgen⟩) (by simp)
        (by simp [PageEvent.promise, promises]) (by simp [PageEvent.SparesCache])
    · have hspent : maxHandleGeneration ≤ (a.pages index).generation := by omega
      rcases reservePermanentPage_exhausted hsound hready hspent with ⟨e, he⟩
      refine ⟨[lose 1], ?_, ⟨⟨index, rest, hready, hspent⟩, trivial⟩, ?_, ?_,
        by simp [PageEvent.SparesCache]⟩
      · refine (finalState_bind_pure _ _ _).trans ?_
        rw [he]
        rfl
      · intro _ hfresh
        exact absurd (hfresh index (by simp [hready])) hgen
      · simp [PageEvent.promise, promises]

theorem allocate_performed (numPages : Int) :
    exists events, Performed repeated (allocate numPages) a events := by
  by_cases hneg : numPages < 0
  · refine ⟨[], Performed.raised ?_⟩
    rcases allocate_negative hneg with ⟨e, he⟩
    exact ⟨e, bind_run_error _ he⟩
  · have hcast : numPages = (numPages.toNat : Int) := by omega
    have hstep : forall r, PageAllocator.allocate numPages a = r ->
        (allocate numPages).step a = finalState r := by
      intro r hr
      rw [<- hr]
      exact finalState_bind_pure _ _ _
    have hnone : (allocate numPages).promises = [] := rfl
    have houtcome := allocate_outcome repeated hsound numPages.toNat
    rw [<- hcast] at houtcome
    generalize hresult : PageAllocator.allocate numPages a = result at houtcome
    cases houtcome with
    | refused hreclaimed hshort =>
      exact Reclaimed.performed hreclaimed (hstep _ hresult) rfl
    | @granted handles b c hallocated hlength =>
      rcases hallocated.reclaims with ⟨count, hb, hlegal⟩
      refine ⟨List.replicate count reclaim ++
        List.replicate handles.length reserve, ?_, hlegal.append ?_, ?_, ?_, ?_⟩
      · rw [hstep _ hresult, applyAll_append, <- hb, <- hallocated.final]
        rfl
      · rw [<- hb]
        exact hallocated.legal
      · intro _ _ lost
        simp [List.mem_append, List.mem_replicate]
      · simp [hnone, PageEvent.promise]
      · intro _ event hmem
        rcases List.mem_append.mp hmem with hmem | hmem
        · rw [List.eq_of_mem_replicate hmem]
          trivial
        · rw [List.eq_of_mem_replicate hmem]
          trivial
    | @exhausted e b reserved lost hreclaimed hlegal' _ hlength hspent =>
      rcases hreclaimed.events with ⟨count, hb, hlegal⟩
      refine ⟨List.replicate count reclaim ++ (List.replicate reserved reserve ++
        [lose lost]), ?_, hlegal.append ?_, ?_, ?_, ?_⟩
      · rw [hstep _ hresult, finalState_error, applyAll_append (a := a), <- hb]
      · rw [<- hb]
        exact hlegal'
      · intro hexact hfresh
        exfalso
        have hready := hreclaimed.ready hexact
        rw [hready] at hlength hspent
        rcases hspent with ⟨index, hmem, hgen⟩
        rcases hfresh with hshort | hfresh
        · unfold PageAllocator.nextSlots at hshort
          omega
        · have hlt := hfresh index hmem
          omega
      · simp [hnone, PageEvent.promise]
      · intro _ event hmem
        rcases List.mem_append.mp hmem with hmem | hmem
        · rw [List.eq_of_mem_replicate hmem]
          trivial
        · rcases List.mem_append.mp hmem with hmem | hmem
          · rw [List.eq_of_mem_replicate hmem]
            trivial
          · rw [List.mem_singleton.mp hmem]
            trivial

end

/-- Every call, on every argument, is a legal sequence of events. -/
theorem exists_performed (repeated : Prop) (hsound : Sound a) (call : AllocatorCall)
    (hnodup : ¬ repeated -> call.batch.Nodup) :
    exists events, Performed repeated call a events := by
  cases call with
  | reservePermanentPage => exact reservePermanentPage_performed hsound
  | allocate numPages => exact allocate_performed hsound numPages
  | commitReserved pages => exact commitReserved_performed
  | rollbackReserved pages => exact rollbackReserved_performed hsound
  | abandonReserved pages safeEpoch => exact abandonReserved_performed hnodup
  | markInflight pages => exact markInflight_performed
  | unmarkInflight pages => exact unmarkInflight_performed hsound
  | setValidTokens page validTokens => exact setValidTokens_performed
  | acquireRequestRef | acquireCacheRef | pinPage =>
    exact acquire_performed rfl rfl (by simp [SparesCache])
  | releaseRequestRef | releaseCacheRef | unpinPage =>
    exact release_performed rfl rfl (by simp [SparesCache])
  | advanceEpoch completedEpoch => exact advanceEpoch_performed hsound completedEpoch
  | reclaimCompleted => exact reclaimCompleted_performed hsound
  | validateRollbackReserved | validateReleaseRequestRefs | getMeta | physicalId =>
    exact ⟨[], Performed.unchanged (finalState_query_bind_pure _ _ _) rfl⟩

theorem run_append (a : PageAllocator) (calls later : List AllocatorCall) :
    run a (calls ++ later) = run (run a calls) later :=
  List.foldl_append

/-- The rule for runs: what every performed call keeps, every run keeps. -/
theorem run_preserves (inv : PageAllocator -> Prop)
    (hstep : forall a call, call ∈ calls -> inv a -> inv (call.step a)) (ha : inv a) :
    inv (run a calls) := by
  induction calls generalizing a with
  | nil => exact ha
  | cons call calls ih =>
    apply ih
    · exact fun a later hmem => hstep a later (List.mem_cons_of_mem _ hmem)
    · exact hstep a call (List.mem_cons_self ..) ha

theorem step_sound (hsound : Sound a) (call : AllocatorCall) : Sound (call.step a) := by
  rcases exists_performed True hsound call (fun h => absurd trivial h) with ⟨_, h⟩
  rw [h.final]
  exact h.legal.preserves Sound (fun _ _ _ henabled hs => hs.event henabled) hsound

section

variable (totalPages pageSize : Nat)

theorem make_sound : Sound (make totalPages pageSize) := by
  constructor
  · intro _ _
    constructor <;>
      simp [make, PageMetadata.totalRefs, PageMetadata.ownershipRefs]
  · exact List.nodup_range
  · simp [make]
  · simp [make]
  · simp [make]
  · simp [make]

theorem make_heapExact : HeapExact (make totalPages pageSize) := by
  constructor <;> simp [make]

theorem make_tight : Tight (make totalPages pageSize) := by
  intro _ hindex _
  simpa [make] using hindex

end

end AllocatorCall

end Memory
end Ayaka
