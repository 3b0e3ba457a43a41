import Ayaka.Memory.AllocatorRuns

/-!
# Page lifetimes

A slot's generation never falls and a free slot stays free until its next
generation, so a handle whose lifetime has ended never becomes current again.
-/

namespace Ayaka
namespace Memory

open Foundation
open PageAllocationState
open PageEvent (Legal applyAll)
open PageAllocator

/-- A slot moves on to later generations; within one it never leaves `FREE`. -/
def Ages (page later : PageMetadata) : Prop :=
  page.generation < later.generation ∨
    page.generation = later.generation ∧
      (page.allocationState = free -> later.allocationState = free)

theorem Ages.refl (page : PageMetadata) : Ages page page :=
  .inr ⟨rfl, id⟩

theorem Ages.trans (hpq : Ages p q) (hqr : Ages q r) : Ages p r := by
  unfold Ages at *
  rcases hpq with hlt | ⟨heq, hfree⟩
  · left
    omega
  · rcases hqr with hlt | ⟨heq', hfree'⟩
    · left
      omega
    · exact .inr ⟨heq.trans heq', fun h => hfree' (hfree h)⟩

theorem Ages.of_ne_free (hstate : page.allocationState ≠ free)
    (hgen : later.generation = page.generation) : Ages page later :=
  .inr ⟨hgen.symm, fun h => absurd h hstate⟩

namespace PageAllocator

/-- The slot of the handle has become free at the end of the handle's lifetime. -/
def Ended (a : PageAllocator) (handle : KVPageHandle) : Prop :=
  handle.generation < (a.pages handle.index).generation ∨
    (a.pages handle.index).generation = handle.generation ∧
      (a.pages handle.index).allocationState = free

theorem Ended.not_current {a : PageAllocator} {handle : KVPageHandle}
    (h : a.Ended handle) : ¬ a.Current handle := by
  rintro ⟨_, _, hstate⟩
  rcases h with _ | ⟨_, hfree⟩
  · omega
  · exact hstate hfree

theorem Ended.of_ages {a b : PageAllocator} {handle : KVPageHandle} (h : a.Ended handle)
    (hages : Ages (a.pages handle.index) (b.pages handle.index)) : b.Ended handle := by
  unfold Ended Ages at *
  rcases h with hlt | ⟨heq, hfree⟩
  · left
    omega
  · rcases hages with hlt | ⟨heq', hfree'⟩
    · left
      omega
    · exact .inr ⟨heq'.symm.trans heq, hfree' hfree⟩

end PageAllocator

section Events

variable {repeated : Prop} {a : PageAllocator} {event : PageEvent}
  {f : PageMetadata -> PageMetadata}

theorem modifyPage_ages (hstate : (a.pages index).allocationState ≠ free)
    (hgen : (f (a.pages index)).generation = (a.pages index).generation) (slot : Nat) :
    Ages (a.pages slot) ((a.modifyPage index f).pages slot) := by
  by_cases hslot : slot = index
  · rw [hslot]
    exact Ages.of_ne_free hstate (by simpa using hgen)
  · simpa [hslot] using Ages.refl (a.pages slot)

theorem settle_ages (hstate : (a.pages index).allocationState ≠ free)
    (hgen : (f (a.pages index)).generation = (a.pages index).generation) (slot : Nat) :
    Ages (a.pages slot) ((a.settle index epoch f).pages slot) := by
  by_cases hslot : slot = index
  · rw [hslot]
    exact Ages.of_ne_free hstate (by simpa using hgen)
  · simpa [hslot] using Ages.refl (a.pages slot)

theorem startHead_ages
    (hgen : forall page, (f page).generation = page.generation + 1) (slot : Nat) :
    Ages (a.pages slot) ((PageEvent.startHead a f).pages slot) := by
  unfold PageEvent.startHead
  split
  · exact Ages.refl _
  · rename_i index rest hready
    by_cases hslot : slot = index
    · left
      simp [hslot, hgen]
    · simpa [hslot] using Ages.refl (a.pages slot)

theorem release_ages (hgen : (f (a.pages index)).generation = (a.pages index).generation)
    (slot : Nat) : Ages (a.pages slot) ((a.release index f).pages slot) := by
  by_cases hslot : slot = index
  · rw [hslot]
    exact .inr ⟨by simp [hgen], by simp⟩
  · simpa [hslot] using Ages.refl (a.pages slot)

theorem popHeap_ages (slot : Nat) : Ages (a.pages slot) ((PageEvent.popHeap a).pages slot) := by
  unfold PageEvent.popHeap
  split
  · exact Ages.refl _
  · rename_i entry rest hheap
    split
    · exact release_ages (a := { a with reclaimHeap := rest }) rfl slot
    · exact Ages.refl _

theorem event_ages (henabled : event.Enabled repeated a) (slot : Nat) :
    Ages (a.pages slot) ((event.apply a).pages slot) := by
  cases event with
  | reserve | permanent => exact startHead_ages (by simp) slot
  | lose count => exact Ages.refl _
  | commit index => exact modifyPage_ages henabled.2.ne_free rfl slot
  | rollback index => exact release_ages rfl slot
  | abandon index epoch =>
    refine settle_ages ?_ rfl slot
    rcases henabled with ⟨_, hs | ⟨_, hs⟩⟩ <;> simp [hs]
  | enter index => exact modifyPage_ages henabled.2.ne_free rfl slot
  | leave index => exact settle_ages henabled.2.1.ne_free rfl slot
  | setValid index tokens => exact modifyPage_ages henabled.2.1.ne_free rfl slot
  | acquire field index =>
    exact modifyPage_ages (by simp [henabled.2]) (RefField.add_generation _ _) slot
  | drop field index epoch =>
    exact settle_ages (by simp [henabled.2.1]) (RefField.sub_generation _ _) slot
  | advance epoch => exact Ages.refl _
  | reclaim => exact popHeap_ages slot

theorem Legal.ages (h : Legal repeated a events) (slot : Nat) :
    Ages (a.pages slot) ((applyAll a events).pages slot) :=
  h.preserves (fun b => Ages (a.pages slot) (b.pages slot))
    (fun _ _ _ henabled hb => hb.trans (event_ages henabled slot)) (Ages.refl _)

end Events

namespace AllocatorCall

variable {a : PageAllocator}

section

variable (hsound : Sound a)
include hsound

theorem step_ages (call : AllocatorCall) (slot : Nat) :
    Ages (a.pages slot) ((call.step a).pages slot) := by
  rcases exists_performed True hsound call (fun h => absurd trivial h) with ⟨_, h⟩
  rw [h.final]
  exact Legal.ages h.legal slot

section

variable (calls : List AllocatorCall)

theorem run_sound : Sound (run a calls) :=
  run_preserves Sound (fun _ call _ hs => step_sound hs call) hsound

theorem run_totalPages : (run a calls).totalPages = a.totalPages := by
  induction calls generalizing a with
  | nil => rfl
  | cons call calls ih =>
    rcases exists_performed True hsound call (fun h => absurd trivial h) with ⟨_, h⟩
    change (run (call.step a) calls).totalPages = _
    rw [ih (step_sound hsound call), h.final, PageEvent.applyAll_totalPages]

theorem run_ages (slot : Nat) : Ages (a.pages slot) ((run a calls).pages slot) := by
  induction calls generalizing a with
  | nil => exact Ages.refl _
  | cons call calls ih =>
    exact (step_ages hsound call slot).trans (ih (step_sound hsound call))

end

end

end AllocatorCall

/-!
## Issued handles
-/

def AllocatorReply.handles : AllocatorReply -> List KVPageHandle
  | .page handle => [handle]
  | .pages (some handles) => handles
  | _ => []

namespace AllocatorCall

def issued (call : AllocatorCall) (a : PageAllocator) : List KVPageHandle :=
  ((returned? (call.perform a)).map AllocatorReply.handles).getD []

def issuedRun : PageAllocator -> List AllocatorCall -> List KVPageHandle
  | _, [] => []
  | a, call :: calls => call.issued a ++ issuedRun (call.step a) calls

/-- The handles are new names: later than every earlier lifetime of their slots. -/
structure Mints (a b : PageAllocator) (handles : List KVPageHandle) : Prop where
  nodup : handles.Nodup
  newer : forall h, h ∈ handles -> (a.pages h.index).generation < h.generation
  reached : forall h, h ∈ handles -> h.generation ≤ (b.pages h.index).generation

theorem Mints.none (a b : PageAllocator) : Mints a b [] := by
  constructor <;> simp

variable {a : PageAllocator}

theorem issued_eq_nil {x : AllocatorM AllocatorReply}
    (hquiet : forall reply b, x a = .ok reply b -> reply.handles = []) :
    ((returned? (x a)).map AllocatorReply.handles).getD [] = [] := by
  cases hx : x a with
  | ok reply b => simpa [returned?] using hquiet reply b hx
  | error e b => rfl

/-- A reply that is computed from a value without handles carries none. -/
theorem bind_pure_quiet {alpha : Type} {x : AllocatorM alpha} {f : alpha -> AllocatorReply}
    (hf : forall v, (f v).handles = []) :
    ((returned? ((x >>= fun v => pure (f v)) a)).map AllocatorReply.handles).getD [] = [] := by
  apply issued_eq_nil
  intro _ _ hrun
  rw [bind_run] at hrun
  cases hx : x a with
  | ok v c =>
    rw [hx] at hrun
    cases hrun
    exact hf v
  | error e c =>
    rw [hx] at hrun
    cases hrun

section

variable (hsound : Sound a)
include hsound

theorem Allocated.mints {repeated : Prop}
    (h : PageAllocator.Allocated repeated a b handles c) : Mints a c handles := by
  have hslots : forall x, x ∈ handles -> x.index ∈ b.readyFree.take handles.length := by
    intro x hx
    rw [<- h.slots]
    exact List.mem_map.mpr ⟨x, hx, rfl⟩
  constructor
  · apply List.Nodup.of_map (fun x : KVPageHandle => x.index)
    rw [h.slots]
    exact (h.sound_reclaimed hsound).ready_nodup.sublist (List.take_sublist _ _)
  · intro x hx
    rw [h.generations x hx, h.generation_reclaimed]
    omega
  · intro x hx
    rw [h.pages hsound, if_pos (hslots x hx), h.generations x hx]
    simp

theorem reservePermanentPage_mints :
    Mints a (reservePermanentPage.step a) (reservePermanentPage.issued a) := by
  have hraised : forall e b, PageAllocator.reservePermanentPage a = .error e b ->
      reservePermanentPage.issued a = [] := by
    intro e b hrun
    simp [issued, perform, bind_run, hrun, returned?]
  cases hready : a.readyFree with
  | nil =>
    rcases reservePermanentPage_empty hready with ⟨e, hrun⟩
    rw [hraised e _ hrun]
    exact Mints.none _ _
  | cons index rest =>
    by_cases hgen : (a.pages index).generation < maxHandleGeneration
    · rcases reservePermanentPage_run hsound hready hgen with ⟨handle, hissued, hrun⟩
      have hhandles : reservePermanentPage.issued a = [handle] := by
        simp [issued, perform, bind_run, hrun, returned?, AllocatorReply.handles]
      have hstep : reservePermanentPage.step a = PageEvent.permanent.apply a := by
        simp [step, perform, bind_run, hrun]
      rw [hhandles, hstep]
      constructor
      · simp
      · simp [hissued.1, hissued.2]
      · simp [hissued.1, hissued.2, PageEvent.apply, PageEvent.startHead, hready]
    · rcases reservePermanentPage_exhausted hsound hready (Nat.le_of_not_lt hgen) with ⟨e, hrun⟩
      rw [hraised e _ hrun]
      exact Mints.none _ _

theorem allocate_mints (numPages : Int) :
    Mints a ((allocate numPages).step a) ((allocate numPages).issued a) := by
  have hraised : forall e b, PageAllocator.allocate numPages a = .error e b ->
      (allocate numPages).issued a = [] := by
    intro e b hrun
    simp [issued, perform, bind_run, hrun, returned?]
  by_cases hneg : numPages < 0
  · rcases allocate_negative hneg with ⟨e, hrun⟩
    rw [hraised e _ hrun]
    exact Mints.none _ _
  · have hcast : numPages = (numPages.toNat : Int) := by omega
    have houtcome := allocate_outcome True hsound numPages.toNat
    rw [<- hcast] at houtcome
    generalize hresult : PageAllocator.allocate numPages a = result at houtcome
    cases houtcome with
    | refused hreclaimed hshort =>
      have hnone : (allocate numPages).issued a = [] := by
        simp [issued, perform, bind_run, hresult, returned?, AllocatorReply.handles]
      rw [hnone]
      exact Mints.none _ _
    | @granted handles b c hallocated hlength =>
      have hhandles : (allocate numPages).issued a = handles := by
        simp [issued, perform, bind_run, hresult, returned?, AllocatorReply.handles]
      have hstep : (allocate numPages).step a = c := by
        simp [step, perform, bind_run, hresult]
      rw [hhandles, hstep]
      exact Allocated.mints hsound hallocated
    | exhausted hreclaimed hlegal _ hlength hspent =>
      rw [hraised _ _ hresult]
      exact Mints.none _ _

theorem step_mints (call : AllocatorCall) : Mints a (call.step a) (call.issued a) := by
  have hquiet : forall {alpha : Type} {x : AllocatorM alpha} {f : alpha -> AllocatorReply},
      call.perform = (x >>= fun v => pure (f v)) -> (forall v, (f v).handles = []) ->
        Mints a (call.step a) (call.issued a) := by
    intro alpha x f hcall hf
    have hnone : call.issued a = [] := by
      unfold issued
      rw [hcall]
      exact bind_pure_quiet hf
    rw [hnone]
    exact Mints.none _ _
  cases call with
  | reservePermanentPage => exact reservePermanentPage_mints hsound
  | allocate numPages => exact allocate_mints hsound numPages
  | _ => exact hquiet rfl fun _ => rfl

theorem issuedRun_newer (calls : List AllocatorCall) :
    forall h, h ∈ issuedRun a calls -> (a.pages h.index).generation < h.generation := by
  induction calls generalizing a with
  | nil => simp [issuedRun]
  | cons call calls ih =>
    intro h hmem
    rw [issuedRun, List.mem_append] at hmem
    rcases hmem with hmem | hmem
    · exact (step_mints hsound call).newer h hmem
    · have hlater := ih (step_sound hsound call) h hmem
      have hages := step_ages hsound call h.index
      unfold Ages at hages
      omega

theorem issuedRun_nodup (calls : List AllocatorCall) : (issuedRun a calls).Nodup := by
  induction calls generalizing a with
  | nil => simp [issuedRun]
  | cons call calls ih =>
    have hmints := step_mints hsound call
    have hsound' := step_sound hsound call
    refine hmints.nodup.append (ih hsound') ?_
    intro h hnow hlater
    have _ := hmints.reached h hnow
    have hnewer := issuedRun_newer hsound' calls h hlater
    omega

end

/-!
## Handles after their lifetime
-/

def given : AllocatorCall -> List KVPageHandle
  | setValidTokens page _ => [page]
  | acquireRequestRef page => [page]
  | releaseRequestRef page _ => [page]
  | acquireCacheRef page => [page]
  | releaseCacheRef page _ => [page]
  | pinPage page => [page]
  | unpinPage page _ => [page]
  | getMeta page => [page]
  | physicalId page => [page]
  | call => call.batch

/-- `other` stands before the first occurrence of `handle`. -/
def Precedes (pages : List KVPageHandle) (handle other : KVPageHandle) : Prop :=
  exists before after, pages = before ++ handle :: after ∧ handle ∉ before ∧ other ∈ before

/-- Every check the call makes before it looks the handle up passes: the range of a
number, and the handles that stand earlier in a batch. -/
def Reaches (a : PageAllocator) (handle : KVPageHandle) : AllocatorCall -> Prop
  | commitReserved pages | rollbackReserved pages | validateRollbackReserved pages =>
    forall other, Precedes pages handle other ->
      exists page, a.requireState reserved other = .ok page
  | abandonReserved pages safeEpoch => 0 ≤ safeEpoch ∧
      forall other, Precedes pages handle other ->
        exists page, a.requireState reserved other = .ok page
  | markInflight pages | unmarkInflight pages =>
    forall other, Precedes (PageAllocator.uniquePages pages) handle other ->
      exists page, a.requireLiveOrReserved other = .ok page
  | validateReleaseRequestRefs pages =>
    forall other, Precedes pages handle other ->
      a.Live other ∧ 0 < (a.pages other.index).requestRefs
  | setValidTokens _ validTokens => 0 ≤ validTokens ∧ validTokens ≤ a.pageSize
  | releaseRequestRef _ safeEpoch => 0 ≤ safeEpoch
  | releaseCacheRef _ safeEpoch => 0 ≤ safeEpoch
  | unpinPage _ safeEpoch => 0 ≤ safeEpoch
  | _ => True

/-- The call raises and changes nothing, and it blames the handle if it got that
far. -/
def Rejects (call : AllocatorCall) (a : PageAllocator) (handle : KVPageHandle) : Prop :=
  exists e, call.perform a = .error e a ∧
    (call.Reaches a handle -> e.IsInvalidHandle)

section Stale

variable {handle : KVPageHandle} {pages : List KVPageHandle}

theorem requireState_stale (h : ¬ a.Current handle) (expected : PageAllocationState) :
    exists message, a.requireState expected handle = .error (.invalidHandleError message) := by
  rcases getMeta_of_not_current h with ⟨message, herror⟩
  refine ⟨message, ?_⟩
  unfold PageAllocator.requireState
  rw [herror]
  rfl

theorem requireLiveOrReserved_stale (h : ¬ a.Current handle) :
    exists message, a.requireLiveOrReserved handle = .error (.invalidHandleError message) := by
  rcases getMeta_of_not_current h with ⟨message, herror⟩
  refine ⟨message, ?_⟩
  unfold PageAllocator.requireLiveOrReserved
  rw [herror]
  rfl

variable {find : KVPageHandle -> Except Exc PageMetadata}

/-- Looking up a batch that holds a stale handle raises; it raises on that handle
if all earlier ones are found. -/
theorem mapM_stale (hstale : exists message, find handle = .error (.invalidHandleError message))
    (hmem : handle ∈ pages) :
    exists e, pages.mapM find = .error e ∧ ((forall other, Precedes pages handle other ->
        exists page, find other = .ok page) -> e.IsInvalidHandle) := by
  rcases hstale with ⟨message, hstale⟩
  rcases List.eq_append_cons_of_mem hmem with ⟨before, after, hsplit, hnot⟩
  by_cases hbefore : forall other, other ∈ before -> exists page, find other = .ok page
  · refine ⟨.invalidHandleError message, ?_, fun _ => trivial⟩
    rw [hsplit]
    exact mapM_eq_error_of_first hbefore hstale
  · cases hfound : pages.mapM find with
    | error e =>
      refine ⟨e, rfl, ?_⟩
      intro hreach
      exact absurd (fun other hother =>
        hreach other ⟨before, after, hsplit, hnot, hother⟩) hbefore
    | ok metas =>
      have hall := mapM_isOk_iff.mp ⟨metas, hfound⟩ handle hmem
      rcases hall with ⟨page, hpage⟩
      rw [hstale] at hpage
      cases hpage

variable {call : AllocatorCall}

theorem rejects_of_error (hcall : call.perform = do
    x
    return .none) (hrun : x a = .error e a)
    (hreach : call.Reaches a handle -> e.IsInvalidHandle) : call.Rejects a handle := by
  refine ⟨e, ?_, hreach⟩
  rw [hcall]
  exact bind_run_error _ hrun

theorem rejects_of_stale (message : String) (hcall : call.perform = do
    x
    return .none) (hrun : x a = .error (.invalidHandleError message) a) : call.Rejects a handle :=
  rejects_of_error hcall hrun fun _ => trivial

theorem mapM_bind_stale {alpha : Type} (test : List PageMetadata -> Except Exc alpha)
    (hstale : exists message, find handle = .error (.invalidHandleError message))
    (hmem : handle ∈ pages) :
    exists e, (pages.mapM find >>= test) = .error e ∧ ((forall other, Precedes pages handle other ->
        exists page, find other = .ok page) -> e.IsInvalidHandle) := by
  rcases mapM_stale hstale hmem with ⟨e, he, hreach⟩
  refine ⟨e, ?_, hreach⟩
  rw [he]
  rfl

section

variable (h : ¬ a.Current handle) (hmem : handle ∈ pages)
include h hmem

theorem commitReserved_rejects : (commitReserved pages).Rejects a handle := by
  rcases mapM_bind_stale _ (requireState_stale h reserved) hmem with ⟨_, he, hreach⟩
  refine rejects_of_error rfl ?_ hreach
  unfold PageAllocator.commitReserved PageAllocator.validateReserved
  rw [query_bind_run, he]

theorem rollbackReserved_rejects : (rollbackReserved pages).Rejects a handle := by
  rcases mapM_bind_stale _ (requireState_stale h reserved) hmem with ⟨_, he, hreach⟩
  refine rejects_of_error rfl ?_ hreach
  unfold PageAllocator.rollbackReserved PageAllocator.validateRollbackReserved
  rw [query_bind_run, he]

theorem abandonReserved_rejects : (abandonReserved pages safeEpoch).Rejects a handle := by
  by_cases hneg : safeEpoch < 0
  · refine ⟨_, bind_run_error _ (validateEpoch_bind_negative hneg _), ?_⟩
    intro hreach
    exact absurd hreach.1 (by omega)
  · rcases mapM_bind_stale _ (requireState_stale h reserved) hmem with ⟨_, he, hreach⟩
    refine rejects_of_error rfl ?_ (fun hreaches => hreach hreaches.2)
    unfold PageAllocator.abandonReserved PageAllocator.validateReserved
    rw [validateEpoch_bind hneg, query_bind_run, he]

theorem markInflight_rejects : (markInflight pages).Rejects a handle := by
  rcases mapM_stale (requireLiveOrReserved_stale h) (mem_uniquePages.mpr hmem) with ⟨_, he, hreach⟩
  refine rejects_of_error rfl ?_ hreach
  unfold PageAllocator.markInflight
  rw [query_bind_run, he]

theorem unmarkInflight_rejects : (unmarkInflight pages).Rejects a handle := by
  rcases mapM_bind_stale _ (requireLiveOrReserved_stale h)
    (mem_uniquePages.mpr hmem) with ⟨_, he, hreach⟩
  refine rejects_of_error rfl ?_ hreach
  unfold PageAllocator.unmarkInflight
  rw [query_bind_run, he]

theorem validateRollbackReserved_rejects : (validateRollbackReserved pages).Rejects a handle := by
  rcases mapM_bind_stale _ (requireState_stale h reserved) hmem with ⟨_, he, hreach⟩
  exact rejects_of_error rfl (query_run_error he) hreach

theorem validateReleaseRequestRefs_rejects :
    (validateReleaseRequestRefs pages).Rejects a handle := by
  rcases List.eq_append_cons_of_mem hmem with ⟨before, after, hsplit, hnot⟩
  rcases requireState_stale h _ with ⟨message, hstale⟩
  by_cases hbefore : forall other, other ∈ before ->
      a.Live other ∧ 0 < (a.pages other.index).requestRefs
  · have hok := validateReleaseRequestRefs_eq_ok_iff.mpr hbefore
    unfold PageAllocator.validateReleaseRequestRefs at hok
    rw [forM_eq_ok_iff] at hok
    refine rejects_of_stale message rfl (query_run_error ?_)
    rw [hsplit]
    refine forM_eq_error_of_first hok ?_
    rw [hstale]
    rfl
  · have hbad : ¬ forall other, other ∈ pages ->
        a.Live other ∧ 0 < (a.pages other.index).requestRefs :=
      fun hall => h (hall handle hmem).1.1
    rcases exists_error_of_ne_ok (fun hok =>
      hbad (validateReleaseRequestRefs_eq_ok_iff.mp hok)) with ⟨_, he⟩
    refine rejects_of_error rfl (query_run_error he) ?_
    intro hreach
    exact absurd (fun other hother =>
      hreach other ⟨before, after, hsplit, hnot, hother⟩) hbefore

end

theorem acquireRef_rejects (hcall : call.perform = do
    PageAllocator.acquireRef field handle
    return .none) (h : ¬ a.Current handle) : call.Rejects a handle := by
  rcases requireState_stale h live with ⟨message, hstale⟩
  refine rejects_of_stale message hcall ?_
  unfold PageAllocator.acquireRef
  rw [query_bind_run, hstale]

theorem releaseRef_rejects (hcall : call.perform = do
    PageAllocator.releaseRef field underflow handle safeEpoch
    return .none) (hreach : call.Reaches a handle -> 0 ≤ safeEpoch)
    (h : ¬ a.Current handle) : call.Rejects a handle := by
  unfold PageAllocator.releaseRef at hcall
  by_cases hneg : safeEpoch < 0
  · refine rejects_of_error hcall (validateEpoch_bind_negative hneg _) ?_
    intro hreaches
    exact absurd (hreach hreaches) (by omega)
  · rcases requireState_stale h live with ⟨message, hstale⟩
    refine rejects_of_stale message hcall ?_
    rw [validateEpoch_bind hneg, query_bind_run, hstale]

theorem setValidTokens_rejects (h : ¬ a.Current handle) :
    (setValidTokens handle validTokens).Rejects a handle := by
  rcases requireLiveOrReserved_stale h with ⟨message, hstale⟩
  by_cases hrange : 0 ≤ validTokens ∧ validTokens ≤ a.pageSize
  · refine rejects_of_stale message rfl ?_
    unfold PageAllocator.setValidTokens
    rw [get_bind_run]
    dsimp only
    rw [if_neg (by simpa using hrange), query_bind_run, hstale]
  · rcases setValidTokens_error (fun hok => hrange hok.1) with ⟨_, he⟩
    exact rejects_of_error rfl he (fun hreach => absurd hreach hrange)

theorem query_rejects {alpha : Type} {f : PageAllocator -> Except Exc alpha}
    {g : alpha -> AllocatorReply} (message : String)
    (hcall : call.perform = (query f >>= fun v => pure (g v)))
    (hf : f a = .error (.invalidHandleError message)) : call.Rejects a handle := by
  refine ⟨.invalidHandleError message, ?_, fun _ => trivial⟩
  rw [hcall, query_bind_run, hf]

/-- Every call that is given a handle whose slot has moved on rejects it. -/
theorem rejects_of_not_current (h : ¬ a.Current handle) (hmem : handle ∈ call.given) :
    call.Rejects a handle := by
  cases call with
  | reservePermanentPage | allocate | advanceEpoch | reclaimCompleted =>
    simp [given, batch] at hmem
  | commitReserved pages => exact commitReserved_rejects h hmem
  | rollbackReserved pages => exact rollbackReserved_rejects h hmem
  | abandonReserved pages safeEpoch => exact abandonReserved_rejects h hmem
  | markInflight pages => exact markInflight_rejects h hmem
  | unmarkInflight pages => exact unmarkInflight_rejects h hmem
  | setValidTokens page validTokens =>
    rw [<- List.mem_singleton.mp hmem]
    exact setValidTokens_rejects h
  | acquireRequestRef | acquireCacheRef | pinPage =>
    rw [<- List.mem_singleton.mp hmem]
    exact acquireRef_rejects rfl h
  | releaseRequestRef | releaseCacheRef | unpinPage =>
    rw [<- List.mem_singleton.mp hmem]
    exact releaseRef_rejects rfl id h
  | validateRollbackReserved pages => exact validateRollbackReserved_rejects h hmem
  | validateReleaseRequestRefs pages => exact validateReleaseRequestRefs_rejects h hmem
  | getMeta page =>
    rw [<- List.mem_singleton.mp hmem]
    rcases getMeta_of_not_current h with ⟨message, herror⟩
    exact query_rejects message rfl herror
  | physicalId page =>
    rw [<- List.mem_singleton.mp hmem]
    rcases getMeta_of_not_current h with ⟨message, herror⟩
    refine query_rejects message rfl ?_
    unfold PageAllocator.physicalId
    rw [herror]
    rfl

end Stale

/-- A state the allocator is in during a call, from its start to its end. -/
def Passes (call : AllocatorCall) (a b : PageAllocator) : Prop :=
  exists events rest, Performed True call a (events ++ rest) ∧ b = applyAll a events

theorem Legal.of_append {repeated : Prop}
    (h : Legal repeated a (events ++ rest)) : Legal repeated a events := by
  induction events generalizing a with
  | nil => trivial
  | cons event events ih => exact ⟨h.1, ih h.2⟩

theorem Passes.sound {call : AllocatorCall} {b : PageAllocator} (h : call.Passes a b)
    (hsound : Sound a) : Sound b := by
  rcases h with ⟨_, _, hperformed, hb⟩
  rw [hb]
  exact (Legal.of_append hperformed.legal).preserves Sound
    (fun _ _ _ henabled hs => hs.event henabled) hsound

end AllocatorCall

theorem handles_single_use (totalPages pageSize : Nat) (calls : List AllocatorCall) :
    let a := AllocatorCall.run (PageAllocator.make totalPages pageSize) calls
    (AllocatorCall.issuedRun (PageAllocator.make totalPages pageSize) calls).Nodup ∧
      (forall call b, AllocatorCall.Passes call a b -> forall index, index < b.totalPages ->
        (b.pages index).allocationState = free ->
          (b.pages index).requestRefs = 0 ∧ (b.pages index).cacheRefs = 0 ∧
            (b.pages index).reservationRefs = 0 ∧ (b.pages index).inflightRefs = 0 ∧
              (b.pages index).pinRefs = 0) ∧
      (forall handle, a.Ended handle -> forall later call,
        handle ∈ AllocatorCall.given call ->
          call.Rejects (AllocatorCall.run a later) handle) := by
  have hmake := AllocatorCall.make_sound totalPages pageSize
  intro a
  have hsound : Sound a := AllocatorCall.run_sound hmake calls
  refine ⟨AllocatorCall.issuedRun_nodup hmake calls, ?_, ?_⟩
  · intro call b hpasses index hindex hfree
    have hrefs := (((hpasses.sound hsound).pages index hindex).of_free hfree).1
    simp only [PageMetadata.totalRefs, PageMetadata.ownershipRefs, Nat.add_eq_zero_iff] at hrefs
    omega
  · intro handle hended later call hmem
    have hlater := hended.of_ages (AllocatorCall.run_ages hsound later handle.index)
    exact AllocatorCall.rejects_of_not_current hlater.not_current hmem

/-- The first lifetime of a slot is rolled back and the slot reused; the first handle
is refused. -/
theorem handles_single_use_reused :
    let page : KVPageHandle := Handle.first HandleKind.kvPage 0
    (AllocatorCall.pinPage page).Rejects
      (AllocatorCall.run
        (AllocatorCall.run (PageAllocator.make 1 1)
          [AllocatorCall.allocate 1, AllocatorCall.rollbackReserved [page]])
        [AllocatorCall.allocate 1]) page :=
  (handles_single_use 1 1 _).2.2 _ (Or.inr (by decide)) _ _ (List.mem_singleton.mpr rfl)

/-- A number that is checked before the handle decides the exception. -/
theorem stale_handle_valueError :
    let page : KVPageHandle := Handle.first HandleKind.kvPage 0
    let a := AllocatorCall.run (PageAllocator.make 1 1)
      [AllocatorCall.allocate 1, AllocatorCall.rollbackReserved [page]]
    a.Ended page ∧
      (AllocatorCall.releaseRequestRef page (-1)).perform a =
        EStateM.Result.error (Exc.valueError "epoch must be non-negative") a :=
  ⟨Or.inr (by decide), rfl⟩

end Memory
end Ayaka
