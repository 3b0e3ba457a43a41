import Ayaka.Memory.AllocatorInvariant

/-!
# Allocator methods as events

Each method is run once here.  The result is either an exception raised before
any change, or the final state of a sequence of events that the method's own
checks have enabled.
-/

namespace Ayaka
namespace Memory

open Foundation
open PageAllocationState

namespace PageAllocator

open PageEvent
open EStateM (Result)

def Current (a : PageAllocator) (handle : KVPageHandle) : Prop :=
  handle.index < a.totalPages ∧ (a.pages handle.index).generation = handle.generation ∧
    (a.pages handle.index).allocationState ≠ free

instance (a : PageAllocator) (handle : KVPageHandle) : Decidable (a.Current handle) :=
  inferInstanceAs (Decidable (_ ∧ _ ∧ _))

variable {a : PageAllocator}

/-- Two current handles of one slot are the same handle. -/
theorem Current.eq_of_index (hcurrent : a.Current h)
    (hcurrent' : a.Current h') (hindex : h.index = h'.index) : h = h' := by
  apply Handle.ext hindex
  rw [<- hcurrent.2.1, <- hcurrent'.2.1, hindex]

/-!
## Checks
-/

section Checks

theorem getMeta_of_current (h : a.Current handle) :
    a.getMeta handle = .ok (a.pages handle.index) := by
  rcases h with ⟨hlt, hgen, hstate⟩
  simp [getMeta, hlt, hgen, hstate]

theorem getMeta_of_not_current (h : ¬ a.Current handle) :
    exists message, a.getMeta handle = .error (.invalidHandleError message) := by
  unfold getMeta
  by_cases hlt : handle.index < a.totalPages
  · have hstale : (a.pages handle.index).generation ≠ handle.generation ∨
        (a.pages handle.index).allocationState = free := by
      by_contra hnot
      rw [not_or, not_not] at hnot
      exact h ⟨hlt, hnot⟩
    rw [if_pos hlt]
    rw [if_pos hstale]
    exact ⟨_, rfl⟩
  · rw [if_neg hlt]
    exact ⟨_, rfl⟩

theorem getMeta_eq_ok_iff :
    a.getMeta handle = .ok page <-> a.Current handle ∧ a.pages handle.index = page := by
  by_cases h : a.Current handle
  · simp [getMeta_of_current h, h]
  · rcases getMeta_of_not_current h with ⟨_, herror⟩
    simp [herror, h]

theorem getMeta_checked {p : PageMetadata -> Prop} [DecidablePred p] {e : PageMetadata -> Exc} :
    (do
      let page <- a.getMeta handle
      if p page then pure page else throw (e page)) = .ok page <->
      a.Current handle ∧ a.pages handle.index = page ∧ p page := by
  rw [except_bind_eq_ok_iff]
  simp only [getMeta_eq_ok_iff]
  constructor
  · rintro ⟨found, ⟨hcurrent, rfl⟩, hchecked⟩
    split at hchecked
    · rename_i hp
      cases hchecked
      exact ⟨hcurrent, rfl, hp⟩
    · cases hchecked
  · rintro ⟨hcurrent, rfl, hp⟩
    exact ⟨_, ⟨hcurrent, rfl⟩, if_pos hp⟩

theorem requireState_eq_ok_iff :
    a.requireState expected handle = .ok page <-> a.Current handle ∧ a.pages handle.index = page ∧
        page.allocationState = expected :=
  getMeta_checked

theorem requireLiveOrReserved_eq_ok_iff :
    a.requireLiveOrReserved handle = .ok page <->
      a.Current handle ∧ a.pages handle.index = page ∧ page.Active :=
  getMeta_checked

end Checks

/-!
## Reclaiming
-/


theorem makeFree_run (hstate : (a.pages index).allocationState ≠ free)
    (hrefs : (a.pages index).totalRefs = 0) : makeFree index a = .ok () (a.release index id) := by
  unfold makeFree
  rw [get_bind_run]
  rw [if_neg hstate, if_neg (by simp [hrefs])]
  rfl

/-- The pending slots whose safe epoch has completed, in heap order. -/
def dueSlots (a : PageAllocator) : List Nat :=
  (a.reclaimHeap.filter fun entry => decide (entry.epoch ≤ a.currentEpoch)).map
    ReclaimEntry.index

theorem popHeap_currentEpoch (a : PageAllocator) : (popHeap a).currentEpoch = a.currentEpoch := by
  unfold popHeap
  split
  · rfl
  · split <;> rfl

variable {entry : ReclaimEntry} {rest : List ReclaimEntry}

theorem popHeap_reclaimHeap (hheap : a.reclaimHeap = entry :: rest) :
    (popHeap a).reclaimHeap = rest := by
  unfold popHeap
  rw [hheap]
  dsimp only
  split <;> rfl

theorem popHeap_readyFree (hheap : a.reclaimHeap = entry :: rest)
    (hcurrent : a.entryCurrent entry = true) :
    (popHeap a).readyFree = a.readyFree ++ [entry.index] := by
  unfold popHeap
  rw [hheap]
  dsimp only
  rw [if_pos hcurrent]
  rfl

theorem dueSlots_of_late (h : forall entry, entry ∈ a.reclaimHeap -> a.currentEpoch < entry.epoch) :
    a.dueSlots = [] := by
  unfold dueSlots
  rw [List.map_eq_nil_iff, List.filter_eq_nil_iff]
  intro entry hentry
  simpa using h entry hentry

theorem dueSlots_cons (hheap : a.reclaimHeap = entry :: rest)
    (hdue : entry.epoch ≤ a.currentEpoch) :
    a.dueSlots = entry.index :: (popHeap a).dueSlots := by
  unfold dueSlots
  rw [popHeap_reclaimHeap hheap, popHeap_currentEpoch, hheap,
    List.filter_cons_of_pos (by simpa using hdue), List.map_cons]

theorem popHeap_generation (a : PageAllocator) (index : Nat) :
    ((popHeap a).pages index).generation = (a.pages index).generation := by
  unfold popHeap
  split
  · rfl
  · rename_i entry rest hheap
    split
    · by_cases hindex : index = entry.index
      · simp [hindex]
      · simp [hindex]
    · rfl

theorem reclaimLoop_due (hsound : Sound a) (hheap : a.reclaimHeap = entry :: rest)
    (hdue : entry.epoch ≤ a.currentEpoch) (reclaimed : Nat) :
    reclaimLoop a.currentEpoch (entry :: rest) reclaimed a = reclaimLoop a.currentEpoch rest
        (if a.entryCurrent entry then reclaimed + 1 else reclaimed)
        (popHeap a) := by
  have hlt := hsound.heap_lt entry (by simp [hheap])
  have hpop : popHeap a = if a.entryCurrent entry then
        { release { a with reclaimHeap := rest } entry.index id with
          reclaimedPagesTotal := a.reclaimedPagesTotal + 1 }
      else
        { a with reclaimHeap := rest } := by
    unfold popHeap
    rw [hheap]
  rw [hpop, reclaimLoop, if_pos hdue, bind_run, modify_run]
  dsimp only
  rw [get_bind_run]
  by_cases hcurrent : a.entryCurrent entry = true
  · have hfacts := entryCurrent_iff.mp hcurrent
    have hrefs := (hsound.pages _ hlt).of_pending hfacts.2.2.1
    have hfree : makeFree entry.index { a with reclaimHeap := rest } =
        .ok () (release { a with reclaimHeap := rest } entry.index id) :=
      makeFree_run (by simp [hfacts]) hrefs
    rw [if_pos hcurrent, if_pos hcurrent, if_neg (by simp [hfacts]),
      if_neg (by simp [hrefs]), bind_run_ok _ hfree]
    rfl
  · have hstale : (a.pages entry.index).generation ≠ entry.generation ∨
        (a.pages entry.index).allocationState ≠ reclaimPending ∨
        (a.pages entry.index).pendingFreeEpoch ≠ some entry.epoch := by
      by_contra hnot
      simp only [not_or, not_not] at hnot
      exact hcurrent (entryCurrent_iff.mpr ⟨hlt, hnot⟩)
    rw [if_neg hcurrent, if_neg hcurrent, if_pos hstale]

structure Reclaimed (repeated : Prop) (a b : PageAllocator) : Prop where
  events : exists count, b = applyAll a (List.replicate count reclaim) ∧
    Legal repeated a (List.replicate count reclaim)
  late : forall entry, entry ∈ b.reclaimHeap -> a.currentEpoch < entry.epoch
  ready : HeapExact a -> b.readyFree = a.readyFree ++ a.dueSlots

theorem reclaimLoop_run (repeated : Prop) (hsound : Sound a)
    (hheap : a.reclaimHeap = heap) (reclaimed : Nat) :
    exists total b, reclaimLoop a.currentEpoch heap reclaimed a = .ok total b ∧
      Reclaimed repeated a b := by
  induction heap generalizing a reclaimed with
  | nil =>
    refine ⟨reclaimed, a, rfl, ⟨0, rfl, trivial⟩, ?_, ?_⟩
    · simp [hheap]
    · simp [dueSlots, hheap]
  | cons entry rest ih =>
    by_cases hdue : entry.epoch ≤ a.currentEpoch
    · have henabled : reclaim.Enabled repeated a := ⟨entry, rest, hheap, hdue⟩
      rcases ih hsound.popHeap (popHeap_reclaimHeap hheap)
          (if a.entryCurrent entry then reclaimed + 1 else reclaimed) with
        ⟨total, b, hrun, ⟨count, hb, hlegal⟩, hlate, hready⟩
      rw [popHeap_currentEpoch] at hrun hlate
      refine ⟨total, b, ?_, ⟨count + 1, hb, henabled, hlegal⟩, hlate, ?_⟩
      · rw [reclaimLoop_due hsound hheap hdue, hrun]
      · intro hexact
        rw [hready hexact.popHeap, dueSlots_cons hheap hdue,
          popHeap_readyFree hheap (hexact.current entry (by simp [hheap])),
          List.append_assoc, List.singleton_append]
    · have hlate : forall other, other ∈ a.reclaimHeap -> a.currentEpoch < other.epoch := by
        have hsorted := hsound.heap_sorted
        rw [hheap, List.pairwise_cons] at hsorted
        intro other hother
        rw [hheap, List.mem_cons] at hother
        rcases hother with heq | hmem
        · rw [heq]
          omega
        · have hle := hsorted.1 other hmem
          unfold ReclaimEntry.Le at hle
          omega
      refine ⟨reclaimed, a, ?_, ⟨0, rfl, trivial⟩, hlate, ?_⟩
      · rw [reclaimLoop, if_neg hdue]
        rfl
      · intro _
        rw [dueSlots_of_late hlate, List.append_nil]

theorem reclaimCompletedLocked_run (repeated : Prop) (hsound : Sound a) :
    exists total b, reclaimCompletedLocked a.currentEpoch a = .ok total b ∧
      Reclaimed repeated a b :=
  reclaimLoop_run repeated hsound rfl 0

variable {b : PageAllocator} {repeated : Prop} {index : Nat}

theorem Reclaimed.sound (h : Reclaimed repeated a b) (hsound : Sound a) : Sound b := by
  rcases h.events with ⟨_, hb, hlegal⟩
  rw [hb]
  exact hlegal.preserves Sound (fun _ _ _ henabled hs => hs.event henabled) hsound

theorem reclaims_generation (hlegal : Legal repeated a (List.replicate count reclaim))
    (index : Nat) :
    ((applyAll a (List.replicate count reclaim)).pages index).generation =
      (a.pages index).generation := by
  refine hlegal.preserves (fun c => (c.pages index).generation = (a.pages index).generation) ?_ rfl
  intro c _ hmem _ hc
  rw [List.eq_of_mem_replicate hmem]
  exact (popHeap_generation c index).trans hc

theorem Reclaimed.generation (h : Reclaimed repeated a b) (index : Nat) :
    (b.pages index).generation = (a.pages index).generation := by
  rcases h.events with ⟨_, hb, hlegal⟩
  rw [hb]
  exact reclaims_generation hlegal index

/-!
## Allocating
-/

/-- The handle names the next lifetime of a slot, given the generations so far. -/
def IssuedFor (generations : Nat -> Nat) (index : Nat) (handle : KVPageHandle) : Prop :=
  handle.index = index ∧ handle.generation = generations index + 1

theorem resetForNewGeneration_run (hfree : (a.pages index).allocationState = free)
    (hgen : (a.pages index).generation < maxHandleGeneration) :
    resetForNewGeneration index a = .ok ()
        (a.modifyPage index fun page => page.startGeneration a.currentEpoch) := by
  unfold resetForNewGeneration
  rw [get_bind_run]
  rw [if_neg (by simp [hfree]), if_neg (by omega)]
  rfl

theorem resetForNewGeneration_exhausted (hfree : (a.pages index).allocationState = free)
    (hgen : maxHandleGeneration ≤ (a.pages index).generation) :
    exists e, resetForNewGeneration index a = .error e a := by
  unfold resetForNewGeneration
  rw [get_bind_run]
  rw [if_neg (by simp [hfree]), if_pos hgen]
  exact ⟨_, rfl⟩

theorem modifyPage_modifyPage (a : PageAllocator) (index : Nat)
    (f g : PageMetadata -> PageMetadata) :
    (a.modifyPage index f).modifyPage index g = a.modifyPage index fun page => g (f page) := by
  simp [modifyPage]

theorem reserveSlot_run (hfree : (a.pages index).allocationState = free)
    (hgen : (a.pages index).generation < maxHandleGeneration) :
    exists handle, IssuedFor (fun i => (a.pages i).generation) index handle ∧ reserveSlot index a =
        .ok handle (a.modifyPage index fun page => page.reserve a.currentEpoch) := by
  refine ⟨
    { index
      generation := (a.pages index).generation + 1
      generation_pos := Nat.succ_pos _
      generation_le := hgen }, ⟨rfl, rfl⟩, ?_⟩
  unfold reserveSlot
  rw [bind_run_ok _ (resetForNewGeneration_run hfree hgen), bind_run, modify_run]
  rw [modifyPage_modifyPage]
  apply query_run_ok
  rw [modifyPage_pages, Function.update_self]
  exact Handle.new_eq_ok (Nat.succ_pos _) hgen

theorem reserveSlot_exhausted (hfree : (a.pages index).allocationState = free)
    (hgen : maxHandleGeneration ≤ (a.pages index).generation) :
    exists e, reserveSlot index a = .error e a := by
  rcases resetForNewGeneration_exhausted hfree hgen with ⟨e, hrun⟩
  exact ⟨e, bind_run_error _ hrun⟩

section ReserveEvent

variable {a : PageAllocator} {index : Nat} {rest : List Nat}

section

variable (hready : a.readyFree = index :: rest)
include hready

theorem reserve_apply : reserve.apply a =
      { a.modifyPage index (fun page => page.reserve a.currentEpoch) with
        readyFree := rest } := by
  simp [apply, startHead, hready]

theorem reserve_apply_readyFree : (reserve.apply a).readyFree = rest := by
  rw [reserve_apply hready]

theorem reserve_apply_with : { reserve.apply a with readyFree := ready } =
      { a with readyFree := ready }.modifyPage index (fun page => page.reserve a.currentEpoch) := by
  rw [reserve_apply hready]
  rfl

end

theorem reserve_apply_other (hsound : Sound a) (hready : a.readyFree = index :: rest)
    (other : Nat) (hmem : other ∈ rest) : (reserve.apply a).pages other = a.pages other := by
  have hnodup := hsound.ready_nodup
  rw [hready, List.nodup_cons] at hnodup
  have hne : other ≠ index := by
    intro heq
    rw [heq] at hmem
    exact hnodup.1 hmem
  simp [reserve_apply hready, hne]

end ReserveEvent

variable {rest : List Nat}

/-- One `reserve` event per slot reserves exactly the head of the queue. -/
theorem applyAll_reserve (hsound : Sound a) (hready : a.readyFree = taken ++ rest) {repeated : Prop}
    (hlegal : Legal repeated a (List.replicate taken.length reserve)) (slot : Nat) :
    (applyAll a (List.replicate taken.length reserve)).pages slot =
      if slot ∈ taken then (a.pages slot).reserve a.currentEpoch else a.pages slot := by
  induction taken generalizing a with
  | nil => simp
  | cons index taken ih =>
    have hnodup := hsound.ready_nodup
    rw [hready, List.cons_append, List.nodup_cons, List.mem_append, not_or] at hnodup
    have hepoch : (reserve.apply a).currentEpoch = a.currentEpoch := by
      rw [reserve_apply hready]
      rfl
    have hstep := ih (hsound.event hlegal.1) (reserve_apply_readyFree hready) hlegal.2
    rw [List.length_cons, List.replicate_succ, applyAll_cons, hstep, hepoch]
    by_cases hslot : slot = index
    · rw [hslot, if_neg hnodup.1.1, if_pos (by simp), reserve_apply hready]
      simp
    · have hpage : (reserve.apply a).pages slot = a.pages slot := by
        rw [reserve_apply hready]
        simp [hslot]
      simp [hpage, hslot]

/-- The loop of `allocate` against one `reserve` event per slot: it works on a
queue from which all slots were taken in advance. -/
theorem reserveSlots_run (repeated : Prop) {generations : Nat -> Nat} (hsound : Sound a)
    (hready : a.readyFree = taken ++ rest) (hgenerations : forall index, index ∈ taken ->
      (a.pages index).generation = generations index)
    (hfresh : forall index, index ∈ taken -> generations index < maxHandleGeneration) :
    exists handles, taken.mapM reserveSlot { a with readyFree := rest } = .ok handles
            (applyAll a (List.replicate taken.length reserve)) ∧
        Legal repeated a (List.replicate taken.length reserve) ∧
        List.Forall₂ (IssuedFor generations) taken handles := by
  induction taken generalizing a with
  | nil =>
    refine ⟨[], ?_, trivial, List.Forall₂.nil⟩
    rw [List.nil_append] at hready
    rw [<- hready]
    rfl
  | cons index taken ih =>
    have hfree := hsound.ready_free index (by simp [hready])
    have hgen := hgenerations index (by simp)
    have hlt : (a.pages index).generation < maxHandleGeneration := by
      rw [hgen]
      exact hfresh index (by simp)
    have henabled : reserve.Enabled repeated a :=
      ⟨index, taken ++ rest, hready, hlt⟩
    have hother := reserve_apply_other hsound hready
    rcases ih (hsound.event henabled) (reserve_apply_readyFree hready) (fun other hmem => by
          rw [hother other (by simp [hmem])]
          exact hgenerations other (by simp [hmem]))
        (fun other hmem => hfresh other (by simp [hmem])) with
      ⟨handles, hrun, hlegal, hissued⟩
    rcases reserveSlot_run (a := { a with readyFree := rest }) hfree hlt with
      ⟨handle, hhandle, hslot⟩
    rw [<- reserve_apply_with hready] at hslot
    refine ⟨handle :: handles, ?_, ⟨henabled, hlegal⟩, List.Forall₂.cons ?_ hissued⟩
    · rw [List.mapM_cons, bind_run_ok _ hslot, bind_run_ok _ hrun]
      rfl
    · exact ⟨hhandle.1, by simpa [hgen] using hhandle.2⟩

/-- A slot with a spent generation space: the slots before it stay reserved, the
rest of the batch is lost from the queue. -/
theorem reserveSlots_exhausted (repeated : Prop) (hsound : Sound a)
    (hready : a.readyFree = taken ++ rest) (hspent : exists index, index ∈ taken ∧
      maxHandleGeneration ≤ (a.pages index).generation) :
    exists e count lost, taken.mapM reserveSlot { a with readyFree := rest } = .error e
            (applyAll a (List.replicate count reserve ++ [lose lost])) ∧
        Legal repeated a (List.replicate count reserve ++ [lose lost]) ∧ 0 < lost := by
  induction taken generalizing a with
  | nil => simp at hspent
  | cons index taken ih =>
    have hfree := hsound.ready_free index (by simp [hready])
    by_cases hgen : (a.pages index).generation < maxHandleGeneration
    · have henabled : reserve.Enabled repeated a :=
        ⟨index, taken ++ rest, hready, hgen⟩
      have hother := reserve_apply_other hsound hready
      rcases hspent with ⟨spent, hmem, hspent⟩
      rw [List.mem_cons] at hmem
      rcases hmem with heq | hmem
      · rw [heq] at hspent
        omega
      rcases ih (hsound.event henabled) (reserve_apply_readyFree hready) ⟨spent, hmem, by
            rw [hother spent (by simp [hmem])]
            exact hspent⟩ with
        ⟨e, count, lost, hrun, hlegal, hlost⟩
      rcases reserveSlot_run (a := { a with readyFree := rest }) hfree hgen with ⟨handle, _, hslot⟩
      rw [<- reserve_apply_with hready] at hslot
      refine ⟨e, count + 1, lost, ?_, ⟨henabled, hlegal⟩, hlost⟩
      rw [List.mapM_cons, bind_run_ok _ hslot, bind_run_error _ hrun]
      rfl
    · have hspent : maxHandleGeneration ≤ (a.pages index).generation := by omega
      rcases reserveSlot_exhausted (a := { a with readyFree := rest }) hfree hspent with ⟨e, hslot⟩
      refine ⟨e, 0, taken.length + 1, ?_,
        ⟨⟨index, taken ++ rest, hready, hspent⟩, trivial⟩, Nat.succ_pos _⟩
      rw [List.mapM_cons, bind_run_error _ hslot]
      simp [apply, hready]

/-- The slots `allocate` draws from, in order. -/
def nextSlots (a : PageAllocator) : List Nat :=
  a.readyFree ++ a.dueSlots

theorem allocate_negative (h : numPages < 0) : exists e, allocate numPages a = .error e a := by
  unfold allocate
  rw [if_pos h]
  exact ⟨_, rfl⟩

theorem allocate_after_reclaim (hpos : 0 < numPages)
    (hreclaim : reclaimCompletedLocked a.currentEpoch a = .ok total b) :
    allocate numPages a = if b.readyFree.length < numPages.toNat then
        .ok none b
      else
        (do
          let handles <- (b.readyFree.take numPages.toNat).mapM reserveSlot
          return some handles)
          { b with readyFree := b.readyFree.drop numPages.toNat } := by
  have hnonneg : ¬ numPages < 0 := by omega
  have hnonzero : ¬ numPages = 0 := by omega
  simp only [allocate, hnonneg, hnonzero, if_false, bind_run, get_run, hreclaim]
  split
  · rfl
  · rfl

theorem reservePermanentPage_empty (hready : a.readyFree = []) :
    exists e, reservePermanentPage a = .error e a := by
  unfold reservePermanentPage
  rw [get_bind_run]
  rw [hready]
  exact ⟨_, rfl⟩

section

variable {index : Nat} (hsound : Sound a) (hready : a.readyFree = index :: rest)
include hsound hready

theorem reservePermanentPage_run (hgen : (a.pages index).generation < maxHandleGeneration) :
    exists handle, IssuedFor (fun i => (a.pages i).generation) index handle ∧
      reservePermanentPage a = .ok handle (permanent.apply a) := by
  have hfree := hsound.ready_free index (by simp [hready])
  have hreset : resetForNewGeneration index { a with readyFree := rest } = _ :=
    resetForNewGeneration_run hfree hgen
  refine ⟨
    { index
      generation := (a.pages index).generation + 1
      generation_pos := Nat.succ_pos _
      generation_le := hgen }, ⟨rfl, rfl⟩, ?_⟩
  unfold reservePermanentPage
  rw [get_bind_run]
  rw [hready]
  dsimp only
  rw [bind_run, modify_run]
  dsimp only
  rw [bind_run_ok _ hreset, bind_run, modify_run]
  rw [modifyPage_modifyPage]
  simp only [apply, startHead, hready]
  apply query_run_ok
  rw [modifyPage_pages, Function.update_self]
  exact Handle.new_eq_ok (Nat.succ_pos _) hgen

theorem reservePermanentPage_exhausted (hgen : maxHandleGeneration ≤ (a.pages index).generation) :
    exists e, reservePermanentPage a = .error e ((lose 1).apply a) := by
  have hfree := hsound.ready_free index (by simp [hready])
  have hlost : (lose 1).apply a = { a with readyFree := rest } := by
    simp [apply, hready]
  have hreset : exists e, resetForNewGeneration index { a with readyFree := rest } =
      .error e { a with readyFree := rest } :=
    resetForNewGeneration_exhausted hfree hgen
  rcases hreset with ⟨e, hreset⟩
  unfold reservePermanentPage
  rw [get_bind_run]
  rw [hready]
  dsimp only
  rw [bind_run, modify_run]
  dsimp only
  rw [bind_run_error _ hreset, hlost]
  exact ⟨e, rfl⟩

end

theorem issuedFor_slots {generations : Nat -> Nat}
    (h : List.Forall₂ (IssuedFor generations) taken handles) :
    handles.map (fun x => x.index) = taken ∧
      forall x, x ∈ handles -> x.generation = generations x.index + 1 := by
  induction h with
  | nil => simp
  | cons hhandle _ ih =>
    refine ⟨?_, ?_⟩
    · rw [List.map_cons, hhandle.1, ih.1]
    · intro x hx
      rw [List.mem_cons] at hx
      rcases hx with heq | hmem
      · rw [heq, hhandle.2, hhandle.1]
      · exact ih.2 x hmem

/-- What a successful allocation does: a reclaim into `b` and then one reservation
per returned handle, in the order of the ready queue. -/
structure Allocated (repeated : Prop) (a b : PageAllocator) (handles : List KVPageHandle)
    (c : PageAllocator) : Prop where
  reclaims : exists count, b = applyAll a (List.replicate count reclaim) ∧
    Legal repeated a (List.replicate count reclaim)
  final : c = applyAll b (List.replicate handles.length reserve)
  legal : Legal repeated b (List.replicate handles.length reserve)
  slots : handles.map (fun h => h.index) = b.readyFree.take handles.length
  generations : forall h, h ∈ handles -> h.generation = (b.pages h.index).generation + 1

namespace Allocated

variable {repeated : Prop} {a b c : PageAllocator} {handles : List KVPageHandle}

section

variable (h : Allocated repeated a b handles c)
include h

theorem sound_reclaimed (hsound : Sound a) : Sound b := by
  rcases h.reclaims with ⟨_, hb, hlegal⟩
  rw [hb]
  exact hlegal.preserves Sound (fun _ _ _ henabled hs => hs.event henabled) hsound

theorem generation_reclaimed (index : Nat) :
    (b.pages index).generation = (a.pages index).generation := by
  rcases h.reclaims with ⟨_, hb, hlegal⟩
  rw [hb]
  exact reclaims_generation hlegal index

theorem take_length : (b.readyFree.take handles.length).length = handles.length := by
  rw [<- h.slots, List.length_map]

/-- Exactly the returned slots change after the reclaim. -/
theorem pages (hsound : Sound a) (slot : Nat) : c.pages slot =
      if slot ∈ b.readyFree.take handles.length then
        (b.pages slot).reserve b.currentEpoch
      else
        b.pages slot := by
  have hready := (List.take_append_drop handles.length b.readyFree).symm
  have hlegal := h.legal
  rw [<- h.take_length] at hlegal
  have hpages := applyAll_reserve (h.sound_reclaimed hsound) hready hlegal slot
  rw [h.take_length, <- h.final] at hpages
  exact hpages

end

end Allocated

/-- Every outcome of `allocate` on a non-negative count. -/
inductive AllocateOutcome (repeated : Prop) (a : PageAllocator) (count : Nat) :
    EStateM.Result Exc PageAllocator (Option (List KVPageHandle)) -> Prop where
  | refused {b : PageAllocator} (hreclaimed : Reclaimed repeated a b)
      (hshort : b.readyFree.length < count) :
      AllocateOutcome repeated a count (.ok none b)
  | granted {handles : List KVPageHandle} {b c : PageAllocator}
      (hallocated : Allocated repeated a b handles c) (hlength : handles.length = count) :
      AllocateOutcome repeated a count (.ok (some handles) c)
  | exhausted {e : Exc} {b : PageAllocator} {reserved lost : Nat}
      (hreclaimed : Reclaimed repeated a b)
      (hlegal : Legal repeated b
        (List.replicate reserved reserve ++ [lose lost]))
      (hlost : 0 < lost) (hlength : count ≤ b.readyFree.length)
      (hspent : exists index, index ∈ b.readyFree.take count ∧
        maxHandleGeneration ≤ (a.pages index).generation) :
      AllocateOutcome repeated a count
        (.error e
          (applyAll b (List.replicate reserved reserve ++ [lose lost])))

theorem allocate_outcome (repeated : Prop) (hsound : Sound a) (count : Nat) :
    AllocateOutcome repeated a count (allocate count a) := by
  by_cases hzero : count = 0
  · rw [hzero]
    exact .granted ⟨⟨0, rfl, trivial⟩, rfl, trivial, rfl, by simp⟩ rfl
  · rcases reclaimCompletedLocked_run repeated hsound with ⟨_, b, hrun, hreclaimed⟩
    rw [allocate_after_reclaim (by omega) hrun, Int.toNat_natCast]
    split
    · rename_i hshort
      exact .refused hreclaimed hshort
    · rename_i hshort
      have hlength : count ≤ b.readyFree.length := by omega
      have hready := (List.take_append_drop count b.readyFree).symm
      by_cases hspent : exists index, index ∈ b.readyFree.take count ∧
          maxHandleGeneration ≤ (b.pages index).generation
      · rcases reserveSlots_exhausted repeated (hreclaimed.sound hsound) hready hspent with
          ⟨_, _, _, hloop, hlegal, hlost⟩
        rw [bind_run_error _ hloop]
        refine .exhausted hreclaimed hlegal hlost hlength ?_
        simpa only [hreclaimed.generation] using hspent
      · rcases reserveSlots_run repeated (hreclaimed.sound hsound) hready (fun _ _ => rfl) (by
              intro index hmem
              by_contra _
              exact hspent ⟨index, hmem, by omega⟩) with
          ⟨handles, hloop, hlegal, hissued⟩
        have htake : (b.readyFree.take count).length = count := by
          rw [List.length_take]
          omega
        have hhandles : handles.length = count := by
          rw [<- hissued.length_eq, htake]
        rw [bind_run_ok _ hloop]
        have hslots := issuedFor_slots hissued
        rw [htake, <- hhandles] at hlegal ⊢
        exact .granted
          ⟨hreclaimed.events, rfl, hlegal, hslots.1.trans (by rw [hhandles]), hslots.2⟩ rfl

end PageAllocator

end Memory
end Ayaka
