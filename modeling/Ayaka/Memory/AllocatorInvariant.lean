import Ayaka.Memory.AllocatorEvents

/-!
# Allocator invariants

`Sound` survives every event.  `HeapExact` needs batches without a repeated page,
and `Tight` needs that no slot with a spent generation space was taken from the
ready queue.
-/

namespace Ayaka
namespace Memory

open PageAllocationState
open PageAllocator

/-- Every slot is well formed, the ready queue lists free slots once, and the heap
is sorted. -/
structure Sound (a : PageAllocator) : Prop where
  pages : forall index, index < a.totalPages -> PageOk a.pageSize (a.pages index)
  ready_nodup : a.readyFree.Nodup
  ready_lt : forall index, index ∈ a.readyFree -> index < a.totalPages
  ready_free : forall index, index ∈ a.readyFree ->
    (a.pages index).allocationState = free
  heap_lt : forall entry, entry ∈ a.reclaimHeap -> entry.index < a.totalPages
  heap_sorted : a.reclaimHeap.Pairwise ReclaimEntry.Le

/-- The heap holds exactly one entry for every pending slot, and nothing stale. -/
structure HeapExact (a : PageAllocator) : Prop where
  nodup : (a.reclaimHeap.map ReclaimEntry.index).Nodup
  current : forall entry, entry ∈ a.reclaimHeap -> a.entryCurrent entry = true
  covers : forall index, index < a.totalPages ->
    (a.pages index).allocationState = reclaimPending ->
      exists entry, entry ∈ a.reclaimHeap ∧ entry.index = index

def Tight (a : PageAllocator) : Prop :=
  forall index, index < a.totalPages -> (a.pages index).allocationState = free ->
    index ∈ a.readyFree

theorem PageMetadata.Active.ne_free {page : PageMetadata} (h : page.Active) :
    page.allocationState ≠ free := by
  rcases h with hs | hs <;> simp [hs]

theorem PageMetadata.Active.ne_pending {page : PageMetadata} (h : page.Active) :
    page.allocationState ≠ reclaimPending := by
  rcases h with hs | hs <;> simp [hs]

section

variable (field : RefField) (page : PageMetadata)

@[simp] theorem RefField.add_allocationState :
    (field.add page).allocationState = page.allocationState := by
  cases field <;> rfl

@[simp] theorem RefField.sub_allocationState :
    (field.sub page).allocationState = page.allocationState := by
  cases field <;> rfl

@[simp] theorem RefField.add_generation : (field.add page).generation = page.generation := by
  cases field <;> rfl

@[simp] theorem RefField.sub_generation : (field.sub page).generation = page.generation := by
  cases field <;> rfl

end

namespace ReclaimEntry

instance : IsTrans ReclaimEntry ReclaimEntry.Le where
  trans x y z hxy hyz := by
    unfold Le at *
    omega

instance : Std.Total ReclaimEntry.Le where
  total x y := by
    unfold Le
    omega

end ReclaimEntry

theorem heappush_perm (heap : List ReclaimEntry) (entry : ReclaimEntry) :
    (heappush heap entry).Perm (entry :: heap) :=
  List.perm_orderedInsert _ _ _

@[simp] theorem mem_heappush {heap entry other} :
    other ∈ heappush heap entry <-> other = entry ∨ other ∈ heap := by
  rw [(heappush_perm heap entry).mem_iff, List.mem_cons]

/-!
## Soundness
-/

namespace Sound

variable {a : PageAllocator} {index epoch : Nat} {f : PageMetadata -> PageMetadata}

section

variable (h : Sound a)
include h

theorem modifyPage (hold : (a.pages index).allocationState ≠ free)
    (hpage : PageOk a.pageSize (f (a.pages index))) : Sound (a.modifyPage index f) where
  __ := h
  pages := by
    intro j hj
    by_cases hji : j = index
    · rw [hji]
      simpa using hpage
    · simpa [hji] using h.pages j hj
  ready_free := by
    intro j hj
    have hji : j ≠ index := by
      intro heq
      rw [heq] at hj
      exact hold (h.ready_free index hj)
    simpa [hji] using h.ready_free j hj

section

variable (hindex : index < a.totalPages) (hold : (a.pages index).allocationState ≠ free)
include hindex hold

theorem settle (hmark : Markable a.pageSize (f (a.pages index))) :
    Sound (a.settle index epoch f) where
  pages := by
    intro j hj
    by_cases hji : j = index
    · rw [hji]
      simpa using hmark.pageOk_marked epoch
    · simpa [hji] using h.pages j (by simpa using hj)
  ready_nodup := by simpa using h.ready_nodup
  ready_lt := by simpa using h.ready_lt
  ready_free := by
    intro j hj
    rw [settle_readyFree] at hj
    have hji : j ≠ index := by
      intro heq
      rw [heq] at hj
      exact hold (h.ready_free index hj)
    simpa [hji] using h.ready_free j hj
  heap_lt := by
    intro entry hentry
    rw [settle_reclaimHeap] at hentry
    split at hentry
    · rcases mem_heappush.mp hentry with heq | hmem
      · simpa [heq] using hindex
      · simpa using h.heap_lt entry hmem
    · simpa using h.heap_lt entry hentry
  heap_sorted := by
    rw [settle_reclaimHeap]
    split
    · exact h.heap_sorted.orderedInsert _ _
    · exact h.heap_sorted

theorem release (hgen : (f (a.pages index)).generation = (a.pages index).generation)
    (hrefs : (f (a.pages index)).totalRefs = 0) : Sound (a.release index f) where
  __ := h
  pages := by
    intro j hj
    by_cases hji : j = index
    · rw [hji]
      have hle := (h.pages index hindex).generation_le
      rw [<- hgen] at hle
      simpa using PageOk.freed hle hrefs
    · simpa [hji] using h.pages j hj
  ready_nodup := by
    refine h.ready_nodup.append (List.nodup_singleton _) ?_
    intro j hj hji
    rw [List.mem_singleton] at hji
    rw [hji] at hj
    exact hold (h.ready_free index hj)
  ready_lt := by
    intro j hj
    rw [release_readyFree, List.mem_append, List.mem_singleton] at hj
    rcases hj with hj | hj
    · exact h.ready_lt j hj
    · simpa [hj] using hindex
  ready_free := by
    intro j hj
    rw [release_readyFree, List.mem_append, List.mem_singleton] at hj
    by_cases hji : j = index
    · simp [hji]
    · rcases hj with hj | hj
      · simpa [hji] using h.ready_free j hj
      · exact absurd hj hji

end

theorem startHead (hfresh : PageEvent.HeadFresh a)
    (hpage : forall page : PageMetadata, page.generation < maxHandleGeneration ->
      PageOk a.pageSize (f page)) : Sound (PageEvent.startHead a f) := by
  rcases hfresh with ⟨index, rest, hready, hgen⟩
  have hnodup := h.ready_nodup
  rw [hready, List.nodup_cons] at hnodup
  have hmem : forall j, j ∈ rest -> j ∈ a.readyFree := by
    intro j hj
    rw [hready]
    exact List.mem_cons_of_mem _ hj
  unfold PageEvent.startHead
  rw [hready]
  constructor
  · intro j hj
    by_cases hji : j = index
    · rw [hji]
      simpa using hpage _ hgen
    · simpa [hji] using h.pages j hj
  · exact hnodup.2
  · exact fun j hj => h.ready_lt j (hmem j hj)
  · intro j hj
    have hji : j ≠ index := by
      intro heq
      rw [heq] at hj
      exact hnodup.1 hj
    simpa [hji] using h.ready_free j (hmem j hj)
  · exact h.heap_lt
  · exact h.heap_sorted

theorem popHeap : Sound (PageEvent.popHeap a) := by
  unfold PageEvent.popHeap
  split
  · exact h
  · rename_i entry rest hheap
    have hpopped : Sound { a with reclaimHeap := rest } :=
      { h with
        heap_lt := by
          intro _ hother
          apply h.heap_lt
          rw [hheap]
          exact List.mem_cons_of_mem _ hother
        heap_sorted := by
          have hsorted := h.heap_sorted
          rw [hheap] at hsorted
          exact hsorted.of_cons }
    split
    · rename_i hcurrent
      simp only [PageAllocator.entryCurrent, Bool.and_eq_true, decide_eq_true_eq] at hcurrent
      rcases hcurrent with ⟨⟨⟨hlt, _⟩, hstate⟩, _⟩
      have hreleased : Sound (PageAllocator.release _ entry.index id) :=
        hpopped.release hlt (by simp [hstate]) rfl ((h.pages _ hlt).of_pending hstate)
      exact { hreleased with }
    · exact hpopped

theorem event {repeated : Prop} {event : PageEvent} (henabled : event.Enabled repeated a) :
    Sound (event.apply a) := by
  cases event with
  | reserve =>
    exact h.startHead henabled fun _ hgen => PageOk.reserve hgen
  | permanent =>
    exact h.startHead henabled fun _ hgen => PageOk.makePermanent hgen
  | lose count =>
    exact
      { h with
        ready_nodup := h.ready_nodup.sublist (List.drop_sublist _ _)
        ready_lt := fun j hj => h.ready_lt j (List.mem_of_mem_drop hj)
        ready_free := fun j hj => h.ready_free j (List.mem_of_mem_drop hj) }
  | commit index =>
    rcases henabled with ⟨hlt, hactive⟩
    exact h.modifyPage hactive.ne_free ((h.pages index hlt).commit hactive)
  | rollback index =>
    rcases henabled with ⟨hlt, hstate, hflight⟩
    have hok := (h.pages index hlt).of_reserved hstate
    refine h.release hlt (by simp [hstate]) rfl ?_
    simp [PageMetadata.totalRefs, PageMetadata.ownershipRefs, hok, hflight]
  | abandon index epoch =>
    rcases henabled with ⟨hlt, hstate⟩
    have hcases : (a.pages index).allocationState = reserved ∨
        (a.pages index).allocationState = reclaimPending := by
      rcases hstate with hs | hs
      · exact .inl hs
      · exact .inr hs.2
    refine h.settle hlt ?_ ((h.pages index hlt).dropReservation hcases)
    rcases hcases with hs | hs <;> simp [hs]
  | enter index =>
    rcases henabled with ⟨hlt, hactive⟩
    exact h.modifyPage hactive.ne_free ((h.pages index hlt).enterStep hactive)
  | leave index =>
    rcases henabled with ⟨hlt, hactive, _⟩
    exact h.settle hlt hactive.ne_free ((h.pages index hlt).leaveStep (.inl hactive))
  | setValid index tokens =>
    rcases henabled with ⟨hlt, hactive, htokens⟩
    exact h.modifyPage hactive.ne_free ((h.pages index hlt).setValid hactive htokens)
  | acquire field index =>
    rcases henabled with ⟨hlt, hlive⟩
    exact h.modifyPage (by simp [hlive]) ((h.pages index hlt).add field hlive)
  | drop field index epoch =>
    rcases henabled with ⟨hlt, hlive, _⟩
    exact h.settle hlt (by simp [hlive]) ((h.pages index hlt).sub field hlive)
  | advance epoch =>
    exact { h with }
  | reclaim =>
    exact h.popHeap

end

end Sound

/-!
## Heap coverage
-/

theorem entryCurrent_iff {a : PageAllocator} {entry : ReclaimEntry} :
    a.entryCurrent entry = true <-> entry.index < a.totalPages ∧
        (a.pages entry.index).generation = entry.generation ∧
        (a.pages entry.index).allocationState = reclaimPending ∧
        (a.pages entry.index).pendingFreeEpoch = some entry.epoch := by
  simp [PageAllocator.entryCurrent, and_assoc]

namespace HeapExact

variable {a b : PageAllocator} {index epoch : Nat} {f : PageMetadata -> PageMetadata}

theorem index_ne (h : HeapExact a) (hstate : (a.pages index).allocationState ≠ reclaimPending)
    {entry : ReclaimEntry} (hentry : entry ∈ a.reclaimHeap) : entry.index ≠ index := by
  intro heq
  have hcurrent := entryCurrent_iff.mp (h.current entry hentry)
  rw [heq] at hcurrent
  exact hstate hcurrent.2.2.1

/-- Coverage only looks at the heap and at pending slots. -/
theorem congr (h : HeapExact a) (htotal : b.totalPages = a.totalPages)
    (hheap : b.reclaimHeap = a.reclaimHeap)
    (hpages : forall j, (a.pages j).allocationState = reclaimPending ∨
      (b.pages j).allocationState = reclaimPending -> b.pages j = a.pages j) : HeapExact b where
  nodup := by
    rw [hheap]
    exact h.nodup
  current := by
    intro entry hentry
    rw [hheap] at hentry
    have hcurrent := entryCurrent_iff.mp (h.current entry hentry)
    rw [entryCurrent_iff, htotal, hpages _ (.inl hcurrent.2.2.1)]
    exact hcurrent
  covers := by
    intro j hj hstate
    rw [hheap]
    rw [hpages j (.inr hstate)] at hstate
    exact h.covers j (by rwa [htotal] at hj) hstate

theorem modifyPage (h : HeapExact a) (hold : (a.pages index).allocationState ≠ reclaimPending)
    (hnew : (f (a.pages index)).allocationState ≠ reclaimPending) :
    HeapExact (a.modifyPage index f) := by
  refine h.congr rfl rfl ?_
  intro j hj
  by_cases hji : j = index
  · rw [hji] at hj
    simp [hold, hnew] at hj
  · simp [hji]

theorem startHead (h : HeapExact a) (hsound : Sound a)
    (hnew : forall page, (f page).allocationState ≠ reclaimPending) :
    HeapExact (PageEvent.startHead a f) := by
  unfold PageEvent.startHead
  split
  · exact h
  · rename_i index rest hready
    have hfree : (a.pages index).allocationState = free := by
      apply hsound.ready_free
      simp [hready]
    exact (h.modifyPage (by simp [hfree]) (hnew _)).congr rfl rfl (fun _ _ => rfl)

theorem settle (h : HeapExact a) (hindex : index < a.totalPages) (hold : (a.pages index).Active)
    (hnew : (f (a.pages index)).Active) : HeapExact (a.settle index epoch f) := by
  by_cases hqueues : (f (a.pages index)).Queues
  · have hfresh : forall entry, entry ∈ a.reclaimHeap -> entry.index ≠ index :=
      fun entry hentry => h.index_ne hold.ne_pending hentry
    have hheap := a.settle_reclaimHeap index epoch f
    rw [if_pos hqueues] at hheap
    have hperm := heappush_perm a.reclaimHeap
      { epoch := PageAllocator.requiredEpoch (f (a.pages index)).pendingFreeEpoch epoch
        index
        generation := (f (a.pages index)).generation }
    constructor
    · rw [hheap, (hperm.map ReclaimEntry.index).nodup_iff, List.map_cons, List.nodup_cons]
      refine ⟨?_, h.nodup⟩
      simpa using hfresh
    · intro entry hentry
      rw [hheap, mem_heappush] at hentry
      rw [entryCurrent_iff, settle_pages]
      rcases hentry with heq | hmem
      · simp [heq, hindex, PageMetadata.marked_of_queues hqueues]
      · have hcurrent := entryCurrent_iff.mp (h.current entry hmem)
        simpa [hfresh entry hmem] using hcurrent
    · intro j hj hstate
      simp only [hheap, mem_heappush]
      by_cases hji : j = index
      · exact ⟨_, .inl rfl, hji.symm⟩
      · rw [settle_pages, Function.update_of_ne hji] at hstate
        rcases h.covers j (by simpa using hj) hstate with ⟨entry, hmem, hentry⟩
        exact ⟨entry, .inr hmem, hentry⟩
  · refine h.congr (by simp) ?_ ?_
    · rw [settle_reclaimHeap, if_neg hqueues]
    · intro j hj
      rw [settle_pages] at hj ⊢
      by_cases hji : j = index
      · exfalso
        rw [hji, Function.update_self] at hj
        have hstate : ((f (a.pages index)).marked epoch).allocationState =
            (f (a.pages index)).allocationState :=
          PageMetadata.marked_state_of_not_queues hqueues
        rw [hstate] at hj
        rcases hj with hj | hj
        · exact hold.ne_pending hj
        · exact hnew.ne_pending hj
      · rw [Function.update_of_ne hji]

theorem release (h : HeapExact a) (hold : (a.pages index).allocationState ≠ reclaimPending) :
    HeapExact (a.release index f) := by
  refine h.congr rfl rfl ?_
  intro j hj
  by_cases hji : j = index
  · rw [hji] at hj
    simp [hold] at hj
  · simp [hji]

theorem popHeap (h : HeapExact a) : HeapExact (PageEvent.popHeap a) := by
  unfold PageEvent.popHeap
  split
  · exact h
  · rename_i entry rest hheap
    have hcurrent := h.current entry (by simp [hheap])
    have hnodup := h.nodup
    rw [hheap, List.map_cons, List.nodup_cons] at hnodup
    have hne : forall other, other ∈ rest -> other.index ≠ entry.index := by
      intro other hother heq
      apply hnodup.1
      rw [List.mem_map]
      exact ⟨other, hother, heq⟩
    rw [if_pos hcurrent]
    constructor
    · exact hnodup.2
    · intro other hother
      have hold := entryCurrent_iff.mp (h.current other (by
        rw [hheap]
        exact List.mem_cons_of_mem _ hother))
      rw [entryCurrent_iff]
      simpa [hne other hother] using hold
    · intro j hj hstate
      by_cases hji : j = entry.index
      · simp [hji] at hstate
      · rcases h.covers j hj (by simpa [hji] using hstate) with ⟨other, hother, hindex⟩
        refine ⟨other, ?_, hindex⟩
        rw [hheap, List.mem_cons] at hother
        rcases hother with heq | hmem
        · rw [<- hindex, heq] at hji
          exact absurd rfl hji
        · exact hmem

theorem unique_entry (h : HeapExact a) (hlt : index < a.totalPages)
    (hstate : (a.pages index).allocationState = reclaimPending) :
    (a.reclaimHeap.filter fun entry =>
      a.entryCurrent entry && decide (entry.index = index)).length = 1 := by
  rcases h.covers index hlt hstate with ⟨entry, hentry, hindex⟩
  have hsingle : a.reclaimHeap.filter (fun other =>
      a.entryCurrent other && decide (other.index = index)) =
        a.reclaimHeap.filter (fun other => decide (other = entry)) := by
    apply List.filter_congr
    intro other hother
    rw [h.current other hother, Bool.true_and, decide_eq_decide]
    constructor
    · intro hother'
      exact List.inj_on_of_nodup_map h.nodup hother hentry (hother'.trans hindex.symm)
    · intro heq
      rw [heq, hindex]
  rw [hsingle, <- List.countP_eq_length_filter]
  have hcount := List.count_eq_one_of_mem (h.nodup.of_map _) hentry
  rwa [List.count_eq_countP] at hcount

theorem event {event : PageEvent} (h : HeapExact a) (hsound : Sound a)
    (henabled : event.Enabled False a) : HeapExact (event.apply a) := by
  cases event with
  | reserve | permanent => exact h.startHead hsound (by simp)
  | lose count => exact h.congr rfl rfl (fun _ _ => rfl)
  | commit index => exact h.modifyPage henabled.2.ne_pending (by simp)
  | rollback index => exact h.release (by simp [henabled.2.1])
  | abandon index epoch =>
    rcases henabled with ⟨hlt, hstate | hstate⟩
    · exact h.settle hlt (.inl hstate) (.inl hstate)
    · exact hstate.1.elim
  | enter index => exact h.modifyPage henabled.2.ne_pending henabled.2.ne_pending
  | leave index => exact h.settle henabled.1 henabled.2.1 henabled.2.1
  | setValid index tokens =>
    exact h.modifyPage henabled.2.1.ne_pending henabled.2.1.ne_pending
  | acquire field index => exact h.modifyPage (by simp [henabled.2]) (by simp [henabled.2])
  | drop field index epoch =>
    refine h.settle henabled.1 (.inr henabled.2.1) (.inr ?_)
    rw [RefField.sub_allocationState]
    exact henabled.2.1
  | advance epoch => exact h.congr rfl rfl (fun _ _ => rfl)
  | reclaim => exact h.popHeap

end HeapExact

/-!
## The ready queue
-/

namespace Tight

variable {a : PageAllocator} {index epoch : Nat} {f : PageMetadata -> PageMetadata}

section

variable (h : Tight a)
include h

section

variable (hnew : (f (a.pages index)).allocationState ≠ free)
include hnew

theorem modifyPage : Tight (a.modifyPage index f) := by
  intro j hj hstate
  by_cases hji : j = index
  · rw [hji] at hstate
    simp [hnew] at hstate
  · exact h j hj (by simpa [hji] using hstate)

theorem settle : Tight (a.settle index epoch f) := by
  intro j hj hstate
  rw [settle_readyFree]
  by_cases hji : j = index
  · rw [hji, settle_pages, Function.update_self] at hstate
    exact absurd hstate (PageMetadata.marked_ne_free hnew)
  · exact h j (by simpa using hj) (by simpa [hji] using hstate)

end

theorem release : Tight (a.release index f) := by
  intro j hj hstate
  rw [release_readyFree, List.mem_append, List.mem_singleton]
  by_cases hji : j = index
  · exact .inr hji
  · exact .inl (h j hj (by simpa [hji] using hstate))

theorem startHead (hnew : forall page, (f page).allocationState ≠ free) :
    Tight (PageEvent.startHead a f) := by
  unfold PageEvent.startHead
  split
  · exact h
  · rename_i index rest hready
    intro j hj hstate
    by_cases hji : j = index
    · rw [hji] at hstate
      simp [hnew] at hstate
    · have hmem := h j hj (by simpa [hji] using hstate)
      rw [hready, List.mem_cons] at hmem
      rcases hmem with heq | hmem
      · exact absurd heq hji
      · exact hmem

theorem popHeap : Tight (PageEvent.popHeap a) := by
  unfold PageEvent.popHeap
  split
  · exact h
  · rename_i entry rest hheap
    have hpopped : Tight { a with reclaimHeap := rest } := h
    split
    · exact hpopped.release
    · exact hpopped

theorem event {repeated : Prop} {event : PageEvent} (henabled : event.Enabled repeated a)
    (hlose : forall count, event ≠ .lose count) : Tight (event.apply a) := by
  cases event with
  | reserve | permanent => exact h.startHead (by simp)
  | lose count => exact absurd rfl (hlose count)
  | commit index => exact h.modifyPage (by simp)
  | rollback index => exact h.release
  | abandon index epoch =>
    apply h.settle
    rcases henabled with ⟨_, hs | ⟨_, hs⟩⟩ <;> simp [hs]
  | enter index => exact h.modifyPage henabled.2.ne_free
  | leave index => exact h.settle henabled.2.1.ne_free
  | setValid index tokens => exact h.modifyPage henabled.2.1.ne_free
  | acquire field index => exact h.modifyPage (by simp [henabled.2])
  | drop field index epoch => exact h.settle (by simp [henabled.2.1])
  | advance epoch => exact h
  | reclaim => exact h.popHeap

end

end Tight

end Memory
end Ayaka
