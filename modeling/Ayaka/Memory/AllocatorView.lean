import Ayaka.Memory.AllocatorLifetimes

/-!
# What a handle sees of the allocator

The owners of pages do not care about queues, heaps and slots.  All a handle gives
access to is the metadata of its own lifetime, as long as the page is reserved,
live or permanent; afterwards the handle sees a blank record for ever.  Seen this
way the allocator is a map from handles to metadata, every event rewrites that map
at one handle, and reclaiming, advancing the epoch and losing slots do not change
it at all.
-/

namespace Ayaka
namespace Memory

open PageAllocationState
open PageEvent (Legal applyAll legal_single)
open Function (update update_of_ne update_self)

/-- Metadata as its owners see it: an idle page shows nothing. -/
def PageMetadata.visible (page : PageMetadata) : PageMetadata :=
  if page.allocationState = free ∨ page.allocationState = reclaimPending then {} else page

namespace PageAllocator

def look (a : PageAllocator) (handle : KVPageHandle) : PageMetadata :=
  if handle.index < a.totalPages ∧ (a.pages handle.index).generation = handle.generation then
    (a.pages handle.index).visible
  else
    {}

variable {a b : PageAllocator} {handle : KVPageHandle} {page : PageMetadata}

theorem visible_of_ne (hfree : page.allocationState ≠ free)
    (hpending : page.allocationState ≠ reclaimPending) : page.visible = page := by
  unfold PageMetadata.visible
  rw [if_neg]
  rintro (h | h)
  · exact hfree h
  · exact hpending h

theorem visible_of_free (h : page.allocationState = free) : page.visible = {} :=
  if_pos (.inl h)

theorem visible_of_pending (h : page.allocationState = reclaimPending) : page.visible = {} :=
  if_pos (.inr h)

theorem look_of_current (h : a.Current handle) : a.look handle = (a.pages handle.index).visible :=
  if_pos ⟨h.1, h.2.1⟩

theorem look_of_not_current (h : ¬ a.Current handle) : a.look handle = {} := by
  unfold look
  by_cases hnamed : handle.index < a.totalPages ∧
      (a.pages handle.index).generation = handle.generation
  · rw [if_pos hnamed]
    apply visible_of_free
    by_contra hstate
    exact h ⟨hnamed.1, hnamed.2, hstate⟩
  · rw [if_neg hnamed]

/-- A handle that sees something is current and sees its slot. -/
theorem current_of_look_ne (h : a.look handle ≠ {}) :
    a.Current handle ∧ a.look handle = a.pages handle.index := by
  have hcurrent : a.Current handle := by
    by_contra hnot
    exact h (look_of_not_current hnot)
  refine ⟨hcurrent, ?_⟩
  rw [look_of_current hcurrent] at h ⊢
  unfold PageMetadata.visible at h ⊢
  split
  · rename_i hidle
    rw [if_pos hidle] at h
    exact absurd rfl h
  · rfl

theorem look_ok (hsound : Sound a) (handle : KVPageHandle) : PageOk a.pageSize (a.look handle) := by
  by_cases h : a.look handle = {}
  · rw [h]
    constructor <;> simp [PageMetadata.totalRefs, PageMetadata.ownershipRefs]
  · rw [(current_of_look_ne h).2]
    exact hsound.pages _ (current_of_look_ne h).1.1

theorem look_state_ne_blank
    (h : (a.look handle).allocationState = state) (hstate : state ≠ free) : a.look handle ≠ {} := by
  intro hblank
  rw [hblank] at h
  exact hstate h.symm

theorem live_iff : a.Live handle <-> (a.look handle).allocationState = live := by
  constructor
  · rintro ⟨hcurrent, hstate⟩
    rw [look_of_current hcurrent, visible_of_ne (by simp [hstate]) (by simp [hstate])]
    exact hstate
  · intro h
    have hne := look_state_ne_blank h (by decide)
    rw [(current_of_look_ne hne).2] at h
    exact ⟨(current_of_look_ne hne).1, h⟩

theorem Live.look (h : a.Live handle) : a.look handle = a.pages handle.index :=
  (current_of_look_ne (look_state_ne_blank (live_iff.mp h) (by decide))).2

theorem steppable_iff : a.Steppable handle <-> (a.look handle).Active := by
  constructor
  · rintro ⟨hcurrent, hactive⟩
    rw [look_of_current hcurrent, visible_of_ne hactive.ne_free hactive.ne_pending]
    exact hactive
  · intro h
    have hne : a.look handle ≠ {} := look_state_ne_blank rfl h.ne_free
    rw [(current_of_look_ne hne).2] at h
    exact ⟨(current_of_look_ne hne).1, h⟩

theorem Steppable.look (h : a.Steppable handle) : a.look handle = a.pages handle.index :=
  (current_of_look_ne (look_state_ne_blank rfl (steppable_iff.mp h).ne_free)).2

theorem Steppable.look_ne (h : a.Steppable handle) : a.look handle ≠ {} :=
  look_state_ne_blank rfl (steppable_iff.mp h).ne_free

/-!
## Rewriting one slot
-/

theorem look_congr (htotal : b.totalPages = a.totalPages) (hpages : b.pages = a.pages) :
    b.look = a.look := by
  funext h
  unfold look
  rw [htotal, hpages]

/-- The view after one slot changed, told by the handle of its lifetime. -/
theorem look_update (htotal : b.totalPages = a.totalPages)
    (hpages : b.pages = update a.pages handle.index page)
    (hlt : handle.index < a.totalPages) (hgen : page.generation = handle.generation)
    (hothers : forall h : KVPageHandle, h.index = handle.index -> h ≠ handle ->
      a.look h = {}) : b.look = update a.look handle page.visible := by
  funext h
  by_cases heq : h = handle
  · subst heq
    rw [update_self]
    unfold look
    rw [htotal, hpages, update_self, if_pos ⟨hlt, hgen⟩]
  · rw [update_of_ne heq]
    by_cases hindex : h.index = handle.index
    · rw [hothers h hindex heq]
      unfold look
      rw [if_neg]
      rintro ⟨_, hsame⟩
      apply heq
      apply Handle.ext hindex
      rw [<- hsame, hpages, hindex, update_self, hgen]
    · unfold look
      rw [htotal, hpages, update_of_ne hindex]

theorem Current.look_others (hcurrent : a.Current handle) (h : KVPageHandle)
    (hindex : h.index = handle.index) (hne : h ≠ handle) : a.look h = {} := by
  apply look_of_not_current
  intro hother
  exact hne (hother.eq_of_index hcurrent hindex)

variable {f : PageMetadata -> PageMetadata}

section

variable (hcurrent : a.Current handle)
variable (hgen : (f (a.pages handle.index)).generation = (a.pages handle.index).generation)
include hcurrent hgen

theorem look_modifyPage : (a.modifyPage handle.index f).look =
      update a.look handle (f (a.pages handle.index)).visible :=
  look_update rfl rfl hcurrent.1 (hgen.trans hcurrent.2.1) hcurrent.look_others

theorem look_settle : (a.settle handle.index epoch f).look =
      update a.look handle ((f (a.pages handle.index)).marked epoch).visible :=
  look_update (a.settle_totalPages _ _ _) (a.settle_pages _ _ _) hcurrent.1
    (by rw [PageMetadata.marked_generation, hgen, hcurrent.2.1]) hcurrent.look_others

theorem look_release : (a.release handle.index f).look = update a.look handle {} := by
  rw [look_update (a.release_totalPages _ _) (a.release_pages _ _) hcurrent.1
    (hgen.trans hcurrent.2.1) hcurrent.look_others]
  rw [visible_of_free rfl]

end

end PageAllocator

/-!
## Counted references
-/

/-- The five counters of a page. -/
inductive RefKind where
  | request
  | cache
  | pin
  | reservation
  | inflight
  deriving DecidableEq, Repr

namespace PageMetadata

def refs (page : PageMetadata) : RefKind -> Nat
  | .request => page.requestRefs
  | .cache => page.cacheRefs
  | .pin => page.pinRefs
  | .reservation => page.reservationRefs
  | .inflight => page.inflightRefs

/-- What an owner sees after its page was marked for reclamation. -/
def settled (page : PageMetadata) (epoch : Nat) : PageMetadata :=
  (page.marked epoch).visible

variable {page : PageMetadata}

theorem refs_eq_zero (h : page.totalRefs = 0) (kind : RefKind) : page.refs kind = 0 := by
  unfold totalRefs ownershipRefs at h
  cases kind <;> simp only [refs] <;> omega

@[simp] theorem refs_blank (kind : RefKind) : ({} : PageMetadata).refs kind = 0 := by
  cases kind <;> rfl

theorem settled_of_owned (hactive : page.Active) (h : page.ownershipRefs ≠ 0) :
    page.settled epoch = page := by
  unfold settled
  rw [marked_of_owned h]
  exact PageAllocator.visible_of_ne hactive.ne_free hactive.ne_pending

/-- An unowned page still in flight only learns its epoch. -/
theorem settled_of_inflight (hactive : page.Active) (h : page.ownershipRefs = 0)
    (hflight : page.inflightRefs ≠ 0) :
    page.settled epoch = { page with
      pendingFreeEpoch := some (PageAllocator.requiredEpoch page.pendingFreeEpoch epoch) } := by
  unfold settled
  rw [marked_of_inflight h hflight]
  exact PageAllocator.visible_of_ne hactive.ne_free hactive.ne_pending

theorem settled_of_unused (epoch : Nat) (h : page.totalRefs = 0) : page.settled epoch = {} := by
  unfold totalRefs at h
  unfold settled
  rw [marked_of_queues ⟨by omega, by omega⟩]
  exact PageAllocator.visible_of_pending rfl

theorem settled_refs (hactive : page.Active) (kind : RefKind) :
    (page.settled epoch).refs kind = page.refs kind := by
  by_cases howned : page.ownershipRefs = 0
  · by_cases hflight : page.inflightRefs = 0
    · have hzero : page.totalRefs = 0 := by
        unfold totalRefs
        omega
      rw [settled_of_unused epoch hzero, refs_blank, refs_eq_zero hzero]
    · rw [settled_of_inflight hactive howned hflight]
      cases kind <;> rfl
  · rw [settled_of_owned hactive howned]

/-- A page with references left keeps its contents. -/
theorem settled_kept (hactive : page.Active) (h : page.totalRefs ≠ 0) :
    (page.settled epoch).validTokens = page.validTokens ∧
      (page.settled epoch).allocationState = page.allocationState := by
  by_cases howned : page.ownershipRefs = 0
  · have hflight : page.inflightRefs ≠ 0 := by
      unfold totalRefs at h
      omega
    rw [settled_of_inflight hactive howned hflight]
    exact ⟨rfl, rfl⟩
  · rw [settled_of_owned hactive howned]
    exact ⟨rfl, rfl⟩

end PageMetadata

namespace PageAllocator

/-- The counter a durable owner holds. -/
def RefField.kind : RefField -> RefKind
  | .request => .request
  | .cache => .cache
  | .pin => .pin

variable {a b : PageAllocator} {handle : KVPageHandle} {page : PageMetadata}

theorem RefField.count_eq (field : RefField) : field.count page = page.refs field.kind := by
  cases field <;> rfl

theorem look_ne_of_refs (kind : RefKind) (h : 0 < (a.look handle).refs kind) :
    a.look handle ≠ {} := by
  intro hblank
  rw [hblank, PageMetadata.refs_blank] at h
  exact Nat.lt_irrefl 0 h

theorem live_of_refs (hsound : Sound a) (field : RefField)
    (h : 0 < (a.look handle).refs field.kind) : a.Live handle := by
  have hok := look_ok hsound handle
  rw [live_iff]
  cases hstate : (a.look handle).allocationState with
  | live => rfl
  | free =>
    rw [PageMetadata.refs_eq_zero (hok.of_free hstate).1] at h
    cases h
  | reclaimPending =>
    rw [PageMetadata.refs_eq_zero (hok.of_pending hstate)] at h
    cases h
  | permanent =>
    rw [PageMetadata.refs_eq_zero (hok.of_permanent hstate).1] at h
    cases h
  | reserved =>
    rcases hok.of_reserved hstate with ⟨_, _, _, _⟩
    cases field <;> simp only [RefField.kind, PageMetadata.refs] at h <;> omega

theorem Live.steppable (h : a.Live handle) : a.Steppable handle :=
  ⟨h.1, .inr h.2⟩

/-!
## Events on the view
-/

section

variable (h : a.Steppable handle)
include h

theorem look_commit : ((PageEvent.commit handle.index).apply a).look =
      update a.look handle (a.look handle).commit := by
  show (a.modifyPage handle.index PageMetadata.commit).look = _
  rw [look_modifyPage h.1 rfl, h.look, visible_of_ne (by simp) (by simp)]

theorem look_enter : ((PageEvent.enter handle.index).apply a).look =
      update a.look handle (a.look handle).enterStep := by
  show (a.modifyPage handle.index PageMetadata.enterStep).look = _
  rw [look_modifyPage h.1 rfl, h.look,
    visible_of_ne (by simpa using h.2.ne_free) (by simpa using h.2.ne_pending)]

theorem look_setValid (tokens : Nat) : ((PageEvent.setValid handle.index tokens).apply a).look =
      update a.look handle ((a.look handle).setValid tokens) := by
  show (a.modifyPage handle.index (PageMetadata.setValid tokens)).look = _
  rw [look_modifyPage h.1 rfl, h.look,
    visible_of_ne (by simpa using h.2.ne_free) (by simpa using h.2.ne_pending)]

end

theorem look_acquire (h : a.Live handle) (field : RefField) :
    ((PageEvent.acquire field handle.index).apply a).look =
      update a.look handle (field.add (a.look handle)) := by
  show (a.modifyPage handle.index field.add).look = _
  rw [look_modifyPage h.1 (RefField.add_generation _ _), h.look,
    visible_of_ne (by simp [h.2]) (by simp [h.2])]

theorem look_drop (h : a.Live handle) (field : RefField) (epoch : Nat) :
    ((PageEvent.drop field handle.index epoch).apply a).look =
      update a.look handle ((field.sub (a.look handle)).settled epoch) := by
  show (a.settle handle.index epoch field.sub).look = _
  rw [look_settle h.1 (RefField.sub_generation _ _), h.look]
  rfl

section

variable (h : a.Steppable handle)
include h

theorem look_abandon (epoch : Nat) : ((PageEvent.abandon handle.index epoch).apply a).look =
      update a.look handle ((a.look handle).dropReservation.settled epoch) := by
  show (a.settle handle.index epoch PageMetadata.dropReservation).look = _
  rw [look_settle h.1 rfl, h.look]
  rfl

theorem look_leave : ((PageEvent.leave handle.index).apply a).look = update a.look handle
        ((a.look handle).leaveStep.settled ((a.look handle).pendingFreeEpoch.getD 0)) := by
  show (a.settle handle.index _ PageMetadata.leaveStep).look = _
  rw [look_settle h.1 rfl, h.look]
  rfl

theorem look_rollback :
    ((PageEvent.rollback handle.index).apply a).look = update a.look handle {} :=
  look_release h.1 rfl

end

theorem look_advance (epoch : Nat) : ((PageEvent.advance epoch).apply a).look = a.look :=
  look_congr rfl rfl

theorem look_lose (count : Nat) : ((PageEvent.lose count).apply a).look = a.look :=
  look_congr rfl rfl

theorem exists_handle (hsound : Sound a) (hlt : index < a.totalPages)
    (hstate : (a.pages index).allocationState ≠ free) :
    exists handle : KVPageHandle, handle.index = index ∧ a.Current handle :=
  ⟨{ index
     generation := (a.pages index).generation
     generation_pos := (hsound.pages index hlt).started hstate
     generation_le := (hsound.pages index hlt).generation_le }, rfl, hlt, rfl, hstate⟩

/-- Returning a pending page to the free queue is invisible to its owners. -/
theorem look_reclaim (hsound : Sound a) : (PageEvent.reclaim.apply a).look = a.look := by
  show (PageEvent.popHeap a).look = _
  unfold PageEvent.popHeap
  cases hheap : a.reclaimHeap with
  | nil => rfl
  | cons entry rest =>
    dsimp only
    split
    · rename_i hcurrent
      rw [entryCurrent_iff] at hcurrent
      rcases hcurrent with ⟨hlt, _, hstate, _⟩
      rcases exists_handle hsound hlt (by simp [hstate]) with ⟨handle, hindex, hhandle⟩
      have hblank : a.look handle = {} := by
        rw [look_of_current hhandle, visible_of_pending (by rw [hindex]; exact hstate)]
      have hfreed : forall b : PageAllocator, b.totalPages = a.totalPages ->
          b.pages = update a.pages handle.index
            ((a.pages handle.index).freed a.currentEpoch) -> b.look = a.look := by
        intro b htotal hpages
        rw [look_update htotal hpages hhandle.1 hhandle.2.1 hhandle.look_others,
          visible_of_free rfl, <- hblank, Function.update_eq_self]
      apply hfreed
      · rfl
      · rw [hindex]
        rfl
    · exact look_congr rfl rfl

/-- A new lifetime appears under a handle that saw nothing before. -/
theorem look_startHead (hsound : Sound a) (f : PageMetadata -> PageMetadata)
    (handle : KVPageHandle) (hready : a.readyFree = index :: rest)
    (hhandle : handle.index = index) (hgen : handle.generation = (a.pages index).generation + 1)
    (hpage : (f (a.pages index)).generation = (a.pages index).generation + 1) :
    (PageEvent.startHead a f).look = update a.look handle (f (a.pages index)).visible ∧
      a.look handle = {} := by
  subst hhandle
  have hmem : handle.index ∈ a.readyFree := by
    rw [hready]
    exact List.mem_cons_self
  have hfree := hsound.ready_free _ hmem
  have hblank : forall h : KVPageHandle, h.index = handle.index -> a.look h = {} := by
    intro h hindex
    apply look_of_not_current
    rintro ⟨_, _, hstate⟩
    rw [hindex] at hstate
    exact hstate hfree
  refine ⟨?_, hblank handle rfl⟩
  unfold PageEvent.startHead
  rw [hready]
  exact look_update rfl rfl (hsound.ready_lt _ hmem) (hpage.trans hgen.symm)
    fun h hindex _ => hblank h hindex

end PageAllocator

def PageEvent.kinds : PageEvent -> List RefKind
  | .reserve => [.reservation]
  | .commit _ => [.request, .reservation]
  | .rollback _ => [.reservation]
  | .abandon _ _ => [.reservation]
  | .enter _ => [.inflight]
  | .leave _ => [.inflight]
  | .acquire field _ => [field.kind]
  | .drop field _ _ => [field.kind]
  | _ => []

namespace PageAllocator

variable {a b : PageAllocator} {handle : KVPageHandle} {page : PageMetadata}

inductive LookStep (a : PageAllocator) (event : PageEvent) (view : KVPageHandle -> PageMetadata) :
    Prop where
  | same (hview : view = a.look)
  | start (handle : KVPageHandle) (page : PageMetadata)
      (hview : view = Function.update a.look handle page) (hblank : a.look handle = {})
      (hnew : (a.pages handle.index).generation < handle.generation)
      (hrefs : forall kind, kind ∉ event.kinds -> page.refs kind = 0)
  | rewrite (handle : KVPageHandle) (page : PageMetadata)
      (hview : view = Function.update a.look handle page) (hseen : a.look handle ≠ {})
      (hrefs : forall kind, kind ∉ event.kinds -> page.refs kind = (a.look handle).refs kind)
      (hkept : page = {} ∨ event = .setValid handle.index page.validTokens ∨
        page.validTokens = (a.look handle).validTokens)

variable {kind : RefKind}

theorem RefField.add_refs (field : RefField) (page : PageMetadata) (h : kind ≠ field.kind) :
    (field.add page).refs kind = page.refs kind := by
  cases field <;> cases kind <;> first | rfl | exact absurd rfl h

theorem RefField.sub_refs (field : RefField) (page : PageMetadata) (h : kind ≠ field.kind) :
    (field.sub page).refs kind = page.refs kind := by
  cases field <;> cases kind <;> first | rfl | exact absurd rfl h

theorem settled_kept_or_blank (hactive : page.Active) :
    page.settled epoch = {} ∨ (page.settled epoch).validTokens = page.validTokens := by
  by_cases h : page.totalRefs = 0
  · exact .inl (PageMetadata.settled_of_unused epoch h)
  · exact .inr (PageMetadata.settled_kept hactive h).1

def nextHandle (a : PageAllocator) (index : Nat)
    (h : (a.pages index).generation < maxHandleGeneration) : KVPageHandle where
  index := index
  generation := (a.pages index).generation + 1
  generation_pos := Nat.succ_pos _
  generation_le := h

variable {event : PageEvent}

theorem lookStep_start (hsound : Sound a) (f : PageMetadata -> PageMetadata)
    (hfresh : PageEvent.HeadFresh a) (hgen : forall page, (f page).generation = page.generation + 1)
    (hstate : forall page, (f page).allocationState ≠ free ∧
      (f page).allocationState ≠ reclaimPending)
    (hrefs : forall page kind, kind ∉ event.kinds -> (f page).refs kind = 0) :
    LookStep a event (PageEvent.startHead a f).look := by
  rcases hfresh with ⟨index, _, hready, hlt⟩
  rcases look_startHead hsound f (a.nextHandle index hlt) hready rfl rfl (hgen _) with
    ⟨hview, hblank⟩
  refine .start _ _ hview hblank (Nat.lt_succ_self _) ?_
  rw [visible_of_ne (hstate _).1 (hstate _).2]
  exact hrefs _

section

variable {repeated : Prop} (hsound : Sound a) (henabled : event.Enabled repeated a)
include hsound henabled

/-- Every enabled event is a step on the view. -/
theorem lookStep : LookStep a event (event.apply a).look := by
  cases event with
  | reserve =>
    apply lookStep_start hsound _ henabled (fun page => rfl) (by simp)
    intro page kind hkind
    cases kind <;> simp_all [PageEvent.kinds, PageMetadata.refs]
  | permanent =>
    apply lookStep_start hsound _ henabled (fun page => rfl) (by simp)
    intro page kind _
    cases kind <;> simp [PageMetadata.refs]
  | lose count => exact .same (look_lose count)
  | commit index =>
    rcases exists_handle hsound henabled.1 henabled.2.ne_free with ⟨handle, rfl, hcurrent⟩
    refine .rewrite handle _ (look_commit ⟨hcurrent, henabled.2⟩)
      (Steppable.look_ne ⟨hcurrent, henabled.2⟩) ?_
      (.inr (.inr rfl))
    intro kind hkind
    cases kind <;> simp_all [PageEvent.kinds, PageMetadata.refs]
  | rollback index =>
    rcases exists_handle hsound henabled.1 (by simp [henabled.2.1]) with ⟨handle, rfl, hcurrent⟩
    have hsteppable : a.Steppable handle := ⟨hcurrent, .inl henabled.2.1⟩
    refine .rewrite handle _ (look_rollback hsteppable) hsteppable.look_ne ?_ (.inl rfl)
    intro kind hkind
    rcases (hsound.pages _ henabled.1).of_reserved henabled.2.1 with ⟨h1, h2, h3, _⟩
    rw [hsteppable.look]
    have h4 := henabled.2.2
    cases kind <;> simp_all [PageEvent.kinds, PageMetadata.refs]
  | abandon index epoch =>
    rcases exists_handle hsound henabled.1
      (by rcases henabled.2 with h | ⟨_, h⟩ <;> simp [h]) with ⟨handle, rfl, hcurrent⟩
    rcases henabled.2 with hstate | ⟨_, hstate⟩
    · have hsteppable : a.Steppable handle := ⟨hcurrent, .inl hstate⟩
      have hactive : (a.look handle).dropReservation.Active := steppable_iff.mp hsteppable
      refine LookStep.rewrite handle _ (look_abandon hsteppable epoch) hsteppable.look_ne ?_
        ((settled_kept_or_blank hactive).imp id Or.inr)
      intro kind hkind
      rw [PageMetadata.settled_refs hactive]
      cases kind <;> simp_all [PageEvent.kinds, PageMetadata.refs]
    · apply LookStep.same
      have hzero := (hsound.pages _ henabled.1).of_pending hstate
      show (a.settle handle.index epoch PageMetadata.dropReservation).look = _
      rw [look_settle hcurrent rfl]
      have hunused : (a.pages handle.index).dropReservation.totalRefs = 0 := by
        have h4 := PageMetadata.refs_eq_zero hzero .reservation
        rw [PageMetadata.dropReservation_eq_self h4]
        exact hzero
      have hblank : a.look handle = {} := by
        rw [look_of_current hcurrent, visible_of_pending hstate]
      have hgone := PageMetadata.settled_of_unused epoch hunused
      unfold PageMetadata.settled at hgone
      rw [hgone, <- hblank, Function.update_eq_self]
  | enter index =>
    rcases exists_handle hsound henabled.1 henabled.2.ne_free with ⟨handle, rfl, hcurrent⟩
    refine .rewrite handle _ (look_enter ⟨hcurrent, henabled.2⟩)
      (Steppable.look_ne ⟨hcurrent, henabled.2⟩) ?_
      (.inr (.inr rfl))
    intro kind hkind
    cases kind <;> simp_all [PageEvent.kinds, PageMetadata.refs]
  | leave index =>
    rcases exists_handle hsound henabled.1 henabled.2.1.ne_free with ⟨handle, rfl, hcurrent⟩
    have hsteppable : a.Steppable handle := ⟨hcurrent, henabled.2.1⟩
    have hactive : (a.look handle).leaveStep.Active := steppable_iff.mp hsteppable
    refine .rewrite handle _ (look_leave hsteppable) hsteppable.look_ne ?_
      ((settled_kept_or_blank hactive).imp id .inr)
    intro kind hkind
    rw [PageMetadata.settled_refs hactive]
    cases kind <;> simp_all [PageEvent.kinds, PageMetadata.refs]
  | setValid index tokens =>
    rcases exists_handle hsound henabled.1 henabled.2.1.ne_free with ⟨handle, rfl, hcurrent⟩
    refine .rewrite handle _ (look_setValid ⟨hcurrent, henabled.2.1⟩ tokens)
      (Steppable.look_ne ⟨hcurrent, henabled.2.1⟩) ?_
      (Or.inr (Or.inl rfl))
    intro kind _
    cases kind <;> rfl
  | acquire field index =>
    rcases exists_handle hsound henabled.1 (by simp [henabled.2]) with ⟨handle, rfl, hcurrent⟩
    refine .rewrite handle _ (look_acquire ⟨hcurrent, henabled.2⟩ field)
      (Steppable.look_ne ⟨hcurrent, .inr henabled.2⟩) ?_
      (.inr (.inr (by cases field <;> rfl)))
    intro kind hkind
    exact field.add_refs _ (by simpa [PageEvent.kinds] using hkind)
  | drop field index epoch =>
    rcases exists_handle hsound henabled.1 (by simp [henabled.2.1]) with ⟨handle, rfl, hcurrent⟩
    have hlive : a.Live handle := ⟨hcurrent, henabled.2.1⟩
    have hactive : (field.sub (a.look handle)).Active := by
      unfold PageMetadata.Active
      rw [RefField.sub_allocationState]
      exact steppable_iff.mp hlive.steppable
    refine .rewrite handle _ (look_drop hlive field epoch) hlive.steppable.look_ne ?_
      ((settled_kept_or_blank hactive).imp id fun h => .inr (h.trans (by cases field <;> rfl)))
    intro kind hkind
    rw [PageMetadata.settled_refs hactive]
    exact field.sub_refs _ (by simpa [PageEvent.kinds] using hkind)
  | advance epoch => exact .same (look_advance epoch)
  | reclaim => exact .same (look_reclaim hsound)

/-- An event leaves the counters it does not name alone. -/
theorem refs_apply (hkind : kind ∉ event.kinds) (h : KVPageHandle) :
    ((event.apply a).look h).refs kind = (a.look h).refs kind := by
  cases lookStep hsound henabled with
  | same hview => rw [hview]
  | start handle page hview hblank hnew hrefs =>
    rw [hview]
    by_cases heq : h = handle
    · rw [heq, update_self, hrefs kind hkind, hblank, PageMetadata.refs_blank]
    · rw [update_of_ne heq]
  | rewrite handle page hview hseen hrefs hkept =>
    rw [hview]
    by_cases heq : h = handle
    · rw [heq, update_self, hrefs kind hkind]
    · rw [update_of_ne heq]

end

variable {repeated : Prop}

theorem refs_applyAll (hsound : Sound a) (hlegal : Legal repeated a events)
    (hkind : forall event, event ∈ events -> kind ∉ event.kinds) (h : KVPageHandle) :
    ((applyAll a events).look h).refs kind = (a.look h).refs kind := by
  induction events generalizing a with
  | nil => rfl
  | cons event events ih =>
    rw [PageEvent.applyAll_cons, ih (hsound.event hlegal.1) hlegal.2
      (fun later hlater => hkind later (List.mem_cons_of_mem _ hlater)),
      refs_apply hsound hlegal.1 (hkind event List.mem_cons_self)]

/-- A page that is seen before and after an event keeps its token count, unless
the event sets it. -/
theorem validTokens_apply (hsound : Sound a) (henabled : event.Enabled repeated a)
    (hbefore : a.look h ≠ {}) (hafter : (event.apply a).look h ≠ {})
    (hset : forall tokens, event ≠ .setValid h.index tokens) :
    ((event.apply a).look h).validTokens = (a.look h).validTokens := by
  cases lookStep hsound henabled with
  | same hview => rw [hview]
  | start handle page hview hblank hnew hrefs =>
    by_cases heq : h = handle
    · rw [heq] at hbefore
      exact absurd hblank hbefore
    · rw [hview, update_of_ne heq]
  | rewrite handle page hview hseen hrefs hkept =>
    rw [hview] at hafter ⊢
    by_cases heq : h = handle
    · subst heq
      rw [update_self] at hafter ⊢
      rcases hkept with hgone | hevent | hsame
      · exact absurd hgone hafter
      · exact absurd hevent (hset _)
      · exact hsame
    · rw [update_of_ne heq]

/-- The lifetime a handle names has begun and is over for its owners. -/
def Spent (a : PageAllocator) (handle : KVPageHandle) : Prop :=
  a.look handle = {} ∧ handle.generation ≤ (a.pages handle.index).generation

theorem generation_mono (hlegal : Legal repeated a events) (slot : Nat) :
    (a.pages slot).generation ≤ ((applyAll a events).pages slot).generation := by
  rcases Legal.ages hlegal slot with h | h <;> omega

theorem Spent.applyAll (h : a.Spent handle) (hsound : Sound a) (hlegal : Legal repeated a events) :
    (PageEvent.applyAll a events).Spent handle := by
  refine ⟨?_, h.2.trans (generation_mono hlegal handle.index)⟩
  induction events generalizing a with
  | nil => exact h.1
  | cons event events ih =>
    refine ih ⟨?_, ?_⟩ (hsound.event hlegal.1) hlegal.2
    · cases lookStep hsound hlegal.1 with
      | same hview => rw [hview, h.1]
      | start other page hview hblank hnew hrefs =>
        have hne : handle ≠ other := by
          rintro rfl
          have _ := h.2
          omega
        rw [hview, update_of_ne hne, h.1]
      | rewrite other page hview hseen hrefs hkept =>
        have hne : handle ≠ other := by
          rintro rfl
          exact hseen h.1
        rw [hview, update_of_ne hne, h.1]
    · exact h.2.trans (generation_mono (legal_single hlegal.1) handle.index)

/-- A page its owners see before and after a stretch of events was never gone in
between. -/
theorem validTokens_applyAll (hsound : Sound a) (hlegal : Legal repeated a events)
    (hbefore : a.look h ≠ {}) (hafter : (applyAll a events).look h ≠ {})
    (hset : forall tokens, .setValid h.index tokens ∉ events) :
    ((applyAll a events).look h).validTokens = (a.look h).validTokens := by
  induction events generalizing a with
  | nil => rfl
  | cons event events ih =>
    have hgeneration : h.generation ≤ ((event.apply a).pages h.index).generation := by
      rw [<- (current_of_look_ne hbefore).1.2.1]
      exact generation_mono (legal_single hlegal.1) h.index
    have hmiddle : (event.apply a).look h ≠ {} := by
      intro hgone
      have hspent : (event.apply a).Spent h := ⟨hgone, hgeneration⟩
      exact hafter (hspent.applyAll (hsound.event hlegal.1) hlegal.2).1
    rw [PageEvent.applyAll_cons, ih (hsound.event hlegal.1) hlegal.2 hmiddle hafter
      (fun tokens hmem => hset tokens (List.mem_cons_of_mem _ hmem))]
    refine validTokens_apply hsound hlegal.1 hbefore hmiddle ?_
    intro tokens heq
    exact hset tokens (heq ▸ List.mem_cons_self)

end PageAllocator

end Memory
end Ayaka
