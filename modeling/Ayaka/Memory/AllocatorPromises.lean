import Ayaka.Memory.AllocatorLifetimes

/-!
# Safe epochs

Every release names an epoch before which its page must not be reused.  The
allocator records that epoch only when the release takes the last durable owner,
so an earlier and larger epoch can be forgotten.  A ledger beside the run keeps
the largest epoch named for each lifetime and shows when the record suffices.
-/

namespace Ayaka
namespace Memory

open Foundation
open PageAllocationState
open PageEvent (Legal applyAll)
open PageAllocator
open PageMetadata
open AllocatorCall

/-- The largest safe epoch named so far for each slot and generation. -/
abbrev Ledger := Nat -> Nat -> Nat

namespace Ledger

def empty : Ledger := fun _ _ => 0

def promise (ledger : Ledger) (index generation epoch : Nat) : Ledger :=
  fun i g => if i = index ∧ g = generation then max (ledger i g) epoch else ledger i g

theorem promise_self (ledger : Ledger) (index generation epoch : Nat) :
    ledger.promise index generation epoch index generation =
      max (ledger index generation) epoch := by
  simp [promise]

theorem promise_other (ledger : Ledger) {index generation epoch i g : Nat}
    (h : ¬ (i = index ∧ g = generation)) :
    ledger.promise index generation epoch i g = ledger i g := by
  simp [promise, h]

end Ledger

/-- What the ledger says about one slot's current lifetime is guaranteed by the
slot's metadata. -/
structure Covered (page : PageMetadata) (promised currentEpoch : Nat) : Prop where
  of_free : page.allocationState = free -> promised ≤ currentEpoch
  of_reserved : page.allocationState = reserved -> page.ownershipRefs ≠ 0 -> promised = 0
  of_unowned : page.allocationState ≠ free -> page.allocationState ≠ permanent ->
    page.ownershipRefs = 0 -> promised ≤ max (page.pendingFreeEpoch.getD 0) currentEpoch

structure Honoured (a : PageAllocator) (ledger : Ledger) : Prop where
  covered : forall index,
    Covered (a.pages index) (ledger index (a.pages index).generation) a.currentEpoch
  older : forall index generation, generation < (a.pages index).generation ->
    ledger index generation ≤ a.currentEpoch
  newer : forall index generation, (a.pages index).generation < generation ->
    ledger index generation = 0

namespace PageEvent

def watch (a : PageAllocator) (ledger : Ledger) : PageEvent -> Ledger
  | abandon index epoch => ledger.promise index (a.pages index).generation epoch
  | drop _ index epoch => ledger.promise index (a.pages index).generation epoch
  | _ => ledger

/-- Dropping the last durable owner names an epoch that, with the recorded and the
completed one, covers every earlier promise. -/
def Keeps (a : PageAllocator) (ledger : Ledger) : PageEvent -> Prop
  | drop _ index epoch => (a.pages index).ownershipRefs = 1 ->
      ledger index (a.pages index).generation ≤
        max (max epoch ((a.pages index).pendingFreeEpoch.getD 0)) a.currentEpoch
  | _ => True

end PageEvent

/-!
## One event
-/

theorem requiredEpoch_eq (previous : Option Nat) (epoch : Nat) :
    PageAllocator.requiredEpoch previous epoch = max (previous.getD 0) epoch := by
  cases previous with
  | none => simp [PageAllocator.requiredEpoch]
  | some value =>
    simp only [PageAllocator.requiredEpoch, Option.getD_some]
    split <;> omega

theorem marked_pending {epoch : Nat} {page : PageMetadata} (h : page.ownershipRefs = 0) :
    (page.marked epoch).pendingFreeEpoch.getD 0 = max (page.pendingFreeEpoch.getD 0) epoch := by
  by_cases hflight : page.inflightRefs = 0
  · simp [marked_of_queues ⟨h, hflight⟩, requiredEpoch_eq]
  · simp [marked_of_inflight h hflight, requiredEpoch_eq]

namespace Covered

variable {page : PageMetadata} {promised currentEpoch epoch : Nat}

theorem marked (hfree : page.allocationState ≠ free)
    (hreserved : page.allocationState = reserved -> page.ownershipRefs ≠ 0 -> promised = 0)
    (hunowned : page.ownershipRefs = 0 ->
      promised ≤ max (max (page.pendingFreeEpoch.getD 0) epoch) currentEpoch) :
    Covered (page.marked epoch) promised currentEpoch where
  of_free := fun h => absurd h (marked_ne_free hfree)
  of_reserved := by
    intro hstate howned
    rw [marked_ownershipRefs] at howned
    rw [marked_of_owned howned] at hstate
    exact hreserved hstate howned
  of_unowned := by
    intro _ _ hzero
    rw [marked_ownershipRefs] at hzero
    rw [marked_pending hzero]
    exact hunowned hzero

theorem of_owned (hfree : page.allocationState ≠ free)
    (hreserved : page.allocationState ≠ reserved) (howned : page.ownershipRefs ≠ 0) :
    Covered page promised currentEpoch where
  of_free := fun h => absurd h hfree
  of_reserved := fun h => absurd h hreserved
  of_unowned := fun _ _ h => absurd h howned

theorem mono (h : Covered page promised currentEpoch)
    (hle : currentEpoch ≤ later) : Covered page promised later where
  __ := h
  of_free := fun hfree => (h.of_free hfree).trans hle
  of_unowned := fun hfree hpermanent howned =>
    (h.of_unowned hfree hpermanent howned).trans (max_le_max le_rfl hle)

end Covered

namespace Honoured

variable {a : PageAllocator} {ledger : Ledger} {index epoch : Nat}
variable {f : PageMetadata -> PageMetadata}

/-- One slot changed within its generation, and only its own promise grew. -/
theorem update_slot (h : Honoured a ledger) (hpages : b.pages = Function.update a.pages index page)
    (hepoch : b.currentEpoch = a.currentEpoch) (hgen : page.generation = (a.pages index).generation)
    (hledger : forall i g, ¬ (i = index ∧ g = (a.pages index).generation) -> later i g = ledger i g)
    (hpage : Covered page (later index (a.pages index).generation) a.currentEpoch) :
    Honoured b later := by
  have hsame : forall i, (b.pages i).generation = (a.pages i).generation := by
    intro i
    rw [hpages]
    by_cases hi : i = index
    · rw [hi, Function.update_self, hgen]
    · rw [Function.update_of_ne hi]
  constructor
  · intro i
    rw [hepoch, hsame i, hpages]
    by_cases hi : i = index
    · rw [hi, Function.update_self]
      exact hpage
    · rw [Function.update_of_ne hi, hledger i _ (fun hcase => hi hcase.1)]
      exact h.covered i
  · intro i g hg
    rw [hsame i] at hg
    rw [hepoch, hledger i g (by
      rintro ⟨hi, hgen'⟩
      rw [hi, hgen'] at hg
      omega)]
    exact h.older i g hg
  · intro i g hg
    rw [hsame i] at hg
    rw [hledger i g (by
      rintro ⟨hi, hgen'⟩
      rw [hi, hgen'] at hg
      omega)]
    exact h.newer i g hg

theorem modifyPage (h : Honoured a ledger)
    (hgen : (f (a.pages index)).generation = (a.pages index).generation)
    (hpage : Covered (f (a.pages index)) (ledger index (a.pages index).generation)
      a.currentEpoch) : Honoured (a.modifyPage index f) ledger :=
  h.update_slot rfl rfl hgen (fun _ _ _ => rfl) hpage

theorem settle (h : Honoured a ledger)
    (hgen : (f (a.pages index)).generation = (a.pages index).generation)
    (hledger : forall i g, ¬ (i = index ∧ g = (a.pages index).generation) ->
    later i g = ledger i g) (hpage : Covered ((f (a.pages index)).marked epoch)
    (later index (a.pages index).generation) a.currentEpoch) :
    Honoured (a.settle index epoch f) later :=
  h.update_slot (settle_pages ..) (settle_currentEpoch ..) (by simpa using hgen) hledger hpage

theorem release (h : Honoured a ledger)
    (hgen : (f (a.pages index)).generation = (a.pages index).generation)
    (hpromised : ledger index (a.pages index).generation ≤ a.currentEpoch) :
    Honoured (a.release index f) ledger := by
  refine h.update_slot rfl rfl (by simpa using hgen) (fun _ _ _ => rfl) ?_
  constructor
  · exact fun _ => hpromised
  · simp
  · simp

theorem startHead (h : Honoured a ledger) (hsound : Sound a)
    (hgen : forall page, (f page).generation = page.generation + 1) :
    Honoured (PageEvent.startHead a f) ledger := by
  unfold PageEvent.startHead
  split
  · exact h
  · rename_i head rest hready
    have hfree := hsound.ready_free head (by simp [hready])
    have hnew := h.newer head ((a.pages head).generation + 1) (by omega)
    constructor
    · intro i
      by_cases hi : i = head
      · simp only [hi, modifyPage_pages, Function.update_self, hgen, hnew]
        exact ⟨fun _ => Nat.zero_le _, fun _ _ => rfl, fun _ _ _ => Nat.zero_le _⟩
      · simpa [hi] using h.covered i
    · intro i g hg
      by_cases hi : i = head
      · simp only [hi, modifyPage_pages, Function.update_self, hgen] at hg
        rw [hi]
        by_cases hlast : g = (a.pages head).generation
        · rw [hlast]
          exact (h.covered head).of_free hfree
        · exact h.older head g (by omega)
      · exact h.older i g (by simpa [hi] using hg)
    · intro i g hg
      by_cases hi : i = head
      · simp only [hi, modifyPage_pages, Function.update_self, hgen] at hg
        rw [hi]
        exact h.newer head g (by omega)
      · exact h.newer i g (by simpa [hi] using hg)

theorem popHeap (h : Honoured a ledger) (hsound : Sound a)
    (henabled : PageEvent.reclaim.Enabled True a) : Honoured (PageEvent.popHeap a) ledger := by
  rcases henabled with ⟨entry, rest, hheap, hdue⟩
  have hpopped : Honoured { a with reclaimHeap := rest } ledger :=
    ⟨h.covered, h.older, h.newer⟩
  unfold PageEvent.popHeap
  rw [hheap]
  dsimp only
  split
  · rename_i hcurrent
    have hfacts := entryCurrent_iff.mp hcurrent
    have hrefs := (hsound.pages _ hfacts.1).of_pending hfacts.2.2.1
    have hpromised := (h.covered entry.index).of_unowned (by simp [hfacts]) (by simp [hfacts]) (by
        unfold totalRefs at hrefs
        omega)
    rw [hfacts.2.2.2, Option.getD_some, max_eq_right hdue] at hpromised
    have hreleased : Honoured (PageAllocator.release _ entry.index id) ledger :=
      hpopped.release rfl hpromised
    exact ⟨hreleased.covered, hreleased.older, hreleased.newer⟩
  · exact hpopped

theorem abandon (h : Honoured a ledger) (hsound : Sound a)
    (henabled : (PageEvent.abandon index epoch).Enabled True a) :
    Honoured (a.settle index epoch PageMetadata.dropReservation)
      (ledger.promise index (a.pages index).generation epoch) := by
  rcases henabled with ⟨hlt, hcases⟩
  have hpage := hsound.pages index hlt
  have hcovered := h.covered index
  have hzero : (a.pages index).dropReservation.ownershipRefs = 0 := by
    rcases hcases with hstate | ⟨_, hstate⟩
    · have hfacts := hpage.of_reserved hstate
      simp [ownershipRefs, hfacts]
    · have htotal := hpage.of_pending hstate
      simp only [totalRefs, ownershipRefs] at htotal
      simp only [ownershipRefs, dropReservation_requestRefs, dropReservation_cacheRefs,
        dropReservation_reservationRefs, dropReservation_pinRefs]
      omega
  have hnot : (a.pages index).allocationState ≠ free ∧
      (a.pages index).allocationState ≠ permanent := by
    rcases hcases with hstate | ⟨_, hstate⟩ <;> simp [hstate]
  have hold : ledger index (a.pages index).generation ≤
      max ((a.pages index).pendingFreeEpoch.getD 0) a.currentEpoch := by
    by_cases howned : (a.pages index).ownershipRefs = 0
    · exact hcovered.of_unowned hnot.1 hnot.2 howned
    · rcases hcases with hstate | ⟨_, hstate⟩
      · rw [hcovered.of_reserved hstate howned]
        exact Nat.zero_le _
      · have htotal := hpage.of_pending hstate
        unfold totalRefs at htotal
        omega
  refine h.settle rfl (fun i g hne => Ledger.promise_other _ hne) ?_
  rw [Ledger.promise_self]
  refine Covered.marked hnot.1 (fun _ hne => absurd hzero hne) ?_
  intro _
  rw [dropReservation_pendingFreeEpoch]
  omega

theorem drop (h : Honoured a ledger) (henabled : (PageEvent.drop field index epoch).Enabled True a)
    (hkeeps : (PageEvent.drop field index epoch).Keeps a ledger) :
    Honoured (a.settle index epoch field.sub)
      (ledger.promise index (a.pages index).generation epoch) := by
  rcases henabled with ⟨_, hlive, hcount⟩
  refine h.settle (RefField.sub_generation ..) (fun i g hne => Ledger.promise_other _ hne) ?_
  rw [Ledger.promise_self]
  refine Covered.marked (by simp [hlive]) (by simp [hlive]) ?_
  intro hzero
  have hlast : (a.pages index).ownershipRefs = 1 := by
    cases field <;>
      simp only [ownershipRefs, RefField.sub, RefField.count] at hzero hcount ⊢ <;>
      omega
  have hkept := hkeeps hlast
  have hpending : (field.sub (a.pages index)).pendingFreeEpoch =
      (a.pages index).pendingFreeEpoch := by
    cases field <;> rfl
  rw [hpending]
  omega

theorem event {event : PageEvent} (h : Honoured a ledger) (hsound : Sound a)
    (henabled : event.Enabled True a) (hkeeps : event.Keeps a ledger) :
    Honoured (event.apply a) (event.watch a ledger) := by
  cases event with
  | reserve | permanent => exact h.startHead hsound (by simp)
  | lose count => exact ⟨h.covered, h.older, h.newer⟩
  | commit index =>
    refine h.modifyPage rfl (Covered.of_owned (by simp) (by simp) ?_)
    simp [ownershipRefs]
  | rollback index =>
    rcases henabled with ⟨hlt, hstate, _⟩
    have howned : (a.pages index).ownershipRefs ≠ 0 := by
      intro hzero
      have _ := (hsound.pages index hlt).unowned hzero (.inl hstate)
      omega
    refine h.release rfl ?_
    rw [(h.covered index).of_reserved hstate howned]
    exact Nat.zero_le _
  | abandon index epoch => exact h.abandon hsound henabled
  | enter index =>
    have hcovered := h.covered index
    exact h.modifyPage rfl ⟨hcovered.of_free, hcovered.of_reserved, hcovered.of_unowned⟩
  | leave index =>
    have hcovered := h.covered index
    refine h.settle rfl (fun _ _ _ => rfl) ?_
    refine Covered.marked henabled.2.1.ne_free hcovered.of_reserved ?_
    intro hzero
    have hnot : (a.pages index).allocationState ≠ permanent := by
      rcases henabled.2.1 with hs | hs <;> simp [hs]
    have hold := hcovered.of_unowned henabled.2.1.ne_free hnot hzero
    rw [leaveStep_pendingFreeEpoch, max_self]
    exact hold
  | setValid index tokens =>
    have hcovered := h.covered index
    exact h.modifyPage rfl ⟨hcovered.of_free, hcovered.of_reserved, hcovered.of_unowned⟩
  | acquire field index =>
    refine h.modifyPage (RefField.add_generation ..)
      (Covered.of_owned (by simp [henabled.2]) (by simp [henabled.2]) ?_)
    cases field <;> simp [ownershipRefs, RefField.add]
  | drop field index epoch => exact h.drop henabled hkeeps
  | advance epoch =>
    have hle : a.currentEpoch ≤ epoch := henabled
    exact ⟨fun index => (h.covered index).mono hle,
      fun index generation hlt => (h.older index generation hlt).trans hle, h.newer⟩
  | reclaim => exact h.popHeap hsound henabled

end Honoured

/-!
## Calls and runs
-/

namespace AllocatorCall

variable {a : PageAllocator} {ledger : Ledger}

/-- The ledger after a call; a call that raises names no epoch. -/
def watch (call : AllocatorCall) (a : PageAllocator) (ledger : Ledger) : Ledger :=
  if (returned? (call.perform a)).isSome then
    call.promises.foldl
      (fun ledger promise => ledger.promise promise.1.index promise.1.generation promise.2)
      ledger
  else
    ledger

/-- The page and the epoch of a call that drops a durable owner. -/
def releases : AllocatorCall -> Option (KVPageHandle × Int)
  | releaseRequestRef page safeEpoch | releaseCacheRef page safeEpoch
  | unpinPage page safeEpoch => some (page, safeEpoch)
  | _ => none

/-- The release of the last durable owner of a page covers what was promised for it:
by its own epoch, by the epoch on record or by the completed epoch. -/
def ReleaseKeeps (a : PageAllocator) (ledger : Ledger) (page : KVPageHandle)
    (safeEpoch : Int) : Prop :=
  (a.pages page.index).ownershipRefs = 1 ->
    ledger page.index page.generation ≤
      max (max safeEpoch.toNat ((a.pages page.index).pendingFreeEpoch.getD 0)) a.currentEpoch

/-- Nothing is asked of a release that raises. -/
def Keeps (a : PageAllocator) (ledger : Ledger) (call : AllocatorCall) : Prop :=
  forall release, release ∈ call.releases -> (returned? (call.perform a)).isSome = true ->
    ReleaseKeeps a ledger release.1 release.2

def watchRun : PageAllocator -> Ledger -> List AllocatorCall -> Ledger
  | _, ledger, [] => ledger
  | a, ledger, call :: calls => watchRun (call.step a) (call.watch a ledger) calls

def KeepsRun : PageAllocator -> Ledger -> List AllocatorCall -> Prop
  | _, _, [] => True
  | a, ledger, call :: calls =>
    call.Keeps a ledger ∧ KeepsRun (call.step a) (call.watch a ledger) calls

instance (a : PageAllocator) (ledger : Ledger) (page : KVPageHandle) (safeEpoch : Int) :
    Decidable (ReleaseKeeps a ledger page safeEpoch) :=
  inferInstanceAs (Decidable (_ -> _))

instance (a : PageAllocator) (ledger : Ledger) (call : AllocatorCall) :
    Decidable (call.Keeps a ledger) :=
  inferInstanceAs (Decidable (forall release, release ∈ call.releases -> _))

instance KeepsRun.decidable : (a : PageAllocator) -> (ledger : Ledger) ->
    (calls : List AllocatorCall) -> Decidable (KeepsRun a ledger calls)
  | _, _, [] => inferInstanceAs (Decidable True)
  | a, ledger, call :: calls =>
    have := KeepsRun.decidable (call.step a) (call.watch a ledger) calls
    inferInstanceAs (Decidable (_ ∧ _))

/-- Events without a promise leave the ledger as it is. -/
theorem quiet_honoured (hlegal : Legal True a events)
    (hquiet : events.filterMap PageEvent.promise = []) (hsound : Sound a)
    (h : Honoured a ledger) : Honoured (applyAll a events) ledger := by
  rw [List.filterMap_eq_nil_iff] at hquiet
  refine (hlegal.preserves (fun b => Sound b ∧ Honoured b ledger) ?_ ⟨hsound, h⟩).2
  intro b event hmem henabled hb
  have hnone := hquiet event hmem
  refine ⟨hb.1.event henabled, ?_⟩
  have hkeeps : event.Keeps b ledger := by
    cases event <;> trivial
  have hwatch : event.watch b ledger = ledger := by
    cases event <;> first | rfl | cases hnone
  have hnext := hb.2.event hb.1 henabled hkeeps
  rwa [hwatch] at hnext

variable {call : AllocatorCall}

theorem quiet_step_honoured (hsound : Sound a) (h : Honoured a ledger)
    (hpromises : call.promises = []) : Honoured (call.step a) (call.watch a ledger) := by
  rcases exists_performed True hsound call (fun hnot => absurd trivial hnot) with ⟨_, hperformed⟩
  have hquiet := hperformed.promises
  have hwatch : call.watch a ledger = ledger := by
    simp [watch, hpromises]
  rw [hpromises] at hquiet
  rw [hwatch, hperformed.final]
  exact quiet_honoured hperformed.legal (by simpa using hquiet) hsound h

theorem raised_step_honoured (hrun : call.perform a = .error e a)
    (h : Honoured a ledger) : Honoured (call.step a) (call.watch a ledger) := by
  have hstep : call.step a = a := by simp [step, hrun]
  have hwatch : call.watch a ledger = ledger := by simp [watch, hrun, returned?]
  rw [hstep, hwatch]
  exact h

theorem release_step_honoured (hcall : call.perform = do
    PageAllocator.releaseRef field underflow page safeEpoch
    return .none) (hpromises : call.promises = [(page, safeEpoch.toNat)])
    (hkeeps : (returned? (call.perform a)).isSome = true -> ReleaseKeeps a ledger page safeEpoch)
    (hsound : Sound a) (h : Honoured a ledger) :
    Honoured (call.step a) (call.watch a ledger) := by
  by_cases hvalid : ¬ safeEpoch < 0 ∧ a.Live page ∧ 0 < field.count (a.pages page.index)
  · have hrun := replied_of_ok (releaseRef_run underflow hvalid.1 hvalid.2.1 hvalid.2.2)
    rw [<- hcall] at hrun
    have hgen := hvalid.2.1.1.2.1
    have hstep : call.step a = (PageEvent.drop field page.index safeEpoch.toNat).apply a := by
      simp [step, hrun]
    have hwatch : call.watch a ledger =
        (PageEvent.drop field page.index safeEpoch.toNat).watch a ledger := by
      simp [watch, hrun, returned?, hpromises, PageEvent.watch, hgen]
    rw [hstep, hwatch]
    refine h.event hsound ⟨hvalid.2.1.1.1, hvalid.2.1.2, hvalid.2.2⟩ ?_
    intro hlast
    rw [hgen]
    exact hkeeps (by rw [hrun]; rfl) hlast
  · rcases releaseRef_error hvalid with ⟨e, he⟩
    have hrun : call.perform a = .error e a := by
      rw [hcall]
      exact bind_run_error _ he
    exact raised_step_honoured hrun h

section

variable (hsound : Sound a) (h : Honoured a ledger)
include hsound h

theorem abandonAll_honoured {pages : List KVPageHandle} {epoch : Nat}
    (hlegal : Legal True a (pages.map fun page => .abandon page.index epoch))
    (hgen : forall page, page ∈ pages -> (a.pages page.index).generation = page.generation) :
    Honoured (applyAll a (pages.map fun page => .abandon page.index epoch))
      (pages.foldl (fun ledger page => ledger.promise page.index page.generation epoch)
        ledger) := by
  induction pages generalizing a ledger with
  | nil => exact h
  | cons page pages ih =>
    have hnext := h.event hsound hlegal.1 trivial
    have hwatch : (PageEvent.abandon page.index epoch).watch a ledger =
        ledger.promise page.index page.generation epoch := by
      simp [PageEvent.watch, hgen page (by simp)]
    rw [hwatch] at hnext
    refine ih (hsound.event hlegal.1) hnext hlegal.2 ?_
    intro other hmem
    have hsame : (((PageEvent.abandon page.index epoch).apply a).pages
        other.index).generation = (a.pages other.index).generation := by
      by_cases hindex : other.index = page.index
      · simp [PageEvent.apply, hindex]
      · simp [PageEvent.apply, hindex]
    rw [hsame]
    exact hgen other (by simp [hmem])

theorem abandonReserved_step_honoured {pages : List KVPageHandle} {safeEpoch : Int} :
    Honoured ((abandonReserved pages safeEpoch).step a)
      ((abandonReserved pages safeEpoch).watch a ledger) := by
  by_cases hvalid : ¬ safeEpoch < 0 ∧ forall page, page ∈ pages -> a.ReservedOnce page
  · have hrun : (abandonReserved pages safeEpoch).perform a = _ :=
      replied_of_ok (abandonReserved_run hvalid.1 hvalid.2)
    have hlegal : Legal True a (pages.map fun page => .abandon page.index safeEpoch.toNat) :=
      abandon_legal (fun hnot => absurd trivial hnot) hvalid.2
    have hhonoured := abandonAll_honoured hsound h hlegal
      (fun page hmem => (hvalid.2 page hmem).1.2.1)
    simpa [step, watch, hrun, returned?, promises, List.foldl_map] using hhonoured
  · have hbad : safeEpoch < 0 ∨ ¬ forall page, page ∈ pages -> a.ReservedOnce page := by
      rw [not_and_or, not_not] at hvalid
      exact hvalid
    rcases abandonReserved_error hbad with ⟨_, he⟩
    exact raised_step_honoured (bind_run_error _ he) h

theorem step_honoured (hkeeps : call.Keeps a ledger) :
    Honoured (call.step a) (call.watch a ledger) := by
  cases call with
  | abandonReserved pages safeEpoch => exact abandonReserved_step_honoured hsound h
  | releaseRequestRef | releaseCacheRef | unpinPage =>
    exact release_step_honoured rfl rfl (hkeeps _ rfl) hsound h
  | _ => exact quiet_step_honoured hsound h rfl

theorem run_honoured (hkeeps : KeepsRun a ledger calls) :
    Honoured (run a calls) (watchRun a ledger calls) := by
  induction calls generalizing a ledger with
  | nil => exact h
  | cons call calls ih =>
    exact ih (step_sound hsound call) (step_honoured hsound h hkeeps.1) hkeeps.2

end

theorem make_honoured (totalPages pageSize : Nat) :
    Honoured (PageAllocator.make totalPages pageSize) Ledger.empty := by
  constructor
  · intro _
    constructor <;> simp [Ledger.empty]
  · simp [Ledger.empty]
  · simp [Ledger.empty]

end AllocatorCall

theorem lifetime_ends_after_promises (totalPages pageSize : Nat)
    (calls : List AllocatorCall) (call : AllocatorCall) (handle : KVPageHandle)
    (hkeeps : AllocatorCall.KeepsRun (PageAllocator.make totalPages pageSize) Ledger.empty
      (calls ++ [call]))
    (hcurrent :
      (AllocatorCall.run (PageAllocator.make totalPages pageSize) calls).Current handle)
    (hended : ¬ (AllocatorCall.run (PageAllocator.make totalPages pageSize)
      (calls ++ [call])).Current handle) :
    AllocatorCall.watchRun (PageAllocator.make totalPages pageSize) Ledger.empty
        (calls ++ [call]) handle.index handle.generation ≤
      (AllocatorCall.run (PageAllocator.make totalPages pageSize)
        (calls ++ [call])).currentEpoch := by
  have hmake := make_sound totalPages pageSize
  have hsound := run_sound hmake calls
  have hhonoured := AllocatorCall.run_honoured hmake
    (AllocatorCall.make_honoured totalPages pageSize) hkeeps
  have hages := run_ages hsound [call] handle.index
  rw [<- run_append] at hages
  rcases hages with hlt | ⟨heq, _⟩
  · rw [hcurrent.2.1] at hlt
    exact hhonoured.older _ _ hlt
  · have hgen := heq.symm.trans hcurrent.2.1
    have hfree : ((AllocatorCall.run (PageAllocator.make totalPages pageSize)
        (calls ++ [call])).pages handle.index).allocationState = free := by
      by_contra hne
      refine hended ⟨?_, hgen, hne⟩
      rw [run_append, run_totalPages hsound]
      exact hcurrent.1
    have hcovered := (hhonoured.covered handle.index).of_free hfree
    rwa [hgen] at hcovered

/-- Both epochs named for the page are completed when it is reclaimed. -/
theorem lifetime_ends_after_promises_kept :
    let page : KVPageHandle := Handle.first HandleKind.kvPage 0
    let calls := [AllocatorCall.allocate 1, AllocatorCall.commitReserved [page],
      AllocatorCall.acquireRequestRef page, AllocatorCall.releaseRequestRef page 2,
      AllocatorCall.releaseRequestRef page 5]
    AllocatorCall.watchRun (PageAllocator.make 1 1) Ledger.empty
        (calls ++ [AllocatorCall.advanceEpoch 5]) page.index page.generation ≤
      (AllocatorCall.run (PageAllocator.make 1 1)
        (calls ++ [AllocatorCall.advanceEpoch 5])).currentEpoch :=
  lifetime_ends_after_promises 1 1 _ _ _ (by decide) (by decide) (by decide)

/-- The first release names epoch five and leaves another owner; the second names
epoch zero and takes the last one.  The page is reclaimed at epoch zero. -/
theorem lifetime_ends_before_promise :
    let page : KVPageHandle := Handle.first HandleKind.kvPage 0
    let calls := [AllocatorCall.allocate 1, AllocatorCall.commitReserved [page],
      AllocatorCall.acquireRequestRef page, AllocatorCall.releaseRequestRef page 5,
      AllocatorCall.releaseRequestRef page 0]
    (AllocatorCall.run (PageAllocator.make 1 1) calls).Current page ∧
      ¬ (AllocatorCall.run (PageAllocator.make 1 1)
        (calls ++ [AllocatorCall.reclaimCompleted])).Current page ∧
      (AllocatorCall.run (PageAllocator.make 1 1)
          (calls ++ [AllocatorCall.reclaimCompleted])).currentEpoch <
        AllocatorCall.watchRun (PageAllocator.make 1 1) Ledger.empty
          (calls ++ [AllocatorCall.reclaimCompleted]) page.index page.generation := by
  decide

end Memory
end Ayaka
