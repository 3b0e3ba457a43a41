import Ayaka.Foundation.Guarded
import Ayaka.DeviceComm.SignalEpoch

/-!
# Sums of two ranks

A kernel that gives up while later calls are in its stream lets them run: they store
over slots the peer has not read, and the status word of a later success hides the
failure.  While kernels give up only as the last of their stream, every call that is
joined normally holds the sum of both inputs, and every slot is read before it is
stored to again.

The invariant of a rank speaks of its peer: the payloads the peer has stored and the
rank has not read yet, at most two, stand in the slots, and neither rank has read what
the other has not stored.
-/

namespace Ayaka
namespace SignalEpoch

open Foundation
open Executor (Failure)
open CustomAllReduce

variable {group : Type}

/-! ## The property and the condition -/

namespace World

/-- A call that is joined normally holds the sum of both ranks' inputs. -/
def Exact [Add group] (input : Bool -> Nat -> group) (w : World group) : Prop :=
  forall r epoch, w.Issued r epoch -> returned? (join epoch (w r)) = some () ->
    (w r).tensors epoch = input r epoch + input (!r) epoch

/-- A kernel about to store finds its slot read by the peer's kernel of two epochs ago. -/
def SlotsRead (w : World group) : Prop :=
  forall r epoch, (w r).Storing epoch -> 2 < epoch -> epoch - 2 ∈ (w !r).read

/-- A kernel gives up only while no later call has been launched on its rank. -/
def GivesUpLast (w : World group) : Action -> Prop
  | .giveUp r => (w r).launched ≤ (w r).ended + 1
  | _ => True

instance (w : World group) (action : Action) : Decidable (w.GivesUpLast action) :=
  match action with
  | .giveUp r => inferInstanceAs (Decidable ((w r).launched ≤ (w r).ended + 1))
  | .allReduce _ _ => isTrue trivial
  | .store _ => isTrue trivial
  | .finish _ => isTrue trivial
  | .wait _ _ => isTrue trivial
  | .quarantine _ => isTrue trivial

end World

/-! ## The invariant -/

structure Streams (s : CustomAllReduce group) : Prop where
  mem_read : forall epoch, epoch ∈ s.read <-> 1 ≤ epoch ∧ epoch ≤ s.read.length
  ended_le : s.ended ≤ s.stored
  stored_le : s.stored ≤ s.ended + 1
  stored_launched : s.stored ≤ s.launched
  epoch_le : s.epoch ≤ s.launched
  launched_le : s.launched ≤ s.epoch ∨ s.quarantined = true
  pending : forall epoch, s.ended < epoch -> epoch ≤ s.launched ->
    epoch ∈ s.pending ∨ s.quarantined = true
  /-- All ended kernels have read their slots, or the last of the stream has not and the
  communicator knows or will find out. -/
  outcome : s.ended = s.read.length
    ∨ s.ended = s.read.length + 1 ∧ s.launched = s.ended ∧ s.status = statusTimeout
      ∧ (s.ended ∈ s.pending ∨ s.quarantined = true)

/-- One rank against its peer. -/
structure Paired [Add group] (own other : Nat -> group) (s peer : CustomAllReduce group) :
    Prop where
  signal : s.signal = peer.stored
  paced : s.read.length ≤ peer.stored
  slot : forall epoch, 1 ≤ epoch -> epoch ≤ peer.stored -> peer.stored < epoch + 2 ->
    s.slots (epoch % 2) = other epoch
  tensor : forall epoch, s.tensors epoch
    = if epoch ∈ s.read then own epoch + other epoch else own epoch

structure Sound [Add group] (input : Bool -> Nat -> group) (w : World group) : Prop where
  streams : forall r, Streams (w r)
  paired : forall r, Paired (input r) (input (!r)) (w r) (w !r)

namespace Streams

/-- A rank has stored at most one epoch more than it has read. -/
theorem stored_le_read (h : Streams s) : s.stored ≤ s.read.length + 1 := by
  rcases h.outcome with hall | ⟨hlast, hlaunched, _⟩
  · rw [<- hall]
    exact h.stored_le
  · rw [<- hlast, <- hlaunched]
    exact h.stored_launched

/-- With a kernel left in the stream, all ended ones have read their slots. -/
theorem ended_eq_of_lt (h : Streams s) (hlt : s.ended < s.launched) : s.ended = s.read.length := by
  rcases h.outcome with hall | ⟨_, hlaunched, _⟩
  · exact hall
  · rw [hlaunched] at hlt
    exact absurd hlt (Nat.lt_irrefl _)

theorem waiting_launched (h : Streams s) {epoch : Nat} (hwaiting : s.Waiting epoch) :
    s.ended < s.launched := by
  have hstored := h.stored_launched
  rw [hwaiting.1] at hstored
  exact hstored

end Streams

/-! ## The host -/

/-- What a call of the host leaves alone. -/
structure Device (s s' : CustomAllReduce group) : Prop where
  stored : s'.stored = s.stored
  ended : s'.ended = s.ended
  signal : s'.signal = s.signal
  status : s'.status = s.status
  slots : s'.slots = s.slots
  tensors : s'.tensors = s.tensors
  read : s'.read = s.read

namespace Device

theorem refl (s : CustomAllReduce group) : Device s s :=
  ⟨rfl, rfl, rfl, rfl, rfl, rfl, rfl⟩

theorem trans (h : Device s s') (h' : Device s' s'') : Device s s'' :=
  ⟨h'.stored.trans h.stored, h'.ended.trans h.ended, h'.signal.trans h.signal,
    h'.status.trans h.status, h'.slots.trans h.slots, h'.tensors.trans h.tensors,
    h'.read.trans h.read⟩

end Device

structure Hosted (s s' : CustomAllReduce group) : Prop where
  device : Device s s'
  streams : Streams s'

variable {s s' : CustomAllReduce group}

structure Closed (s s' : CustomAllReduce group) : Prop where
  device : Device s s'
  epoch : s'.epoch = s.epoch
  launched : s'.launched = s.launched
  pending : s'.pending = s.pending
  quarantined : s.quarantined = true -> s'.quarantined = true

theorem closed_failClosed (reason : String) (s : CustomAllReduce group) :
    Closed s (s.failClosed reason) := by
  unfold failClosed
  split
  next => exact ⟨Device.refl s, rfl, rfl, rfl, id⟩
  next => exact ⟨⟨rfl, rfl, rfl, rfl, rfl, rfl, rfl⟩, rfl, rfl, rfl, fun _ => rfl⟩

theorem Closed.trans (h : Closed s s') (h' : Closed s' s'') : Closed s s'' :=
  ⟨h.device.trans h'.device, h'.epoch.trans h.epoch, h'.launched.trans h.launched,
    h'.pending.trans h.pending, fun hs => h'.quarantined (h.quarantined hs)⟩

theorem failClosed_quarantined (reason : String) (s : CustomAllReduce group) :
    (s.failClosed reason).quarantined = true := by
  unfold failClosed
  split
  next hquarantined => exact hquarantined
  next => rfl

theorem closed_foldl (text : Nat -> String) (calls : List Nat) (s : CustomAllReduce group) :
    Closed s (calls.foldl (fun s' epoch => s'.failClosed (text epoch)) s) ∧ (calls ≠ [] ->
        (calls.foldl (fun s' epoch => s'.failClosed (text epoch)) s).quarantined = true) := by
  induction calls generalizing s with
  | nil => exact ⟨⟨Device.refl s, rfl, rfl, rfl, id⟩, fun hne => absurd rfl hne⟩
  | cons epoch rest ih =>
    have hrest := (ih (s.failClosed (text epoch))).1
    refine ⟨(closed_failClosed _ s).trans hrest, fun _ => ?_⟩
    exact hrest.quarantined (failClosed_quarantined _ s)

/-- A call that launches nothing: it keeps the calls that have not ended, and what the
communicator is to find out of the last one, unless it finds out. -/
theorem Streams.keep (h : Streams s) (hd : Device s s') (hepoch : s'.epoch = s.epoch)
    (hlaunched : s'.launched = s.launched)
    (hquarantined : s.quarantined = true -> s'.quarantined = true)
    (hpending : forall epoch, s.ended < epoch -> epoch ∈ s.pending -> epoch ∈ s'.pending)
    (hknown : s.ended = s.read.length + 1 -> s.status = statusTimeout -> s.ended ∈ s.pending ->
      s.ended ∈ s'.pending ∨ s'.quarantined = true) : Streams s' := by
  constructor
  · rw [hd.read]
    exact h.mem_read
  · rw [hd.ended, hd.stored]
    exact h.ended_le
  · rw [hd.ended, hd.stored]
    exact h.stored_le
  · rw [hd.stored, hlaunched]
    exact h.stored_launched
  · rw [hepoch, hlaunched]
    exact h.epoch_le
  · rw [hepoch, hlaunched]
    exact h.launched_le.imp id hquarantined
  · rw [hd.ended, hlaunched]
    exact fun epoch hlt hle => (h.pending epoch hlt hle).imp (hpending epoch hlt) hquarantined
  · rw [hd.ended, hd.read, hd.status, hlaunched]
    refine h.outcome.imp id fun hlast => ⟨hlast.1, hlast.2.1, hlast.2.2.1, ?_⟩
    rcases hlast.2.2.2 with hmem | hq
    · exact hknown hlast.1 hlast.2.2.1 hmem
    · exact .inr (hquarantined hq)

theorem Streams.closed (h : Streams s) (hclosed : Closed s s') : Streams s' := by
  apply h.keep hclosed.device hclosed.epoch hclosed.launched hclosed.quarantined
  · exact fun epoch _ hmem => hclosed.pending.symm ▸ hmem
  · exact fun _ _ hmem => .inl (hclosed.pending.symm ▸ hmem)

theorem hosted_failClosed (h : Streams s) (reason : String) : Hosted s (s.failClosed reason) :=
  ⟨(closed_failClosed reason s).device, h.closed (closed_failClosed reason s)⟩

/-- A kernel that gave up, finished and unknown to the communicator, is a failed call. -/
theorem mem_failedCalls (hended : s.ended = s.read.length + 1) (hstatus : s.status = statusTimeout)
    (hpending : s.ended ∈ s.pending) : s.ended ∈ s.failedCalls := by
  unfold failedCalls
  rw [List.mem_filter]
  refine ⟨hpending, ?_⟩
  have hlow : s.status < (s.ended : Int) := by
    rw [hstatus, hended]
    exact Int.natCast_pos.mpr (Nat.succ_pos _)
  simp [hasEnded, hlow]

/-- Reaping finds every failure, and drops only calls that have ended. -/
theorem wp_reapCompleted (h : Streams s) :
    Wp reapCompleted (fun _ s' => Hosted s s' ∧ s'.epoch = s.epoch ∧ s'.launched = s.launched
        ∧ (s'.quarantined = false -> s'.ended = s'.read.length))
      (fun _ s' => Hosted s s') s := by
  let reaped : CustomAllReduce group :=
    { s with pending := s.pending.filter fun epoch => !s.hasEnded epoch }
  let closed := s.failedCalls.foldl (fun s' epoch => s'.failClosed (s.belowEpoch epoch)) reaped
  have hfold := closed_foldl s.belowEpoch s.failedCalls reaped
  have hclosed : Closed reaped closed := hfold.1
  have hknown : s.ended = s.read.length + 1 -> s.status = statusTimeout -> s.ended ∈ s.pending ->
      closed.quarantined = true := fun hended hstatus hpending =>
    hfold.2 (List.ne_nil_of_mem (mem_failedCalls hended hstatus hpending))
  have hreaped : Device s reaped := ⟨rfl, rfl, rfl, rfl, rfl, rfl, rfl⟩
  have hdevice : Device s closed := hreaped.trans hclosed.device
  have hstreams : Streams closed := by
    apply h.keep hdevice hclosed.epoch hclosed.launched hclosed.quarantined
    · intro epoch hlt hmem
      rw [hclosed.pending]
      exact List.mem_filter.mpr ⟨hmem, by simp [hasEnded, hlt]⟩
    · exact fun hended hstatus hpending => .inr (hknown hended hstatus hpending)
  unfold reapCompleted
  rw [wp_bind, wp_get, wp_bind, wp_modify, wp_ite]
  refine ⟨fun _ => ⟨hdevice, hstreams⟩, fun _ => ⟨⟨hdevice, hstreams⟩, hclosed.epoch,
    hclosed.launched, fun hfree => ?_⟩⟩
  rcases h.outcome with hall | ⟨hlast, _, hstatus, hor⟩
  · show closed.ended = closed.read.length
    rw [hdevice.ended, hdevice.read]
    exact hall
  · rcases hor with hpending | hquarantined
    · rw [hknown hlast hstatus hpending] at hfree
      cases hfree
    · rw [hclosed.quarantined hquarantined] at hfree
      cases hfree

theorem wp_launch (h : Streams s) (hfree : s.quarantined = false)
    (hall : s.ended = s.read.length) (outcome : Launch) :
    Wp (launch (s.epoch + 1) outcome) (fun _ s' => Hosted s s') (fun _ s' => Hosted s s') s := by
  have hlaunched : s.launched = s.epoch := by
    rcases h.launched_le with hle | hquarantined
    · exact Nat.le_antisymm hle h.epoch_le
    · rw [hfree] at hquarantined
      cases hquarantined
  have hstored : s.stored ≤ s.epoch := hlaunched ▸ h.stored_launched
  cases outcome with
  | preLaunch exc => exact ⟨Device.refl s, h⟩
  | launched =>
    refine ⟨⟨rfl, rfl, rfl, rfl, rfl, rfl, rfl⟩, h.mem_read, h.ended_le, h.stored_le,
      Nat.le_succ_of_le hstored, Nat.le_refl _, .inl (Nat.le_refl _), fun epoch hlt hle => ?_,
      .inl hall⟩
    left
    rw [List.mem_append, List.mem_singleton]
    rcases Nat.lt_or_eq_of_le hle with hold | heq
    · rcases h.pending epoch hlt (hlaunched ▸ Nat.le_of_lt_succ hold) with hmem | hquarantined
      · exact .inl hmem
      · rw [hfree] at hquarantined
        cases hquarantined
    · exact .inr heq
  | postLaunch name enqueued =>
    have hentered : s.launched ≤ (if enqueued then s.epoch + 1 else s.launched) := by
      cases enqueued with
      | false => exact Nat.le_refl _
      | true => exact hlaunched ▸ Nat.le_succ _
    unfold launch
    rw [wp_bind, wp_modify, wp_throw]
    unfold failClosed
    rw [if_neg (by simp [hfree])]
    exact ⟨⟨rfl, rfl, rfl, rfl, rfl, rfl, rfl⟩, h.mem_read, h.ended_le, h.stored_le,
      Nat.le_trans h.stored_launched hentered, Nat.le_trans h.epoch_le hentered, .inr rfl,
      fun _ _ _ => .inr rfl, .inl hall⟩

theorem Hosted.trans (h : Hosted s s') (h' : Hosted s' s'') : Hosted s s'' :=
  ⟨h.device.trans h'.device, h'.streams⟩

theorem wp_allReduce (h : Streams s) (epochLimit : Nat) (outcome : Launch) :
    Wp (allReduce epochLimit outcome) (fun _ s' => Hosted s s') (fun _ s' => Hosted s s') s := by
  refine wp_seq (wp_reapCompleted h) fun _ s' hs' => ?_
  rcases hs' with ⟨hhosted, _, _, hall⟩
  refine wp_if (fun _ => hhosted) fun hfree => ?_
  have hfree := Bool.eq_false_of_not_eq_true hfree
  have hs' := hhosted.streams
  refine wp_if (fun _ => ?_) fun _ => ?_
  · refine hhosted.trans ⟨⟨rfl, rfl, rfl, rfl, rfl, rfl, rfl⟩, ?_⟩
    exact hs'.keep ⟨rfl, rfl, rfl, rfl, rfl, rfl, rfl⟩ rfl rfl id (fun _ _ hmem => hmem)
      (fun _ _ hmem => .inl hmem)
  · exact wp_mono (wp_launch hs' hfree (hall hfree) outcome) (fun _ _ h => hhosted.trans h)
      (fun _ _ h => hhosted.trans h)

/-- A join that returns has seen a status word of its epoch or a later one. -/
theorem wp_join (h : Streams s) {epoch : Nat} (hpos : 1 ≤ epoch) :
    Wp (join epoch) (fun _ s' => Hosted s s' ∧ epoch ≤ s.read.length)
      (fun _ s' => Hosted s s') s := by
  unfold join
  refine wp_if (fun _ => ⟨Device.refl s, h⟩) fun hfree => ?_
  refine wp_if (fun _ => ?_) fun hended => ?_
  · exact hosted_failClosed h _
  · have hended : epoch ≤ s.ended := of_decide_eq_true (Bool.eq_true_of_not_eq_false hended)
    let dropped : CustomAllReduce group :=
      { s with pending := s.pending.filter fun call => call ≠ epoch }
    have hdevice : Device s dropped := ⟨rfl, rfl, rfl, rfl, rfl, rfl, rfl⟩
    have hkeep : forall call, call ≠ epoch -> call ∈ s.pending -> call ∈ dropped.pending :=
      fun call hne hmem => List.mem_filter.mpr ⟨hmem, decide_eq_true hne⟩
    refine wp_if (fun hlow => ?_) fun hhigh => ?_
    · -- the call is dropped and its failure is known at once
      have hclosed := closed_failClosed (dropped.belowEpoch epoch) dropped
      have hdevice := hdevice.trans hclosed.device
      refine ⟨hdevice, h.keep hdevice hclosed.epoch hclosed.launched hclosed.quarantined ?_ ?_⟩
      · intro call hlt hmem
        rw [hclosed.pending]
        exact hkeep call (fun heq => by omega) hmem
      · exact fun _ _ _ => .inr (failClosed_quarantined _ dropped)
    · have hall : s.ended = s.read.length := by
        rcases h.outcome with hall | ⟨_, _, hstatus, _⟩
        · exact hall
        · rw [hstatus] at hhigh
          exact absurd (Int.natCast_pos.mpr hpos) hhigh
      refine ⟨⟨hdevice, h.keep hdevice rfl rfl id ?_ ?_⟩, hall ▸ hended⟩
      · exact fun call hlt hmem => hkeep call (fun heq => by omega) hmem
      · intro hlast _ _
        rw [hall] at hlast
        exact absurd hlast (Nat.ne_of_lt (Nat.lt_succ_self _))

/-! ## Both ranks -/

theorem eq_or_eq_not (r q : Bool) : q = r ∨ q = !r := by
  cases r <;> cases q <;> decide

namespace World

variable (w : World group) (r : Bool) (s : CustomAllReduce group)

@[simp]
theorem set_self : w.set r s r = s := by
  simp [set]

@[simp]
theorem set_not : w.set r s (!r) = w !r := by
  simp [set]

@[simp]
theorem set_not_self : w.set (!r) s r = w r := by
  simp [set]

@[simp]
theorem store_self (epoch : Nat) : w.store r epoch r = { w r with stored := epoch } := by
  simp [store]

@[simp]
theorem store_not (epoch : Nat) :
    w.store r epoch (!r) = (w !r).receive epoch ((w r).tensors epoch) := by
  simp [store]

end World

section Sum

variable [Add group] {input : Bool -> Nat -> group} {w : World group}

/-- A rank sees of its peer only how much it has stored. -/
theorem Paired.device {own other : Nat -> group} (h : Paired own other s peer) (hd : Device s s')
    (hpeer : peer'.stored = peer.stored) : Paired own other s' peer' := by
  constructor
  · rw [hd.signal, hpeer]
    exact h.signal
  · rw [hd.read, hpeer]
    exact h.paced
  · rw [hd.slots, hpeer]
    exact h.slot
  · rw [hd.tensors, hd.read]
    exact h.tensor

/-- Both ranks, from what holds of the one that acts and of its peer. -/
theorem Sound.of_ranks (hown : Streams (w' r)) (hpeer : Streams (w' !r))
    (hpaired : Paired (input r) (input (!r)) (w' r) (w' !r))
    (hpeered : Paired (input (!r)) (input r) (w' !r) (w' r)) : Sound input w' := by
  constructor
  · intro q
    rcases eq_or_eq_not r q with heq | heq
    · exact heq ▸ hown
    · exact heq ▸ hpeer
  · intro q
    rcases eq_or_eq_not r q with heq | heq
    · exact heq ▸ hpaired
    · rw [heq, Bool.not_not]
      exact hpeered

theorem Sound.peered (h : Sound input w) (r : Bool) :
    Paired (input (!r)) (input r) (w !r) (w r) := by
  have hpaired := h.paired (!r)
  rw [Bool.not_not] at hpaired
  exact hpaired

theorem Sound.initial (input slots : Bool -> Nat -> group) :
    Sound input (World.initial input slots) where
  streams := fun _ => ⟨fun epoch => by simp [World.initial]; omega, Nat.le_refl _, Nat.zero_le _,
    Nat.le_refl _, Nat.le_refl _, .inl (Nat.le_refl _),
    fun _ hlt hle => absurd (Nat.lt_of_lt_of_le hlt hle) (Nat.lt_irrefl _), .inl rfl⟩
  paired := fun _ => ⟨rfl, Nat.le_refl _,
    fun _ hpos hle => absurd (Nat.lt_of_lt_of_le hpos hle) (Nat.lt_irrefl _),
    fun _ => by simp [World.initial]⟩

section

variable (h : Sound input w)
include h

theorem Sound.hosted (hs : Hosted (w r) s) : Sound input (w.set r s) := by
  apply Sound.of_ranks (r := r)
  · rw [World.set_self]
    exact hs.streams
  · rw [World.set_not]
    exact h.streams _
  · rw [World.set_self, World.set_not]
    exact (h.paired r).device hs.device rfl
  · rw [World.set_self, World.set_not]
    exact (h.peered r).device (Device.refl _) hs.device.stored

theorem Sound.store {epoch : Nat} (hstoring : (w r).Storing epoch) :
    Sound input (w.store r epoch) := by
  rcases hstoring with ⟨hstored, hepoch, hle⟩
  have hown := h.streams r
  have hread : (w r).ended = (w r).read.length :=
    hown.ended_eq_of_lt (Nat.lt_of_lt_of_le (hepoch ▸ Nat.lt_succ_self _) hle)
  have hpeer := h.streams (!r)
  have hpeered := h.peered r
  apply Sound.of_ranks (r := r)
  · rw [World.store_self]
    exact ⟨hown.mem_read, hepoch ▸ Nat.le_succ _, Nat.le_of_eq hepoch, hle, hown.epoch_le,
      hown.launched_le, hown.pending, hown.outcome⟩
  · rw [World.store_not]
    exact ⟨hpeer.mem_read, hpeer.ended_le, hpeer.stored_le, hpeer.stored_launched, hpeer.epoch_le,
      hpeer.launched_le, hpeer.pending, hpeer.outcome⟩
  · rw [World.store_self, World.store_not]
    have hpaired := h.paired r
    exact ⟨hpaired.signal, hpaired.paced, hpaired.slot, hpaired.tensor⟩
  · rw [World.store_self, World.store_not]
    constructor
    · show (w !r).signal + 1 = epoch
      rw [hpeered.signal, hstored, hepoch]
    · show (w !r).read.length ≤ epoch
      exact Nat.le_trans hpeered.paced (by rw [hstored, hepoch]; exact Nat.le_succ _)
    · intro other hpos hother hnear
      show Function.update (w !r).slots (epoch % 2) ((w r).tensors epoch) (other % 2) = _
      have hother : other ≤ epoch := hother
      have hnear : epoch < other + 2 := hnear
      rcases Nat.lt_or_eq_of_le hother with _ | heq
      · -- the payload of the epoch before stands in the other slot
        have hne : other % 2 ≠ epoch % 2 := by omega
        rw [Function.update_of_ne hne]
        exact hpeered.slot other hpos (by omega) (by omega)
      · rw [heq, Function.update_self, (h.paired r).tensor, if_neg]
        intro hmem
        have hle := ((hown.mem_read epoch).mp hmem).2
        omega
    · exact hpeered.tensor

theorem Sound.finish {epoch : Nat} (hwaiting : (w r).Waiting epoch)
    (hsignal : epoch ≤ (w r).signal) :
    Sound input (w.set r ((w r).finish epoch)) := by
  have hown := h.streams r
  have hpaired := h.paired r
  have hread := hown.ended_eq_of_lt (hown.waiting_launched hwaiting)
  have hepoch : epoch = (w r).read.length + 1 := hread ▸ hwaiting.2
  have hstored : (w r).stored = epoch := hwaiting.1.trans hwaiting.2.symm
  have hpeer : epoch ≤ (w !r).stored := hpaired.signal ▸ hsignal
  have hmem : forall other, other ∈ epoch :: (w r).read
      <-> 1 ≤ other ∧ other ≤ (w r).read.length + 1 := by
    intro other
    rw [List.mem_cons, hown.mem_read]
    omega
  apply Sound.of_ranks (r := r)
  · rw [World.set_self]
    refine ⟨hmem, Nat.le_of_eq hstored.symm, Nat.le_succ_of_le (Nat.le_of_eq hstored),
      hown.stored_launched, hown.epoch_le, hown.launched_le, fun other hlt hle => ?_,
      .inl hepoch⟩
    exact hown.pending other (by rw [hwaiting.2] at hlt; exact Nat.lt_of_succ_lt hlt) hle
  · rw [World.set_not]
    exact h.streams _
  · rw [World.set_self, World.set_not]
    refine ⟨hpaired.signal, hepoch ▸ hpeer, hpaired.slot, fun other => ?_⟩
    show Function.update (w r).tensors epoch _ other = if other ∈ epoch :: (w r).read then _ else _
    by_cases heq : other = epoch
    · -- the slot still holds the peer's payload: it is at most one epoch ahead
      have hfresh : epoch ∉ (w r).read := by
        rw [hown.mem_read]
        omega
      have hslow : (w !r).stored < epoch + 2 := by
        have hahead := (h.streams (!r)).stored_le_read
        have hpaced := (h.peered r).paced
        omega
      rw [heq, Function.update_self, if_pos List.mem_cons_self, hpaired.tensor, if_neg hfresh,
        hpaired.slot epoch (by omega) hpeer hslow]
    · rw [Function.update_of_ne heq, hpaired.tensor]
      simp only [List.mem_cons, heq, false_or]
  · rw [World.set_self, World.set_not]
    exact (h.peered r).device (Device.refl _) rfl

theorem Sound.giveUp {epoch : Nat} (hwaiting : (w r).Waiting epoch)
    (hlast : (w r).launched ≤ epoch) :
    Sound input (w.set r ((w r).giveUp epoch)) := by
  have hown := h.streams r
  have hwaits := hown.waiting_launched hwaiting
  have hread := hown.ended_eq_of_lt hwaits
  have hstored : (w r).stored = epoch := hwaiting.1.trans hwaiting.2.symm
  have hlaunched : (w r).launched = epoch :=
    Nat.le_antisymm hlast (hstored ▸ hown.stored_launched)
  have hknown := hown.pending epoch (hwaiting.2 ▸ Nat.lt_succ_self _) (Nat.le_of_eq hlaunched.symm)
  apply Sound.of_ranks (r := r)
  · rw [World.set_self]
    refine ⟨hown.mem_read, Nat.le_of_eq hstored.symm, Nat.le_succ_of_le (Nat.le_of_eq hstored),
      hown.stored_launched, hown.epoch_le, hown.launched_le, fun other hlt hle => ?_,
      .inr ⟨hread ▸ hwaiting.2, hlaunched, rfl, hknown⟩⟩
    exact absurd (Nat.lt_of_lt_of_le hlt (Nat.le_trans hle hlast)) (Nat.lt_irrefl _)
  · rw [World.set_not]
    exact h.streams _
  · rw [World.set_self, World.set_not]
    have hpaired := h.paired r
    exact ⟨hpaired.signal, hpaired.paced, hpaired.slot, hpaired.tensor⟩
  · rw [World.set_self, World.set_not]
    exact (h.peered r).device (Device.refl _) rfl

theorem Sound.step (epochLimit : Nat) (action : Action) (hlast : w.GivesUpLast action) :
    Sound input (w.step epochLimit action) := by
  cases action with
  | allReduce r outcome =>
    exact h.hosted (wp_inv_iff.mp (wp_allReduce (h.streams r) epochLimit outcome))
  | store r =>
    dsimp only [World.step]
    split
    next hstoring => exact h.store hstoring
    next => exact h
  | finish r =>
    dsimp only [World.step]
    split
    next hfinish => exact h.finish hfinish.1 hfinish.2
    next => exact h
  | giveUp r =>
    dsimp only [World.step]
    split
    next hwaiting => exact h.giveUp hwaiting hlast
    next => exact h
  | wait r epoch =>
    dsimp only [World.step]
    split
    next hissued =>
      have hjoin := wp_mono (wp_join (h.streams r) hissued.1) (fun _ _ hs => hs.1)
        (fun _ _ hs => hs)
      exact h.hosted (wp_inv_iff.mp hjoin)
    next => exact h
  | quarantine r =>
    have hown := h.streams r
    have hdevice : Device (w r) (w r).quarantine := ⟨rfl, rfl, rfl, rfl, rfl, rfl, rfl⟩
    refine h.hosted ⟨hdevice, hown.keep hdevice rfl rfl (fun _ => rfl) ?_ ?_⟩
    · exact fun _ _ hmem => hmem
    · exact fun _ _ _ => .inr rfl

/-! ## What the invariant gives -/

theorem Sound.exact : w.Exact input := by
  intro r epoch hissued hreturned
  have hjoin := wp_join (h.streams r) hissued.1
  have hread : epoch ≤ (w r).read.length := by
    cases hrun : join epoch (w r) with
    | ok a s' => exact (wp_run_ok hrun hjoin).2
    | error e s' =>
      rw [hrun] at hreturned
      cases hreturned
  rw [(h.paired r).tensor, if_pos (((h.streams r).mem_read epoch).mpr ⟨hissued.1, hread⟩)]

theorem Sound.slotsRead : w.SlotsRead := by
  intro r _ hstoring _
  rcases hstoring with ⟨_, hepoch, hle⟩
  have hlt : (w r).ended < (w r).launched := by
    rw [hepoch] at hle
    exact hle
  have hread := (h.streams r).ended_eq_of_lt hlt
  have hpaced := (h.paired r).paced
  have hahead := (h.streams (!r)).stored_le_read
  rw [(h.streams (!r)).mem_read]
  omega

end

/-- In every run whose kernels give up only as the last of their stream, in every state it
reaches, a call that is joined normally holds the sum of both inputs, and a kernel about
to store finds its slot read. -/
theorem run_sums (input slots : Bool -> Nat -> group) (epochLimit : Nat)
    (before after : List Action)
    (h : Guarded (World.step epochLimit) World.GivesUpLast (World.initial input slots)
      (before ++ after)) :
    ((World.initial input slots).run epochLimit before).Exact input
      ∧ ((World.initial input slots).run epochLimit before).SlotsRead := by
  have hstep : forall (w : World group) action, Sound input w -> w.GivesUpLast action ->
      Sound input (w.step epochLimit action) :=
    fun _ action hw hlast => hw.step epochLimit action hlast
  have hsound := (h.invariant hstep (Sound.initial input slots)).1
  exact ⟨hsound.exact, hsound.slotsRead⟩

end Sum

/-! ## Two ranks with calls ahead -/

def sampleInput (r : Bool) (epoch : Nat) : Int :=
  if r then 10 * epoch else epoch

def sampleWorld : World Int :=
  World.initial sampleInput fun _ _ => 0

/-- One call on both ranks, then one that the first rank gives up alone. -/
theorem run_sums_two_calls :
    (sampleWorld.run 100 [Action.allReduce false Launch.launched,
        Action.allReduce true Launch.launched, Action.store false, Action.store true,
        Action.finish false, Action.finish true, Action.allReduce false Launch.launched,
        Action.store false, Action.giveUp false]).Exact sampleInput
      ∧ (sampleWorld.run 100 [Action.allReduce false Launch.launched,
        Action.allReduce true Launch.launched, Action.store false, Action.store true,
        Action.finish false, Action.finish true, Action.allReduce false Launch.launched,
        Action.store false, Action.giveUp false]).SlotsRead := by
  apply run_sums sampleInput (fun _ _ => 0) 100 _ []
  exact ⟨trivial, trivial, trivial, trivial, trivial, trivial, trivial, trivial,
    by decide +kernel, trivial⟩

/-- The first rank gives up its first kernel and succeeds with the second. -/
def maskedRun : World Int :=
  sampleWorld.run 100 [.allReduce false .launched,
    .allReduce false .launched, .allReduce true .launched,
    .allReduce true .launched, .store false, .giveUp false,
    .store false, .store true, .finish true, .store true,
    .finish false]

/-- The first rank gives up two kernels before the second rank has read anything. -/
def aheadRun : World Int :=
  sampleWorld.run 100 [.allReduce false .launched,
    .allReduce false .launched, .allReduce false .launched,
    .allReduce true .launched, .store false, .giveUp false,
    .store false, .giveUp false]

/-- A later success hides a kernel that gave up: its call is joined normally with the
rank's own input.  And a kernel stores to a slot that the peer has still to read, after
which the peer joins its call normally with the wrong sum. -/
theorem hidden_failure :
    (returned? (join 1 (maskedRun false)) = some () ∧ (maskedRun false).tensors 1 = 1)
    ∧ ((aheadRun false).Storing 3 ∧ 1 ∉ (aheadRun true).read)
    ∧ (returned? (join 1 (aheadRun.run 100 [Action.store false, Action.store true,
          Action.finish true] true)) = some ()
      ∧ (aheadRun.run 100 [Action.store false, Action.store true,
          Action.finish true] true).tensors 1 = 13)
    ∧ sampleInput false 1 + sampleInput true 1 = 11 := by
  decide +kernel

end SignalEpoch
end Ayaka
