import Ayaka.Foundation.Invariant
import Ayaka.Prefix.Transfer

/-!
# The invariant of a transfer

A ticket is called from one thread while the device, other tickets and the caller
of the host checkpoint go on beside it.  The invariant says that every unfinished
copy lies before the recorded event of its layer, that a ticket with an unfinished
copy holds all it took, and that its claim on the credits is what it has not yet
handed back.
-/

namespace Ayaka
namespace Prefix

open Foundation
open EStateM (Result)
open Executor (TicketState Failure)
open Function (update_of_ne update_self)

namespace TransferCredits

def claimOf (credits : TransferCredits) (owner : Nat) : Nat :=
  (credits.claims.slot owner).getD 0

theorem held_eq (credits : TransferCredits) (owner : Nat) :
    credits.held = credits.claimOf owner + (credits.claims.remove owner).values.sum := by
  unfold held claimOf
  cases hslot : credits.claims.slot owner with
  | none =>
    have hsame : (credits.claims.remove owner).slot = credits.claims.slot := by
      rw [IndexMap.slot_remove, <- hslot, Function.update_eq_self]
    rw [IndexMap.values_congr hsame]
    simp
  | some reserved =>
    rw [(IndexMap.perm_values hslot).sum_eq, List.sum_cons]
    rfl

def SameOthers (owner : Nat) (before after : TransferCredits) : Prop :=
  forall other, other ≠ owner -> after.claims.slot other = before.claims.slot other

section

variable {owner : Nat} {before after : TransferCredits} (h : SameOthers owner before after)
include h

theorem SameOthers.sum_eq :
    (after.claims.remove owner).values.sum = (before.claims.remove owner).values.sum := by
  have hslot : (after.claims.remove owner).slot = (before.claims.remove owner).slot := by
    funext other
    rw [IndexMap.slot_remove, IndexMap.slot_remove]
    by_cases hother : other = owner
    · rw [hother, update_self, update_self]
    · rw [update_of_ne hother, update_of_ne hother, h other hother]
  rw [IndexMap.values_congr hslot]

theorem SameOthers.put (n : Nat) :
    SameOthers owner before { after with claims := after.claims.put owner n } := by
  intro other hother
  rw [IndexMap.slot_put, update_of_ne hother]
  exact h other hother

theorem SameOthers.remove :
    SameOthers owner before { after with claims := after.claims.remove owner } := by
  intro other hother
  rw [IndexMap.slot_remove, update_of_ne hother]
  exact h other hother

end

/-- The credits after `nbytes` of a claim of `reserved` went back. -/
def lowered (credits : TransferCredits) (owner reserved nbytes : Nat) : TransferCredits :=
  if reserved - nbytes = 0 then
    { credits with claims := credits.claims.remove owner }
  else
    { credits with claims := credits.claims.put owner (reserved - nbytes) }

theorem release_all_run (hslot : credits.claims.slot owner = some reserved) :
    release owner none credits = .ok () { credits with claims := credits.claims.remove owner } := by
  unfold release
  rw [bind_run_ok _ (get_run credits), hslot]
  rfl

theorem release_some_run (owner nbytes : Nat) (credits : TransferCredits) :
    (exists failure, release owner (some nbytes) credits =
        .error failure credits ∧ failure.isException = true) ∨
      exists reserved, credits.claims.slot owner = some reserved ∧ nbytes ≤ reserved ∧
        release owner (some nbytes) credits = .ok () (credits.lowered owner reserved nbytes) := by
  unfold release lowered
  rw [bind_run_ok _ (get_run credits)]
  cases hslot : credits.claims.slot owner with
  | none => exact .inl ⟨_, rfl, rfl⟩
  | some reserved =>
    by_cases hlt : reserved < nbytes
    · refine .inl ⟨.valueError "release exceeds reserved credits", ?_, rfl⟩
      simp only [if_pos hlt]
      rfl
    · refine .inr ⟨reserved, rfl, by omega, ?_⟩
      simp only [if_neg hlt]
      by_cases hzero : reserved - nbytes = 0
      · simp only [if_pos hzero]
        rfl
      · simp only [if_neg hzero]
        rfl

theorem lowered_slot (credits : TransferCredits) (owner reserved nbytes : Nat) :
    (credits.lowered owner reserved nbytes).claims.slot owner =
      if reserved - nbytes = 0 then none else some (reserved - nbytes) := by
  unfold lowered
  split
  · exact update_self ..
  · exact update_self ..

theorem SameOthers.lowered (h : SameOthers owner before after) (reserved nbytes : Nat) :
    SameOthers owner before (after.lowered owner reserved nbytes) := by
  unfold TransferCredits.lowered
  split
  · exact h.remove
  · exact h.put _

end TransferCredits

/-- The exceptions a settlement step raises and `except Exception` catches. -/
def Ordinary (failure : Failure) : Prop :=
  failure.isException = true

theorem HostPrefix.close_ordinary {bufferFault host host'} {failure : Failure}
    (h : HostPrefix.close bufferFault host = .error failure host') : Ordinary failure := by
  unfold HostPrefix.close at h
  rw [bind_run_ok _ (get_run host)] at h
  by_cases hclosed : host.closed = true
  · simp only [if_pos hclosed] at h
    cases h
  · simp only [if_neg hclosed] at h
    by_cases hborrowed : host.borrowers ≠ 0
    · simp only [if_pos hborrowed] at h
      cases h
      rfl
    · simp only [if_neg hborrowed] at h
      cases bufferFault with
      | none => cases h
      | some message =>
        cases h
        rfl

namespace PrefixTransfer

/-!
## The invariant
-/

def Idle (t : PrefixTransfer) : Prop :=
  forall s, t.stream = some s -> s.Quiet

/-- Every unfinished copy lies before the event of its layer, and that layer still
counts as in flight. -/
def Guarded (t : PrefixTransfer) : Prop :=
  forall s position copy, t.stream = some s -> s.Pending position copy ->
    exists batch event, t.layerBatches[copy.layer]? = some batch ∧ batch.done = false ∧
      batch.event = some event ∧ position < event

/-- Nothing the ticket took at adoption was given up. -/
structure Holding (t : PrefixTransfer) : Prop where
  live : t.retired = false
  calls : forall call, call ∈ t.calls -> call.Releases = false
  borrowed : t.hostBorrowed = true
  host : exists host, t.host = some host ∧ host.closed = false ∧ 0 < host.borrowers

def unresolvedBytes (t : PrefixTransfer) : Nat :=
  (t.layerBatches.map fun batch => if batch.done then 0 else batch.nbytes).sum

def claim (t : PrefixTransfer) : Nat :=
  t.credits.claimOf t.id

/-- The claim is what was not handed back yet, and the claims of others are those of
`before`. -/
structure Books (before t : PrefixTransfer) : Prop where
  id : t.id = before.id
  nbytes : t.nbytes = before.nbytes
  others : TransferCredits.SameOthers before.id before.credits t.credits
  kept : t.claimed = true -> t.creditReleased ≤ t.nbytes ∧
    t.credits.claims.slot t.id = some (t.nbytes - t.creditReleased)
  gone : t.claimed = false -> t.credits.claims.slot t.id = none

/-- Adopted and nothing more. -/
structure Fresh (t : PrefixTransfer) : Prop where
  stream : t.stream = none
  layerBatches : t.layerBatches = []
  claimed : t.claimed = true
  released : t.creditReleased = 0
  holding : t.Holding

structure Sound (before t : PrefixTransfer) : Prop where
  books : Books before t
  guarded : t.Guarded
  holding : t.Idle ∨ t.Holding
  covered : t.Idle ∨ t.unresolvedBytes ≤ t.claim
  adopted : t.state = some .adopted -> t.Fresh
  retired : t.retired = true -> t.claimed = false

/-!
The invariant reads a ticket through three groups of fields.
-/

def account (t : PrefixTransfer) : TransferCredits × Nat × Nat × Bool × Nat :=
  (t.credits, t.id, t.nbytes, t.claimed, t.creditReleased)

def work (t : PrefixTransfer) : Option (Stream Copy) × List LayerBatch :=
  (t.stream, t.layerBatches)

def assets (t : PrefixTransfer) : Bool × List BackendCall × Bool × Option HostPrefix :=
  (t.retired, t.calls, t.hostBorrowed, t.host)

section Groups

variable {before t t' : PrefixTransfer}

theorem Books.of_eq (h : Books before t) (haccount : t'.account = t.account) : Books before t' := by
  simp only [account, Prod.mk.injEq] at haccount
  rcases haccount with ⟨hcredits, hid, hnbytes, hclaimed, hreleased⟩
  constructor
  · exact hid.trans h.id
  · exact hnbytes.trans h.nbytes
  · rw [hcredits]
    exact h.others
  · rw [hclaimed, hreleased, hnbytes, hcredits, hid]
    exact h.kept
  · rw [hclaimed, hcredits, hid]
    exact h.gone

theorem claim_eq (haccount : t'.account = t.account) : t'.claim = t.claim := by
  simp only [account, Prod.mk.injEq] at haccount
  rcases haccount with ⟨hcredits, hid, _⟩
  unfold claim
  rw [hcredits, hid]

theorem Idle.of_eq (h : t.Idle) (hstream : t'.stream = t.stream) : t'.Idle := by
  unfold Idle
  rw [hstream]
  exact h

theorem Guarded.of_eq (h : t.Guarded) (hwork : t'.work = t.work) : t'.Guarded := by
  simp only [work, Prod.mk.injEq] at hwork
  unfold Guarded
  rw [hwork.1, hwork.2]
  exact h

theorem unresolvedBytes_eq (hwork : t'.work = t.work) : t'.unresolvedBytes = t.unresolvedBytes := by
  simp only [work, Prod.mk.injEq] at hwork
  unfold unresolvedBytes
  rw [hwork.2]

theorem Holding.of_eq (h : t.Holding) (hassets : t'.assets = t.assets) : t'.Holding := by
  simp only [assets, Prod.mk.injEq] at hassets
  rcases hassets with ⟨hretired, hcalls, hborrowed, hhost⟩
  constructor
  · exact hretired.trans h.live
  · rw [hcalls]
    exact h.calls
  · exact hborrowed.trans h.borrowed
  · rw [hhost]
    exact h.host

theorem Fresh.of_eq (h : t.Fresh) (haccount : t'.account = t.account) (hwork : t'.work = t.work)
    (hassets : t'.assets = t.assets) : t'.Fresh := by
  simp only [account, work, Prod.mk.injEq] at haccount hwork
  exact
    { stream := hwork.1.trans h.stream
      layerBatches := hwork.2.trans h.layerBatches
      claimed := haccount.2.2.2.1.trans h.claimed
      released := haccount.2.2.2.2.trans h.released
      holding := h.holding.of_eq hassets }

/-- The other fields do not matter, except that no ticket becomes adopted again. -/
theorem Sound.of_eq (h : Sound before t) (haccount : t'.account = t.account)
    (hwork : t'.work = t.work) (hassets : t'.assets = t.assets)
    (hstate : t'.state = some .adopted -> t.state = some .adopted) : Sound before t' where
  books := h.books.of_eq haccount
  guarded := h.guarded.of_eq hwork
  holding := h.holding.imp (fun hidle => hidle.of_eq (Prod.mk.inj hwork).1)
    fun hold => hold.of_eq hassets
  covered := by
    rw [unresolvedBytes_eq hwork, claim_eq haccount]
    exact h.covered.imp_left fun hidle => hidle.of_eq (Prod.mk.inj hwork).1
  adopted := fun hadopted => (h.adopted (hstate hadopted)).of_eq haccount hwork hassets
  retired := by
    have hretired : t'.retired = t.retired := (Prod.mk.inj hassets).1
    simp only [account, Prod.mk.injEq] at haccount
    rw [hretired, haccount.2.2.2.1]
    exact h.retired

end Groups

variable {t : PrefixTransfer}

theorem Guarded.idle (h : t.Guarded)
    (hdone : forall batch, batch ∈ t.layerBatches -> batch.done = true) : t.Idle := by
  intro s hs
  rw [Stream.quiet_iff]
  intro position copy hpending
  rcases h s position copy hs hpending with ⟨batch, _, hbatch, hlive, _⟩
  rw [hdone batch (List.mem_of_getElem? hbatch)] at hlive
  cases hlive

theorem idle_of_stream_none (h : t.stream = none) : t.Idle := by
  intro _ hs
  rw [h] at hs
  cases hs

theorem guarded_of_idle (h : t.Idle) : t.Guarded := by
  intro s position copy hs hpending
  exact absurd hpending (Stream.quiet_iff.mp (h s hs) position copy)

/-!
## Settlement
-/

/-- What every step of a settlement keeps: the books are right, and the copies and
their batches stay as they were. -/
structure Settling (before start t : PrefixTransfer) : Prop where
  books : Books before t
  work : t.work = start.work
  retired : t.retired = true -> t.claimed = false

section Settlement

variable {before start : PrefixTransfer}

/-- An update of the other fields goes unnoticed. -/
theorem Settling.of_eq {t t'} (h : Settling before start t) (haccount : t'.account = t.account)
    (hwork : t'.work = t.work) (hretired : t'.retired = t.retired) : Settling before start t' where
  books := h.books.of_eq haccount
  work := hwork.trans h.work
  retired := by
    simp only [account, Prod.mk.injEq] at haccount
    rw [hretired, haccount.2.2.2.1]
    exact h.retired

section

variable (faults : TransferFaults)

theorem callBackend_settling (call : BackendCall) :
    Maintains (Settling before start) Ordinary (callBackend faults call) := by
  refine Maintains.bind ?_ ?_
  · exact maintains_modify fun _ h => h.of_eq rfl rfl rfl
  · intro _
    cases hfault : faults.backend call with
    | none => exact maintains_pure ()
    | some failure => exact maintains_throw (faults.backend_ordinary call failure hfault)

theorem dropLease_settling : Maintains (Settling before start) Ordinary (dropLease faults) := by
  have hdrop : Maintains (Settling before start) Ordinary
      (modify fun t => { t with lease := none } : TransferM Unit) :=
    maintains_modify fun _ h => h.of_eq rfl rfl rfl
  refine Maintains.bind maintains_get fun t => ?_
  refine Maintains.ite ?_ ?_
  · refine Maintains.ite ?_ ?_
    · exact Maintains.bind (callBackend_settling faults _) fun _ => hdrop
    · exact Maintains.bind (callBackend_settling faults _) fun _ => hdrop
  · exact maintains_pure ()

theorem dropSequence_settling :
    Maintains (Settling before start) Ordinary (dropSequence faults) := by
  refine Maintains.bind maintains_get fun t => ?_
  refine Maintains.ite ?_ ?_
  · refine Maintains.bind (callBackend_settling faults _) fun _ => ?_
    exact maintains_modify fun _ h => h.of_eq rfl rfl rfl
  · exact maintains_pure ()

theorem dropPins_settling : Maintains (Settling before start) Ordinary (dropPins faults) := by
  refine Maintains.bind maintains_get fun t => ?_
  refine Maintains.ite ?_ ?_
  · refine Maintains.bind (callBackend_settling faults _) fun _ => ?_
    exact maintains_modify fun _ h => h.of_eq rfl rfl rfl
  · exact maintains_pure ()

end

theorem modifyHost_settling (f : HostPrefix -> HostPrefix) :
    Maintains (Settling before start) Ordinary (modifyHost f) :=
  maintains_modify fun _ h => h.of_eq rfl rfl rfl

theorem returnHost_settling : Maintains (Settling before start) Ordinary returnHost := by
  refine Maintains.bind maintains_get fun t => ?_
  refine Maintains.ite ?_ ?_
  · refine Maintains.bind (modifyHost_settling _) fun _ => ?_
    exact maintains_modify fun _ h => h.of_eq rfl rfl rfl
  · exact maintains_pure ()

theorem closeHost_settling (faults : TransferFaults) :
    Maintains (Settling before start) Ordinary (closeHost faults) := by
  refine Maintains.bind maintains_get fun t => ?_
  cases t.host with
  | none => exact maintains_pure ()
  | some host =>
    have hput : forall host, Maintains (Settling before start) Ordinary
        (modify fun t => { t with host := some host } : TransferM Unit) :=
      fun host => maintains_modify fun _ h => h.of_eq rfl rfl rfl
    cases hclose : HostPrefix.close faults.closeBuffer host with
    | ok _ closed =>
      simp only [hclose]
      exact hput closed
    | error failure closed =>
      simp only [hclose]
      exact Maintains.bind (hput closed) fun _ =>
        maintains_throw (HostPrefix.close_ordinary hclose)

variable {t : PrefixTransfer}
  {alpha : Type} {x : EStateM Failure TransferCredits alpha} {credits : TransferCredits}

theorem inCredits_run_ok (h : x t.credits = .ok a credits) :
    inCredits x t = .ok a { t with credits := credits } :=
  zoom_run_ok h

theorem inCredits_run_error {failure : Failure} (h : x t.credits = .error failure credits) :
    inCredits x t = .error failure { t with credits := credits } :=
  zoom_run_error h

theorem returnCredits_wp (h : Settling before start t) :
    Wp returnCredits (fun _ t' => Settling before start t' ∧ t'.claimed = false)
      (fun failure t' => Settling before start t' ∧ Ordinary failure) t := by
  unfold returnCredits
  rw [wp_bind, wp_get]
  by_cases hclaimed : t.claimed = true
  · rw [if_pos hclaimed]
    have hrelease : inCredits (TransferCredits.release t.id none) t =
        .ok () { t with credits :=
          { t.credits with claims := t.credits.claims.remove t.id } } :=
      inCredits_run_ok (TransferCredits.release_all_run (h.books.kept hclaimed).2)
    refine wp_of_run_ok (bind_run_ok _ hrelease) ⟨⟨?_, h.work, fun _ => rfl⟩, rfl⟩
    exact
      { id := h.books.id
        nbytes := h.books.nbytes
        others := by
          have hothers := h.books.others
          rw [<- h.books.id] at hothers ⊢
          exact hothers.remove
        kept := fun hfalse => nomatch hfalse
        gone := fun _ => update_self .. }
  · rw [if_neg hclaimed]
    exact ⟨h, Bool.eq_false_of_not_eq_true hclaimed⟩

section

variable (faults : TransferFaults)

/-- A clean-up that goes through has handed back every credit. -/
theorem cleanup_wp (succeeded : Bool) (h : Settling before start t) :
    Wp (cleanup faults succeeded) (fun _ t' => Settling before start t' ∧ t'.claimed = false)
      (fun failure t' => Settling before start t' ∧ Ordinary failure) t := by
  refine (dropLease_settling faults).wp_bind h fun _ t h => ?_
  refine (dropSequence_settling faults).wp_bind h fun _ t h => ?_
  refine (dropPins_settling faults).wp_bind h fun _ t h => ?_
  refine (callBackend_settling faults _).wp_bind h fun _ t h => ?_
  refine returnHost_settling.wp_bind h fun _ t h => ?_
  refine maintains_get.wp_bind h fun seen t h => ?_
  by_cases hclose : ¬ seen.restoring = true ∧ succeeded = false
  · rw [if_pos hclose]
    exact (closeHost_settling faults).wp_bind h fun _ t h => returnCredits_wp h
  · rw [if_neg hclose]
    exact returnCredits_wp h

theorem publishResult_settling :
    Maintains (Settling before start) Ordinary (publishResult faults) := by
  refine Maintains.bind maintains_get fun t => ?_
  refine Maintains.ite ?_ ?_
  · refine Maintains.bind (callBackend_settling faults _) fun _ => ?_
    refine Maintains.bind (callBackend_settling faults _) fun _ => ?_
    refine Maintains.bind ?_ fun _ => callBackend_settling faults _
    exact maintains_modify fun _ h => h.of_eq rfl rfl rfl
  · exact modifyHost_settling _

theorem settle_wp (succeeded : Bool) (h : Settling before start t) : Wp (settle faults succeeded)
      (fun settled t' => settled = true ∧ Settling before start t' ∧ t'.claimed = false)
      (fun failure t' => Settling before start t' ∧ Ordinary failure) t := by
  have hcleanup : forall t, Settling before start t ->
      Wp (cleanup faults succeeded >>= fun _ => pure true)
        (fun settled t' => settled = true ∧ Settling before start t' ∧ t'.claimed = false)
        (fun failure t' => Settling before start t' ∧ Ordinary failure) t := by
    intro t h
    exact wp_seq (cleanup_wp faults succeeded h) fun _ _ h => ⟨rfl, h⟩
  cases succeeded with
  | false => exact hcleanup t h
  | true => exact (publishResult_settling faults).wp_bind h fun _ t h => hcleanup t h

end

end Settlement

/-- Where a settlement of finished copies ends, whatever it raised on the way. -/
theorem Settling.sound {before start t} (h : Settling before start t) (hguarded : start.Guarded)
    (hidle : start.Idle) (hstate : t.state ≠ some .adopted) : Sound before t := by
  have hquiet : t.Idle := hidle.of_eq (Prod.mk.inj h.work).1
  exact
    { h with
      guarded := hguarded.of_eq h.work
      holding := .inl hquiet
      covered := .inl hquiet
      adopted := fun hadopted => absurd hadopted hstate }

variable {before : PrefixTransfer}

theorem finish_sound (faults : TransferFaults) (succeeded : Bool) (h : Sound before t)
    (hidle : t.Idle) : Sound before (finalState (finish faults succeeded t)) := by
  have hsettle := settle_wp faults succeeded (⟨h.books, rfl, h.retired⟩ : Settling before t t)
  unfold finish
  cases hrun : settle faults succeeded t with
  | ok settled t' =>
    rw [Wp, hrun] at hsettle
    rcases hsettle with ⟨rfl, hsettled, hgone⟩
    have hretired : Settling before t { t' with
        succeeded := succeeded, retired := true, state := some .retired } :=
      ⟨hsettled.books.of_eq rfl, hsettled.work, fun _ => hgone⟩
    rw [bind_run_ok _ (tryCatch_run_ok _ hrun)]
    exact hretired.sound h.guarded hidle fun hadopted => nomatch hadopted
  | error failure t' =>
    rw [Wp, hrun] at hsettle
    rcases hsettle with ⟨hsettled, hordinary⟩
    have hfail : failSettlement failure t' = .ok false (settlementFailure failure t') := by
      unfold failSettlement
      rw [if_pos (show failure.isException = true from hordinary)]
      rfl
    have hfailed : Settling before t (settlementFailure failure t') :=
      hsettled.of_eq rfl rfl rfl
    rw [bind_run_ok _ ((tryCatch_run_error _ hrun).trans hfail)]
    exact hfailed.sound h.guarded hidle fun hadopted => nomatch hadopted

/-!
## Launch
-/

/-- A layer goes onto the stream with its event or not at all: no failure strikes
between its first copy and its event. -/
def WholeLayers (faults : TransferFaults) : Prop :=
  forall layer, faults.device (.layerEvent layer) = none ∧
    forall index, faults.device (.copy layer (index + 1)) = none

def enqueued (copies : List Copy) (t : PrefixTransfer) : PrefixTransfer :=
  { t with stream := t.stream.map fun s => s.pushAll copies }

/-- The layer's event covers all that is on the stream. -/
def fenced (layer : Nat) (t : PrefixTransfer) : PrefixTransfer :=
  match t.stream with
  | none => t
  | some s => modifyBatch layer (fun batch => { batch with event := some s.record }) t

variable {faults : TransferFaults}

theorem enqueueCopy_run
    (hclear : faults.device (.copy layer index) = none) (copy : Copy) (t : PrefixTransfer) :
    enqueueCopy faults layer (copy, index) t = .ok () (enqueued [copy] t) := by
  unfold enqueueCopy raiseAt
  rw [hclear]
  rfl

theorem enqueued_cons (copy : Copy) (rest : List Copy) (t : PrefixTransfer) :
    enqueued rest (enqueued [copy] t) = enqueued (copy :: rest) t := by
  unfold enqueued
  cases t.stream <;> rfl

section

variable (hwhole : WholeLayers faults)
include hwhole

theorem enqueueRest_run (layer : Nat) (copies : List Copy) (index : Nat) (t : PrefixTransfer) :
    (copies.zipIdx (index + 1)).forM (enqueueCopy faults layer) t = .ok () (enqueued copies t) := by
  induction copies generalizing index t with
  | nil =>
    cases hstream : t.stream <;> cases t <;> subst hstream <;> rfl
  | cons copy rest ih =>
    have hfirst := enqueueCopy_run ((hwhole layer).2 index) copy t
    refine (bind_run_ok _ hfirst).trans ((ih (index + 1) _).trans ?_)
    rw [enqueued_cons]

section

variable (batch : LayerBatch) (t : PrefixTransfer)

theorem enqueueLayer_run :
    (exists failure, enqueueLayer faults batch t = .error failure t) ∨
      enqueueLayer faults batch t = .ok () (enqueued batch.copies t) := by
  unfold enqueueLayer
  cases hcopies : batch.copies with
  | nil =>
    right
    cases hstream : t.stream <;> cases t <;> subst hstream <;> rfl
  | cons copy rest =>
    cases hfirst : faults.device (.copy batch.index 0) with
    | some failure =>
      refine .inl ⟨failure, ?_⟩
      apply bind_run_error
      unfold enqueueCopy raiseAt
      rw [hfirst]
      rfl
    | none =>
      refine .inr ((bind_run_ok _ (enqueueCopy_run hfirst copy t)).trans
        ((enqueueRest_run hwhole batch.index rest 0 _).trans ?_))
      rw [enqueued_cons]

theorem recordLayerEvent_run : recordLayerEvent faults batch t = .ok () (fenced batch.index t) := by
  unfold recordLayerEvent fenced raiseAt
  rw [bind_run_ok _ (get_run t), (hwhole batch.index).1]
  cases t.stream <;> rfl

/-- A layer is launched whole, or the stream does not see it. -/
theorem launchLayer_run :
    (exists failure, launchLayer faults batch t = .error failure t) ∨ launchLayer faults batch t =
        .ok () (fenced batch.index (enqueued batch.copies t)) := by
  rcases enqueueLayer_run hwhole batch t with ⟨failure, hfail⟩ | hrun
  · exact .inl ⟨failure, bind_run_error _ hfail⟩
  · exact .inr ((bind_run_ok _ hrun).trans (recordLayerEvent_run hwhole batch _))

end

end

structure Launching (before t : PrefixTransfer) : Prop where
  books : Books before t
  claimed : t.claimed = true
  released : t.creditReleased = 0
  guarded : t.Guarded
  unresolved : t.unresolvedBytes ≤ t.nbytes
  holding : t.Holding

theorem Launching.of_eq {before t t'} (h : Launching before t) (haccount : t'.account = t.account)
    (hwork : t'.work = t.work) (hholding : t'.Holding) : Launching before t' := by
  have hbooks := h.books.of_eq haccount
  have hguarded := h.guarded.of_eq hwork
  have hbytes := unresolvedBytes_eq hwork
  simp only [account, Prod.mk.injEq] at haccount
  exact
    { books := hbooks
      claimed := haccount.2.2.2.1.trans h.claimed
      released := haccount.2.2.2.2.trans h.released
      guarded := hguarded
      unresolved := by
        rw [hbytes, haccount.2.2.1]
        exact h.unresolved
      holding := hholding }

/-- Up to here the whole claim is there. -/
theorem Launching.claim_eq (h : Launching before t) : t.claim = t.nbytes := by
  unfold claim TransferCredits.claimOf
  rw [(h.books.kept h.claimed).2, h.released]
  rfl

theorem Launching.sound (h : Launching before t) (hstate : t.state ≠ some .adopted) :
    Sound before t where
  __ := h
  holding := .inr h.holding
  covered := .inr (h.claim_eq ▸ h.unresolved)
  adopted := fun hadopted => absurd hadopted hstate
  retired := by
    intro hretired
    rw [h.holding.live] at hretired
    cases hretired

/-- The batches a launch works through: each at its own index, with copies of its
own layer. -/
def Planned (batches : List LayerBatch) : Prop :=
  forall (index : Nat) (batch : LayerBatch), batches[index]? = some batch -> batch.index = index ∧
    batch.done = false ∧ forall copy, copy ∈ batch.copies -> copy.layer = index

theorem planeCopies_layer
    (h : copy ∈ planeCopies t layer index kind pages) : copy.layer = layer := by
  rcases List.mem_map.mp h with ⟨_, _, rfl⟩
  cases t.restoring <;> rfl

theorem planLayers_planned (t : PrefixTransfer) : Planned t.planLayers := by
  intro index _ hbatch
  unfold planLayers at hbatch
  rw [List.getElem?_map] at hbatch
  rcases Option.map_eq_some_iff.mp hbatch with ⟨layer, hlayer, rfl⟩
  have hindex : index = layer := by
    rcases List.getElem?_eq_some_iff.mp hlayer with ⟨_, hget⟩
    rw [List.getElem_range] at hget
    exact hget
  subst hindex
  refine ⟨rfl, rfl, ?_⟩
  intro _ hcopy
  rcases List.mem_append.mp hcopy with hkey | hvalue
  · exact planeCopies_layer hkey
  · exact planeCopies_layer hvalue

/-- The invariant of the loop over the layers. -/
structure Enqueuing (before : PrefixTransfer) (layers : Nat) (t : PrefixTransfer) : Prop where
  launching : Launching before t
  submitted : t.state = some .submitted
  length : t.layerBatches.length = layers
  live : forall batch, batch ∈ t.layerBatches -> batch.done = false

theorem fenced_eq (hstream : t.stream = some s) (layer : Nat) :
    fenced layer t = modifyBatch layer (fun batch => { batch with event := some s.record }) t := by
  unfold fenced
  rw [hstream]

/-- The event of the layer just enqueued covers its copies; the copies of other
layers keep the events they had. -/
theorem Guarded.launched (h : t.Guarded)
    (hlive : forall batch, batch ∈ t.layerBatches -> batch.done = false)
    (hindex : index < t.layerBatches.length)
    (hcopies : forall copy, copy ∈ copies -> copy.layer = index) :
    (fenced index (enqueued copies t)).Guarded := by
  cases hstream : t.stream with
  | none =>
    apply guarded_of_idle
    apply idle_of_stream_none
    unfold fenced enqueued
    rw [hstream]
    rfl
  | some s =>
    have hnext : (enqueued copies t).stream = some (s.pushAll copies) := by
      unfold enqueued
      rw [hstream]
      rfl
    rw [fenced_eq hnext]
    intro s' position copy hs' hpending
    have hs : s.pushAll copies = s' := Option.some.inj (hnext.symm.trans hs')
    subst hs
    have hbatch : (enqueued copies t).layerBatches = t.layerBatches := rfl
    unfold modifyBatch
    rw [hbatch]
    by_cases hlayer : index = copy.layer
    · subst hlayer
      have hget : t.layerBatches[copy.layer]? = some t.layerBatches[copy.layer] :=
        List.getElem?_eq_getElem hindex
      refine ⟨{ t.layerBatches[copy.layer] with event := some (s.pushAll copies).record },
        (s.pushAll copies).record, ?_,
        hlive t.layerBatches[copy.layer] (List.getElem_mem hindex), rfl,
        hpending.lt_record⟩
      rw [List.getElem?_modify_eq, hget]
      rfl
    · rw [List.getElem?_modify_ne _ _ hlayer]
      rcases hpending.of_pushAll with hold | hmem
      · exact h s position copy hstream hold
      · exact absurd (hcopies copy hmem).symm hlayer

theorem modify_live {batches : List LayerBatch} {index : Nat} {f : LayerBatch -> LayerBatch}
    (hlive : forall batch, batch ∈ batches -> batch.done = false)
    (hf : forall batch, (f batch).done = batch.done) :
    forall batch, batch ∈ batches.modify index f -> batch.done = false := by
  intro batch hmem
  rcases List.getElem?_of_mem hmem with ⟨place, hplace⟩
  rw [List.getElem?_modify] at hplace
  rcases Option.map_eq_some_iff.mp hplace with ⟨old, hold, rfl⟩
  have holdLive := hlive old (List.mem_of_getElem? hold)
  split
  · rw [hf]
    exact holdLive
  · exact holdLive

/-- Launching a layer touches the stream and the event of its batch only. -/
theorem launched_eq (index : Nat) (copies : List Copy) (t : PrefixTransfer) :
    exists event : Option Nat -> Option Nat, fenced index (enqueued copies t) =
      { t with
        stream := t.stream.map fun s => s.pushAll copies
        layerBatches := t.layerBatches.modify index fun batch =>
          { batch with event := event batch.event } } := by
  cases hstream : t.stream with
  | none =>
    refine ⟨fun event => event, ?_⟩
    have hsame : t.layerBatches.modify index (fun batch => batch) = t.layerBatches :=
      List.modify_id ..
    unfold fenced enqueued
    rw [hstream, hsame]
    rfl
  | some s =>
    refine ⟨fun _ => some (s.pushAll copies).record, ?_⟩
    unfold fenced enqueued
    rw [hstream]
    rfl

theorem map_modify {beta : Type} {f : LayerBatch -> LayerBatch} (g : LayerBatch -> beta)
    (batches : List LayerBatch) (index : Nat) (hf : forall batch, g (f batch) = g batch) :
    (batches.modify index f).map g = batches.map g := by
  apply List.ext_getElem?
  intro place
  rw [List.getElem?_map, List.getElem?_map, List.getElem?_modify]
  cases batches[place]? with
  | none => rfl
  | some batch =>
    change some (g (if index = place then f batch else batch)) = some (g batch)
    split
    · rw [hf]
    · rfl

variable {batch : LayerBatch}

theorem launchLayer_keeps {layers : Nat} (hwhole : WholeLayers faults)
    (hindex : batch.index < layers)
    (hcopies : forall copy, copy ∈ batch.copies -> copy.layer = batch.index) :
    Keeps (Enqueuing before layers) (launchLayer faults batch) := by
  intro t h
  rcases launchLayer_run hwhole batch t with ⟨_, hfail⟩ | hrun
  · exact wp_of_run_error hfail ⟨h, trivial⟩
  · refine wp_of_run_ok hrun ?_
    have hlength : batch.index < t.layerBatches.length := by
      rw [h.length]
      exact hindex
    have hlaunching := h.launching
    have hguarded := hlaunching.guarded.launched h.live hlength hcopies
    rcases launched_eq batch.index batch.copies t with ⟨_, hnext⟩
    rw [hnext] at hguarded ⊢
    exact
      { launching :=
          { hlaunching with
            books := hlaunching.books.of_eq rfl
            guarded := hguarded
            unresolved := by
              refine Nat.le_trans (Nat.le_of_eq ?_) hlaunching.unresolved
              exact congrArg List.sum (map_modify _ t.layerBatches batch.index fun _ => rfl)
            holding := hlaunching.holding.of_eq rfl }
        submitted := h.submitted
        length := (List.length_modify ..).trans h.length
        live := modify_live h.live fun _ => rfl }

variable {call : BackendCall}

theorem callBackend_keeps {inv : PrefixTransfer -> Prop} (faults : TransferFaults)
    (hinv : forall t, inv t -> inv { t with calls := t.calls ++ [call] }) :
    Keeps inv (callBackend faults call) := by
  refine Maintains.bind (maintains_modify hinv) fun _ => ?_
  cases faults.backend call with
  | none => exact maintains_pure ()
  | some failure => exact maintains_throw trivial

theorem releases_append {calls}
    (h : forall made, made ∈ calls -> made.Releases = false) (hcall : call.Releases = false) :
    forall made, made ∈ calls ++ [call] -> made.Releases = false := by
  intro made hmade
  rcases List.mem_append.mp hmade with hold | hnew
  · exact h made hold
  · rw [List.mem_singleton.mp hnew]
    exact hcall

section

variable (faults : TransferFaults)

theorem callBackend_launching (hcall : call.Releases = false) :
    Keeps (fun t => Launching before t ∧ t.work = (none, [])) (callBackend faults call) := by
  refine callBackend_keeps faults ?_
  rintro t ⟨h, hwork⟩
  exact ⟨h.of_eq rfl rfl ⟨h.holding.live, releases_append h.holding.calls hcall,
    h.holding.borrowed, h.holding.host⟩, hwork⟩

theorem submitLease_launching :
    Keeps (fun t => Launching before t ∧ t.work = (none, [])) (submitLease faults) := by
  refine Maintains.bind maintains_get fun seen => Maintains.ite ?_ (maintains_pure ())
  refine Maintains.bind (keeps_query _) fun _ => ?_
  refine Maintains.bind (callBackend_launching faults rfl) fun _ => ?_
  refine Maintains.bind (callBackend_launching faults rfl) fun _ => ?_
  refine maintains_modify ?_
  rintro t ⟨h, hwork⟩
  exact ⟨h.of_eq rfl rfl (h.holding.of_eq rfl), hwork⟩

theorem raiseAt_keeps {inv : PrefixTransfer -> Prop} (point : DevicePoint) :
    Keeps inv (raiseAt faults point) := by
  unfold raiseAt
  cases faults.device point with
  | none => exact maintains_pure ()
  | some failure => exact maintains_throw trivial

theorem openStream_launching :
    Keeps (fun t => Launching before t ∧ t.Idle) (openStream faults) := by
  refine Maintains.bind maintains_get fun seen => Maintains.ite ?_ (maintains_pure ())
  refine Maintains.bind (raiseAt_keeps faults _) fun _ => maintains_modify ?_
  rintro t ⟨h, _⟩
  have hidle : ({ t with stream := some Stream.empty } : PrefixTransfer).Idle := by
    intro _ hs
    rw [<- Option.some.inj hs]
    rfl
  exact ⟨⟨h.books.of_eq rfl, h.claimed, h.released, guarded_of_idle hidle, h.unresolved,
    h.holding.of_eq rfl⟩, hidle⟩

end

/-- The layers of a plan add up to the whole transfer. -/
theorem planLayers_bytes (t : PrefixTransfer) :
    (t.planLayers.map fun batch => if batch.done then 0 else batch.nbytes).sum = t.nbytes := by
  have hmap : (t.planLayers.map fun batch => if batch.done then 0 else batch.nbytes) =
      List.replicate t.spec.numLayers t.bytesPerLayer := by
    unfold planLayers
    rw [List.map_map, List.eq_replicate_iff]
    refine ⟨by simp, ?_⟩
    intro _ hmem
    rcases List.mem_map.mp hmem with ⟨layer, _, rfl⟩
    rfl
  rw [hmap, List.sum_replicate]
  unfold nbytes bytesPerLayer
  ring

theorem enqueueLayers_wp (hwhole : WholeLayers faults) (h : Launching before t) (hidle : t.Idle) :
    Wp (enqueueLayers faults) (fun _ t' => Launching before t' ∧ t'.state ≠ some .adopted)
      (fun _ t' => Launching before t') t := by
  have hplanned := planLayers_planned t
  have hstart : Enqueuing before t.planLayers.length
      { t with state := some .submitted, layerBatches := t.planLayers } :=
    { launching := ⟨h.books.of_eq rfl, h.claimed, h.released, guarded_of_idle hidle,
        Nat.le_of_eq t.planLayers_bytes, h.holding.of_eq rfl⟩
      submitted := rfl
      length := rfl
      live := by
        intro batch hmem
        rcases List.getElem?_of_mem hmem with ⟨index, hindex⟩
        exact (hplanned index batch hindex).2.1 }
  have hloop : Keeps (Enqueuing before t.planLayers.length)
      (t.planLayers.forM (launchLayer faults)) := by
    refine Maintains.forM fun batch hmem => ?_
    rcases List.getElem?_of_mem hmem with ⟨index, hindex⟩
    rcases hplanned index batch hindex with ⟨rfl, _, hcopies⟩
    exact launchLayer_keeps hwhole (List.getElem?_eq_some_iff.mp hindex).1 hcopies
  refine wp_mono (hloop _ hstart) (fun _ t' h' => ⟨h'.launching, ?_⟩) fun _ t' h' => h'.1.launching
  rw [h'.submitted]
  decide

theorem launchCopies_wp (hwhole : WholeLayers faults) (h : Launching before t)
    (hwork : t.work = (none, [])) :
    Wp (launchCopies faults) (fun _ t' => Launching before t' ∧ t'.state ≠ some .adopted)
      (fun _ t' => Launching before t') t := by
  unfold launchCopies
  rw [wp_bind]
  refine wp_mono (submitLease_launching faults t ⟨h, hwork⟩) ?_ fun _ _ h => h.1.1
  rintro _ t ⟨h, hwork⟩
  have hidle : t.Idle := idle_of_stream_none (Prod.mk.inj hwork).1
  rw [wp_bind]
  refine wp_mono (openStream_launching faults t ⟨h, hidle⟩) ?_ fun _ _ h => h.1.1
  rintro _ t ⟨h, hidle⟩
  exact enqueueLayers_wp hwhole h hidle

/-- Draining marks the ticket and records a fence, and that is all. -/
theorem drain_final (faults : TransferFaults) (point : DevicePoint) (t : PrefixTransfer) :
    exists event error state, state ≠ .adopted ∧ finalState (drain faults point t) =
        { t with event := event, error := error, state := some state } := by
  have hrecord : forall t : PrefixTransfer,
      (exists failure, recordEvent faults point t = .error failure t) ∨
        exists event, recordEvent faults point t = .ok () (setEvent event t) := by
    intro t
    unfold recordEvent raiseAt
    rw [bind_run_ok _ (get_run t)]
    cases t.stream with
    | none => exact .inr ⟨t.event, rfl⟩
    | some s =>
      cases faults.device point with
      | none => exact .inr ⟨some s.record, rfl⟩
      | some failure => exact .inl ⟨failure, rfl⟩
  unfold drain
  rw [bind_run_ok _ (modify_run _ _)]
  rcases hrecord { t with state := some .draining } with ⟨failure, hfail⟩ | ⟨event, hok⟩
  · rw [tryCatch_run_error _ hfail]
    by_cases hordinary : failure.isException = true
    · rw [if_pos hordinary]
      exact ⟨none, _, .quarantined, by decide, rfl⟩
    · rw [if_neg hordinary]
      exact ⟨t.event, t.error, .draining, by decide, rfl⟩
  · rw [tryCatch_run_ok _ hok]
    exact ⟨event, t.error, .draining, by decide, rfl⟩

theorem Fresh.launching (h : t.Fresh) (hbooks : Books before t) : Launching before t where
  __ := h
  books := hbooks
  guarded := guarded_of_idle (idle_of_stream_none h.stream)
  unresolved := by
    unfold unresolvedBytes
    rw [h.layerBatches]
    exact Nat.zero_le _

theorem launch_sound (hwhole : WholeLayers faults) (h : Sound before t) :
    Sound before (finalState (launch faults t)) := by
  unfold launch
  rw [bind_run_ok _ (get_run t)]
  by_cases hguard : t.state ≠ some .adopted ∨ t.retired = true
  · rw [if_pos hguard]
    exact h
  · rw [if_neg hguard]
    have hadopted : t.state = some .adopted := by
      by_contra hne
      exact hguard (.inl hne)
    have hfresh := h.adopted hadopted
    have hlaunch := launchCopies_wp hwhole (hfresh.launching h.books)
      (Prod.ext hfresh.stream hfresh.layerBatches)
    rw [Wp] at hlaunch
    cases hrun : launchCopies faults t with
    | ok _ t' =>
      rw [hrun] at hlaunch
      rw [tryCatch_run_ok _ hrun]
      exact hlaunch.1.sound hlaunch.2
    | error failure t' =>
      rw [hrun] at hlaunch
      rw [tryCatch_run_error _ hrun]
      have hquiet : forall (_ : Unit) (t : PrefixTransfer),
          finalState ((if failure.isException = true then pure () else throw failure :
            TransferM Unit) t) = t := by
        intro _ t
        split <;> rfl
      unfold failLaunch
      rw [bind_run_ok _ (modify_run _ _), finalState_bind_quiet _ _ hquiet]
      rcases drain_final faults .drainEvent { t' with error := failure.text } with
        ⟨event, error, state, hstate, hdrain⟩
      rw [hdrain]
      apply Launching.sound
      · exact hlaunch.of_eq rfl rfl (hlaunch.holding.of_eq rfl)
      · exact fun hadopted => hstate (Option.some.inj hadopted)

/-!
## Resolving layers
-/

/-- The event of a layer, if it has one, has answered. -/
def Ready (t : PrefixTransfer) (layer : Nat) : Prop :=
  forall batch event s, t.layerBatches[layer]? = some batch -> batch.event = some event ->
    t.stream = some s -> s.query event = true

theorem Guarded.markDone (h : t.Guarded) (hready : t.Ready layer) : (markDone layer t).Guarded := by
  intro s position copy hs hpending
  rcases h s position copy hs hpending with ⟨batch, event, hbatch, hlive, hevent, hlt⟩
  by_cases hlayer : layer = copy.layer
  · subst hlayer
    have hle := hpending.le_of_query (hready batch event s hbatch hevent hs)
    omega
  · refine ⟨batch, event, ?_, hlive, hevent, hlt⟩
    exact (List.getElem?_modify_ne _ _ hlayer).trans hbatch

theorem unresolvedBytes_markDone (hbatch : t.layerBatches[layer]? = some batch)
    (hlive : batch.done = false) :
    (markDone layer t).unresolvedBytes + batch.nbytes = t.unresolvedBytes := by
  rcases List.getElem?_eq_some_iff.mp hbatch with ⟨hlt, hget⟩
  unfold unresolvedBytes markDone modifyBatch
  rw [List.modify_eq_take_cons_drop hlt]
  have hsplit : t.layerBatches =
      t.layerBatches.take layer ++ batch :: t.layerBatches.drop (layer + 1) := by
    rw [<- hget, List.getElem_cons_drop, List.take_append_drop]
  conv_rhs => rw [hsplit]
  simp only [List.map_append, List.map_cons, List.sum_append, List.sum_cons, hlive,
    Bool.false_eq_true, if_false, if_true]
  omega

section

variable (h : Sound before t)
include h

/-- A resolved layer may be marked; its bytes are still claimed. -/
theorem Sound.markDone (hready : t.Ready layer)
    (hbatch : t.layerBatches[layer]? = some batch) (hlive : batch.done = false) :
    Sound before (markDone layer t) ∧ ((markDone layer t).Idle ∨
      (markDone layer t).unresolvedBytes + batch.nbytes ≤ (markDone layer t).claim) := by
  have hbytes := unresolvedBytes_markDone hbatch hlive
  have hcovered : (PrefixTransfer.markDone layer t).Idle ∨
      (PrefixTransfer.markDone layer t).unresolvedBytes + batch.nbytes ≤
        (PrefixTransfer.markDone layer t).claim := by
    rw [hbytes]
    exact h.covered.imp_left fun hidle => hidle.of_eq rfl
  refine ⟨?_, hcovered⟩
  exact
    { h with
      books := h.books.of_eq rfl
      guarded := h.guarded.markDone hready
      holding := h.holding.imp (fun hidle => hidle.of_eq rfl) fun hold => hold.of_eq rfl
      covered := hcovered.imp_right fun hle => Nat.le_trans (Nat.le_add_right _ _) hle
      adopted := by
        intro hadopted
        rw [(h.adopted hadopted).layerBatches] at hbatch
        cases hbatch }

theorem Sound.credited {reserved nbytes : Nat} (hstate : t.state ≠ some .adopted)
    (hcovered : t.Idle ∨ t.unresolvedBytes + nbytes ≤ t.claim)
    (hslot : t.credits.claims.slot t.id = some reserved) (hle : nbytes ≤ reserved) :
    Sound before (countReleased nbytes
      { t with credits := t.credits.lowered t.id reserved nbytes }) := by
  have hclaimed : t.claimed = true := by
    by_contra hnot
    rw [h.books.gone (Bool.eq_false_of_not_eq_true hnot)] at hslot
    cases hslot
  rcases h.books.kept hclaimed with ⟨_, hkept⟩
  have hreserved : reserved = t.nbytes - t.creditReleased := by
    rw [hslot] at hkept
    exact Option.some.inj hkept
  have hothers := h.books.others
  rw [<- h.books.id] at hothers
  have hlowered := hothers.lowered reserved nbytes
  have hself := t.credits.lowered_slot t.id reserved nbytes
  exact
    { books :=
        { id := h.books.id
          nbytes := h.books.nbytes
          others := by
            rw [<- h.books.id]
            exact hlowered
          kept := by
            intro hstill
            have hmore : ¬ t.nbytes ≤ t.creditReleased + nbytes := by
              intro hdone
              have hstill' : (if t.nbytes ≤ t.creditReleased + nbytes then false
                else t.claimed) = true := hstill
              rw [if_pos hdone] at hstill'
              cases hstill'
            rw [if_neg (by omega)] at hself
            refine ⟨by change t.creditReleased + nbytes ≤ t.nbytes; omega, hself.trans ?_⟩
            change some (reserved - nbytes) = some (t.nbytes - (t.creditReleased + nbytes))
            rw [hreserved, Nat.sub_sub]
          gone := by
            intro hgone
            have hdone : t.nbytes ≤ t.creditReleased + nbytes := by
              by_contra hmore
              have hgone' : (if t.nbytes ≤ t.creditReleased + nbytes then false
                else t.claimed) = false := hgone
              rw [if_neg hmore, hclaimed] at hgone'
              cases hgone'
            rw [if_pos (by omega)] at hself
            exact hself }
      guarded := h.guarded.of_eq rfl
      holding := h.holding.imp (fun hidle => hidle.of_eq rfl) fun hold => hold.of_eq rfl
      covered := by
        refine hcovered.imp (fun hidle => hidle.of_eq rfl) fun hbytes => ?_
        have hbefore : t.claim = reserved := by
          unfold claim TransferCredits.claimOf
          rw [hslot]
          rfl
        have hafter : (t.credits.lowered t.id reserved nbytes).claimOf t.id =
            reserved - nbytes := by
          unfold TransferCredits.claimOf
          rw [hself]
          split
          · next hzero => exact hzero.symm
          · rfl
        change t.unresolvedBytes ≤ (t.credits.lowered t.id reserved nbytes).claimOf t.id
        omega
      adopted := fun hadopted => absurd hadopted hstate
      retired := by
        intro hretired
        rw [h.retired hretired] at hclaimed
        cases hclaimed }

theorem completeLayer_sound {layer : Nat} (hready : t.Ready layer)
    (hbatch : t.layerBatches[layer]? = some batch) (hlive : batch.done = false) :
    Sound before (finalState (completeLayer layer batch.nbytes t)) := by
  rcases h.markDone hready hbatch hlive with ⟨hdone, hcovered⟩
  have hstate : t.state ≠ some .adopted := by
    intro hadopted
    rw [(h.adopted hadopted).layerBatches] at hbatch
    cases hbatch
  unfold completeLayer
  rw [bind_run_ok _ (modify_run _ _), get_bind_run]
  rcases TransferCredits.release_some_run (markDone layer t).id batch.nbytes
    (markDone layer t).credits with ⟨_, hfail, _⟩ | ⟨_, hslot, hle, hrun⟩
  · rw [bind_run_error _ (inCredits_run_error hfail)]
    exact hdone
  · rw [bind_run_ok _ (inCredits_run_ok hrun)]
    exact hdone.credited hstate hcovered hslot hle

end

def advanced (progress : Nat) (t : PrefixTransfer) : PrefixTransfer :=
  { t with stream := t.stream.map fun s => s.advance progress }

theorem advanced_pending
    (hs : (advanced progress t).stream = some s) (hpending : s.Pending position copy) :
    exists s', t.stream = some s' ∧ s'.Pending position copy := by
  rcases Option.map_eq_some_iff.mp hs with ⟨s', hs', rfl⟩
  exact ⟨s', hs', hpending.of_advance⟩

theorem Idle.advanced (h : t.Idle) (progress : Nat) : (advanced progress t).Idle := by
  intro _ hs
  rw [Stream.quiet_iff]
  intro position copy hpending
  rcases advanced_pending hs hpending with ⟨s', hs', hpending'⟩
  exact Stream.quiet_iff.mp (h s' hs') position copy hpending'

theorem Sound.advanced (h : Sound before t) (progress : Nat) :
    Sound before (advanced progress t) where
  __ := h
  books := h.books.of_eq rfl
  guarded := by
    intro _ position copy hs hpending
    rcases advanced_pending hs hpending with ⟨s', hs', hpending'⟩
    exact h.guarded s' position copy hs' hpending'
  holding := h.holding.imp (fun hidle => hidle.advanced progress) fun hold => hold.of_eq rfl
  covered := h.covered.imp_left fun hidle => hidle.advanced progress
  adopted := by
    intro hadopted
    have hfresh := h.adopted hadopted
    refine ⟨?_, hfresh.layerBatches, hfresh.claimed, hfresh.released, hfresh.holding.of_eq rfl⟩
    unfold PrefixTransfer.advanced
    rw [hfresh.stream]
    rfl

section

variable (faults : TransferFaults)

/-- A layer is reported finished only when its event, if it has one, answered. -/
theorem resolved_wp (progress : Nat) (h : Sound before t)
    (hbatch : t.layerBatches[layer]? = some batch) : Wp (resolved faults progress batch)
      (fun finished t' => Sound before t' ∧ t'.layerBatches[layer]? = some batch ∧
        (finished = true -> t'.Ready layer))
      (fun _ t' => Sound before t') t := by
  unfold resolved
  cases hevent : batch.event with
  | none =>
    refine ⟨h, hbatch, fun _ batch' event s hbatch' hevent' _ => ?_⟩
    rw [hbatch] at hbatch'
    cases hbatch'
    rw [hevent] at hevent'
    cases hevent'
  | some event =>
    have hadvanced := h.advanced progress
    simp only [wp_bind, wp_modify]
    change Wp (raiseAt faults _) _ _ (advanced progress t)
    unfold raiseAt
    cases faults.device (.query batch.index) with
    | some failure => exact hadvanced
    | none =>
      rw [wp_pure, wp_get]
      cases hstream : (advanced progress t).stream with
      | none =>
        refine ⟨hadvanced, hbatch, fun _ _ _ s _ _ hs => ?_⟩
        rw [hstream] at hs
        cases hs
      | some s =>
        refine ⟨hadvanced, hbatch, fun hanswer batch' event' s' hbatch' hevent' hs' => ?_⟩
        have hsame : batch = batch' := Option.some.inj (hbatch.symm.trans hbatch')
        rw [hstream] at hs'
        cases hs'
        rw [<- hsame, hevent] at hevent'
        cases hevent'
        exact hanswer

theorem resolveLayer_keeps (progress : Nat -> Nat) (layer : Nat) :
    Keeps (Sound before) (resolveLayer faults progress layer) := by
  refine maintains_get_bind fun t h => ?_
  cases hbatch : t.layerBatches[layer]? with
  | none => exact h
  | some batch =>
    by_cases hdone : batch.done = true
    · simp only [if_pos hdone]
      exact h
    · simp only [if_neg hdone]
      rw [wp_bind]
      refine wp_mono (resolved_wp faults (progress layer) h hbatch) ?_ fun _ _ h => ⟨h, trivial⟩
      rintro finished t' ⟨h', hbatch', hready⟩
      cases finished with
      | false => exact h'
      | true =>
        have hfinal := completeLayer_sound h' (hready rfl) hbatch'
          (Bool.eq_false_of_not_eq_true hdone)
        exact wp_mono (wp_inv_iff.mpr hfinal) (fun _ _ h => h) fun _ _ h => ⟨h, trivial⟩

theorem resolveLayers_keeps (progress : Nat -> Nat) :
    Keeps (Sound before) (resolveLayers faults progress) := by
  refine Maintains.bind maintains_get fun t => ?_
  exact Maintains.forM fun layer _ => resolveLayer_keeps faults progress layer

/-!
## Poll and cancel
-/

theorem drain_keeps (point : DevicePoint) : Keeps (Sound before) (drain faults point) := by
  intro t h
  rcases drain_final faults point t with ⟨_, _, _, hstate, hdrain⟩
  have hfinal : Sound before (finalState (drain faults point t)) := by
    rw [hdrain]
    exact h.of_eq rfl rfl rfl fun hadopted => absurd (Option.some.inj hadopted) hstate
  exact wp_mono (wp_inv_iff.mpr hfinal) (fun _ _ h => h) fun _ _ h => ⟨h, trivial⟩

theorem settleResolved_keeps : Keeps (Sound before) (settleResolved faults) := by
  refine maintains_get_bind fun t h => ?_
  split
  · exact h
  · next hall =>
      have hidle : t.Idle := by
        apply h.guarded.idle
        intro batch hmem
        by_contra hlive
        apply hall
        rw [List.any_eq_true]
        exact ⟨batch, hmem, by simpa using hlive⟩
      rw [wp_bind]
      refine wp_mono (wp_inv_iff.mpr (finish_sound faults _ h hidle)) ?_ fun _ _ h => ⟨h, trivial⟩
      intro _ _ h'
      exact h'

theorem failPoll_keeps (failure : Failure) : Keeps (Sound before) (failPoll faults failure) := by
  refine Maintains.ite ?_ (maintains_throw trivial)
  refine Maintains.bind (maintains_modify fun t h => h.of_eq rfl rfl rfl fun h => h) fun _ => ?_
  exact Maintains.bind (drain_keeps faults _) fun _ => maintains_pure false

theorem pollLayers_keeps (progress : Nat -> Nat) :
    Keeps (Sound before) (pollLayers faults progress) := by
  have hresolve : Keeps (Sound before)
      (resolveLayers faults progress >>= fun _ => (pure true : TransferM Bool)) :=
    Maintains.bind (resolveLayers_keeps faults progress) fun _ => maintains_pure true
  refine Maintains.bind (hresolve.tryCatch fun failure _ => failPoll_keeps faults failure) ?_
  intro _
  exact Maintains.ite (settleResolved_keeps faults) (maintains_pure false)

theorem poll_keeps (progress : Nat -> Nat) : Keeps (Sound before) (poll faults progress) := by
  refine Maintains.bind maintains_get fun t => ?_
  refine Maintains.ite (maintains_pure true) ?_
  refine Maintains.ite (maintains_pure false) ?_
  refine Maintains.ite (maintains_pure false) ?_
  refine Maintains.ite ?_ (pollLayers_keeps faults progress)
  refine Maintains.bind (drain_keeps faults _) fun _ => ?_
  refine Maintains.bind maintains_get fun t' => ?_
  exact Maintains.ite (maintains_pure false) (pollLayers_keeps faults progress)

theorem cancel_sound (h : Sound before t) : Sound before (finalState (cancel faults t)) := by
  unfold cancel
  rw [bind_run_ok _ (get_run t)]
  by_cases hretired : t.retired = true
  · rw [if_pos hretired]
    exact h
  · rw [if_neg hretired]
    have hnoted : Sound before { t with cancelled := true } := h.of_eq rfl rfl rfl fun h => h
    by_cases hadopted : t.state = some .adopted
    · simp only [if_pos hadopted]
      exact finish_sound faults false hnoted (idle_of_stream_none (h.adopted hadopted).stream)
    · simp only [if_neg hadopted]
      exact hnoted

end

end PrefixTransfer

end Prefix
end Ayaka
