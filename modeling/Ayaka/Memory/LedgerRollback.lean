import Ayaka.Foundation.Mirror
import Ayaka.Memory.LedgerRuns

/-!
# Rolling back

Rolling an operation back is as good as never having booked it.  While the
operation is open, a call of anyone else that returns would have returned the same
without it, and would have led to the same books without it; so what is left when
the operation is rolled back is what the other calls alone would have left.
-/

namespace Ayaka
namespace Ledger

open Foundation
open Executor (Failure reject isBlank)

namespace MemoryLedger

open Dict
open EStateM (Result)
open MemoryLedger (book finishTicket new rewrite step)

variable {s : MemoryLedger} {op : PendingOp}

/-! ## Books with an open operation, and without it -/

/-- An operation is open: booked, its label claimed and its source locked. -/
structure Open (op : PendingOp) (s : MemoryLedger) : Prop where
  found : s.pending.get? op.ticket.ticketId = some op
  issued : op.ticket.ticketId < s.nextId
  claimed : s.claimedLabels.get? op.destination.label = some op.ticket.ticketId
  locked : forall label, op.sourceLabel = some label ->
    s.lockedSources.get? label = some op.ticket.ticketId

theorem Balanced.opened (h : Balanced s) (hop : s.pending.get? op.ticket.ticketId = some op) :
    Open op s where
  found := hop
  issued := (h.issued _ op hop).2
  claimed := (h.claimed op.destination.label op.ticket.ticketId).mpr ⟨op, hop, rfl⟩
  locked := fun label hlabel => (h.locked label op.ticket.ticketId).mpr ⟨op, hop, hlabel⟩

structure Without (op : PendingOp) (s t : MemoryLedger) : Prop where
  found : s.pending.get? op.ticket.ticketId = some op
  rest : t = s.finishTicket op

/-! ### Checks that pass with it pass without it -/

theorem checkCapacity_without (h : s.checkCapacity r excluding excludingPending = .ok u) :
    (s.finishTicket op).checkCapacity r excluding excludingPending = .ok u := by
  rcases checkCapacity_eq_ok_iff.mp h with ⟨found, hfound, hle⟩
  apply checkCapacity_eq_ok_iff.mpr
  refine ⟨found, hfound, Nat.le_trans ?_ hle⟩
  apply Nat.add_le_add_right
  apply Nat.add_le_add_left
  exact sumBy_erase_le s.pending op.ticket.ticketId _

variable {ticket : Ticket}

theorem requireTicket_without (hne : ticket.ticketId ≠ op.ticket.ticketId)
    (h : s.requireTicket ticket = .ok found) :
    (s.finishTicket op).requireTicket ticket = .ok found := by
  have hfound := requireTicket_eq_ok_iff.mp h
  apply requireTicket_eq_ok_iff.mpr
  rw [get?_finishTicket, if_neg hne]
  exact hfound

variable {label : String}

theorem requireUnlocked_without (h : s.requireUnlocked label = .ok u) :
    (s.finishTicket op).requireUnlocked label = .ok u := by
  have hnone := requireUnlocked_eq_ok_iff.mp h
  apply requireUnlocked_eq_ok_iff.mpr
  unfold finishTicket
  cases op.sourceLabel with
  | none => exact hnone
  | some own =>
    show (s.lockedSources.erase own).get? label = none
    rw [get?_erase, hnone, ite_self]

theorem checkLabel_without (h : s.checkLabel label sourceLabel = .ok u) :
    (s.finishTicket op).checkLabel label sourceLabel = .ok u := by
  have hlabel := checkLabel_eq_ok_iff.mp h
  apply checkLabel_eq_ok_iff.mpr
  refine ⟨?_, hlabel.2⟩
  show (s.claimedLabels.erase op.destination.label).get? label = none
  rw [get?_erase, hlabel.1, ite_self]

/-! ### Changes to the rest -/

variable {other : PendingOp}

/-- An operation with an id, a label and a source of its own. -/
theorem book_without (hop : Open op s) (hother : Bookable s other) :
    Without op (s.book other) ((s.finishTicket op).book other) := by
  have hid : other.ticket.ticketId ≠ op.ticket.ticketId := by
    intro heq
    have hunused := hother.unused
    rw [heq, hop.found] at hunused
    cases hunused
  have hlabel : other.destination.label ≠ op.destination.label := by
    intro heq
    have hunclaimed := hother.unclaimed
    rw [heq, hop.claimed] at hunclaimed
    cases hunclaimed
  have hlocks : (other.sourceLabel.elim (s.finishTicket op).lockedSources fun label =>
        (s.finishTicket op).lockedSources.set label other.ticket.ticketId)
      = op.sourceLabel.elim (s.book other).lockedSources fun label =>
        (s.book other).lockedSources.erase label := by
    unfold book finishTicket
    cases hsource : other.sourceLabel with
    | none => rfl
    | some label =>
      cases hown : op.sourceLabel with
      | none => rfl
      | some own =>
        have hne : label ≠ own := by
          intro heq
          have hunlocked := (hother.source label hsource).1
          rw [heq, hop.locked own hown] at hunlocked
          cases hunlocked
        exact (erase_set_of_ne s.lockedSources hne other.ticket.ticketId).symm
  refine ⟨?_, ?_⟩
  · rw [get?_book, if_neg hid.symm]
    exact hop.found
  unfold book finishTicket at hlocks ⊢
  rw [hlocks]
  simp only [erase_set_of_ne _ hid, erase_set_of_ne _ hlabel]

section

variable (hfound : s.pending.get? op.ticket.ticketId = some op)
variable (hid : other.ticket.ticketId ≠ op.ticket.ticketId)
include hfound hid

theorem rewrite_without : Without op (s.rewrite other) ((s.finishTicket op).rewrite other) := by
  refine ⟨?_, ?_⟩
  · rw [get?_rewrite, if_neg hid.symm]
    exact hfound
  unfold rewrite finishTicket
  simp only [erase_set_of_ne _ hid]

theorem finishTicket_without :
    Without op (s.finishTicket other) ((s.finishTicket op).finishTicket other) := by
  have hlocks : (other.sourceLabel.elim (s.finishTicket op).lockedSources fun label =>
        (s.finishTicket op).lockedSources.erase label)
      = op.sourceLabel.elim (s.finishTicket other).lockedSources fun label =>
        (s.finishTicket other).lockedSources.erase label := by
    unfold finishTicket
    cases other.sourceLabel with
    | none => rfl
    | some label =>
      cases op.sourceLabel with
      | none => rfl
      | some own => exact erase_comm s.lockedSources own label
  refine ⟨?_, ?_⟩
  · rw [get?_finishTicket, if_neg hid.symm]
    exact hfound
  unfold finishTicket at hlocks ⊢
  rw [hlocks]
  simp only [erase_comm s.pending op.ticket.ticketId,
    erase_comm s.claimedLabels op.destination.label]

end

/-! ## Calls -/

/-- A call that returns with the operation open returns without it. -/
abbrev Unaffected {alpha : Type} (op : PendingOp) (x : LedgerM alpha) (s : MemoryLedger) : Prop :=
  Mirrors (fun _ => Without op) x x s (s.finishTicket op)

theorem Open.drawId (hop : Open op s) : Open op s.drawId :=
  { hop with issued := Nat.lt_succ_of_lt hop.issued }

theorem mirrors_reserve (h : Balanced s) (hop : Open op s) (r : Reservation) :
    Mirrors (fun ticket s' t' => ticket.ticketId ≠ op.ticket.ticketId ∧ Without op s' t')
      (reserve r) (reserve r) s (s.finishTicket op) := by
  apply mirrors_query_bind
  intro _ haccount
  refine ⟨haccount, ?_⟩
  apply mirrors_query_bind
  intro _ hcapacity
  refine ⟨checkCapacity_without hcapacity, ?_⟩
  apply mirrors_get_bind
  apply mirrors_modify_bind
  apply mirrors_query_bind
  intro _ hlabel
  refine ⟨checkLabel_without hlabel, ?_⟩
  have hbook := bookable_reservedOp h haccount hcapacity hlabel
  apply mirrors_modify_bind
  apply mirrors_pure
  exact ⟨(Nat.ne_of_lt hop.issued).symm, book_without hop.drawId hbook⟩

variable (hfound : s.pending.get? op.ticket.ticketId = some op)

include hfound

section

variable (hne : ticket.ticketId ≠ op.ticket.ticketId)
include hne

theorem unaffected_materialize (actualBytes : Int) (region : Option MemoryRegion) :
    Unaffected op (materialize ticket actualBytes region) s := by
  unfold Unaffected materialize
  by_cases hbytes : actualBytes < 0
  · rw [if_pos hbytes]
    exact mirrors_throw _ _
  rw [if_neg hbytes]
  apply mirrors_query_bind
  intro own hown
  refine ⟨requireTicket_without hne hown, ?_⟩
  by_cases hmaterialized : own.materialized = true
  · rw [if_pos hmaterialized]
    exact mirrors_throw _ _
  rw [if_neg hmaterialized]
  apply mirrors_query_bind
  intro _ hupdated
  refine ⟨hupdated, ?_⟩
  apply mirrors_query_bind
  intro _ hcapacity
  refine ⟨checkCapacity_without hcapacity, ?_⟩
  apply mirrors_modify
  rw [<- (requireTicket_eq_ok_iff.mp hown).2] at hne
  exact rewrite_without hfound hne

theorem unaffected_commit : Unaffected op (commit ticket) s := by
  apply mirrors_query_bind
  intro own hown
  refine ⟨requireTicket_without hne hown, ?_⟩
  by_cases hmaterialized : own.materialized = false
  · rw [if_pos hmaterialized]
    exact mirrors_throw _ _
  rw [if_neg hmaterialized]
  apply mirrors_query_bind
  intro _ hsource
  refine ⟨hsource, ?_⟩
  apply mirrors_modify_bind
  apply mirrors_modify
  rw [<- (requireTicket_eq_ok_iff.mp hown).2] at hne
  exact finishTicket_without (s := s.publish own) hfound hne

theorem unaffected_rollback : Unaffected op (rollback ticket) s := by
  apply mirrors_query_bind
  intro _ hown
  refine ⟨requireTicket_without hne hown, ?_⟩
  apply mirrors_modify
  rw [<- (requireTicket_eq_ok_iff.mp hown).2] at hne
  exact finishTicket_without hfound hne

end

theorem unaffected_release (label : String) : Unaffected op (release label) s := by
  apply mirrors_query_bind
  intro _ hunlocked
  refine ⟨requireUnlocked_without hunlocked, ?_⟩
  apply mirrors_get_bind
  apply mirrors_modify_bind
  exact mirrors_pure ⟨hfound, rfl⟩

omit hfound in
theorem planTransfer_without (h : s.planTransfer label toTier newLabel = .ok plan) :
    (s.finishTicket op).planTransfer label toTier newLabel = .ok plan := by
  unfold planTransfer at h ⊢
  simp only [except_bind_eq_ok_iff] at h ⊢
  rcases h with
    ⟨current, hentry, _, htier, _, hunlocked, _, haccount, destination, hnew, _, hcapacity, hplan⟩
  exact ⟨current, hentry, _, htier, _, requireUnlocked_without hunlocked, _, haccount, destination,
    hnew, _, checkCapacity_without hcapacity, hplan⟩

omit hfound in
theorem unaffected_transfer (h : Balanced s) (hop : Open op s) (label : String)
    (toTier : MemoryTier) (newLabel : Option String) :
    Unaffected op (transfer label toTier newLabel) s := by
  apply mirrors_query_bind
  intro _ hplan
  refine ⟨planTransfer_without hplan, ?_⟩
  apply mirrors_get_bind
  apply mirrors_modify_bind
  apply mirrors_query_bind
  intro _ hlabel
  refine ⟨checkLabel_without hlabel, ?_⟩
  rcases planTransfer_eq_ok hplan with ⟨hplan, htier⟩
  have hbook := bookable_transferOp h hplan hlabel
  apply mirrors_modify_bind
  apply mirrors_pure
  rw [<- htier]
  exact book_without hop.drawId hbook

theorem unaffected_update (label : String) (backedBytes : Int)
    (reservedBytes chargedBytes : Option Int) :
    Unaffected op (update label backedBytes reservedBytes chargedBytes) s := by
  apply mirrors_query_bind
  intro _ hunlocked
  refine ⟨requireUnlocked_without hunlocked, ?_⟩
  apply mirrors_query_bind
  intro _ hcurrent
  refine ⟨hcurrent, ?_⟩
  apply mirrors_query_bind
  intro _ hupdated
  refine ⟨hupdated, ?_⟩
  apply mirrors_query_bind
  intro _ hcapacity
  refine ⟨checkCapacity_without hcapacity, ?_⟩
  exact mirrors_modify ⟨hfound, rfl⟩

theorem unaffected_dropEntries (labels : List (String × Reservation)) :
    Unaffected op (labels.forM fun entry => (modify (dropEntry entry.1) : LedgerM Unit)) s := by
  induction labels generalizing s with
  | nil => exact mirrors_pure ⟨hfound, rfl⟩
  | cons entry rest ih =>
    show Mirrors _ (modify (dropEntry entry.1) >>= fun _ => rest.forM _)
      (modify (dropEntry entry.1) >>= fun _ => rest.forM _) _ _
    apply mirrors_modify_bind
    exact ih (s := s.dropEntry entry.1) hfound

theorem unaffected_releaseOwner (owner : MemoryOwner) (tier : Option MemoryTier) :
    Unaffected op (releaseOwner owner tier) s := by
  apply mirrors_get_bind
  by_cases hwaiting : (s.pending.values.filter (fun op => ownedBy owner tier op.destination)).map
      (fun op => op.ticket.ticketId) = []
  · have hwithout : ((s.finishTicket op).pending.values.filter
        (fun op => ownedBy owner tier op.destination)).map (fun op => op.ticket.ticketId) = [] := by
      have hnil := List.map_eq_nil_iff.mp hwaiting
      apply List.map_eq_nil_iff.mpr
      apply List.filter_eq_nil_iff.mpr
      intro _ hother
      apply List.filter_eq_nil_iff.mp hnil
      rcases List.mem_map.mp hother with ⟨entry, hentry, rfl⟩
      exact List.mem_map.mpr ⟨entry, List.mem_of_mem_filter hentry, rfl⟩
    rw [if_neg (not_not.mpr hwaiting), if_neg (not_not.mpr hwithout)]
    apply mirrors_query_bind
    intro _ hunlocked
    refine ⟨?_, ?_⟩
    · apply forM_eq_ok_iff.mpr
      intro entry hentry
      exact requireUnlocked_without (forM_eq_ok_iff.mp hunlocked entry hentry)
    · apply mirrors_bind (unaffected_dropEntries hfound _)
      intro _ _ _ hwithout
      exact mirrors_pure hwithout
  · rw [if_pos hwaiting]
    exact mirrors_throw _ _

omit hfound

variable {s' : MemoryLedger}

/-- The handler of `admit` always raises. -/
theorem abandon_ne_ok : abandon ticket exc s ≠ .ok u s' := by
  have hraises : Wp (abandon ticket exc) (fun _ _ => False) (fun _ _ => True) s := by
    unfold abandon
    refine wp_if (fun _ => ?_) fun _ => trivial
    rw [wp_bind]
    exact wp_any (fun _ _ => trivial) fun _ _ => trivial
  intro hreturned
  exact wp_run_ok hreturned hraises

theorem unaffected_admitReservation (h : Balanced s) (hop : Open op s) (r : Reservation) :
    Unaffected op (admitReservation r) s := by
  apply mirrors_bind (mirrors_reserve h hop r)
  intro _ _ _ hreserved
  rcases hreserved with ⟨hne, hwithout⟩
  rw [hwithout.rest]
  apply mirrors_tryCatch
  · apply mirrors_bind (unaffected_materialize hwithout.found hne _ _)
    intro _ s'' _ hwithout
    rw [hwithout.rest]
    exact unaffected_commit hwithout.found hne
  · intro _ s'' _ _ hreturned
    exact abandon_ne_ok hreturned

/-! ## Steps and histories -/

def LedgerStep.ticket? : LedgerStep -> Option Ticket
  | .materialize ticket _ _ => some ticket
  | .commit ticket => some ticket
  | .rollback ticket => some ticket
  | _ => none

/-- A ticket other than the operation's that is open has an id of its own. -/
theorem ticketId_ne (hfound : s.pending.get? op.ticket.ticketId = some op)
    (hne : ticket ≠ op.ticket) (hother : s.pending.get? other.ticket.ticketId = some other)
    (hticket : other.ticket = ticket) : ticket.ticketId ≠ op.ticket.ticketId := by
  intro heq
  rw [hticket, heq, hfound] at hother
  rw [<- Option.some.inj hother] at hticket
  exact hne hticket.symm

variable {call : LedgerStep}

/-- A call about something else that returns with the operation open returns without
it. -/
theorem unaffected_perform (h : Balanced s) (hfound : s.pending.get? op.ticket.ticketId = some op)
    (hcall : call.ticket? ≠ some op.ticket) : Unaffected op (perform call) s := by
  have hop := h.opened hfound
  cases call with
  | reserve r =>
    apply mirrors_bind (mirrors_reserve h hop r)
    intro _ s' t' hreserved
    exact mirrors_pure hreserved.2
  | materialize ticket actualBytes region =>
    intro u s' hrun
    rcases wp_run_ok hrun (wp_materialize ticket actualBytes region) with
      ⟨other, next, hticket, hrewrites, _⟩
    have hid := ticketId_ne hfound (fun heq => hcall (congrArg some heq)) hrewrites.found hticket
    exact unaffected_materialize hfound hid actualBytes region u s' hrun
  | commit ticket =>
    intro u s' hrun
    rcases wp_run_ok hrun (wp_commit ticket) with ⟨other, hticket, hother, _⟩
    rw [<- hticket] at hother
    have hid := ticketId_ne hfound (fun heq => hcall (congrArg some heq)) hother hticket
    exact unaffected_commit hfound hid u s' hrun
  | rollback ticket =>
    intro u s' hrun
    rcases wp_run_ok hrun (wp_rollback ticket) with ⟨other, hticket, hother, _⟩
    rw [<- hticket] at hother
    have hid := ticketId_ne hfound (fun heq => hcall (congrArg some heq)) hother hticket
    exact unaffected_rollback hfound hid u s' hrun
  | transfer label toTier newLabel =>
    apply mirrors_bind (unaffected_transfer h hop label toTier newLabel)
    intro _ s' t' hwithout
    exact mirrors_pure hwithout
  | release label =>
    apply mirrors_bind (unaffected_release hfound label)
    intro _ s' t' hwithout
    exact mirrors_pure hwithout
  | update label backedBytes reservedBytes chargedBytes =>
    exact unaffected_update hfound label backedBytes reservedBytes chargedBytes
  | releaseOwner owner tier =>
    apply mirrors_bind (unaffected_releaseOwner hfound owner tier)
    intro _ s' t' hwithout
    exact mirrors_pure hwithout
  | admits r => exact unaffected_admitReservation h hop r

/-- The same operation, perhaps with its bytes materialized. -/
structure Continues (op op' : PendingOp) : Prop where
  ticket : op'.ticket = op.ticket
  label : op'.destination.label = op.destination.label
  tier : op'.destination.tier = op.destination.tier
  sourceLabel : op'.sourceLabel = op.sourceLabel
  sourceSnapshot : op'.sourceSnapshot = op.sourceSnapshot

theorem Continues.refl (op : PendingOp) : Continues op op :=
  ⟨rfl, rfl, rfl, rfl, rfl⟩

/-- What a step can do to an open operation: nothing but materialize it, unless it
commits it or rolls it back. -/
inductive Fate (op : PendingOp) (s : MemoryLedger) (call : LedgerStep) (s' : MemoryLedger) : Prop
  | goesOn (op' : PendingOp) (hop' : s'.pending.get? op.ticket.ticketId = some op')
      (hsame : Continues op op')
  | commits (hcall : call = .commit op.ticket)
      (hs' : s' = (s.publish op).finishTicket op)
  | rollsBack (hcall : call = .rollback op.ticket) (hs' : s' = s.finishTicket op)

theorem fate_of_own (hfound : s.pending.get? op.ticket.ticketId = some op)
    (hcall : call.ticket? = some op.ticket) (hrun : perform call s = .ok u s') :
    Fate op s call s' := by
  have hown : forall {other : PendingOp}, s.pending.get? other.ticket.ticketId = some other ->
      other.ticket = op.ticket -> other = op := by
    intro other hother hticket
    rw [hticket, hfound] at hother
    exact (Option.some.inj hother).symm
  cases call with
  | materialize ticket actualBytes region =>
    rcases wp_run_ok hrun (wp_materialize ticket actualBytes region) with
      ⟨other, next, hticket, hrewrites, _, hs'⟩
    have hsame := hown hrewrites.found (hticket.trans (Option.some.inj hcall))
    rw [hsame] at hrewrites
    apply Fate.goesOn next
    · rw [hs', get?_rewrite, hrewrites.ticket, if_pos rfl]
    · exact ⟨hrewrites.ticket, hrewrites.label, hrewrites.tier, hrewrites.sourceLabel,
        hrewrites.sourceSnapshot⟩
  | commit ticket =>
    rcases wp_run_ok hrun (wp_commit ticket) with ⟨other, hticket, hother, hs'⟩
    rw [<- hticket] at hother
    have hsame := hown hother (hticket.trans (Option.some.inj hcall))
    rw [hsame] at hs'
    exact Fate.commits (congrArg LedgerStep.commit (Option.some.inj hcall)) hs'
  | rollback ticket =>
    rcases wp_run_ok hrun (wp_rollback ticket) with ⟨other, hticket, hother, hs'⟩
    rw [<- hticket] at hother
    have hsame := hown hother (hticket.trans (Option.some.inj hcall))
    rw [hsame] at hs'
    exact Fate.rollsBack (congrArg LedgerStep.rollback (Option.some.inj hcall)) hs'
  | _ => cases hcall

theorem step_fate (h : Balanced s) (hfound : s.pending.get? op.ticket.ticketId = some op)
    (call : LedgerStep) : Fate op s call (step s call) := by
  unfold step
  cases hrun : perform call s with
  | error e s' =>
    apply Fate.goesOn op _ (Continues.refl op)
    cases (wp_run_error hrun (wp_perform h call)).sameBooks with
    | inl heq =>
      rw [heq]
      exact hfound
    | inr heq =>
      rw [heq]
      exact hfound
  | ok u s' =>
    by_cases hown : call.ticket? = some op.ticket
    · exact fate_of_own hfound hown hrun
    · rcases unaffected_perform h hfound hown u s' hrun with ⟨_, _, hwithout⟩
      exact .goesOn op hwithout.found (Continues.refl op)

/-- What the returned calls of a history that are not about one ticket lead to on
other books; the calls that raised are left out, but not the ids they drew. -/
def beside (ticket : Ticket) :
    MemoryLedger -> MemoryLedger -> List LedgerStep -> Option MemoryLedger
  | _, t, [] => some t
  | s, t, call :: rest =>
    match perform call s with
    | .error _ s' => beside ticket s' { t with nextId := s'.nextId } rest
    | .ok _ s' =>
      if call.ticket? = some ticket then
        beside ticket s' t rest
      else
        match perform call t with
        | .ok _ t' => beside ticket s' t' rest
        | .error _ _ => none

/-- The call neither commits the ticket nor rolls it back. -/
def LedgerStep.spares (ticket : Ticket) (call : LedgerStep) : Prop :=
  call ≠ .commit ticket ∧ call ≠ .rollback ticket

theorem sameBooks_without (h : SameBooks s s') :
    { s.finishTicket op with nextId := s'.nextId } = s'.finishTicket op := by
  cases h with
  | inl heq =>
    rw [heq]
    rfl
  | inr heq =>
    rw [heq]
    rfl

/-- Of the calls about a ticket only `materialize` spares it, and what it changes goes
with the operation. -/
theorem own_goesOn (hfound : s.pending.get? op.ticket.ticketId = some op)
    (hcall : call.ticket? = some op.ticket) (hspares : call.spares op.ticket)
    (hrun : perform call s = .ok u s') :
    exists next, next.ticket = op.ticket ∧ s'.pending.get? next.ticket.ticketId = some next
      ∧ s'.finishTicket next = s.finishTicket op := by
  cases call with
  | materialize ticket actualBytes region =>
    rcases wp_run_ok hrun (wp_materialize ticket actualBytes region) with
      ⟨other, next, hticket, hrewrites, _, hs'⟩
    have hsame : other = op := by
      have hother := hrewrites.found
      rw [hticket, Option.some.inj hcall, hfound] at hother
      exact (Option.some.inj hother).symm
    rw [hsame] at hrewrites
    refine ⟨next, hrewrites.ticket, ?_, ?_⟩
    · rw [hs', get?_rewrite, if_pos rfl]
    · rw [hs']
      exact finishTicket_rewrite hrewrites
  | commit ticket => exact absurd (congrArg LedgerStep.commit (Option.some.inj hcall)) hspares.1
  | rollback ticket =>
    exact absurd (congrArg LedgerStep.rollback (Option.some.inj hcall)) hspares.2
  | _ => cases hcall

/-- The calls of a history that spare an open operation would have led, without it,
to the books without it. -/
theorem beside_eq (h : Balanced s) (hfound : s.pending.get? op.ticket.ticketId = some op)
    (hcalls : forall call, call ∈ calls -> call.spares op.ticket) :
    exists op', (run s calls).pending.get? op.ticket.ticketId = some op' ∧ op'.ticket = op.ticket
      ∧ beside op.ticket s (s.finishTicket op) calls = some ((run s calls).finishTicket op') := by
  induction calls generalizing s op with
  | nil => exact ⟨op, hfound, rfl, rfl⟩
  | cons call rest ih =>
    have hspares := hcalls call List.mem_cons_self
    have hrest := fun other hother => hcalls other (List.mem_cons_of_mem _ hother)
    have hnext := (h.step call).1
    have hfate := step_fate h hfound call
    have hunfold : run s (call :: rest) = run (step s call) rest := rfl
    rw [hunfold]
    unfold step at hnext hfate ⊢
    unfold beside
    cases hrun : perform call s with
    | error e s' =>
      have hsame := (wp_run_error hrun (wp_perform h call)).sameBooks
      have hopen : s'.pending.get? op.ticket.ticketId = some op := by
        cases hsame with
        | inl heq =>
          rw [heq]
          exact hfound
        | inr heq =>
          rw [heq]
          exact hfound
      rw [hrun] at hnext
      dsimp only [finalState]
      rw [sameBooks_without hsame]
      exact ih hnext hopen hrest
    | ok u s' =>
      rw [hrun] at hnext hfate
      dsimp only [finalState] at hnext hfate ⊢
      by_cases hown : call.ticket? = some op.ticket
      · rw [if_pos hown]
        rcases own_goesOn hfound hown hspares hrun with ⟨next, hticket, hopen, hclosed⟩
        rw [<- hticket] at hrest ⊢
        rw [<- hclosed]
        exact ih hnext hopen hrest
      · rw [if_neg hown]
        rcases unaffected_perform h hfound hown u s' hrun with ⟨_, hmirror, hwithout⟩
        rw [hmirror]
        rw [hwithout.rest]
        exact ih hnext hwithout.found hrest

/-! ## Every history -/

inductive Opening where
  | reserve (r : Reservation)
  | transfer (label : String) (toTier : MemoryTier) (newLabel : Option String)

def Opening.start : Opening -> LedgerM Ticket
  | .reserve r => MemoryLedger.reserve r
  | .transfer label toTier newLabel => MemoryLedger.transfer label toTier newLabel

section

variable (h : Balanced s) {opening : Opening} (hrun : opening.start s = Result.ok ticket s')
include h hrun

theorem start_booked :
    exists op, op.ticket = ticket ∧ Bookable s.drawId op ∧ s' = s.drawId.book op := by
  cases opening with
  | reserve r =>
    rcases wp_run_ok hrun (wp_reserve h r) with ⟨hticket, hs', hbook⟩
    exact ⟨reservedOp s r, hticket.symm, hbook, hs'⟩
  | transfer label toTier newLabel =>
    rcases wp_run_ok hrun (wp_transfer h label toTier newLabel) with
      ⟨current, destination, hticket, hs', hbook⟩
    exact ⟨transferOp s label current destination, hticket.symm, hbook, hs'⟩

/-- An operation opened, left alone by the calls that follow, and rolled back: the
books are those the other calls alone lead to. -/
theorem rollback_beside (hcalls : forall call, call ∈ calls -> call.spares ticket) :
    exists last, rollback ticket (run s' calls) = .ok () last
      ∧ beside ticket s' s.drawId calls = some last := by
  rcases start_booked h hrun with ⟨op, hticket, hbook, hs'⟩
  have hbalanced : Balanced s' := by
    rw [hs']
    exact h.drawId.book hbook
  have hfound : s'.pending.get? op.ticket.ticketId = some op := by
    rw [hs', get?_book, if_pos rfl]
  have hclosed : s'.finishTicket op = s.drawId := by
    rw [hs']
    exact finishTicket_book hbook
  rw [<- hticket] at hcalls ⊢
  rcases beside_eq hbalanced hfound hcalls with ⟨op', hopen, hsame, hbeside⟩
  rw [hclosed] at hbeside
  refine ⟨(run s' calls).finishTicket op', ?_, hbeside⟩
  have hrequire := requireTicket_eq_ok_iff.mpr ⟨hopen, hsame⟩
  unfold rollback
  rw [query_bind_run, hrequire]
  rfl

end

/-- Both tiers account for what an open transfer moves, and a call that closes it
leaves the entry on one of them. -/
structure TransferHeld (s : MemoryLedger) (op : PendingOp) (label : String)
    (entry : Reservation) : Prop where
  found : s.entries.get? label = some entry
  leaves : op.ticket.fromTier = some entry.tier
  moves : entry.tier ≠ op.destination.tier
  source_counted : entry.chargedBytes ≤ s.committed entry.tier
  destination_counted : op.destination.chargedBytes ≤ s.pendingCharge op.destination.tier
  closes : forall call, (step s call).pending.get? op.ticket.ticketId = none ->
    (call = .commit op.ticket
        ∧ (step s call).entries.get? op.destination.label = some op.destination)
      ∨ (call = .rollback op.ticket ∧ (step s call).entries = s.entries)

theorem Balanced.transferHeld (h : Balanced s)
    (hfound : s.pending.get? op.ticket.ticketId = some op) (hlabel : op.sourceLabel = some label) :
    exists entry, TransferHeld s op label entry := by
  rcases h.source op.ticket.ticketId op label hfound hlabel with ⟨entry, hentry, _, hfrom, hmoves⟩
  have hcharge : forall r : Reservation, chargeOn r.tier r = r.chargedBytes := fun r => if_pos rfl
  refine ⟨entry, hentry, hfrom, hmoves, ?_, ?_, ?_⟩
  · unfold committed
    rw [sumBy_of_get? hentry, hcharge]
    exact Nat.le_add_left _ _
  · unfold pendingCharge
    rw [sumBy_of_get? hfound, hcharge]
    exact Nat.le_add_left _ _
  · intro call hclosed
    cases step_fate h hfound call with
    | goesOn op' hop' _ =>
      rw [hop'] at hclosed
      cases hclosed
    | commits hcall hs' =>
      refine .inl ⟨hcall, ?_⟩
      rw [hs']
      exact get?_set_self _ _ _
    | rollsBack hcall hs' =>
      refine .inr ⟨hcall, ?_⟩
      rw [hs']
      rfl

/-- What holds of the books at any time, whatever was called. -/
structure KeepsBooks (accounts : Dict MemoryTier TierAccount) (s : MemoryLedger) : Prop where
  capacity : forall tier account, accounts.get? tier = some account ->
    s.held tier ≤ account.capacityBytes
  elsewhere : forall tier, accounts.get? tier = none -> s.held tier = 0
  within : s.assertWithinCapacity = .ok ()
  named : forall label r, s.entries.get? label = some r -> r.label = label
  claimed_once : forall id id' op op', s.pending.get? id = some op ->
    s.pending.get? id' = some op' ->
    op.destination.label = op'.destination.label -> id = id'
  /-- Only a transfer that keeps its label claims the label of an entry: its source. -/
  claimed_apart : forall id op r, s.pending.get? id = some op ->
    s.entries.get? op.destination.label = some r -> op.sourceLabel = some op.destination.label
  raised : forall call e s', perform call s = .error e s' -> Unchanged call s s'
  undone : forall (opening : Opening) ticket s', opening.start s = .ok ticket s' ->
    forall calls : List LedgerStep, (forall call, call ∈ calls -> call.spares ticket) ->
      exists last, rollback ticket (run s' calls) = .ok () last
        ∧ beside ticket s' s.drawId calls = some last
  moved : forall id op label, s.pending.get? id = some op -> op.sourceLabel = some label ->
    exists entry, TransferHeld s op label entry

theorem Balanced.assertWithinCapacity (h : Balanced s) : s.assertWithinCapacity = .ok () := by
  apply forM_eq_ok_iff.mpr
  intro entry hentry
  apply Executor.reject_eq_ok_iff.mpr
  apply Nat.not_lt.mpr
  exact h.capacity entry.1 entry.2 (get?_eq_some_iff.mpr hentry)

theorem Balanced.keepsBooks (h : Balanced s) : KeepsBooks s.accounts s where
  __ := h
  elsewhere := fun tier hnone => held_eq_zero h (by
    unfold Dict.contains
    rw [hnone]
    rfl)
  within := h.assertWithinCapacity
  claimed_once := fun id id' op op' hop hop' hlabel => by
    have hfirst := (h.claimed op.destination.label id).mpr ⟨op, hop, rfl⟩
    have hsecond := (h.claimed op.destination.label id').mpr ⟨op', hop', congrArg some hlabel.symm⟩
    exact Option.some.inj (hfirst.symm.trans hsecond)
  claimed_apart := h.fresh
  raised := fun call e s' hrun => by
    have hraised := wp_run_error hrun (wp_perform h call)
    exact hraised
  undone := fun opening ticket s' hrun calls hcalls => rollback_beside h hrun hcalls
  moved := fun id op label hop hlabel => by
    rw [<- (h.issued id op hop).1] at hop
    exact h.transferHeld hop hlabel

theorem balanced_new {accounts} {deviceIndex : Int}
    (hnew : new accounts deviceIndex = .ok s) : Balanced s := by
  unfold new at hnew
  simp only [except_bind_eq_ok_iff] at hnew
  rcases hnew with ⟨_, _, _, _, hs⟩
  rw [<- Except.ok.inj hs]
  exact
    { named := fun _ _ h => by cases h
      entry_tier := fun _ _ h => by cases h
      op_tier := fun _ _ h => by cases h
      capacity := fun _ _ _ => Nat.zero_le _
      issued := fun _ _ h => by cases h
      claimed := Dict.Indexes.empty _
      fresh := fun _ _ _ h => by cases h
      locked := Dict.Indexes.empty _
      source := fun _ _ _ h => by cases h }

theorem run_keepsBooks {accounts : List TierAccount} {deviceIndex : Int} {s : MemoryLedger}
    (hnew : new accounts deviceIndex = Except.ok s) (calls : List LedgerStep) :
    KeepsBooks s.accounts (run s calls) := by
  have hrun := (balanced_new hnew).run calls
  rw [<- hrun.2]
  exact hrun.1.keepsBooks

/-! ### A duplicate label -/

def deviceAccount : TierAccount where
  tier := .device
  capacityBytes := 64
  allocatable := rfl
  capacity_le := fun h => absurd rfl h

def pagesClaim : Reservation where
  owner := .kv
  label := "pages"
  reservedBytes := 16
  backedBytes := 16
  tier := .device
  deviceIndex := 0
  region := none
  chargedBytes := 16
  label_text := by decide
  backed_le := Nat.le_refl _
  charged_le := Nat.le_refl _
  allocatable := rfl
  region_fits := fun _ h => nomatch h

def hostAccount : TierAccount where
  tier := .hostPageable
  capacityBytes := 16
  allocatable := rfl
  capacity_le := fun h => absurd rfl h

def movingPages : List LedgerStep :=
  [.admits pagesClaim, .transfer "pages" .hostPageable none]

def movingTicket : Ticket where
  object := 2
  ticketId := 2
  label := "pages"
  tier := .hostPageable
  fromTier := some .device

/-- Both tiers account for the pages until the transfer is rolled back. -/
theorem run_keepsBooks_pages :
    exists s, new [deviceAccount, hostAccount] = Except.ok s
      ∧ (KeepsBooks s.accounts (run s movingPages)
        ∧ (run s movingPages).held .device = 16 ∧ (run s movingPages).held .hostPageable = 16)
      ∧ KeepsBooks s.accounts (run s (movingPages ++ [LedgerStep.rollback movingTicket]))
        ∧ (run s (movingPages ++ [LedgerStep.rollback movingTicket])).held .device = 16
        ∧ (run s (movingPages ++ [LedgerStep.rollback movingTicket])).held .hostPageable = 0 := by
  have hnew : new [deviceAccount, hostAccount] = Except.ok _ := rfl
  refine ⟨_, hnew, ⟨run_keepsBooks hnew _, ?_⟩, run_keepsBooks hnew _, ?_⟩
  · decide +kernel
  · decide +kernel

/-- The label is checked after the id is drawn, so that a refused reservation has
used up an id. -/
theorem refused_reserve_uses_id :
    exists s e s', new [deviceAccount] = Except.ok s
      ∧ perform (LedgerStep.reserve pagesClaim) (run s [LedgerStep.admits pagesClaim])
        = Result.error e s'
      ∧ s' ≠ run s [LedgerStep.admits pagesClaim] := by
  refine ⟨_, _, _, rfl, rfl, ?_⟩
  intro heq
  exact absurd (congrArg MemoryLedger.nextId heq) (by decide)

end MemoryLedger

end Ledger
end Ayaka
