import Ayaka.Memory.LedgerInvariant

/-!
# Histories of the ledger

A call that raises leaves the books alone; a call that returns makes a few of the
changes below, each of which keeps the books balanced.  Rolling an operation back
is as good as never having booked it: whatever was done meanwhile would have led
to the same books without it.
-/

namespace Ayaka
namespace Ledger

open Foundation
open Executor (Failure reject isBlank)

namespace MemoryLedger

variable {s : MemoryLedger}

/-! ## What a call does -/

/-- The changes a call may make, where it may make them. -/
inductive Change (s : MemoryLedger) : MemoryLedger -> Prop
  | booked (op : PendingOp) (hop : Bookable s.drawId op) : Change s (s.drawId.book op)
  | rewritten (op next : PendingOp) (hop : Rewrites s op next) : Change s (s.rewrite next)
  | committed (op : PendingOp) (hop : s.pending.get? op.ticket.ticketId = some op) :
      Change s ((s.publish op).finishTicket op)
  | closed (op : PendingOp) (hop : s.pending.get? op.ticket.ticketId = some op) :
      Change s (s.finishTicket op)
  | dropped (label : String) (hlabel : s.lockedSources.get? label = none) :
      Change s (s.dropEntry label)
  | entered (label : String) (r : Reservation) (hr : Enterable s label r) :
      Change s (s.setEntry label r)

variable {s' : MemoryLedger}

theorem Change.balanced (hchange : Change s s') (h : Balanced s) : Balanced s' := by
  cases hchange with
  | booked op hop => exact h.drawId.book hop
  | rewritten op next hop => exact h.rewrite hop
  | committed op hop => exact h.commit hop
  | closed op hop => exact h.finishTicket hop
  | dropped label hlabel => exact h.dropEntry hlabel
  | entered label r hr => exact h.setEntry hr

/-- The books as they were, but that a ticket id may have been drawn. -/
def SameBooks (s s' : MemoryLedger) : Prop :=
  s' = s ∨ s' = s.drawId

theorem SameBooks.refl (s : MemoryLedger) : SameBooks s s :=
  .inl rfl

theorem sameBooks_drawId (s : MemoryLedger) : SameBooks s s.drawId :=
  .inr rfl

theorem SameBooks.balanced (hsame : SameBooks s s') (h : Balanced s) : Balanced s' := by
  cases hsame with
  | inl heq =>
    rw [heq]
    exact h
  | inr heq =>
    rw [heq]
    exact h.drawId

/-! ### One lemma for each verb -/

variable {r : Reservation}

/-- Nothing is left out of the sums when no entry and no ticket is. -/
theorem checkCapacity_held (h : s.checkCapacity r none none = .ok u) :
    forall account, s.accounts.get? r.tier = some account ->
      s.held r.tier + r.chargedBytes ≤ account.capacityBytes := by
  intro account haccount
  rcases checkCapacity_eq_ok_iff.mp h with ⟨found, hfound, hle⟩
  rw [haccount] at hfound
  rw [<- Option.some.inj hfound] at hle
  simpa [held, committed, pendingCharge] using hle

variable {op : PendingOp}

theorem checkCapacity_finishTicket (h : s.checkCapacity r none (some op.ticket.ticketId) = .ok u) :
    forall account, s.accounts.get? r.tier = some account ->
      (s.finishTicket op).held r.tier + r.chargedBytes ≤ account.capacityBytes := by
  intro account haccount
  rcases checkCapacity_eq_ok_iff.mp h with ⟨found, hfound, hle⟩
  rw [haccount] at hfound
  rw [<- Option.some.inj hfound] at hle
  simp only [reduceCtorEq, if_false, Option.some.injEq] at hle
  rw [Dict.sumBy_except] at hle
  exact hle

variable {label : String}

theorem checkCapacity_dropEntry (h : s.checkCapacity r (some label) none = .ok u) :
    forall account, s.accounts.get? r.tier = some account ->
      (s.dropEntry label).held r.tier + r.chargedBytes ≤ account.capacityBytes := by
  intro account haccount
  rcases checkCapacity_eq_ok_iff.mp h with ⟨found, hfound, hle⟩
  rw [haccount] at hfound
  rw [<- Option.some.inj hfound] at hle
  simp only [reduceCtorEq, if_false, Option.some.injEq] at hle
  rw [Dict.sumBy_except] at hle
  exact hle

/-- A drawn id is new. -/
theorem Balanced.unused (h : Balanced s) : s.drawId.pending.get? s.nextId = none := by
  cases hget : s.pending.get? s.nextId with
  | none => exact hget
  | some op => exact absurd (h.issued s.nextId op hget).2 (Nat.lt_irrefl _)

def reservedOp (s : MemoryLedger) (r : Reservation) : PendingOp where
  ticket := { object := s.nextId, ticketId := s.nextId, label := r.label, tier := r.tier }
  destination := r.unbacked

theorem bookable_reservedOp (h : Balanced s)
    (haccount : s.requireAccount r.tier = .ok u) (hcapacity : s.checkCapacity r none none = .ok v)
    (hlabel : s.drawId.checkLabel r.label none = .ok w) : Bookable s.drawId (reservedOp s r) := by
  have hlabel := checkLabel_eq_ok_iff.mp hlabel
  exact
    { unused := h.unused
      issued := Nat.lt_succ_self _
      tier := requireAccount_eq_ok_iff.mp haccount
      fits := checkCapacity_held hcapacity
      unclaimed := hlabel.1
      fresh := fun found hfound => nomatch hlabel.2 found hfound
      source := fun label hsource => nomatch hsource }

theorem wp_reserve (h : Balanced s) (r : Reservation) :
    Wp (reserve r)
      (fun ticket s' => ticket = (reservedOp s r).ticket ∧ s' = s.drawId.book (reservedOp s r)
        ∧ Bookable s.drawId (reservedOp s r))
      (fun _ s' => SameBooks s s') s := by
  refine wp_query_bind (fun _ htier => ?_) fun _ _ => SameBooks.refl s
  refine wp_query_bind (fun _ hcapacity => ?_) fun _ _ => SameBooks.refl s
  refine wp_query_bind (fun _ hlabel => ?_) fun _ _ => sameBooks_drawId s
  exact ⟨rfl, rfl, bookable_reservedOp h htier hcapacity hlabel⟩

theorem wp_materialize (ticket : Ticket) (actualBytes : Int) (region : Option MemoryRegion) :
    Wp (materialize ticket actualBytes region)
      (fun _ s' => exists op next, op.ticket = ticket ∧ Rewrites s op next
        ∧ next.materialized = true ∧ s' = s.rewrite next)
      (fun _ s' => s' = s) s := by
  refine wp_if (fun _ => rfl) fun _ => ?_
  refine wp_query_bind (fun op hop => ?_) fun _ _ => rfl
  have hop := requireTicket_eq_ok_iff.mp hop
  refine wp_if (fun _ => rfl) fun _ => ?_
  refine wp_query_bind (fun updated hupdated => ?_) fun _ _ => rfl
  refine wp_query_bind (fun _ hcapacity => ?_) fun _ _ => rfl
  have hkept := new_eq_ok hupdated
  refine ⟨op, { op with destination := updated, materialized := true }, hop.2, ?_, rfl, rfl⟩
  rw [<- hop.2] at hcapacity
  exact
    { found := by rw [hop.2]; exact hop.1
      ticket := rfl
      label := hkept.1
      tier := hkept.2.1
      sourceLabel := rfl
      sourceSnapshot := rfl
      fits := by
        have hfits := checkCapacity_finishTicket hcapacity
        rw [hkept.2.1] at hfits
        exact hfits }

theorem wp_commit (ticket : Ticket) :
    Wp (commit ticket)
      (fun _ s' => exists op, op.ticket = ticket ∧ s.pending.get? ticket.ticketId = some op
        ∧ s' = (s.publish op).finishTicket op)
      (fun _ s' => s' = s) s := by
  refine wp_query_bind (fun op hop => ?_) fun _ _ => rfl
  have hop := requireTicket_eq_ok_iff.mp hop
  refine wp_if (fun _ => rfl) fun _ => ?_
  refine wp_query_bind (fun _ _ => ?_) fun _ _ => rfl
  exact ⟨op, hop.2, hop.1, rfl⟩

theorem wp_rollback (ticket : Ticket) :
    Wp (rollback ticket)
      (fun _ s' => exists op, op.ticket = ticket ∧ s.pending.get? ticket.ticketId = some op
        ∧ s' = s.finishTicket op)
      (fun _ s' => s' = s) s := by
  refine wp_query_bind (fun op hop => ?_) fun _ _ => rfl
  have hop := requireTicket_eq_ok_iff.mp hop
  exact ⟨op, hop.2, hop.1, rfl⟩

theorem wp_release (label : String) :
    Wp (release label) (fun _ s' => s.lockedSources.get? label = none ∧ s' = s.dropEntry label)
      (fun _ s' => s' = s) s := by
  refine wp_query_bind (fun _ hunlocked => ?_) fun _ _ => rfl
  exact ⟨requireUnlocked_eq_ok_iff.mp hunlocked, rfl⟩

/-- What a transfer has established before it claims its label. -/
structure Transferable (s : MemoryLedger) (label : String) (current destination : Reservation) :
    Prop where
  entry : s.entries.get? label = some current
  tier : current.tier ≠ destination.tier
  unlocked : s.lockedSources.get? label = none
  account : s.accounts.contains destination.tier = true
  fits : forall account, s.accounts.get? destination.tier = some account ->
    s.held destination.tier + destination.chargedBytes ≤ account.capacityBytes

theorem planTransfer_eq_ok (h : s.planTransfer label toTier newLabel = .ok plan) :
    Transferable s label plan.1 plan.2 ∧ plan.2.tier = toTier := by
  unfold planTransfer at h
  simp only [except_bind_eq_ok_iff, entry_eq_ok_iff, Executor.reject_eq_ok_iff,
    requireUnlocked_eq_ok_iff, requireAccount_eq_ok_iff, exists_const] at h
  rcases h with ⟨_, hentry, htier, hunlocked, haccount, _, hnew, _, hcapacity, hplan⟩
  have hkept := new_eq_ok hnew
  rw [<- Except.ok.inj hplan]
  refine ⟨⟨hentry, ?_, hunlocked, ?_, checkCapacity_held hcapacity⟩, hkept.2.1⟩
  · rw [hkept.2.1]
    exact htier
  · rw [hkept.2.1]
    exact haccount

def transferOp (s : MemoryLedger) (label : String) (current destination : Reservation) :
    PendingOp where
  ticket :=
    { object := s.nextId
      ticketId := s.nextId
      label
      tier := destination.tier
      fromTier := some current.tier }
  destination
  sourceLabel := some label
  sourceSnapshot := some current

theorem bookable_transferOp (h : Balanced s) (hplan : Transferable s label current destination)
    (hlabel : s.drawId.checkLabel destination.label (some label) = .ok u) :
    Bookable s.drawId (transferOp s label current destination) := by
  have hlabel := checkLabel_eq_ok_iff.mp hlabel
  exact
    { unused := h.unused
      issued := Nat.lt_succ_self _
      tier := hplan.account
      fits := hplan.fits
      unclaimed := hlabel.1
      fresh := hlabel.2
      source := fun found hfound => by
        rw [<- Option.some.inj hfound]
        exact ⟨hplan.unlocked, current, hplan.entry, rfl, rfl, hplan.tier⟩ }

theorem wp_transfer (h : Balanced s) (label : String) (toTier : MemoryTier)
    (newLabel : Option String) :
    Wp (transfer label toTier newLabel) (fun ticket s' => exists current destination,
        ticket = (transferOp s label current destination).ticket
        ∧ s' = s.drawId.book (transferOp s label current destination)
        ∧ Bookable s.drawId (transferOp s label current destination))
      (fun _ s' => SameBooks s s') s := by
  refine wp_query_bind (fun plan hplan => ?_) fun _ _ => SameBooks.refl s
  rcases planTransfer_eq_ok hplan with ⟨hplan, htier⟩
  refine wp_query_bind (fun _ hlabel => ?_) fun _ _ => sameBooks_drawId s
  rw [<- htier]
  exact ⟨plan.1, plan.2, rfl, rfl, bookable_transferOp h hplan hlabel⟩

theorem wp_update (h : Balanced s) (label : String) (backedBytes : Int)
    (reservedBytes chargedBytes : Option Int) :
    Wp (update label backedBytes reservedBytes chargedBytes)
      (fun _ s' => exists r, Enterable s label r ∧ s' = s.setEntry label r)
      (fun _ s' => s' = s) s := by
  refine wp_query_bind (fun _ hunlocked => ?_) fun _ _ => rfl
  have hunlocked := requireUnlocked_eq_ok_iff.mp hunlocked
  refine wp_query_bind (fun current hcurrent => ?_) fun _ _ => rfl
  have hentry := entry_eq_ok_iff.mp hcurrent
  refine wp_query_bind (fun updated hupdated => ?_) fun _ _ => rfl
  refine wp_query_bind (fun _ hcapacity => ?_) fun _ _ => rfl
  have hkept := new_eq_ok hupdated
  refine ⟨updated, ?_, rfl⟩
  exact
    { named := hkept.1.trans (h.named label current hentry)
      tier := by
        rw [hkept.2.1]
        exact h.entry_tier label current hentry
      unlocked := hunlocked
      fits := checkCapacity_dropEntry hcapacity
      unclaimed := fun hnone => nomatch hentry.symm.trans hnone }

theorem wp_dropEntries (labels : List (String × Reservation))
    (hlabels : forall entry, entry ∈ labels -> s.lockedSources.get? entry.1 = none) :
    Wp (labels.forM fun entry => (modify (dropEntry entry.1) : LedgerM Unit))
      (fun _ s' => Relation.ReflTransGen Change s s') (fun _ _ => False) s := by
  induction labels generalizing s with
  | nil => exact Relation.ReflTransGen.refl
  | cons entry rest ih =>
    have hfirst : Change s (s.dropEntry entry.1) :=
      .dropped entry.1 (hlabels entry List.mem_cons_self)
    have hrest := ih (s := s.dropEntry entry.1) fun other hother =>
      hlabels other (List.mem_cons_of_mem _ hother)
    show Wp (modify (dropEntry entry.1) >>= fun _ => rest.forM _) _ _ s
    exact wp_mono hrest (fun _ _ h' => Relation.ReflTransGen.head hfirst h') fun _ _ h' => h'

theorem wp_releaseOwner (owner : MemoryOwner) (tier : Option MemoryTier) :
    Wp (releaseOwner owner tier) (fun _ s' => Relation.ReflTransGen Change s s')
      (fun _ s' => s' = s) s := by
  unfold releaseOwner
  refine wp_if (fun _ => rfl) fun _ => ?_
  refine wp_query_bind (fun _ hunlocked => ?_) fun _ _ => rfl
  have hunlocked := forM_eq_ok_iff.mp hunlocked
  exact wp_then
    (wp_dropEntries _ fun entry hentry => requireUnlocked_eq_ok_iff.mp (hunlocked entry hentry))
    (fun _ _ h' => h') fun _ _ h' => h'.elim

/-! ### Closing what was booked -/

/-- Closing an operation that was just booked leaves the books as they were. -/
theorem finishTicket_book (hop : Bookable s op) : (s.book op).finishTicket op = s := by
  have hpending : (s.pending.set op.ticket.ticketId op).erase op.ticket.ticketId = s.pending := by
    rw [Dict.erase_set_self, Dict.erase_of_none hop.unused]
  have hclaims : (s.claimedLabels.set op.destination.label op.ticket.ticketId).erase
      op.destination.label = s.claimedLabels := by
    rw [Dict.erase_set_self, Dict.erase_of_none hop.unclaimed]
  have hlocks : (op.sourceLabel.elim (s.book op).lockedSources fun label =>
      (s.book op).lockedSources.erase label) = s.lockedSources := by
    unfold MemoryLedger.book
    cases hsource : op.sourceLabel with
    | none => rfl
    | some label =>
      show (s.lockedSources.set label op.ticket.ticketId).erase label = s.lockedSources
      rw [Dict.erase_set_self, Dict.erase_of_none (hop.source label hsource).1]
  unfold MemoryLedger.finishTicket
  rw [hlocks]
  show { s with
    pending := (s.pending.set op.ticket.ticketId op).erase op.ticket.ticketId
    claimedLabels := (s.claimedLabels.set op.destination.label op.ticket.ticketId).erase
      op.destination.label } = s
  rw [hpending, hclaims]

/-- What an operation was rewritten to does not matter once it is closed. -/
theorem finishTicket_rewrite (hop : Rewrites s op next) :
    (s.rewrite next).finishTicket next = s.finishTicket op := by
  unfold MemoryLedger.finishTicket MemoryLedger.rewrite
  rw [hop.ticket, hop.label, hop.sourceLabel, Dict.erase_set_self]

/-- The handler of `admit` closes the operation and passes the failure on. -/
theorem wp_abandon (hop : s.pending.get? op.ticket.ticketId = some op) (exc : Failure) :
    Wp (abandon op.ticket exc) (fun _ _ => False) (fun _ s' => s' = s.finishTicket op) s := by
  have hopen : s.pending.contains op.ticket.ticketId = true :=
    contains_eq_true_iff.mpr ⟨op, hop⟩
  have hticket := requireTicket_eq_ok_iff.mpr ⟨hop, rfl⟩
  unfold abandon rollback
  refine wp_if (fun _ => ?_) fun hnone => absurd hopen hnone
  rw [wp_bind]
  refine wp_query_bind (fun found hfound => ?_) fun _ hfail => ?_
  · rw [hticket] at hfound
    rw [<- Except.ok.inj hfound]
    rfl
  · rw [hticket] at hfail
    cases hfail

theorem wp_admitReservation (h : Balanced s) (r : Reservation) :
    Wp (admitReservation r) (fun _ s' => Relation.ReflTransGen Change s s')
      (fun _ s' => SameBooks s s') s := by
  refine wp_seq (wp_reserve h r) fun ticket s1 hreserved => ?_
  rcases hreserved with ⟨hticket, hs1, hop⟩
  have hfirst : Change s s1 := by
    rw [hs1]
    exact .booked _ hop
  have hbooked : s1.pending.get? (reservedOp s r).ticket.ticketId = some (reservedOp s r) := by
    rw [hs1, get?_book, if_pos rfl]
  have hclosed : s1.finishTicket (reservedOp s r) = s.drawId := by
    rw [hs1]
    exact finishTicket_book hop
  have hbalanced := hfirst.balanced h
  rw [wp_tryCatch, wp_bind, hticket]
  refine wp_mono (wp_materialize _ _ _) (fun _ s2 hmaterialized => ?_) fun exc s2 hs2 => ?_
  · rcases hmaterialized with ⟨op, next, hsame, hrewrites, _, hs2⟩
    have hown : op = reservedOp s r := by
      have hfound := hrewrites.found
      rw [hsame, hbooked] at hfound
      exact (Option.some.inj hfound).symm
    rw [hown] at hrewrites
    have hsecond : Change s1 s2 := by
      rw [hs2]
      exact .rewritten _ next hrewrites
    have hnext : s2.pending.get? next.ticket.ticketId = some next := by
      rw [hs2, get?_rewrite, if_pos rfl]
    refine wp_mono (wp_commit _) (fun _ s3 hcommitted => ?_) fun exc s3 hs3 => ?_
    · rcases hcommitted with ⟨last, hlast, hfound, hs3⟩
      rw [<- hlast] at hfound
      rw [hs3]
      exact (Relation.ReflTransGen.single hfirst).tail hsecond |>.tail (.committed last hfound)
    · rw [hs3]
      have habandon := wp_abandon hnext exc
      rw [hrewrites.ticket] at habandon
      refine wp_mono habandon (fun _ _ hfalse => hfalse.elim) fun _ s4 hs4 => ?_
      rw [hs4, hs2, finishTicket_rewrite hrewrites, hclosed]
      exact sameBooks_drawId s
  · rw [hs2]
    refine wp_mono (wp_abandon hbooked exc) (fun _ _ hfalse => hfalse.elim) fun _ s4 hs4 => ?_
    rw [hs4, hclosed]
    exact sameBooks_drawId s

/-! ## Histories -/

inductive LedgerStep where
  | reserve (r : Reservation)
  | materialize (ticket : Ticket) (actualBytes : Int) (region : Option MemoryRegion)
  | commit (ticket : Ticket)
  | rollback (ticket : Ticket)
  | transfer (label : String) (toTier : MemoryTier) (newLabel : Option String)
  | release (label : String)
  | update (label : String) (backedBytes : Int) (reservedBytes chargedBytes : Option Int)
  | releaseOwner (owner : MemoryOwner) (tier : Option MemoryTier)
  | admits (r : Reservation)

/-- The call, without what it returns. -/
def perform : LedgerStep -> LedgerM Unit
  | .reserve r => do let _ <- reserve r
  | .materialize ticket actualBytes region => materialize ticket actualBytes region
  | .commit ticket => commit ticket
  | .rollback ticket => rollback ticket
  | .transfer label toTier newLabel => do let _ <- transfer label toTier newLabel
  | .release label => do let _ <- release label
  | .update label backedBytes reservedBytes chargedBytes =>
    update label backedBytes reservedBytes chargedBytes
  | .releaseOwner owner tier => do let _ <- releaseOwner owner tier
  | .admits r => admitReservation r

def step (s : MemoryLedger) (call : LedgerStep) : MemoryLedger :=
  finalState (perform call s)

def run (s : MemoryLedger) (calls : List LedgerStep) : MemoryLedger :=
  calls.foldl step s

def LedgerStep.draws : LedgerStep -> Bool
  | .reserve _ => true
  | .transfer _ _ _ => true
  | .admits _ => true
  | _ => false

/-- The books after a call that raised: no call leaves anything behind but, if it
draws one, a used ticket id. -/
def Unchanged (call : LedgerStep) (s s' : MemoryLedger) : Prop :=
  s' = s ∨ (call.draws = true ∧ s' = s.drawId)

theorem Unchanged.sameBooks (h : Unchanged call s s') : SameBooks s s' :=
  h.imp id And.right

theorem SameBooks.unchanged (h : SameBooks s s') (hcall : call.draws = true) :
    Unchanged call s s' :=
  h.imp id fun heq => ⟨hcall, heq⟩

/-- A returned call makes changes, a raised one none. -/
theorem wp_perform (h : Balanced s) (call : LedgerStep) :
    Wp (perform call) (fun _ s' => Relation.ReflTransGen Change s s')
      (fun _ s' => Unchanged call s s') s := by
  cases call with
  | reserve r =>
    show Wp (reserve r >>= _) _ _ s
    refine wp_then (wp_reserve h r) (fun _ s' h' => ?_) fun _ _ h' => h'.unchanged rfl
    rw [h'.2.1]
    exact Relation.ReflTransGen.single (.booked _ h'.2.2)
  | materialize ticket actualBytes region =>
    refine wp_mono (wp_materialize ticket actualBytes region) (fun _ s' h' => ?_)
      fun _ _ h' => .inl h'
    rcases h' with ⟨op, next, _, hop, _, hs'⟩
    rw [hs']
    exact Relation.ReflTransGen.single (.rewritten op next hop)
  | commit ticket =>
    refine wp_mono (wp_commit ticket) (fun _ s' h' => ?_) fun _ _ h' => .inl h'
    rcases h' with ⟨op, hticket, hop, hs'⟩
    rw [<- hticket] at hop
    rw [hs']
    exact Relation.ReflTransGen.single (.committed op hop)
  | rollback ticket =>
    refine wp_mono (wp_rollback ticket) (fun _ s' h' => ?_) fun _ _ h' => .inl h'
    rcases h' with ⟨op, hticket, hop, hs'⟩
    rw [<- hticket] at hop
    rw [hs']
    exact Relation.ReflTransGen.single (.closed op hop)
  | transfer label toTier newLabel =>
    show Wp (transfer label toTier newLabel >>= _) _ _ s
    refine wp_then (wp_transfer h label toTier newLabel) (fun _ s' h' => ?_)
      fun _ _ h' => h'.unchanged rfl
    rcases h' with ⟨_, _, _, hs', hop⟩
    rw [hs']
    exact Relation.ReflTransGen.single (.booked _ hop)
  | release label =>
    show Wp (release label >>= _) _ _ s
    refine wp_then (wp_release label) (fun _ s' h' => ?_) fun _ _ h' => .inl h'
    rw [h'.2]
    exact Relation.ReflTransGen.single (.dropped label h'.1)
  | update label backedBytes reservedBytes chargedBytes =>
    refine wp_mono (wp_update h label backedBytes reservedBytes chargedBytes)
      (fun _ s' h' => ?_) fun _ _ h' => .inl h'
    rcases h' with ⟨r, hr, hs'⟩
    rw [hs']
    exact Relation.ReflTransGen.single (.entered label r hr)
  | releaseOwner owner tier =>
    show Wp (releaseOwner owner tier >>= _) _ _ s
    exact wp_then (wp_releaseOwner owner tier) (fun _ _ h' => h') fun _ _ h' => .inl h'
  | admits r =>
    exact wp_mono (wp_admitReservation h r) (fun _ _ h' => h') fun _ _ h' => h'.unchanged rfl

theorem Change.run_balanced (hchanges : Relation.ReflTransGen Change s s') (h : Balanced s) :
    Balanced s' := by
  induction hchanges with
  | refl => exact h
  | tail _ hchange ih => exact hchange.balanced ih

theorem Change.accounts (hchange : Change s s') : s'.accounts = s.accounts := by
  cases hchange <;> rfl

theorem Change.run_accounts (hchanges : Relation.ReflTransGen Change s s') :
    s'.accounts = s.accounts := by
  induction hchanges with
  | refl => rfl
  | tail _ hchange ih => exact hchange.accounts.trans ih

theorem Balanced.step (h : Balanced s) (call : LedgerStep) :
    Balanced (step s call) ∧ (step s call).accounts = s.accounts := by
  have hperform : Wp (perform call) (fun _ s' => Balanced s' ∧ s'.accounts = s.accounts)
      (fun _ s' => Balanced s' ∧ s'.accounts = s.accounts) s := by
    refine wp_mono (wp_perform h call) (fun _ s' h' => ?_) fun _ s' h' => ?_
    · exact ⟨Change.run_balanced h' h, Change.run_accounts h'⟩
    · refine ⟨h'.sameBooks.balanced h, ?_⟩
      cases h' with
      | inl heq => rw [heq]
      | inr heq =>
        rw [heq.2]
        rfl
  exact wp_inv_iff.mp hperform

theorem Balanced.run (h : Balanced s) (calls : List LedgerStep) :
    Balanced (run s calls) ∧ (run s calls).accounts = s.accounts := by
  induction calls generalizing s with
  | nil => exact ⟨h, rfl⟩
  | cons call rest ih =>
    have hfirst := h.step call
    have hrest := ih hfirst.1
    exact ⟨hrest.1, hrest.2.trans hfirst.2⟩

end MemoryLedger

end Ledger
end Ayaka
