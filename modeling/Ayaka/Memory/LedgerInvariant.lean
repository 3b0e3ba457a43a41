import Ayaka.Foundation.Invariant
import Ayaka.Memory.Ledger

/-!
# The ledger keeps its books

What every verb of the ledger preserves: no tier holds more than its capacity,
every open operation has claimed its label and locked its source, and the source
of an open transfer is still the entry it was.  A verb that returns makes one of
six changes to the books; the invariant is proved for each change, and each verb
is shown to make its change only where that is safe.
-/

namespace Ayaka
namespace Ledger

open Foundation
open Executor (Failure reject isBlank)

namespace MemoryLedger

open Dict

structure Balanced (s : MemoryLedger) : Prop where
  /-- Entries are filed under their labels. -/
  named : forall label r, s.entries.get? label = some r -> r.label = label
  /-- Every entry and every open operation is on a tier with an account. -/
  entry_tier : forall label r, s.entries.get? label = some r -> s.accounts.contains r.tier = true
  op_tier : forall id op, s.pending.get? id = some op ->
    s.accounts.contains op.destination.tier = true
  capacity : forall tier account, s.accounts.get? tier = some account ->
    s.held tier ≤ account.capacityBytes
  issued : forall id op, s.pending.get? id = some op -> op.ticket.ticketId = id ∧ id < s.nextId
  /-- Labels are claimed by open operations, each by its own. -/
  claimed : Dict.Indexes s.claimedLabels s.pending fun op => some op.destination.label
  /-- Only a transfer may claim the label of an entry, that of its source. -/
  fresh : forall id op r, s.pending.get? id = some op ->
    s.entries.get? op.destination.label = some r -> op.sourceLabel = some op.destination.label
  locked : Dict.Indexes s.lockedSources s.pending PendingOp.sourceLabel
  /-- The source of an open transfer is as it was, on the tier it leaves. -/
  source : forall id op label, s.pending.get? id = some op -> op.sourceLabel = some label ->
    exists r, s.entries.get? label = some r ∧ op.sourceSnapshot = some r
      ∧ op.ticket.fromTier = some r.tier ∧ r.tier ≠ op.destination.tier

/-! ## Reading the checks back -/

variable {s : MemoryLedger}

theorem contains_eq_true_iff {key value : Type} [DecidableEq key] {d : Dict key value} {k : key} :
    d.contains k = true <-> exists v, d.get? k = some v :=
  Option.isSome_iff_exists

variable {tier : MemoryTier}

theorem account_eq_ok_iff : s.account tier = .ok found <-> s.accounts.get? tier = some found := by
  unfold account
  cases h : s.accounts.get? tier with
  | none => simp
  | some a => simp

theorem requireAccount_eq_ok_iff {u : Unit} :
    s.requireAccount tier = .ok u <-> s.accounts.contains tier = true := by
  unfold requireAccount
  rw [except_bind_eq_ok_iff, contains_eq_true_iff]
  simp only [account_eq_ok_iff]
  constructor
  · rintro ⟨found, hfound, _⟩
    exact ⟨found, hfound⟩
  · rintro ⟨found, hfound⟩
    exact ⟨found, hfound, rfl⟩

variable {r : Reservation}

theorem checkCapacity_eq_ok_iff :
    s.checkCapacity r excluding excludingPending = .ok u <->
      exists found, s.accounts.get? r.tier = some found ∧
        (s.entries.sumBy fun label entry =>
          if some label = excluding then 0 else chargeOn r.tier entry)
          + (s.pending.sumBy fun id op =>
              if some id = excludingPending then 0 else chargeOn r.tier op.destination)
          + r.chargedBytes ≤ found.capacityBytes := by
  unfold checkCapacity
  rw [except_bind_eq_ok_iff]
  simp only [account_eq_ok_iff, Executor.reject_eq_ok_iff, Nat.not_lt]

variable {op : PendingOp}

theorem requireTicket_eq_ok_iff :
    s.requireTicket ticket = .ok op <->
      s.pending.get? ticket.ticketId = some op ∧ op.ticket = ticket := by
  unfold requireTicket
  cases h : s.pending.get? ticket.ticketId with
  | none => simp
  | some found =>
    by_cases hsame : found.ticket = ticket
    · simp only [hsame, ne_eq, not_true_eq_false, if_false, Except.ok.injEq, Option.some.injEq]
      constructor
      · intro heq
        exact ⟨heq, by rw [<- heq]; exact hsame⟩
      · intro heq
        exact heq.1
    · simp only [ne_eq, hsame, not_false_eq_true, if_true, Option.some.injEq]
      constructor
      · intro heq
        cases heq
      · intro heq
        rw [heq.1] at hsame
        exact absurd heq.2 hsame

variable {label : String}

theorem requireUnlocked_eq_ok_iff :
    s.requireUnlocked label = .ok u <-> s.lockedSources.get? label = none := by
  unfold requireUnlocked
  cases h : s.lockedSources.get? label with
  | none => simp
  | some id => simp

theorem entry_eq_ok_iff : s.entry label missing = .ok r <-> s.entries.get? label = some r := by
  unfold entry
  cases h : s.entries.get? label with
  | none => simp
  | some found => simp

theorem checkLabel_eq_ok_iff {sourceLabel : Option String} {u : Unit} :
    s.checkLabel label sourceLabel = .ok u <-> s.claimedLabels.get? label = none
        ∧ (forall r, s.entries.get? label = some r -> sourceLabel = some label) := by
  unfold checkLabel
  rw [Executor.reject_eq_ok_iff, not_or, not_and, not_not]
  simp only [contains_eq_true_iff]
  constructor
  · intro h
    refine ⟨?_, fun r hr => (h.2 ⟨r, hr⟩).symm⟩
    cases hclaim : s.claimedLabels.get? label with
    | none => rfl
    | some id => exact absurd ⟨id, hclaim⟩ h.1
  · intro h
    refine ⟨fun hclaim => ?_, fun hentry => ?_⟩
    · rcases hclaim with ⟨id, hid⟩
      rw [h.1] at hid
      cases hid
    · rcases hentry with ⟨r, hr⟩
      exact (h.2 r hr).symm

/-- What a constructed reservation keeps of its arguments. -/
theorem new_eq_ok (h : Reservation.new f = .ok r) :
    r.label = f.label ∧ r.tier = f.tier ∧ r.owner = f.owner
      ∧ (r.chargedBytes : Int) = f.charged := by
  unfold Reservation.new at h
  split at h
  next => cases h
  next hcheck =>
    have hvalid := Reservation.check_eq_ok_iff.mp hcheck
    rw [<- Except.ok.inj h]
    exact ⟨rfl, rfl, rfl, Int.toNat_of_nonneg hvalid.charged⟩

/-! ## The changes -/

theorem held_eq_zero (h : Balanced s) (hnone : s.accounts.contains tier = false) :
    s.held tier = 0 := by
  have hentries : s.committed tier = 0 := by
    unfold committed Dict.sumBy
    rw [List.sum_eq_zero_iff]
    intro n hn
    rcases List.mem_map.mp hn with ⟨entry, hentry, rfl⟩
    have htier := h.entry_tier entry.1 entry.2 (get?_eq_some_iff.mpr hentry)
    apply if_neg
    intro heq
    rw [heq, hnone] at htier
    cases htier
  have hpending : s.pendingCharge tier = 0 := by
    unfold pendingCharge Dict.sumBy
    rw [List.sum_eq_zero_iff]
    intro n hn
    rcases List.mem_map.mp hn with ⟨entry, hentry, rfl⟩
    have htier := h.op_tier entry.1 entry.2 (get?_eq_some_iff.mpr hentry)
    apply if_neg
    intro heq
    rw [heq, hnone] at htier
    cases htier
  rw [held, hentries, hpending]

theorem Balanced.drawId (h : Balanced s) : Balanced s.drawId :=
  { h with issued := fun id op hop =>
      ⟨(h.issued id op hop).1, Nat.lt_succ_of_lt (h.issued id op hop).2⟩ }

structure Bookable (s : MemoryLedger) (op : PendingOp) : Prop where
  unused : s.pending.get? op.ticket.ticketId = none
  issued : op.ticket.ticketId < s.nextId
  tier : s.accounts.contains op.destination.tier = true
  fits : forall account, s.accounts.get? op.destination.tier = some account ->
    s.held op.destination.tier + op.destination.chargedBytes ≤ account.capacityBytes
  unclaimed : s.claimedLabels.get? op.destination.label = none
  fresh : forall r, s.entries.get? op.destination.label = some r ->
    op.sourceLabel = some op.destination.label
  source : forall label, op.sourceLabel = some label ->
    s.lockedSources.get? label = none ∧ exists r, s.entries.get? label = some r
      ∧ op.sourceSnapshot = some r ∧ op.ticket.fromTier = some r.tier
      ∧ r.tier ≠ op.destination.tier

/-- A tier holds what it held, and the charge of a new operation. -/
theorem held_book (hunused : s.pending.get? op.ticket.ticketId = none) (tier : MemoryTier) :
    (s.book op).held tier = s.held tier + chargeOn tier op.destination := by
  have hpending : (s.book op).pendingCharge tier
      = s.pendingCharge tier + chargeOn tier op.destination := by
    unfold pendingCharge book
    rw [sumBy_set, sumBy_erase_of_none hunused]
  unfold held
  rw [hpending, <- Nat.add_assoc]
  rfl

theorem get?_book (id : Nat) :
    (s.book op).pending.get? id = if id = op.ticket.ticketId then some op else s.pending.get? id :=
  get?_set s.pending op.ticket.ticketId id op

theorem Balanced.book (h : Balanced s) (hop : Bookable s op) : Balanced (s.book op) := by
  have hcases : forall {id : Nat} {op' : PendingOp}, (s.book op).pending.get? id = some op' ->
      (id = op.ticket.ticketId ∧ op' = op) ∨ s.pending.get? id = some op' := by
    intro id op' hget
    rw [get?_book] at hget
    split at hget
    next hid => exact .inl ⟨hid, (Option.some.inj hget).symm⟩
    next => exact .inr hget
  refine
    { h with
      op_tier := fun id op' hget => ?_
      capacity := fun tier account haccount => ?_
      issued := fun id op' hget => ?_
      claimed := h.claimed.set hop.unused fun label hlabel => ?_
      fresh := fun id op' r hget hr => ?_
      locked := h.locked.set hop.unused fun label hlabel => (hop.source label hlabel).1
      source := fun id op' label hget hlabel => ?_ }
  · rcases hcases hget with ⟨_, heq⟩ | hget
    · rw [heq]
      exact hop.tier
    · exact h.op_tier id op' hget
  · rw [held_book hop.unused]
    by_cases htier : op.destination.tier = tier
    · rw [chargeOn, if_pos htier]
      rw [<- htier] at haccount ⊢
      exact hop.fits account haccount
    · rw [chargeOn, if_neg htier]
      exact h.capacity tier account haccount
  · rcases hcases hget with ⟨hid, heq⟩ | hget
    · rw [heq, hid]
      exact ⟨rfl, hop.issued⟩
    · exact h.issued id op' hget
  · rw [<- Option.some.inj hlabel]
    exact hop.unclaimed
  · rcases hcases hget with ⟨_, heq⟩ | hget
    · rw [heq] at hr ⊢
      exact hop.fresh r hr
    · exact h.fresh id op' r hget hr
  · rcases hcases hget with ⟨_, heq⟩ | hget
    · rw [heq] at hlabel ⊢
      exact (hop.source label hlabel).2
    · exact h.source id op' label hget hlabel

theorem get?_finishTicket (id : Nat) :
    (s.finishTicket op).pending.get? id
      = if id = op.ticket.ticketId then none else s.pending.get? id :=
  get?_erase s.pending op.ticket.ticketId id

theorem held_finishTicket (hop : s.pending.get? op.ticket.ticketId = some op) (tier : MemoryTier) :
    (s.finishTicket op).held tier + chargeOn tier op.destination = s.held tier := by
  have hpending : s.pendingCharge tier
      = (s.finishTicket op).pendingCharge tier + chargeOn tier op.destination :=
    sumBy_of_get? hop _
  unfold held
  rw [hpending, <- Nat.add_assoc]
  rfl

theorem Balanced.finishTicket (h : Balanced s) (hop : s.pending.get? op.ticket.ticketId = some op) :
    Balanced (s.finishTicket op) := by
  have hold : forall {id : Nat} {op' : PendingOp}, (s.finishTicket op).pending.get? id = some op' ->
      s.pending.get? id = some op' := by
    intro id op' hget
    rw [get?_finishTicket] at hget
    split at hget
    next => cases hget
    next => exact hget
  exact
    { h with
      op_tier := fun id op' hget => h.op_tier id op' (hold hget)
      capacity := fun tier account haccount =>
        Nat.le_trans (Nat.le.intro (held_finishTicket hop tier)) (h.capacity tier account haccount)
      issued := fun id op' hget => h.issued id op' (hold hget)
      claimed := h.claimed.erase hop
      fresh := fun id op' r hget hr => h.fresh id op' r (hold hget) hr
      locked := h.locked.erase hop
      source := fun id op' label hget hlabel => h.source id op' label (hold hget) hlabel }

/-- An operation rewritten in place: the same claim with other bytes. -/
structure Rewrites (s : MemoryLedger) (op next : PendingOp) : Prop where
  found : s.pending.get? op.ticket.ticketId = some op
  ticket : next.ticket = op.ticket
  label : next.destination.label = op.destination.label
  tier : next.destination.tier = op.destination.tier
  sourceLabel : next.sourceLabel = op.sourceLabel
  sourceSnapshot : next.sourceSnapshot = op.sourceSnapshot
  fits : forall account, s.accounts.get? op.destination.tier = some account ->
    (s.finishTicket op).held op.destination.tier + next.destination.chargedBytes
      ≤ account.capacityBytes

theorem get?_rewrite (id : Nat) :
    (s.rewrite op).pending.get? id
      = if id = op.ticket.ticketId then some op else s.pending.get? id :=
  get?_set s.pending op.ticket.ticketId id op

theorem held_rewrite (h : Rewrites s op next) (tier : MemoryTier) :
    (s.rewrite next).held tier
      = (s.finishTicket op).held tier + chargeOn tier next.destination := by
  have hpending : (s.rewrite next).pendingCharge tier
      = (s.finishTicket op).pendingCharge tier + chargeOn tier next.destination := by
    unfold pendingCharge MemoryLedger.rewrite MemoryLedger.finishTicket
    rw [sumBy_set, h.ticket]
  unfold held
  rw [hpending, <- Nat.add_assoc]
  rfl

theorem Balanced.rewrite (h : Balanced s) (hop : Rewrites s op next) :
    Balanced (s.rewrite next) := by
  have hcases : forall {id : Nat} {op' : PendingOp}, (s.rewrite next).pending.get? id = some op' ->
      (id = op.ticket.ticketId ∧ op' = next) ∨ s.pending.get? id = some op' := by
    intro id op' hget
    rw [get?_rewrite] at hget
    split at hget
    next hid => exact .inl ⟨by rw [hid, hop.ticket], (Option.some.inj hget).symm⟩
    next => exact .inr hget
  have hfound : s.pending.get? next.ticket.ticketId = some op := by
    rw [hop.ticket]
    exact hop.found
  refine
    { h with
      op_tier := fun id op' hget => ?_
      capacity := fun tier account haccount => ?_
      issued := fun id op' hget => ?_
      claimed := h.claimed.replace hfound (congrArg some hop.label)
      fresh := fun id op' r hget hr => ?_
      locked := h.locked.replace hfound hop.sourceLabel
      source := fun id op' label hget hlabel => ?_ }
  · rcases hcases hget with ⟨_, heq⟩ | hget
    · rw [heq, hop.tier]
      exact h.op_tier _ op hop.found
    · exact h.op_tier id op' hget
  · rw [held_rewrite hop]
    by_cases htier : next.destination.tier = tier
    · rw [chargeOn, if_pos htier]
      rw [<- htier, hop.tier] at haccount ⊢
      exact hop.fits account haccount
    · rw [chargeOn, if_neg htier]
      exact Nat.le_trans (Nat.le.intro (held_finishTicket hop.found tier))
        (h.capacity tier account haccount)
  · rcases hcases hget with ⟨hid, heq⟩ | hget
    · rw [heq, hop.ticket, hid]
      exact h.issued _ op hop.found
    · exact h.issued id op' hget
  · rcases hcases hget with ⟨_, heq⟩ | hget
    · rw [heq] at hr ⊢
      rw [hop.label] at hr ⊢
      rw [hop.sourceLabel]
      exact h.fresh _ op r hop.found hr
    · exact h.fresh id op' r hget hr
  · rcases hcases hget with ⟨_, heq⟩ | hget
    · rw [heq] at hlabel ⊢
      rw [hop.sourceLabel] at hlabel
      rw [hop.sourceSnapshot, hop.ticket, hop.tier]
      exact h.source _ op label hop.found hlabel
    · exact h.source id op' label hget hlabel

/-! ### Entries -/

theorem held_dropEntry_le (s : MemoryLedger) (label : String) (tier : MemoryTier) :
    (s.dropEntry label).held tier ≤ s.held tier := by
  apply Nat.add_le_add_right
  show (s.entries.erase label).sumBy _ ≤ s.entries.sumBy _
  cases hget : s.entries.get? label with
  | none => rw [sumBy_erase_of_none hget]
  | some r =>
    rw [sumBy_of_get? hget]
    exact Nat.le_add_right _ _

/-- An entry that is no open transfer's source may go. -/
theorem Balanced.dropEntry (h : Balanced s) (hunlocked : s.lockedSources.get? label = none) :
    Balanced (s.dropEntry label) := by
  have hold : forall {label' : String} {r : Reservation},
      (s.dropEntry label).entries.get? label' = some r -> s.entries.get? label' = some r := by
    intro label' r hget
    have herase : (s.entries.erase label).get? label' = some r := hget
    rw [get?_erase] at herase
    split at herase
    next => cases herase
    next => exact herase
  refine
    { h with
      named := fun label' r hget => h.named label' r (hold hget)
      entry_tier := fun label' r hget => h.entry_tier label' r (hold hget)
      capacity := fun tier account haccount =>
        Nat.le_trans (held_dropEntry_le s label tier) (h.capacity tier account haccount)
      fresh := fun id op r hget hr => h.fresh id op r hget (hold hr)
      source := fun id op label' hget hlabel => ?_ }
  rcases h.source id op label' hget hlabel with ⟨r, hr, hrest⟩
  refine ⟨r, ?_, hrest⟩
  show (s.entries.erase label).get? label' = some r
  rw [get?_erase, if_neg]
  · exact hr
  · intro heq
    have hlocked := (h.locked label' id).mpr ⟨op, hget, hlabel⟩
    rw [heq, hunlocked] at hlocked
    cases hlocked

/-- An entry set in place of the one with its label, or with a label no operation
has claimed. -/
structure Enterable (s : MemoryLedger) (label : String) (r : Reservation) : Prop where
  named : r.label = label
  tier : s.accounts.contains r.tier = true
  unlocked : s.lockedSources.get? label = none
  fits : forall account, s.accounts.get? r.tier = some account ->
    (s.dropEntry label).held r.tier + r.chargedBytes ≤ account.capacityBytes
  unclaimed : s.entries.get? label = none -> s.claimedLabels.get? label = none

theorem held_setEntry (s : MemoryLedger) (label : String) (r : Reservation) (tier : MemoryTier) :
    (s.setEntry label r).held tier = (s.dropEntry label).held tier + chargeOn tier r := by
  have hcommitted : (s.setEntry label r).committed tier
      = (s.dropEntry label).committed tier + chargeOn tier r := sumBy_set ..
  unfold held
  rw [hcommitted, Nat.add_right_comm]
  rfl

theorem Balanced.setEntry (h : Balanced s) (hr : Enterable s label r) :
    Balanced (s.setEntry label r) := by
  have hget : forall label', (s.setEntry label r).entries.get? label'
      = if label' = label then some r else s.entries.get? label' :=
    fun label' => get?_set s.entries label label' r
  refine
    { h with
      named := fun label' r' hget' => ?_
      entry_tier := fun label' r' hget' => ?_
      capacity := fun tier account haccount => ?_
      fresh := fun id op r' hop hr' => ?_
      source := fun id op label' hop hlabel => ?_ }
  · rw [hget] at hget'
    split at hget'
    next heq => rw [heq, <- Option.some.inj hget']; exact hr.named
    next => exact h.named label' r' hget'
  · rw [hget] at hget'
    split at hget'
    next => rw [<- Option.some.inj hget']; exact hr.tier
    next => exact h.entry_tier label' r' hget'
  · rw [held_setEntry]
    by_cases htier : r.tier = tier
    · rw [chargeOn, if_pos htier]
      rw [<- htier] at haccount ⊢
      exact hr.fits account haccount
    · rw [chargeOn, if_neg htier]
      exact Nat.le_trans (held_dropEntry_le s label tier) (h.capacity tier account haccount)
  · rw [hget] at hr'
    split at hr'
    next heq =>
      cases hentry : s.entries.get? label with
      | none =>
        have hclaim := (h.claimed op.destination.label id).mpr ⟨op, hop, rfl⟩
        rw [heq, hr.unclaimed hentry] at hclaim
        cases hclaim
      | some old => exact h.fresh id op old hop (by rw [heq]; exact hentry)
    next => exact h.fresh id op r' hop hr'
  · rcases h.source id op label' hop hlabel with ⟨old, hold, hrest⟩
    refine ⟨old, ?_, hrest⟩
    rw [hget, if_neg]
    · exact hold
    · intro heq
      have hlocked := (h.locked label' id).mpr ⟨op, hop, hlabel⟩
      rw [heq, hr.unlocked] at hlocked
      cases hlocked

/-! ### Commit -/

/-- A commit closes its operation, drops the source of a transfer and enters the
destination. -/
theorem commit_eq (s : MemoryLedger) (op : PendingOp) :
    (s.publish op).finishTicket op = (op.sourceLabel.elim (s.finishTicket op) fun label =>
          (s.finishTicket op).dropEntry label).setEntry op.destination.label op.destination := by
  unfold publish MemoryLedger.finishTicket MemoryLedger.dropEntry MemoryLedger.setEntry
  cases op.sourceLabel with
  | none => rfl
  | some label => rfl

section

variable (h : Balanced s) (hop : s.pending.get? op.ticket.ticketId = some op)
include h hop

/-- No open operation has its source under the label a closed one enters. -/
theorem unlocked_finishTicket :
    (s.finishTicket op).lockedSources.get? op.destination.label = none := by
  cases hlocked : (s.finishTicket op).lockedSources.get? op.destination.label with
  | none => rfl
  | some id =>
    have hclosed := h.finishTicket hop
    rcases (hclosed.locked op.destination.label id).mp hlocked with ⟨op', hop', hlabel'⟩
    rcases hclosed.source id op' _ hop' hlabel' with ⟨r, hr, _⟩
    have hown := h.fresh _ op r hop hr
    have hopen : s.pending.get? id = some op' ∧ id ≠ op.ticket.ticketId := by
      rw [get?_finishTicket] at hop'
      split at hop'
      next => cases hop'
      next hne => exact ⟨hop', hne⟩
    have hfirst := (h.locked op.destination.label op.ticket.ticketId).mpr ⟨op, hop, hown⟩
    have hsecond := (h.locked op.destination.label id).mpr ⟨op', hopen.1, hlabel'⟩
    rw [hfirst] at hsecond
    exact absurd (Option.some.inj hsecond).symm hopen.2

theorem Balanced.commit : Balanced ((s.publish op).finishTicket op) := by
  have hclosed := h.finishTicket hop
  have hunlocked := unlocked_finishTicket h hop
  have hunclaimed : (s.finishTicket op).claimedLabels.get? op.destination.label = none :=
    get?_erase_self ..
  have hfits : forall account, s.accounts.get? op.destination.tier = some account ->
      (s.finishTicket op).held op.destination.tier + op.destination.chargedBytes
        ≤ account.capacityBytes := by
    intro account haccount
    have hheld := held_finishTicket hop op.destination.tier
    rw [chargeOn, if_pos rfl] at hheld
    rw [hheld]
    exact h.capacity _ account haccount
  have hdrop : forall (base : MemoryLedger), Balanced base -> base.accounts = s.accounts ->
      base.lockedSources.get? op.destination.label = none ->
      base.claimedLabels.get? op.destination.label = none ->
      (forall tier, base.held tier ≤ (s.finishTicket op).held tier) ->
        Balanced (base.setEntry op.destination.label op.destination) := by
    intro base hbase haccounts hlock hclaim hheld
    refine hbase.setEntry ⟨rfl, ?_, hlock, fun account haccount => ?_, fun _ => hclaim⟩
    · rw [haccounts]
      exact h.op_tier _ op hop
    · rw [haccounts] at haccount
      refine Nat.le_trans (Nat.add_le_add_right ?_ _) (hfits account haccount)
      exact Nat.le_trans (held_dropEntry_le _ _ _) (hheld _)
  rw [commit_eq]
  cases hsource : op.sourceLabel with
  | none => exact hdrop _ hclosed rfl hunlocked hunclaimed fun _ => Nat.le_refl _
  | some label =>
    have hfree : (s.finishTicket op).lockedSources.get? label = none := by
      unfold MemoryLedger.finishTicket
      rw [hsource]
      exact get?_erase_self ..
    exact hdrop _ (hclosed.dropEntry hfree) rfl hunlocked hunclaimed fun tier =>
      held_dropEntry_le _ label tier

end

end MemoryLedger

end Ledger
end Ayaka
