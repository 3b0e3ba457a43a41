import Ayaka.Foundation.Dict
import Ayaka.Foundation.Effect
import Ayaka.Executor.Failure

/-!
# The memory ledger

The ledger records claims on memory, one account for each allocatable tier.  A
claim is reserved, materialized and committed under a ticket, or rolled back; a
transfer moves a committed entry to another tier and books both sides until it is
committed.

The decision trace is left out: it is telemetry that never changes a result.
-/

namespace Ayaka
namespace Ledger

open Foundation
open Executor (Failure reject isBlank)

/-! ## Vocabulary -/

inductive MemoryTier where
  | register
  | shared
  | l2
  | device
  | hostPinned
  | hostPageable
  | disk
  | remote
  deriving DecidableEq, Repr

namespace MemoryTier

def name : MemoryTier -> String
  | register => "REGISTER"
  | shared => "SHARED"
  | l2 => "L2"
  | device => "DEVICE"
  | hostPinned => "HOST_PINNED"
  | hostPageable => "HOST_PAGEABLE"
  | disk => "DISK"
  | remote => "REMOTE"

/-- The value of the enumeration; faster tiers come first. -/
def rank : MemoryTier -> Nat
  | register => 0
  | shared => 1
  | l2 => 2
  | device => 3
  | hostPinned => 4
  | hostPageable => 5
  | disk => 6
  | remote => 7

def allocatable : MemoryTier -> Bool
  | device | hostPinned | hostPageable | disk => true
  | _ => false

end MemoryTier

inductive MemoryOwner where
  | weight
  | activation
  | kv
  | comm
  | compile
  | workspace
  deriving DecidableEq, Repr

def MemoryOwner.value : MemoryOwner -> String
  | weight => "weight"
  | activation => "activation"
  | kv => "kv"
  | comm => "comm"
  | compile => "compile"
  | workspace => "workspace"

@[ext] structure MemoryRegion where
  regionId : Int
  basePtr : Int
  nbytes : Nat
  tier : MemoryTier
  owner : MemoryOwner
  deviceIndex : Int := -1
  alignment : Int := 256
  backed : Bool := true
  classBytes : Nat := 0
  nbytes_pos : 0 < nbytes
  aligned : backed = true -> basePtr % alignment = 0
  class_le : classBytes ≠ 0 -> nbytes ≤ classBytes
  deriving Repr

instance : DecidableEq MemoryRegion :=
  fun _ _ => decidable_of_iff _ MemoryRegion.ext_iff.symm

structure TierAccount where
  tier : MemoryTier
  capacityBytes : Nat
  totalBytes : Nat := 0
  allocatable : tier.allocatable = true
  capacity_le : totalBytes ≠ 0 -> capacityBytes ≤ totalBytes
  deriving DecidableEq, Repr

/-- What a region must share with the reservation that names it. -/
structure RegionFits (owner : MemoryOwner) (tier : MemoryTier) (deviceIndex : Int)
    (backedBytes : Int) (region : MemoryRegion) : Prop where
  owner : region.owner = owner
  tier : region.tier = tier
  device : 0 ≤ region.deviceIndex -> region.deviceIndex = deviceIndex
  size : backedBytes ≤ region.nbytes

/-- One registered claim: address space, admission charge and physical bytes. -/
structure Reservation where
  owner : MemoryOwner
  label : String
  reservedBytes : Nat
  backedBytes : Nat
  tier : MemoryTier
  deviceIndex : Int
  region : Option MemoryRegion
  chargedBytes : Nat
  label_text : isBlank label = false
  backed_le : backedBytes ≤ reservedBytes
  charged_le : chargedBytes ≤ reservedBytes
  allocatable : tier.allocatable = true
  region_fits : forall r, region = some r -> RegionFits owner tier deviceIndex backedBytes r
  deriving DecidableEq, Repr

namespace Reservation

/-- The arguments of the constructor, before its checks. -/
structure Fields where
  owner : MemoryOwner
  label : String
  reservedBytes : Int
  backedBytes : Int
  tier : MemoryTier := .device
  deviceIndex : Int := 0
  region : Option MemoryRegion := none
  chargedBytes : Option Int := none

def Fields.charged (f : Fields) : Int :=
  f.chargedBytes.getD f.backedBytes

def checkRegion (f : Fields) (region : MemoryRegion) : Except Failure Unit := do
  reject (region.owner ≠ f.owner)
    (.valueError (f.label ++ ": region owner " ++ region.owner.value
      ++ " disagrees with reservation owner " ++ f.owner.value))
  reject (region.tier ≠ f.tier)
    (.valueError (f.label ++ ": region tier " ++ region.tier.name
      ++ " disagrees with reservation tier " ++ f.tier.name))
  reject (0 ≤ region.deviceIndex ∧ region.deviceIndex ≠ f.deviceIndex)
    (.valueError (f.label ++ ": region device " ++ toString region.deviceIndex
      ++ " disagrees with reservation device " ++ toString f.deviceIndex))
  reject ((region.nbytes : Int) < f.backedBytes)
    (.valueError (f.label ++ ": " ++ toString f.backedBytes
      ++ " backed bytes exceed region size " ++ toString region.nbytes))

/-- The checks of `__post_init__`, in order. -/
def check (f : Fields) : Except Failure Unit := do
  reject (isBlank f.label = true) (.valueError "a reservation must carry a label")
  reject (f.reservedBytes < 0 ∨ f.backedBytes < 0 ∨ f.charged < 0)
    (.valueError (f.label ++ ": byte counts must be non-negative"))
  reject (f.reservedBytes < f.backedBytes)
    (.valueError (f.label ++ ": backed_bytes=" ++ toString f.backedBytes
      ++ " exceeds reserved_bytes=" ++ toString f.reservedBytes
      ++ " -- physical pages cannot exceed the address space mapping them"))
  reject (f.reservedBytes < f.charged)
    (.valueError (f.label ++ ": charged_bytes=" ++ toString f.charged
      ++ " exceeds reserved_bytes=" ++ toString f.reservedBytes))
  reject (f.tier.allocatable = false)
    (.valueError (f.label ++ ": " ++ f.tier.name ++ " is not an allocatable tier"))
  match f.region with
  | none => pure ()
  | some region => checkRegion f region

structure Valid (f : Fields) : Prop where
  label : isBlank f.label = false
  reserved : 0 ≤ f.reservedBytes
  backed : 0 ≤ f.backedBytes
  charged : 0 ≤ f.charged
  backed_le : f.backedBytes ≤ f.reservedBytes
  charged_le : f.charged ≤ f.reservedBytes
  tier : f.tier.allocatable = true
  region : forall r, f.region = some r ->
    RegionFits f.owner f.tier f.deviceIndex f.backedBytes r

theorem checkRegion_eq_ok_iff {f : Fields} {region} {u : Unit} :
    checkRegion f region = .ok u <->
      RegionFits f.owner f.tier f.deviceIndex f.backedBytes region := by
  unfold checkRegion
  simp only [Executor.check_bind_eq_ok_iff, Executor.reject_eq_ok_iff, not_not, not_and, Int.not_lt]
  constructor
  · intro h
    exact ⟨h.1, h.2.1, h.2.2.1, h.2.2.2⟩
  · intro h
    exact ⟨h.owner, h.tier, h.device, h.size⟩

theorem check_eq_ok_iff : check f = .ok u <-> Valid f := by
  unfold check
  simp only [Executor.check_bind_eq_ok_iff, Executor.reject_eq_ok_iff, not_or, Int.not_lt,
    Bool.not_eq_true, Bool.not_eq_false]
  constructor
  · rintro ⟨hlabel, ⟨hreserved, hbacked, hcharged⟩, hbackedLe, hchargedLe, htier, hregion⟩
    refine ⟨hlabel, hreserved, hbacked, hcharged, hbackedLe, hchargedLe, htier, fun r hr => ?_⟩
    rw [hr] at hregion
    exact checkRegion_eq_ok_iff.mp hregion
  · intro h
    refine ⟨h.label, ⟨h.reserved, h.backed, h.charged⟩, h.backed_le, h.charged_le, h.tier, ?_⟩
    cases hregion : f.region with
    | none => rfl
    | some r => exact checkRegion_eq_ok_iff.mpr (h.region r hregion)

def ofValid (f : Fields) (h : Valid f) : Reservation where
  owner := f.owner
  label := f.label
  reservedBytes := f.reservedBytes.toNat
  backedBytes := f.backedBytes.toNat
  tier := f.tier
  deviceIndex := f.deviceIndex
  region := f.region
  chargedBytes := f.charged.toNat
  label_text := h.label
  backed_le := Int.toNat_le_toNat h.backed_le
  charged_le := Int.toNat_le_toNat h.charged_le
  allocatable := h.tier
  region_fits := fun r hr => by
    rw [Int.toNat_of_nonneg h.backed]
    exact h.region r hr

/-- The constructor; the charge defaults to the physical bytes. -/
def new (f : Fields) : Except Failure Reservation :=
  match hcheck : check f with
  | .error exc => .error exc
  | .ok () => .ok (ofValid f (check_eq_ok_iff.mp hcheck))

def fields (r : Reservation) : Fields where
  owner := r.owner
  label := r.label
  reservedBytes := r.reservedBytes
  backedBytes := r.backedBytes
  tier := r.tier
  deviceIndex := r.deviceIndex
  region := r.region
  chargedBytes := some (r.chargedBytes : Int)

/-- The same claim without physical bytes, as it is booked under a ticket. -/
def unbacked (r : Reservation) : Reservation :=
  { r with
    backedBytes := 0
    region := none
    backed_le := Nat.zero_le _
    region_fits := fun _ h => nomatch h }

end Reservation

/-- The handle on an open operation.  `object` is the identity of the handle: the
ledger numbers its own handles by their ids, and a copy made elsewhere is another
object. -/
structure Ticket where
  object : Nat
  ticketId : Nat
  label : String
  tier : MemoryTier
  fromTier : Option MemoryTier := none
  deriving DecidableEq, Repr

structure PendingOp where
  ticket : Ticket
  destination : Reservation
  sourceLabel : Option String := none
  sourceSnapshot : Option Reservation := none
  materialized : Bool := false
  deriving DecidableEq, Repr

structure MemoryLedger where
  accounts : Dict MemoryTier TierAccount
  deviceIndex : Int
  entries : Dict String Reservation
  pending : Dict Nat PendingOp
  claimedLabels : Dict String Nat
  lockedSources : Dict String Nat
  nextId : Nat

abbrev LedgerM := EStateM Failure MemoryLedger

namespace MemoryLedger

def addAccounts : List TierAccount -> Dict MemoryTier TierAccount ->
    Except Failure (Dict MemoryTier TierAccount)
  | [], accounts => .ok accounts
  | account :: rest, accounts =>
    if accounts.contains account.tier then
      .error (.valueError ("duplicate account for " ++ account.tier.name))
    else
      addAccounts rest (accounts.set account.tier account)

/-- `__init__`. -/
def new (accounts : List TierAccount) (deviceIndex : Int := 0) : Except Failure MemoryLedger := do
  reject (accounts = []) (.valueError "a ledger needs at least one tier account")
  let byTier <- addAccounts accounts Dict.empty
  pure
    { accounts := byTier
      deviceIndex
      entries := Dict.empty
      pending := Dict.empty
      claimedLabels := Dict.empty
      lockedSources := Dict.empty
      nextId := 1 }

/-! ## Reads -/

def account (s : MemoryLedger) (tier : MemoryTier) : Except Failure TierAccount :=
  match s.accounts.get? tier with
  | some account => .ok account
  | none =>
    let carried := s.accounts.keys.mergeSort fun a b => decide (a.rank ≤ b.rank)
    .error (.keyError ("no " ++ tier.name
      ++ " account on this ledger; it carries ["
      ++ ", ".intercalate (carried.map fun t => "'" ++ t.name ++ "'") ++ "]"))

def requireAccount (s : MemoryLedger) (tier : MemoryTier) : Except Failure Unit := do
  let _ <- s.account tier
  pure ()

def chargeOn (tier : MemoryTier) (r : Reservation) : Nat :=
  if r.tier = tier then r.chargedBytes else 0

section

variable (s : MemoryLedger) (tier : MemoryTier)

/-- `_committed_locked`. -/
def committed : Nat :=
  s.entries.sumBy fun _ r => chargeOn tier r

/-- `_pending_locked`. -/
def pendingCharge : Nat :=
  s.pending.sumBy fun _ op => chargeOn tier op.destination

def held : Nat :=
  s.committed tier + s.pendingCharge tier

end

def addTotal (totals : Dict MemoryOwner Nat) (owner : MemoryOwner) (bytes : Nat) :
    Dict MemoryOwner Nat :=
  totals.set owner ((totals.get? owner).getD 0 + bytes)

/-- `_by_owner_locked`. -/
def byOwner (s : MemoryLedger) (tier : MemoryTier) : Dict MemoryOwner Nat :=
  (s.entries.values.filter (fun r => r.tier = tier)).foldl
    (fun totals r => addTotal totals r.owner r.chargedBytes) Dict.empty

def formatOwners (totals : Dict MemoryOwner Nat) : String :=
  if totals.entries = [] then
    "(nothing reserved)"
  else
    ", ".intercalate ((totals.entries.mergeSort fun a b => decide (b.2 ≤ a.2)).map
      fun entry => entry.1.value ++ "=" ++ toString (entry.2 >>> 20) ++ "MiB")

section

variable (s : MemoryLedger)

/-- `_check_capacity_locked`: what is held, less the entry and the ticket left out,
and the claim fit into the tier. -/
def checkCapacity (r : Reservation) (excluding : Option String) (excludingPending : Option Nat) :
    Except Failure Unit := do
  let account <- s.account r.tier
  let committed := s.entries.sumBy fun label entry =>
    if some label = excluding then 0 else chargeOn r.tier entry
  let pending := s.pending.sumBy fun id op =>
    if some id = excludingPending then 0 else chargeOn r.tier op.destination
  reject (account.capacityBytes < committed + pending + r.chargedBytes)
    (.memoryError ("cannot reserve " ++ toString (r.chargedBytes >>> 20) ++ " MiB on "
      ++ r.tier.name ++ " for " ++ r.owner.value ++ " ('" ++ r.label ++ "'): "
      ++ toString ((committed + pending) >>> 20) ++ " MiB of a "
      ++ toString (account.capacityBytes >>> 20) ++ " MiB capacity is already held, leaving "
      ++ toString (((account.capacityBytes : Int) - committed - pending) >>> 20)
      ++ " MiB. By owner: "
      ++ formatOwners (s.byOwner r.tier)))

def assertWithinCapacity : Except Failure Unit :=
  s.accounts.entries.forM fun entry =>
    reject (entry.2.capacityBytes < s.held entry.1)
      (.memoryError (entry.1.name ++ " over capacity: " ++ toString (s.held entry.1 >>> 20)
        ++ " MiB held against " ++ toString (entry.2.capacityBytes >>> 20) ++ " MiB. By owner: "
        ++ formatOwners (s.byOwner entry.1)))

/-- `_require_ticket_locked`: the handle itself, not one that looks like it. -/
def requireTicket (ticket : Ticket) : Except Failure PendingOp :=
  match s.pending.get? ticket.ticketId with
  | none =>
    .error (.keyError ("ticket " ++ toString ticket.ticketId ++ " is not open"))
  | some op =>
    if op.ticket ≠ ticket then
      .error (.valueError ("ticket " ++ toString ticket.ticketId
        ++ " does not belong to this ledger transaction"))
    else
      .ok op

/-- `_require_unlocked_source_locked`. -/
def requireUnlocked (label : String) : Except Failure Unit :=
  match s.lockedSources.get? label with
  | none => .ok ()
  | some id =>
    .error (.runtimeError ("reservation '" ++ label
      ++ "' is the source of open transfer ticket " ++ toString id))

def entry (label missing : String) : Except Failure Reservation :=
  match s.entries.get? label with
  | none => .error (.keyError missing)
  | some current => .ok current

/-- The check of `_claim_label_locked`. -/
def checkLabel (label : String) (sourceLabel : Option String) : Except Failure Unit :=
  reject (s.claimedLabels.contains label = true
      ∨ (s.entries.contains label = true ∧ some label ≠ sourceLabel))
    (.valueError ("duplicate reservation label '" ++ label
      ++ "'; release it first or pick a distinct label"))

/-! ## Changes -/

def drawId : MemoryLedger :=
  { s with nextId := s.nextId + 1 }

end

section

variable (op : PendingOp) (s : MemoryLedger)

def book : MemoryLedger :=
  { s with
    pending := s.pending.set op.ticket.ticketId op
    claimedLabels := s.claimedLabels.set op.destination.label op.ticket.ticketId
    lockedSources := op.sourceLabel.elim s.lockedSources fun label =>
      s.lockedSources.set label op.ticket.ticketId }

/-- `_finish_ticket_locked`. -/
def finishTicket : MemoryLedger :=
  { s with
    pending := s.pending.erase op.ticket.ticketId
    claimedLabels := s.claimedLabels.erase op.destination.label
    lockedSources := op.sourceLabel.elim s.lockedSources fun label =>
      s.lockedSources.erase label }

def rewrite : MemoryLedger :=
  { s with pending := s.pending.set op.ticket.ticketId op }

/-- The entries once an operation is committed: the source goes as the destination
comes. -/
def publish : MemoryLedger :=
  { s with
    entries := (op.sourceLabel.elim s.entries fun label => s.entries.erase label).set
      op.destination.label op.destination }

end

def setEntry (label : String) (r : Reservation) (s : MemoryLedger) : MemoryLedger :=
  { s with entries := s.entries.set label r }

def dropEntry (label : String) (s : MemoryLedger) : MemoryLedger :=
  { s with entries := s.entries.erase label }

/-! ## The verbs -/

/-- `reserve`.  The id is drawn before the label is claimed. -/
def reserve (r : Reservation) : LedgerM Ticket := do
  query fun s => s.requireAccount r.tier
  query fun s => s.checkCapacity r none none
  let s <- get
  let ticket : Ticket :=
    { object := s.nextId, ticketId := s.nextId, label := r.label, tier := r.tier }
  modify drawId
  query fun s => s.checkLabel r.label none
  modify (book { ticket, destination := r.unbacked })
  pure ticket

def materialize (ticket : Ticket) (actualBytes : Int) (region : Option MemoryRegion) :
    LedgerM Unit := do
  if actualBytes < 0 then
    throw (.valueError "actual_bytes must be non-negative")
  else
    let op <- query fun s => s.requireTicket ticket
    if op.materialized then
      throw (.runtimeError ("ticket " ++ toString ticket.ticketId
        ++ " is already materialized"))
    else
      let updated <- query fun _ => Reservation.new
        { op.destination.fields with
          backedBytes := actualBytes
          chargedBytes := some (max (op.destination.chargedBytes : Int) actualBytes)
          region }
      query fun s => s.checkCapacity updated none (some ticket.ticketId)
      modify (rewrite { op with destination := updated, materialized := true })

/-- The check of `commit` that the source of a transfer is what it was. -/
def checkSource (s : MemoryLedger) (op : PendingOp) : Except Failure Unit :=
  match op.sourceLabel with
  | none => .ok ()
  | some label =>
    reject (s.entries.get? label ≠ op.sourceSnapshot)
      (.runtimeError ("transfer source '" ++ label ++ "' changed while ticket "
        ++ toString op.ticket.ticketId ++ " was open"))

def commit (ticket : Ticket) : LedgerM Unit := do
  let op <- query fun s => s.requireTicket ticket
  if op.materialized = false then
    throw (.runtimeError ("ticket " ++ toString ticket.ticketId
      ++ " has reserved capacity but no materialized bytes"))
  else
    query fun s => s.checkSource op
    modify (publish op)
    modify (finishTicket op)

def rollback (ticket : Ticket) : LedgerM Unit := do
  let op <- query fun s => s.requireTicket ticket
  modify (finishTicket op)

def release (label : String) : LedgerM (Option Reservation) := do
  query fun s => s.requireUnlocked label
  let s <- get
  modify (dropEntry label)
  pure (s.entries.get? label)

/-- The source of a transfer and its destination, once all is checked but the
destination's label. -/
def planTransfer (s : MemoryLedger) (label : String) (toTier : MemoryTier)
    (newLabel : Option String) : Except Failure (Reservation × Reservation) := do
  let current <- s.entry label ("no reservation labelled '" ++ label ++ "' to transfer")
  reject (current.tier = toTier)
    (.valueError ("'" ++ label ++ "' is already on " ++ toTier.name))
  s.requireUnlocked label
  s.requireAccount toTier
  let destination <- Reservation.new
    { current.fields with
      tier := toTier
      label := match newLabel with
        | none => label
        | some text => if text = "" then label else text
      backedBytes := 0
      region := none }
  s.checkCapacity destination none none
  pure (current, destination)

def transfer (label : String) (toTier : MemoryTier) (newLabel : Option String) :
    LedgerM Ticket := do
  let plan <- query fun s => s.planTransfer label toTier newLabel
  let s <- get
  let ticket : Ticket :=
    { object := s.nextId
      ticketId := s.nextId
      label
      tier := toTier
      fromTier := some plan.1.tier }
  modify drawId
  query fun s => s.checkLabel plan.2.label (some label)
  modify (book
    { ticket
      destination := plan.2
      sourceLabel := some label
      sourceSnapshot := some plan.1 })
  pure ticket

/-- The handler of `admit`. -/
def abandon (ticket : Ticket) (exc : Failure) : LedgerM Unit := do
  let s <- get
  if s.pending.contains ticket.ticketId then
    rollback ticket
    throw exc
  else
    throw exc

/-- `admit`: reserve and commit in one step. -/
def admitReservation (r : Reservation) : LedgerM Unit := do
  let ticket <- reserve r
  tryCatch
    (do
      materialize ticket r.backedBytes r.region
      commit ticket)
    (abandon ticket)

def update (label : String) (backedBytes : Int) (reservedBytes chargedBytes : Option Int) :
    LedgerM Unit := do
  query fun s => s.requireUnlocked label
  let current <- query fun s => s.entry label ("no reservation labelled '" ++ label ++ "'")
  let updated <- query fun _ => Reservation.new
    { current.fields with
      backedBytes
      chargedBytes := some (chargedBytes.getD backedBytes)
      reservedBytes := reservedBytes.getD backedBytes }
  query fun s => s.checkCapacity updated (some label) none
  modify (setEntry label updated)

def ownedBy (owner : MemoryOwner) (tier : Option MemoryTier) (r : Reservation) : Bool :=
  decide (r.owner = owner) && tier.all (fun t => r.tier = t)

/-- `release_owner`: all its entries go or, if one may not, none. -/
def releaseOwner (owner : MemoryOwner) (tier : Option MemoryTier) : LedgerM Nat := do
  let s <- get
  let waiting := (s.pending.values.filter (fun op => ownedBy owner tier op.destination)).map
    fun op => op.ticket.ticketId
  if waiting ≠ [] then
    throw (.runtimeError ("cannot release owner " ++ owner.value ++ ": open tickets "
      ++ toString waiting))
  else
    let owned := s.entries.entries.filter (fun entry => ownedBy owner tier entry.2)
    query fun s => owned.forM fun entry => s.requireUnlocked entry.1
    owned.forM fun entry => modify (dropEntry entry.1)
    pure (owned.map (fun entry => entry.2.chargedBytes)).sum

end MemoryLedger

end Ledger
end Ayaka
