import Ayaka.Foundation.Lockstep
import Ayaka.Executor.Failure

/-!
# Agreement on a collective backend

Every rank of a group builds a custom communicator if it can, receives the profile of
the source rank, votes on it, and after a refusal closes what it has built and
exchanges reasons.  All of it runs over one control channel, whose operations need
every rank to issue the same one.

An operation carries the purpose it is issued for, which the channel itself does not
know: an exchange is in order only when every rank issues it for the same purpose.
Texts are what they encode; the digests of the wire form are left out, and so are the
deadlines.  The closing of a communicator is reduced to its exchange, which is all
others see of it.
-/

namespace Ayaka
namespace CollectiveBackend

open Foundation
open Executor (Failure)

/-! ## Reasons -/

inductive CollectiveReason where
  | ok
  | singleton
  | policyTorch
  | unsupportedPlatform
  | customUnavailable
  | unsupportedDtype
  | unsupportedOp
  | unsupportedLayout
  | unsupportedSize
  | p2pUnverified
  | atomicUnsupported
  | workspaceUnavailable
  | graphUncertified
  | generationMismatch
  | rankDisagreement
  | prelaunchFailed
  | postlaunchFailed
  deriving DecidableEq, Repr

namespace CollectiveReason

/-- `_REASON_RANK`, which has no place for the two codes of call metrics. -/
def priority? : CollectiveReason -> Option Nat
  | generationMismatch => some 0
  | workspaceUnavailable => some 1
  | atomicUnsupported => some 2
  | p2pUnverified => some 3
  | graphUncertified => some 4
  | unsupportedDtype => some 5
  | unsupportedOp => some 6
  | unsupportedLayout => some 7
  | unsupportedSize => some 8
  | unsupportedPlatform => some 9
  | customUnavailable => some 10
  | rankDisagreement => some 11
  | policyTorch => some 12
  | singleton => some 13
  | ok => some 14
  | prelaunchFailed => none
  | postlaunchFailed => none

/-- `_REASON_RANK[reason]`. -/
def priority (reason : CollectiveReason) : Except Failure Nat :=
  reason.priority?.elim (.error (.keyError (
    if reason = prelaunchFailed then "<CollectiveReason.PRELAUNCH_FAILED: 'prelaunch_failed'>"
    else "<CollectiveReason.POSTLAUNCH_FAILED: 'postlaunch_failed'>"))) .ok

end CollectiveReason

/-- The loop of `min`: a later reason replaces the best only when it is strictly smaller. -/
def leastReason (best : CollectiveReason) (rank : Nat) :
    List CollectiveReason -> Except Failure CollectiveReason
  | [] => .ok best
  | reason :: rest => do
    let place <- reason.priority
    if place < rank then leastReason reason place rest else leastReason best rank rest

def groupReason : List CollectiveReason -> Except Failure CollectiveReason
  | [] => .error (.valueError "a group reason needs at least one rank reason")
  | reason :: rest => do
    let place <- reason.priority
    leastReason reason place rest

/-! ## Capabilities and plans -/

/-- A custom backend, by the digest ranks compare. -/
structure CustomCapability where
  fingerprint : String
  deriving DecidableEq, Repr

structure CollectiveCapability where
  groupName : String
  ranks : List Int
  worldSize : Nat
  localRank : Nat
  sessionGeneration : Nat × Nat
  custom : Option CustomCapability := none
  reason : CollectiveReason := .customUnavailable
  probeAgreementKey : String := ""
  verifiedRankPairs : List (Nat × Nat) := []
  deriving DecidableEq, Repr

def CollectiveCapability.admissionReason (own proposed : CollectiveCapability) : CollectiveReason :=
  if proposed.groupName ≠ own.groupName ∨ proposed.ranks ≠ own.ranks
      ∨ proposed.worldSize ≠ own.worldSize then
    .rankDisagreement
  else if proposed.sessionGeneration ≠ own.sessionGeneration then
    .generationMismatch
  else if own.reason ≠ .ok then
    own.reason
  else if proposed.reason ≠ .ok then
    proposed.reason
  else if proposed.probeAgreementKey ≠ own.probeAgreementKey then
    .p2pUnverified
  else if proposed.verifiedRankPairs ≠ own.verifiedRankPairs then
    .p2pUnverified
  else if own.custom ≠ proposed.custom then
    -- one is missing, or the fingerprints differ
    .rankDisagreement
  else
    .ok

/-- The policies that need an agreement. -/
inductive CollectivePolicy where
  | auto
  | customRequired
  deriving DecidableEq, Repr

structure CollectivePlan where
  requestedPolicy : CollectivePolicy
  enabled : Bool
  reason : CollectiveReason
  capability : Option CollectiveCapability
  deriving DecidableEq, Repr

/-! ## The channel -/

inductive Purpose where
  | profile
  | closeAck
  | groupReason
  deriving DecidableEq, Repr

inductive Text where
  | plan (plan : CollectivePlan)
  | closeAck (rank : Nat)
  | reason (reason : CollectiveReason)
  /-- Anything else. -/
  | foreign
  deriving DecidableEq, Repr

inductive ChannelOp where
  | broadcast (purpose : Purpose) (source : Nat) (text : Option Text)
  | allGrant (purpose : Purpose) (vote : Bool)
  deriving DecidableEq, Repr

inductive Reply where
  | text (text : Text)
  | grant (granted : Bool)
  deriving DecidableEq, Repr

namespace ChannelOp

/-- The operation without what the rank puts in: all ranks have to issue the same. -/
def shape : ChannelOp -> Purpose × Option Nat
  | broadcast purpose source _ => (purpose, some source)
  | allGrant purpose _ => (purpose, none)

def text? : ChannelOp -> Option Text
  | broadcast _ _ text => text
  | allGrant _ _ => none

def votes : ChannelOp -> Bool
  | broadcast _ _ _ => false
  | allGrant _ vote => vote

end ChannelOp

/-- The channel over `n + 2` ranks: it answers a round whose operations are all of one
shape, a broadcast with the text of its source, and votes with their conjunction. -/
def answer {n : Nat} (ops : Fin (n + 2) -> ChannelOp) : Option Reply :=
  if forall r, (ops r).shape = (ops 0).shape then
    (ops 0).shape.2.elim (some (.grant (decide (forall r, (ops r).votes = true))))
      fun source =>
        if h : source < n + 2 then (ops ⟨source, h⟩).text?.map .text else none
  else
    none

abbrev ChannelM := Proc ChannelOp Reply

def broadcastText (purpose : Purpose) (source : Nat) (text : Option Text) : ChannelM Text :=
  .call (.broadcast purpose source text) fun
    | .text text => .done text
    | .grant _ => .done .foreign

def allGrant (purpose : Purpose) (vote : Bool) : ChannelM Bool :=
  .call (.allGrant purpose vote) fun
    | .text _ => .done false
    | .grant granted => .done granted

/-- `_ordered_exchange` over the sources in order. -/
def orderedExchange (purpose : Purpose) (rank : Nat) (own : Text) : List Nat -> ChannelM (List Text)
  | [] => pure []
  | source :: rest => do
    let text <- broadcastText purpose source (if source = rank then some own else none)
    let texts <- orderedExchange purpose rank own rest
    pure (text :: texts)

/-- `CustomAllReduce.close` of a communicator of two ranks that was never used: the
exchange of acknowledgements.  It never raises. -/
def closeCustom (rank : Nat) : ChannelM Unit := do
  let _ <- orderedExchange .closeAck rank (.closeAck rank) (List.range 2)
  pure ()

/-! ## One rank -/

inductive Factory where
  | missing
  | fails
  | returns
  deriving DecidableEq, Repr

structure Participant where
  rank : Nat
  worldSize : Nat
  policy : CollectivePolicy
  capability : CollectiveCapability
  factory : Factory
  deriving DecidableEq, Repr

/-- How a call of `setup_collective_backend` ends. -/
inductive Outcome where
  | backend (plan : CollectivePlan)
  | agreementError (reason : CollectiveReason)
  | raised (exc : Failure)
  deriving DecidableEq, Repr

namespace Participant

section

variable (p : Participant)

def built : Bool :=
  p.capability.reason = .ok ∧ p.factory = .returns

def localReason : CollectiveReason :=
  if p.capability.reason = .ok then
    match p.factory with
    | .missing => .customUnavailable
    | .fails => .workspaceUnavailable
    | .returns => .ok
  else
    p.capability.reason

def proposal : CollectivePlan where
  requestedPolicy := p.policy
  enabled := p.localReason = .ok
  reason := p.localReason
  capability := some p.capability

/-- From the received text to the reason this rank admits it with. -/
def admittedReason : Text -> Except Failure CollectiveReason
  | .plan decoded =>
    if p.rank = 0 ∧ decoded ≠ p.proposal then
      .error (.runtimeError "source plan changed during broadcast")
    else
      .ok (decoded.capability.elim .rankDisagreement fun proposed =>
        if p.localReason ≠ .ok then p.localReason
        else p.capability.admissionReason proposed)
  | _ => .error (.valueError "collective plan wire payload is not valid JSON")

def closeIfBuilt : ChannelM Unit :=
  if p.built then closeCustom p.rank else pure ()

def refusal (admitted : CollectiveReason) : CollectiveReason :=
  if p.localReason ≠ .ok then p.localReason
  else if admitted ≠ .ok then admitted
  else .rankDisagreement

end

/-- `CollectiveReason(received)`. -/
def decodeReason : Text -> Except Failure CollectiveReason
  | .reason reason => .ok reason
  | .closeAck rank => .error (.valueError
      ("'close-ack:" ++ toString rank ++ "' is not a valid CollectiveReason"))
  | _ => .error (.valueError "the text is not a valid CollectiveReason")

/-- The loop of `_broadcast_group_reason`. -/
def broadcastReasons (rank : Nat) (own : CollectiveReason) :
    List Nat -> List CollectiveReason -> ChannelM (Except Failure (List CollectiveReason))
  | [], reasons => pure (.ok reasons)
  | source :: rest, reasons => do
    let received <- broadcastText .groupReason source
      (if source = rank then some (.reason own) else none)
    match decodeReason received with
    | .error exc => pure (.error exc)
    | .ok reason => broadcastReasons rank own rest (reasons ++ [reason])

section

variable (p : Participant)

/-- The plan of a group that agreed; the dispatcher insists on a communicator. -/
def agreed : Outcome :=
  if p.built then
    .backend
      { requestedPolicy := p.policy
        enabled := true
        reason := .ok
        capability := some p.capability }
  else
    .raised (.valueError "an enabled plan requires a custom backend")

def disagreed : Except Failure CollectiveReason -> Outcome
  | .error exc => .raised exc
  | .ok resolved =>
    match p.policy with
    | .customRequired => .agreementError resolved
    | .auto => .backend
        { requestedPolicy := p.policy
          enabled := false
          reason := resolved
          capability := some p.capability }

/-- After a refusal: close, then exchange the reasons. -/
def refuse (admitted : CollectiveReason) : ChannelM Outcome := do
  p.closeIfBuilt
  let reasons <- broadcastReasons p.rank (p.refusal admitted) (List.range p.worldSize) []
  pure (p.disagreed (reasons >>= groupReason))

/-- The vote and what follows it. -/
def vote (admitted : CollectiveReason) : ChannelM Outcome := do
  let granted <- allGrant .profile (admitted = .ok)
  if granted then pure p.agreed else p.refuse admitted

/-- `setup_collective_backend`, past the checks of its arguments. -/
def setup : ChannelM Outcome := do
  let received <- broadcastText .profile 0
    (if p.rank = 0 then some (.plan p.proposal) else none)
  match p.admittedReason received with
  | .error exc => do
    p.closeIfBuilt
    pure (.raised exc)
  | .ok admitted => p.vote admitted

end

end Participant

/-! ## The group -/

/-- A group of at least two ranks with one policy; the capability of each rank describes
the group, as `_group_matches_capability` checks. -/
structure SetupGroup (n : Nat) where
  policy : CollectivePolicy
  name : String
  ranks : List Int
  capability : Fin (n + 2) -> CollectiveCapability
  factory : Fin (n + 2) -> Factory
  describes : forall r, (capability r).groupName = name ∧ (capability r).ranks = ranks
    ∧ (capability r).worldSize = n + 2 ∧ (capability r).localRank = r

namespace SetupGroup

variable {n : Nat}

def participant (g : SetupGroup n) (r : Fin (n + 2)) : Participant where
  rank := r
  worldSize := n + 2
  policy := g.policy
  capability := g.capability r
  factory := g.factory r

/-- All ranks run the setup in lockstep, with these outcomes. -/
def Runs (g : SetupGroup n) (outcomes : Fin (n + 2) -> Outcome) : Prop :=
  Lockstep answer (fun r => (g.participant r).setup) outcomes

end SetupGroup
end CollectiveBackend
end Ayaka
