import Ayaka.DeviceComm.CollectiveSetup

/-!
# The routes of matched collectives

Once a group has agreed on a custom backend, every rank routes each `all_reduce` by
itself: from the agreed profile, from its own tensor, and from what its communicator
refuses before a launch.

The calls are made on the agreed group under the policy `auto`, no graph is captured
and no rank has failed, so that the checks of these never answer.  What the launcher
refuses, and whether a tensor lies on the communicator's device, are given.
-/

namespace Ayaka
namespace CollectiveRoutes

open Executor (Failure reject check_bind_eq_ok_iff)
open CollectiveBackend (CollectiveReason)

inductive CommOpType where
  | sum
  | other (value : String)
  deriving DecidableEq

variable {dtype : Type} [DecidableEq dtype]

/-- The part of the agreed profile a call is checked against. -/
structure CustomCapability (dtype : Type) where
  supportedOps : List CommOpType
  supportedDtypes : List dtype
  minBytes : Nat
  maxBytes : Option Nat
  alignment : Nat

structure CustomAllReduceConfig (dtype : Type) where
  bucketBytes : Nat
  supportedDtypes : List dtype
  alignment : Nat
  minBytes : Nat
  epochLimit : Nat

structure Call (dtype : Type) where
  op : CommOpType
  dtype : dtype
  contiguous : Bool
  numel : Nat
  elementSize : Nat

/-- What a call has of its own on a rank. -/
structure Local where
  dataPtr : Nat
  onDevice : Bool := true
  launcherRefuses : Bool := false

structure DispatchDecision where
  custom : Bool
  reason : CollectiveReason
  noop : Bool := false

def torch (reason : CollectiveReason) : DispatchDecision :=
  { custom := false, reason }

def Call.nbytes (call : Call dtype) : Nat :=
  call.numel * call.elementSize

/-- `evaluate`, from the check of the operation on. -/
def evaluate (custom : CustomCapability dtype) (call : Call dtype) (dataPtr : Nat) :
    DispatchDecision :=
  if call.op ∉ custom.supportedOps then
    torch .unsupportedOp
  else if call.dtype ∉ custom.supportedDtypes then
    torch .unsupportedDtype
  else if ¬ call.contiguous then
    torch .unsupportedLayout
  else if call.numel = 0 then
    { custom := true, reason := .ok, noop := true }
  else if 1 < custom.alignment ∧ dataPtr % custom.alignment ≠ 0 then
    torch .unsupportedLayout
  else if call.nbytes < custom.minBytes ∨ custom.maxBytes.any fun most => most < call.nbytes then
    torch .unsupportedSize
  else
    { custom := true, reason := .ok }

def validateTensor (config : CustomAllReduceConfig dtype) (call : Call dtype) (own : Local) :
    Except Failure Unit :=
  if call.numel = 0 then
    .ok ()
  else do
    reject (¬ own.onDevice)
      (.exception "custom all-reduce tensor must live on the communicator's device")
    reject (call.dtype ∉ config.supportedDtypes)
      (.exception "custom all-reduce does not support this dtype")
    reject (¬ call.contiguous) (.exception "custom all-reduce requires a contiguous tensor")
    reject (call.nbytes < config.minBytes)
      (.exception ("custom all-reduce payload " ++ toString call.nbytes ++ " bytes is below the "
        ++ toString config.minBytes ++ "-byte floor"))
    reject (config.bucketBytes < call.nbytes)
      (.exception ("custom all-reduce payload " ++ toString call.nbytes
        ++ " bytes exceeds the agreed " ++ toString config.bucketBytes ++ "-byte bucket"))
    reject (call.nbytes % config.alignment ≠ 0 ∨ own.dataPtr % config.alignment ≠ 0)
      (.exception "custom all-reduce payload must be 16-byte aligned in pointer and byte length")

/-- `CustomAllReduce.all_reduce` of a rank at an epoch: the epoch after it, or the error
raised before the launch, which leaves the epoch as it was. -/
def customAllReduce (config : CustomAllReduceConfig dtype) (call : Call dtype) (own : Local)
    (epoch : Nat) : Except Failure Nat := do
  reject (call.op ≠ .sum) (.exception "custom all-reduce only implements SUM")
  validateTensor config call own
  if call.numel = 0 then
    return epoch
  reject (config.epochLimit < epoch + 1) (.exception ("custom all-reduce epoch limit "
    ++ toString config.epochLimit
    ++ " reached; the workspace is retired instead of wrapping"))
  reject own.launcherRefuses (.exception "refused by the launcher")
  return epoch + 1

/-- Where a call ends up; an empty one enters no backend. -/
inductive Route where
  | none
  | custom
  | torch
  deriving DecidableEq

/-- `all_reduce`: the route of a call, and the epoch after it. -/
def allReduce (custom : CustomCapability dtype) (config : CustomAllReduceConfig dtype)
    (call : Call dtype) (own : Local) (epoch : Nat) : Route × Nat :=
  let decision := evaluate custom call own.dataPtr
  if decision.noop then
    (.none, epoch)
  else if ¬ decision.custom then
    (.torch, epoch)
  else
    match customAllReduce config call own epoch with
    | .ok epoch => (.custom, epoch)
    | .error _ => (.torch, epoch)

/-! ## Runs -/

variable {rank : Type}

abbrev Matched (dtype rank : Type) := Call dtype × (rank -> Local)

/-- The routes every rank takes, call by call, from its epoch on. -/
def routes (custom : CustomCapability dtype) (configs : rank -> CustomAllReduceConfig dtype) :
    List (Matched dtype rank) -> (rank -> Nat) -> List (rank -> Route)
  | [], _ => []
  | (call, own) :: calls, epochs =>
    (fun r => (allReduce custom (configs r) call (own r) (epochs r)).1) ::
      routes custom configs calls fun r =>
        (allReduce custom (configs r) call (own r) (epochs r)).2

/-- The agreed profile and the communicator let the call through, as far as all ranks see
the same. -/
structure Eligible (custom : CustomCapability dtype) (config : CustomAllReduceConfig dtype)
    (call : Call dtype) : Prop where
  profileOp : call.op ∈ custom.supportedOps
  profileDtype : call.dtype ∈ custom.supportedDtypes
  contiguous : call.contiguous = true
  nonempty : call.numel ≠ 0
  profileSize : ¬ (call.nbytes < custom.minBytes ∨
    custom.maxBytes.any fun most => most < call.nbytes)
  op : call.op = .sum
  dtype : call.dtype ∈ config.supportedDtypes
  size : config.minBytes ≤ call.nbytes ∧ call.nbytes ≤ config.bucketBytes
  aligned : call.nbytes % config.alignment = 0

/-- Nothing that a rank has of its own stands against the custom backend. -/
structure Accepts (custom : CustomCapability dtype) (config : CustomAllReduceConfig dtype)
    (own : Local) : Prop where
  profile : 1 < custom.alignment -> own.dataPtr % custom.alignment = 0
  aligned : own.dataPtr % config.alignment = 0
  device : own.onDevice = true
  launcher : own.launcherRefuses = false

/-- Where it can matter, two ranks accept or neither does. -/
def Alike (custom : CustomCapability dtype) (config : CustomAllReduceConfig dtype)
    (call : Call dtype) (own own' : Local) : Prop :=
  Eligible custom config call -> (Accepts custom config own <-> Accepts custom config own')

section

variable {custom : CustomCapability dtype} {config : CustomAllReduceConfig dtype}
  {call : Call dtype} {own own' : Local}

theorem evaluate_noop (hne : call.numel ≠ 0) (dataPtr : Nat) :
    (evaluate custom call dataPtr).noop = false := by
  unfold evaluate torch
  split_ifs <;> rfl

theorem evaluate_custom_iff (hne : call.numel ≠ 0) (dataPtr : Nat) :
    (evaluate custom call dataPtr).custom = true <-> call.op ∈ custom.supportedOps
      ∧ call.dtype ∈ custom.supportedDtypes ∧ call.contiguous = true
      ∧ (1 < custom.alignment -> dataPtr % custom.alignment = 0)
      ∧ ¬ (call.nbytes < custom.minBytes ∨
        custom.maxBytes.any fun most => most < call.nbytes) := by
  unfold evaluate torch
  split_ifs <;> simp_all

theorem customAllReduce_eq_ok_iff (hne : call.numel ≠ 0) (epoch next : Nat) :
    customAllReduce config call own epoch = .ok next <-> call.op = .sum
      ∧ own.onDevice = true ∧ call.dtype ∈ config.supportedDtypes ∧ call.contiguous = true
      ∧ config.minBytes ≤ call.nbytes ∧ call.nbytes ≤ config.bucketBytes
      ∧ (call.nbytes % config.alignment = 0 ∧ own.dataPtr % config.alignment = 0)
      ∧ epoch < config.epochLimit ∧ own.launcherRefuses = false ∧ epoch + 1 = next := by
  unfold customAllReduce validateTensor
  simp [check_bind_eq_ok_iff, hne, pure, Except.pure, and_assoc]

theorem allReduce_custom (hcall : Eligible custom config call) (hown : Accepts custom config own)
    (hepoch : epoch < config.epochLimit) :
    allReduce custom config call own epoch = (.custom, epoch + 1) := by
  have hne := hcall.nonempty
  have hcustom := (evaluate_custom_iff hne own.dataPtr).mpr
    ⟨hcall.profileOp, hcall.profileDtype, hcall.contiguous, hown.profile, hcall.profileSize⟩
  have hlaunched : customAllReduce config call own epoch = .ok (epoch + 1) :=
    (customAllReduce_eq_ok_iff hne epoch (epoch + 1)).mpr ⟨hcall.op, hown.device, hcall.dtype,
      hcall.contiguous, hcall.size.1, hcall.size.2, ⟨hcall.aligned, hown.aligned⟩, hepoch,
      hown.launcher, rfl⟩
  simp [allReduce, evaluate_noop hne, hcustom, hlaunched]

theorem allReduce_torch (hne : call.numel ≠ 0) (h : Eligible custom config call ->
    Accepts custom config own -> ¬ epoch < config.epochLimit) :
    allReduce custom config call own epoch = (.torch, epoch) := by
  unfold allReduce
  dsimp only
  rw [if_neg (by simp [evaluate_noop hne])]
  by_cases hcustom : (evaluate custom call own.dataPtr).custom = true
  · rw [if_neg (not_not.mpr hcustom)]
    rcases (evaluate_custom_iff hne own.dataPtr).mp hcustom with
      ⟨hprofileOp, hprofileDtype, hcontiguous, hprofile, hprofileSize⟩
    cases hlaunched : customAllReduce config call own epoch with
    | error e => rfl
    | ok next =>
      rcases (customAllReduce_eq_ok_iff hne epoch next).mp hlaunched with
        ⟨hop, hdevice, hdtype, _, hmin, hmax, ⟨hbytes, haligned⟩, hepoch, hlauncher, _⟩
      exact absurd hepoch (h ⟨hprofileOp, hprofileDtype, hcontiguous, hne, hprofileSize, hop,
        hdtype, ⟨hmin, hmax⟩, hbytes⟩ ⟨hprofile, haligned, hdevice, hlauncher⟩)
  · rw [if_pos hcustom]

/-- The route of an empty call reads nothing of the rank's own. -/
theorem allReduce_empty (hempty : call.numel = 0) (epoch : Nat) :
    allReduce custom config call own epoch = allReduce custom config call own' epoch := by
  simp [allReduce, evaluate, customAllReduce, validateTensor, hempty]

theorem allReduce_alike (h : Alike custom config call own own') (epoch : Nat) :
    allReduce custom config call own epoch = allReduce custom config call own' epoch := by
  by_cases hempty : call.numel = 0
  · exact allReduce_empty hempty epoch
  by_cases henters : Eligible custom config call ∧ Accepts custom config own ∧
      epoch < config.epochLimit
  · rcases henters with ⟨hcall, hown, hepoch⟩
    rw [allReduce_custom hcall hown hepoch, allReduce_custom hcall ((h hcall).mp hown) hepoch]
  · have htorch : Eligible custom config call -> Accepts custom config own ->
        ¬ epoch < config.epochLimit :=
      fun hcall hown hepoch => henters ⟨hcall, hown, hepoch⟩
    rw [allReduce_torch hempty htorch,
      allReduce_torch hempty fun hcall hown' => htorch hcall ((h hcall).mpr hown')]

end

/-- In every run of matched calls that the ranks' own state treats alike, over
communicators of one configuration, all ranks take the same route on every call. -/
theorem routes_agree (custom : CustomCapability dtype)
    (configs : rank -> CustomAllReduceConfig dtype) (hconfigs : forall r s, configs r = configs s)
    (calls : List (Matched dtype rank)) (halike : forall call, call ∈ calls -> forall r s,
      Alike custom (configs r) call.1 (call.2 r) (call.2 s))
    (epoch : Nat) : forall route, route ∈ routes custom configs calls (fun _ => epoch) ->
      forall r s, route r = route s := by
  induction calls generalizing epoch with
  | nil => exact fun _ hroute => nomatch hroute
  | cons call calls ih =>
    rw [List.forall_mem_cons] at halike
    have hsame : forall r s, allReduce custom (configs r) call.1 (call.2 r) epoch =
        allReduce custom (configs s) call.1 (call.2 s) epoch := by
      intro r s
      rw [<- hconfigs r s]
      exact allReduce_alike (halike.1 r s) epoch
    intro route hroute r s
    rcases List.mem_cons.mp hroute with hhead | htail
    · rw [hhead]
      exact congrArg Prod.fst (hsame r s)
    · have hepochs : (fun t => (allReduce custom (configs t) call.1 (call.2 t) epoch).2) =
          fun _ => (allReduce custom (configs r) call.1 (call.2 r) epoch).2 := by
        funext t
        rw [hsame t r]
      rw [hepochs] at htail
      exact ih halike.2 _ route htail r s

def capability : CustomCapability Unit :=
  { supportedOps := [.sum], supportedDtypes := [()], minBytes := 16, maxBytes := some 64
    alignment := 16 }

def config : CustomAllReduceConfig Unit :=
  { bucketBytes := 64, supportedDtypes := [()], alignment := 16, minBytes := 16, epochLimit := 9 }

/-- Elements of four bytes, at one address on each of two ranks. -/
def fourBytesAt (numel first second : Nat) : Matched Unit Bool :=
  ({ op := .sum, dtype := (), contiguous := true, numel, elementSize := 4 },
    fun r => { dataPtr := if r then first else second })

/-- The third call is too large for the profile, so its pointers do not matter. -/
def alignedCalls : List (Matched Unit Bool) :=
  [fourBytesAt 4 16 32, fourBytesAt 4 8 24, fourBytesAt 32 16 36]

theorem alignedCalls_alike : forall call, call ∈ alignedCalls -> forall r s,
    Alike capability config call.1 (call.2 r) (call.2 s) := by
  intro call hcall
  fin_cases hcall
  · have haccepts : forall r, Accepts capability config ((fourBytesAt 4 16 32).2 r) := by
      intro r
      cases r <;> exact ⟨by decide, by decide, rfl, rfl⟩
    exact fun r s _ => ⟨fun _ => haccepts s, fun _ => haccepts r⟩
  · have hrefuses : forall r, ¬ Accepts capability config ((fourBytesAt 4 8 24).2 r) := by
      intro r haccepts
      have haligned := haccepts.aligned
      cases r <;> exact absurd haligned (by decide)
    exact fun r s _ => ⟨fun h => absurd h (hrefuses r), fun h => absurd h (hrefuses s)⟩
  · exact fun r s heligible => absurd heligible.profileSize (by decide)

theorem routes_agree_aligned :
    (routes capability (fun _ : Bool => config) alignedCalls fun _ => 0).map
      (fun route => route true) = [.custom, .torch, .torch] ∧
    forall route, route ∈ routes capability (fun _ : Bool => config) alignedCalls (fun _ => 0) ->
      route true = route false :=
  ⟨by decide, fun route hroute => routes_agree capability (fun _ => config) (fun _ _ => rfl)
    alignedCalls alignedCalls_alike 0 route hroute true false⟩

theorem routes_part :
    (routes capability (fun _ : Bool => config) [fourBytesAt 4 16 36] fun _ => 0).map
      (fun route => (route true, route false)) = [(.custom, .torch)] := by
  decide

end CollectiveRoutes
end Ayaka
