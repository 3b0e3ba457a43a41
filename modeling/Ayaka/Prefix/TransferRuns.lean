import Ayaka.Prefix.TransferInvariant

/-!
# Runs of a transfer

A ticket is called from one thread while the device, other tickets and the owner of
the host checkpoint go on beside it.  As long as no launch breaks off inside a
layer, everything the ticket took is held until its last copy has finished, and
what it hands back in credits is what it acquired.
-/

namespace Ayaka
namespace Prefix

open Foundation
open Executor (TicketState Failure)
open Memory

theorem TransferCredits.acquire_ok
    (h : TransferCredits.acquire owner nbytes credits = .ok () credits') :
    credits.claims.slot owner = none ∧
      credits' = { credits with claims := credits.claims.put owner nbytes } := by
  unfold TransferCredits.acquire at h
  rw [bind_run_ok _ (get_run credits)] at h
  cases hslot : credits.claims.slot owner with
  | some reserved =>
    simp only [hslot, Option.isSome_some, if_true] at h
    cases h
  | none =>
    simp only [hslot, Option.isSome_none, Bool.false_eq_true, if_false] at h
    split at h
    · cases h
    · cases h
      exact ⟨rfl, rfl⟩

theorem TransferCredits.acquire_others (owner nbytes : Nat) (credits : TransferCredits) :
    SameOthers owner credits (finalState (acquire owner nbytes credits)) := by
  have hrefl : SameOthers owner credits credits := fun _ _ => rfl
  unfold acquire
  rw [bind_run_ok _ (get_run credits)]
  split
  · exact hrefl
  · simp only
    split
    · exact hrefl
    · exact hrefl.put nbytes

theorem TransferCredits.release_others (owner : Nat) (nbytes : Option Nat)
    (credits : TransferCredits) :
    SameOthers owner credits (finalState (release owner nbytes credits)) := by
  have hrefl : SameOthers owner credits credits := fun _ _ => rfl
  cases nbytes with
  | some n =>
    rcases release_some_run owner n credits with ⟨_, hfail, _⟩ | ⟨reserved, _, _, hrun⟩
    · rw [hfail]
      exact hrefl
    · rw [hrun]
      exact hrefl.lowered reserved n
  | none =>
    cases hslot : credits.claims.slot owner with
    | some reserved =>
      rw [release_all_run hslot]
      exact hrefl.remove
    | none =>
      unfold release
      rw [bind_run_ok _ (get_run credits), hslot]
      exact hrefl

namespace PrefixTransfer

/-!
## Adoption
-/

/-- While the constructor takes what it needs; `borrowed` once it has the host. -/
structure Admitting (credits : TransferCredits) (id : Nat) (borrowed : Prop)
    (t : PrefixTransfer) : Prop where
  same : t.id = id
  free : credits.claims.slot id = none
  credits : t.credits = { credits with claims := credits.claims.put id t.nbytes }
  claimed : t.claimed = true
  released : t.creditReleased = 0
  work : t.work = (none, [])
  live : t.retired = false
  calls : forall call, call ∈ t.calls -> call.Releases = false
  host : borrowed -> t.hostBorrowed = true ∧
    exists host, t.host = some host ∧ host.closed = false ∧ 0 < host.borrowers

variable {credits : TransferCredits}

theorem Admitting.of_eq {id : Nat} {borrowed : Prop} {t t'}
    (h : Admitting credits id borrowed t) (haccount : t'.account = t.account)
    (hwork : t'.work = t.work) (hassets : t'.assets = t.assets) :
    Admitting credits id borrowed t' := by
  simp only [account, assets, Prod.mk.injEq] at haccount hassets
  rcases haccount with ⟨hcredits, hid, hnbytes, hclaimed, hreleased⟩
  rcases hassets with ⟨hretired, hcalls, hborrowed, hhost⟩
  exact
    { h with
      same := hid.trans h.same
      credits := by
        rw [hcredits, hnbytes]
        exact h.credits
      claimed := hclaimed.trans h.claimed
      released := hreleased.trans h.released
      work := hwork.trans h.work
      live := hretired.trans h.live
      calls := by
        rw [hcalls]
        exact h.calls
      host := by
        rw [hborrowed, hhost]
        exact h.host }

variable {t : PrefixTransfer}

theorem validateHost_ok (h : validateHost t = .ok ()) :
    exists host, t.host = some host ∧ host.closed = false := by
  unfold validateHost at h
  cases hhost : t.host with
  | none =>
    rw [hhost] at h
    cases h
  | some host =>
    rw [hhost] at h
    refine ⟨host, rfl, ?_⟩
    by_contra hclosed
    have hbad : host.closed ∨ ¬ host.ready ∨ t.spec.cacheId ≠ host.cacheId ∨
        host.tensor ≠ host.version := .inl (Bool.eq_true_of_not_eq_false hclosed)
    change HostPrefix.validate t.spec.cacheId host = _ at h
    unfold HostPrefix.validate at h
    rw [if_pos hbad] at h
    cases h

section Admission

variable {credits : TransferCredits} {id : Nat} {borrowed : Prop}

theorem callBackend_admitting (faults : TransferFaults) (hcall : call.Releases = false) :
    Keeps (Admitting credits id borrowed) (callBackend faults call) := by
  refine callBackend_keeps faults fun t h => ?_
  exact ⟨h.same, h.free, h.credits, h.claimed, h.released, h.work, h.live,
    releases_append h.calls hcall, h.host⟩

theorem reservePages_admitting (faults : TransferFaults) (answers : AdmissionAnswers) :
    Keeps (Admitting credits id borrowed) (reservePages faults answers) := by
  refine Maintains.tryCatch (?_ : Keeps _ _) fun failure _ => ?_
  · refine Maintains.bind (callBackend_admitting faults rfl) fun _ => ?_
    cases answers.reserved with
    | error reason => exact maintains_throw trivial
    | ok _ =>
      refine Maintains.bind (callBackend_admitting faults rfl) fun _ => ?_
      exact maintains_modify fun _ h => h.of_eq rfl rfl rfl
  · refine Maintains.bind ?_ fun _ => maintains_throw trivial
    refine (callBackend_admitting faults rfl).tryCatch fun failure _ => ?_
    cases failure with
    | invalidHandleError message => exact maintains_pure ()
    | _ => exact maintains_throw trivial

variable {t : PrefixTransfer}

theorem borrowHost_wp (h : Admitting credits id False t) {host}
    (hhost : t.host = some host) (hopen : host.closed = false) :
    Wp borrowHost (fun _ t' => Admitting credits id True t') (fun _ _ => True) t := by
  refine ⟨h.same, h.free, h.credits, h.claimed, h.released, h.work, h.live, h.calls, ?_⟩
  intro _
  refine ⟨rfl, { host with borrowers := host.borrowers + 1 }, ?_, hopen, Nat.succ_pos _⟩
  change t.host.map _ = _
  rw [hhost]
  rfl

theorem admitRestore_wp (faults : TransferFaults) (answers : AdmissionAnswers)
    (h : Admitting credits id False t) :
    Wp (admitRestore faults answers) (fun _ t' => Admitting credits id True t')
      (fun _ _ => True) t := by
  have hrest : Keeps (Admitting credits id True) (do
        callBackend faults .createSequence
        modify fun t => { t with sequence := some answers.sequence }
        callBackend faults .beginTransaction
        reservePages faults answers
        callBackend faults .buildExecutionView
        modify fun t => { t with view := answers.view }) := by
    refine Maintains.bind (callBackend_admitting faults rfl) fun _ => ?_
    refine Maintains.bind (maintains_modify fun _ h => h.of_eq rfl rfl rfl) fun _ => ?_
    refine Maintains.bind (callBackend_admitting faults rfl) fun _ => ?_
    refine Maintains.bind (reservePages_admitting faults answers) fun _ => ?_
    refine Maintains.bind (callBackend_admitting faults rfl) fun _ => ?_
    exact maintains_modify fun _ h => h.of_eq rfl rfl rfl
  unfold admitRestore
  rw [wp_bind, wp_query]
  refine ⟨?_, fun _ _ => trivial⟩
  intro _ hvalid
  rcases validateHost_ok hvalid with ⟨_, hhost, hopen⟩
  rw [wp_bind]
  refine wp_mono (borrowHost_wp h hhost hopen) ?_ fun _ _ h => h
  intro _ t' h'
  exact wp_mono (hrest t' h') (fun _ _ h => h) fun _ _ _ => trivial

theorem admitSpill_wp (faults : TransferFaults) (answers : AdmissionAnswers) (tokenIds : List Nat)
    (h : Admitting credits id False t) :
    Wp (admitSpill faults answers tokenIds) (fun _ t' => Admitting credits id True t')
      (fun _ _ => True) t := by
  unfold admitSpill
  rw [wp_bind]
  refine wp_mono (callBackend_admitting faults rfl t h) ?_ fun _ _ _ => trivial
  intro _ t h
  rw [wp_bind, wp_modify, wp_bind]
  refine wp_mono (callBackend_admitting faults rfl _ (h.of_eq rfl rfl rfl)) ?_ fun _ _ _ => trivial
  intro _ t h
  refine borrowHost_wp ?_ rfl rfl
  exact ⟨h.same, h.free, h.credits, h.claimed, h.released, h.work, h.live, h.calls,
    fun hfalse => hfalse.elim⟩

theorem claimCredits_wp (hclean : t.creditReleased = 0) (hwork : t.work = (none, []))
    (hlive : t.retired = false) (hcalls : t.calls = []) :
    Wp claimCredits (fun _ t' => Admitting t.credits t.id False t') (fun _ _ => True) t := by
  unfold claimCredits
  rw [wp_bind, wp_get]
  cases hrun : TransferCredits.acquire t.id t.nbytes t.credits with
  | error failure credits =>
    exact wp_of_run_error (bind_run_error _ (inCredits_run_error hrun)) trivial
  | ok _ credits =>
    rcases TransferCredits.acquire_ok hrun with ⟨hfree, rfl⟩
    refine wp_of_run_ok (bind_run_ok _ (inCredits_run_ok hrun)) ?_
    exact
      { same := rfl
        free := hfree
        credits := rfl
        claimed := rfl
        released := hclean
        work := hwork
        live := hlive
        calls := by
          intro call hmem
          change call ∈ t.calls at hmem
          rw [hcalls] at hmem
          cases hmem
        host := fun hfalse => hfalse.elim }

end Admission

theorem admit_wp (faults : TransferFaults) (answers : AdmissionAnswers) (spec : TransferSpec)
    (id : Nat) (credits : TransferCredits) (source : TransferSource) :
    Wp (admitSource faults answers source) (fun _ t' => Admitting credits id True t')
      (fun _ _ => True) (start spec id credits source) := by
  cases source with
  | spill tokenIds =>
    unfold admitSource
    rw [wp_bind]
    refine wp_mono (claimCredits_wp rfl rfl rfl rfl) ?_ fun _ _ h => h
    intro _ t h
    exact admitSpill_wp faults answers tokenIds h
  | _ _ =>
    unfold admitSource
    rw [wp_bind]
    refine wp_mono (claimCredits_wp rfl rfl rfl rfl) ?_ fun _ _ h => h
    intro _ t h
    exact admitRestore_wp faults answers h

theorem Admitting.sound {id : Nat} (h : Admitting credits id True t) : Sound t t := by
  have hslot : t.credits.claims.slot t.id = some t.nbytes := by
    rw [h.credits, h.same]
    exact Function.update_self ..
  have hstream : t.stream = none := (Prod.mk.inj h.work).1
  rcases h.host trivial with ⟨hborrowed, hhost⟩
  have hholding : t.Holding := ⟨h.live, h.calls, hborrowed, hhost⟩
  exact
    { books :=
        { id := rfl
          nbytes := rfl
          others := fun _ _ => rfl
          kept := fun _ => by
            rw [h.released]
            exact ⟨Nat.zero_le _, hslot⟩
          gone := fun hgone => by
            rw [h.claimed] at hgone
            cases hgone }
      guarded := guarded_of_idle (idle_of_stream_none hstream)
      holding := .inr hholding
      covered := .inl (idle_of_stream_none hstream)
      adopted := fun _ => ⟨hstream, (Prod.mk.inj h.work).2, h.claimed, h.released, hholding⟩
      retired := by
        intro hretired
        rw [h.live] at hretired
        cases hretired }

theorem Admitting.held_eq {id : Nat} {borrowed : Prop} (h : Admitting credits id borrowed t) :
    t.credits.held = credits.held + t.claim := by
  have hothers : TransferCredits.SameOthers id credits t.credits := by
    have hrefl : TransferCredits.SameOthers id credits credits := fun _ _ => rfl
    rw [h.credits]
    exact hrefl.put t.nbytes
  have hnone : credits.claimOf id = 0 := by
    unfold TransferCredits.claimOf
    rw [h.free]
    rfl
  unfold claim
  rw [t.credits.held_eq id, credits.held_eq id, hothers.sum_eq, hnone, h.same]
  omega

/-- A transfer that was adopted is sound and has reserved its bytes on top of what was
held before. -/
theorem adopt_ok {faults answers spec} {id : Nat} {source}
    (h : adopt faults answers source (start spec id credits source) =
      .ok () t) : Sound t t ∧ t.id = id ∧ t.credits.held = credits.held + t.claim := by
  have hadmit := admit_wp faults answers spec id credits source
  unfold adopt at h
  unfold Wp at hadmit
  cases hrun : admitSource faults answers source (start spec id credits source) with
  | error failure t' =>
    rw [bind_run, tryCatch_run_error _ hrun, bind_run] at h
    cases hcleanup : cleanup faults false t' with
    | ok _ t'' =>
      rw [hcleanup] at h
      cases h
    | error failure' t'' =>
      rw [hcleanup] at h
      cases h
  | ok _ t' =>
    rw [hrun] at hadmit
    rw [bind_run_ok _ (tryCatch_run_ok _ hrun)] at h
    cases h
    have hadopted : Admitting credits id True
        { t' with state := some .adopted } := hadmit.of_eq rfl rfl rfl
    refine ⟨hadopted.sound, hadopted.same, hadopted.held_eq⟩

end PrefixTransfer

/-!
## Steps
-/

/-- What can happen to an adopted ticket.  The first three are calls on it; the rest
goes on beside it: the device gets on, other transfers reserve and release credits
or borrow and return the host checkpoint, its owner tries to close it, and a
borrower writes to its tensor. -/
inductive TransferStep where
  | launch (faults : TransferFaults)
  | cancel (faults : TransferFaults)
  | poll (faults : TransferFaults) (progress : Nat -> Nat)
  | deviceProgress (n : Nat)
  | otherAcquire (owner nbytes : Nat)
  | otherRelease (owner : Nat) (nbytes : Option Nat)
  | otherBorrow
  | otherReturn
  | hostClose (bufferFault : Option String)
  | hostMutate

namespace TransferStep

/-- Another borrower gives back only a borrow of its own. -/
def returnBorrow (own : Bool) (host : HostPrefix) : HostPrefix :=
  if own.toNat < host.borrowers then { host with borrowers := host.borrowers - 1 } else host

def addBorrow (host : HostPrefix) : HostPrefix :=
  { host with borrowers := host.borrowers + 1 }

def mutateTensor (host : HostPrefix) : HostPrefix :=
  { host with tensor := host.tensor.map (· + 1) }

def onHost (f : HostPrefix -> HostPrefix) (t : PrefixTransfer) : PrefixTransfer :=
  { t with host := t.host.map f }

def onOtherCredits (owner : Nat) (x : EStateM Failure TransferCredits Unit)
    (t : PrefixTransfer) : PrefixTransfer :=
  if owner = t.id then t else { t with credits := finalState (x t.credits) }

def step (t : PrefixTransfer) : TransferStep -> PrefixTransfer
  | launch faults => finalState (PrefixTransfer.launch faults t)
  | cancel faults => finalState (PrefixTransfer.cancel faults t)
  | poll faults progress => finalState (PrefixTransfer.poll faults progress t)
  | deviceProgress n => PrefixTransfer.advanced n t
  | otherAcquire owner nbytes => onOtherCredits owner (TransferCredits.acquire owner nbytes) t
  | otherRelease owner nbytes => onOtherCredits owner (TransferCredits.release owner nbytes) t
  | otherBorrow => onHost addBorrow t
  | otherReturn => onHost (returnBorrow t.hostBorrowed) t
  | hostClose bufferFault => onHost (fun host => finalState (HostPrefix.close bufferFault host)) t
  | hostMutate => onHost mutateTensor t

def Own : TransferStep -> Bool
  | launch _ => true
  | cancel _ => true
  | poll _ _ => true
  | _ => false

/-- A launch, if the step is one, does not break off inside a layer. -/
def Whole : TransferStep -> Prop
  | launch faults => PrefixTransfer.WholeLayers faults
  | _ => True

def run (t : PrefixTransfer) (steps : List TransferStep) : PrefixTransfer :=
  steps.foldl step t

def creditsReturned : List TransferStep -> PrefixTransfer -> Int
  | [], _ => 0
  | first :: rest, t =>
    (if first.Own then (t.credits.held : Int) - (first.step t).credits.held else 0) +
      creditsReturned rest (first.step t)

end TransferStep

namespace PrefixTransfer

open TransferStep

variable {t : PrefixTransfer}

theorem Sound.refl (h : Sound before t) : Sound t t where
  __ := h
  books :=
    { id := rfl
      nbytes := rfl
      others := fun _ _ => rfl
      kept := h.books.kept
      gone := h.books.gone }

variable {step : TransferStep}

theorem own_sound (hown : step.Own = true) (hwhole : step.Whole) (h : Sound before t) :
    Sound before (step.step t) := by
  cases step with
  | launch faults => exact launch_sound hwhole h
  | cancel faults => exact cancel_sound faults h
  | poll faults progress => exact (poll_keeps faults progress).final h
  | _ => cases hown

/-- Whoever else uses the host checkpoint, it stays open while the ticket has it. -/
theorem Holding.onHost {f : HostPrefix -> HostPrefix} (h : t.Holding)
    (hf : forall host, host.closed = false -> 0 < host.borrowers ->
      (f host).closed = false ∧ 0 < (f host).borrowers) : (onHost f t).Holding := by
  rcases h.host with ⟨host, hhost, hopen, hborrowers⟩
  refine ⟨h.live, h.calls, h.borrowed, f host, ?_, hf host hopen hborrowers⟩
  unfold TransferStep.onHost
  rw [hhost]
  rfl

theorem Sound.onHost {f : HostPrefix -> HostPrefix} (h : Sound before t)
    (hf : t.hostBorrowed = true -> forall host, host.closed = false -> 0 < host.borrowers ->
      (f host).closed = false ∧ 0 < (f host).borrowers) : Sound before (onHost f t) where
  __ := h
  books := h.books.of_eq rfl
  guarded := h.guarded.of_eq rfl
  holding := h.holding.imp (fun hidle => hidle.of_eq rfl) fun hold => hold.onHost (hf hold.borrowed)
  covered := h.covered.imp_left fun hidle => hidle.of_eq rfl
  adopted := fun hadopted =>
    let hfresh := h.adopted hadopted
    ⟨hfresh.stream, hfresh.layerBatches, hfresh.claimed, hfresh.released,
      hfresh.holding.onHost (hf hfresh.holding.borrowed)⟩

theorem close_borrowed {bufferFault host} (hopen : host.closed = false)
    (hborrowed : 0 < host.borrowers) : finalState (HostPrefix.close bufferFault host) = host := by
  unfold HostPrefix.close
  rw [bind_run_ok _ (get_run host)]
  have hne : host.borrowers ≠ 0 := Nat.pos_iff_ne_zero.mp hborrowed
  simp only [hopen, Bool.false_eq_true, if_false, if_pos hne]
  rfl

theorem claim_onOtherCredits
    (hx : TransferCredits.SameOthers owner t.credits (finalState (x t.credits))) :
    (onOtherCredits owner x t).credits.claims.slot t.id = t.credits.claims.slot t.id := by
  unfold onOtherCredits
  split
  · rfl
  · next hother => exact hx t.id fun h => hother h.symm

theorem Sound.onOtherCredits (h : Sound before t)
    (hx : TransferCredits.SameOthers owner t.credits (finalState (x t.credits))) :
    Sound (onOtherCredits owner x t) (onOtherCredits owner x t) := by
  have hslot := claim_onOtherCredits hx
  unfold TransferStep.onOtherCredits at hslot ⊢
  split at hslot
  · next hself =>
      rw [if_pos hself]
      exact h.refl
  · next hother =>
      rw [if_neg hother]
      exact
        { books :=
            { id := rfl
              nbytes := rfl
              others := fun _ _ => rfl
              kept := fun hclaimed =>
                ⟨(h.books.kept hclaimed).1, hslot.trans (h.books.kept hclaimed).2⟩
              gone := fun hgone => hslot.trans (h.books.gone hgone) }
          guarded := h.guarded.of_eq rfl
          holding := h.holding.imp (fun hidle => hidle.of_eq rfl) fun hold => hold.of_eq rfl
          covered := by
            refine h.covered.imp (fun hidle => hidle.of_eq rfl) fun hbytes => ?_
            unfold claim TransferCredits.claimOf at hbytes ⊢
            rw [hslot]
            exact hbytes
          adopted := fun hadopted =>
            let hfresh := h.adopted hadopted
            ⟨hfresh.stream, hfresh.layerBatches, hfresh.claimed, hfresh.released,
              hfresh.holding.of_eq rfl⟩
          retired := h.retired }

theorem step_sound (step : TransferStep) (hwhole : step.Whole) (h : Sound t t) :
    Sound (step.step t) (step.step t) := by
  cases step with
  | launch faults => exact (launch_sound hwhole h).refl
  | cancel faults => exact (cancel_sound faults h).refl
  | poll faults progress => exact ((poll_keeps faults progress).final h).refl
  | deviceProgress n => exact (h.advanced n).refl
  | otherAcquire owner nbytes =>
    exact h.onOtherCredits (TransferCredits.acquire_others owner nbytes t.credits)
  | otherRelease owner nbytes =>
    exact h.onOtherCredits (TransferCredits.release_others owner nbytes t.credits)
  | otherBorrow =>
    have hnext : Sound t (onHost addBorrow t) :=
      h.onHost fun _ host hopen _ => ⟨hopen, Nat.succ_pos host.borrowers⟩
    exact hnext.refl
  | otherReturn =>
    refine (h.onHost fun hown host hopen hborrowed => ?_).refl
    unfold returnBorrow
    rw [hown]
    split
    · next hmore => exact ⟨hopen, Nat.sub_pos_of_lt hmore⟩
    · exact ⟨hopen, hborrowed⟩
  | hostClose bufferFault =>
    refine (h.onHost fun _ host hopen hborrowed => ?_).refl
    rw [close_borrowed hopen hborrowed]
    exact ⟨hopen, hborrowed⟩
  | hostMutate =>
    have hnext : Sound t (onHost mutateTensor t) :=
      h.onHost fun _ host hopen hborrowed => ⟨hopen, hborrowed⟩
    exact hnext.refl

/-- What a call on the ticket takes off the credits held comes off its own claim. -/
theorem own_held (hown : step.Own = true) (hwhole : step.Whole) (h : Sound t t) :
    (t.credits.held : Int) - (step.step t).credits.held = t.claim - (step.step t).claim := by
  have hbooks := (own_sound hown hwhole h).books
  have hbefore := t.credits.held_eq t.id
  have hafter := (step.step t).credits.held_eq t.id
  rw [hbooks.others.sum_eq] at hafter
  have hclaim : (step.step t).claim = (step.step t).credits.claimOf t.id := by
    unfold claim
    rw [hbooks.id]
  rw [hclaim, hbefore, hafter]
  unfold claim
  omega

theorem other_claim (hown : step.Own = false) : (step.step t).claim = t.claim := by
  have hcredits : forall owner (x : EStateM Failure TransferCredits Unit),
      TransferCredits.SameOthers owner t.credits (finalState (x t.credits)) ->
      (onOtherCredits owner x t).claim = t.claim := by
    intro owner x hx
    have hid : (onOtherCredits owner x t).id = t.id := by
      unfold onOtherCredits
      split <;> rfl
    unfold claim TransferCredits.claimOf
    rw [hid, claim_onOtherCredits hx]
  cases step with
  | otherAcquire owner nbytes =>
    exact hcredits owner _ (TransferCredits.acquire_others owner nbytes t.credits)
  | otherRelease owner nbytes =>
    exact hcredits owner _ (TransferCredits.release_others owner nbytes t.credits)
  | deviceProgress | otherBorrow | otherReturn | hostClose | hostMutate => rfl
  | _ => cases hown

/-- The run lemma: the invariant holds throughout, and what the ticket has handed back
is what its claim has lost. -/
theorem run_sound (hwhole : forall step, step ∈ steps -> step.Whole) (h : Sound t t) :
    Sound (run t steps) (run t steps) ∧
      creditsReturned steps t + (run t steps).claim = t.claim := by
  induction steps generalizing t with
  | nil => exact ⟨h, by simp [creditsReturned, run]⟩
  | cons first rest ih =>
    have hfirst := hwhole first List.mem_cons_self
    rcases ih (fun step hstep => hwhole step (List.mem_cons_of_mem first hstep))
      (step_sound first hfirst h) with ⟨hsound, _⟩
    refine ⟨hsound, ?_⟩
    change (if first.Own = true then (t.credits.held : Int) - (first.step t).credits.held
      else 0) + creditsReturned rest (first.step t) + (run (first.step t) rest).claim = t.claim
    by_cases hown : first.Own = true
    · rw [if_pos hown, own_held hown hfirst h]
      omega
    · have hsame := other_claim (t := t) (Bool.eq_false_of_not_eq_true hown)
      rw [if_neg hown]
      omega

/-- Over every run of an adopted ticket whose launch does not break off inside a
layer: an unfinished copy keeps the ticket alive with all it took and with the
credits of every unresolved layer, its own among them; and the credits handed back
and those still claimed make up what was acquired, with nothing left to claim once
the ticket has retired. -/
theorem run_releases_after_copies {faults : TransferFaults} {answers : AdmissionAnswers}
    {spec : TransferSpec} {id : Nat} {credits : TransferCredits} {source : TransferSource}
    {t : PrefixTransfer}
    (hadopt : adopt faults answers source (start spec id credits source) =
      EStateM.Result.ok () t)
    (steps : List TransferStep) (hwhole : forall step, step ∈ steps -> step.Whole) :
    (forall s position copy, (run t steps).stream = some s -> s.Pending position copy ->
      (run t steps).Holding ∧
        (exists batch, (run t steps).layerBatches[copy.layer]? = some batch ∧
          batch.done = false) ∧
        (run t steps).unresolvedBytes ≤ (run t steps).claim) ∧
      creditsReturned steps t + (run t steps).claim = t.credits.held - credits.held ∧
      ((run t steps).retired = true -> (run t steps).claim = 0) := by
  rcases adopt_ok hadopt with ⟨hsound, _, _⟩
  rcases run_sound hwhole hsound with ⟨hfinal, _⟩
  refine ⟨?_, ?_, ?_⟩
  · intro s position copy hs hpending
    have hloud : ¬ (run t steps).Idle := by
      intro hidle
      exact Stream.quiet_iff.mp (hidle s hs) position copy hpending
    rcases hfinal.guarded s position copy hs hpending with ⟨batch, _, hbatch, hlive, _⟩
    exact ⟨hfinal.holding.resolve_left hloud, ⟨batch, hbatch, hlive⟩,
      hfinal.covered.resolve_left hloud⟩
  · omega
  · intro hretired
    unfold claim TransferCredits.claimOf
    rw [hfinal.books.gone (hfinal.retired hretired)]
    rfl

/-!
## Spills of one token
-/

def oneLayer : TransferSpec where
  cacheId := 1
  numLayers := 1
  numKvHeadsLocal := 1
  headDim := 1
  itemsize := 2
  pageSize := 1
  cuda := true
  physicalId := fun page => page.index

def onePin : AdmissionAnswers where
  sequence := Handle.first _ 0
  reserved := .ok ()
  lease := StepHandle.first _ 0 0
  view := []
  pins := [{ page := Handle.first _ 3, validTokens := 1, validTokens_pos := Nat.one_pos }]

def noCredits : TransferCredits where
  limit := 100
  claims := IndexMap.empty

def oneTokenSpill (spec : TransferSpec) : PrefixTransfer :=
  finalState (adopt TransferFaults.none onePin (.spill [7])
    (start spec 1 noCredits (.spill [7])))

def twoLayers : TransferSpec :=
  { oneLayer with numLayers := 2 }

/-- The copies of the first layer are done when the ticket is polled. -/
def halfway : List TransferStep :=
  [.launch .none, .deviceProgress 2, .poll .none fun _ => 0]

theorem halfway_whole : forall step, step ∈ halfway -> step.Whole := by
  intro _ hstep
  fin_cases hstep
  · exact fun layer => ⟨rfl, fun _ => rfl⟩
  · trivial
  · trivial

/-- Halfway the ticket still holds what it took, and at the end all credits are back. -/
theorem spill_releases_after_copies :
    (run (oneTokenSpill twoLayers) halfway).Holding ∧
      (run (oneTokenSpill twoLayers) (halfway ++ halfway.tail)).retired = true ∧
      creditsReturned (halfway ++ halfway.tail) (oneTokenSpill twoLayers) = 8 := by
  have hadopt : adopt TransferFaults.none onePin (.spill [7])
      (start twoLayers 1 noCredits (.spill [7])) = .ok () (oneTokenSpill twoLayers) := rfl
  refine ⟨?_, by decide, ?_⟩
  · have hstream : (run (oneTokenSpill twoLayers) halfway).stream.map
        (fun s => (s.enqueued.length, s.completed)) = some (4, 2) := by
      decide
    rcases Option.map_eq_some_iff.mp hstream with ⟨s, hs, hcounts⟩
    have hlength := congrArg Prod.fst hcounts
    have hcompleted := congrArg Prod.snd hcounts
    have hpending : s.Pending 2 (s.enqueued.get ⟨2, by omega⟩) :=
      ⟨List.getElem?_eq_getElem _, Nat.le_of_eq hcompleted⟩
    exact ((run_releases_after_copies hadopt halfway halfway_whole).1 s 2 _ hs hpending).1
  · have hwhole : forall step, step ∈ halfway ++ halfway.tail -> step.Whole := by
      intro step hstep
      rcases List.mem_append.mp hstep with hstep | hagain
      · exact halfway_whole step hstep
      · exact halfway_whole step (List.mem_of_mem_tail hagain)
    rcases run_releases_after_copies hadopt _ hwhole with ⟨_, hbooks, hdone⟩
    rw [hdone (by decide)] at hbooks
    exact (Int.add_zero _).symm.trans hbooks

/-- The copy of the keys is enqueued, that of the values raises. -/
def secondCopyFails : TransferFaults where
  backend := fun _ => none
  device := fun point =>
    if point = .copy 0 1 then some (.runtimeError "copy failed") else none
  closeBuffer := none
  backend_ordinary := TransferFaults.none.backend_ordinary

/-- Without any failure the credits of the first layer are back while the copies of the
second are on the stream.  A launch that breaks off inside a layer gives back everything
early: the next poll takes the layer without an event for finished and retires the ticket,
pages unpinned and host buffer closed, with the copy of the keys still on the stream. -/
theorem poll_returns_credits_early :
    (adopt TransferFaults.none onePin (TransferSource.spill [7])
        (start twoLayers 1 noCredits (TransferSource.spill [7])) =
      EStateM.Result.ok () (oneTokenSpill twoLayers) ∧
    let after := run (oneTokenSpill twoLayers) halfway
    creditsReturned halfway (oneTokenSpill twoLayers) = 4 ∧ after.claim = 4 ∧
      (after.stream.map fun s => (s.enqueued.length, s.completed)) = some (4, 2)) ∧
    adopt TransferFaults.none onePin (TransferSource.spill [7])
        (start oneLayer 1 noCredits (TransferSource.spill [7])) =
      EStateM.Result.ok () (oneTokenSpill oneLayer) ∧
    let after := run (oneTokenSpill oneLayer)
      [TransferStep.launch secondCopyFails, TransferStep.poll TransferFaults.none fun _ => 0]
    after.retired = true ∧ BackendCall.unpinPrefix ∈ after.calls ∧ after.claim = 0 ∧
      (after.host.map fun host => host.closed) = some true ∧
      (after.stream.map fun s => (s.enqueued.length, s.completed)) = some (1, 0) := by
  refine ⟨⟨rfl, ?_⟩, rfl, ?_⟩
  · decide
  · decide

end PrefixTransfer
end Prefix
end Ayaka
