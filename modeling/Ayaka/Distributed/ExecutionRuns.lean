import Ayaka.Foundation.Guarded
import Ayaka.Foundation.Log
import Ayaka.Distributed.Execution

/-!
# Atomicity of distributed steps

On one rank, every act of an attempt is licensed by what the rank has done before it
and by the answers of the control plane.  Over matched rounds an answer speaks of the
votes of all ranks, and the votes of the acts that stand behind them; so an act of one
rank tells of the acts of all.  An attempt that raises leaves the worker failed, or has
rolled the step back.
-/

namespace Ayaka
namespace Distributed

open Foundation
open Executor (Failure)
open RankLocalKVWorkerState
open StepAct

/-! ## What licenses an act -/

variable {round : Round} {k : Int} {earlier later : Trace}

abbrev Trace := List (Int × StepAct)

/-- The rank has voted in the round and was answered with a grant. -/
def Granted (answers : Answers) (round : Round) (k : Int) (earlier : Trace) : Prop :=
  answers.grant round = .answered (.ok true)
    ∧ exists localGrant, (k, voted round localGrant) ∈ earlier

/-- What stands behind a vote to grant. -/
def Grants : Round -> Int -> Trace -> Prop
  | .prepare, k, earlier =>
    (k, admitted) ∈ earlier ∧ (k, .prepared) ∈ earlier
  | .proof, k, earlier => (k, fenced) ∈ earlier
  | .acknowledge, k, earlier => (k, committed) ∈ earlier

/-- What the act needs besides the envelope. -/
def Licenses (answers : Answers) (publisher : Prop) (k : Int) (earlier : Trace) :
    StepAct -> Prop
  | voted round localGrant => localGrant = true -> Grants round k earlier
  | .declined => answers.grant .prepare = .answered (.ok false)
      ∧ exists localGrant, (k, voted .prepare localGrant) ∈ earlier
  | .launched => Granted answers .prepare k earlier
  | fenced => (k, .launched) ∈ earlier
  | .committing => Granted answers .proof k earlier
  | committed => (k, .committing) ∈ earlier
  | .publishing => Granted answers .acknowledge k earlier
  | barrierEntered => Granted answers .acknowledge k earlier
      ∧ (publisher -> (k, published) ∈ earlier)
  | .returned => answers.barrier = .answered (.ok ())
      ∧ (k, barrierEntered) ∈ earlier
  | _ => True

/-- An act other than the first and a failure is about the received step. -/
def Licensed (answers : Answers) (publisher : Prop) (entry : Int × StepAct) (earlier : Trace) :
    Prop :=
  (entry.2 ≠ received -> entry.2 ≠ failedClosed ->
    (entry.1, received) ∈ earlier)
  ∧ Licenses answers publisher entry.1 earlier entry.2

theorem Grants.mono (h : Grants round k earlier) (hsub : forall x, x ∈ earlier -> x ∈ later) :
    Grants round k later := by
  cases round with
  | prepare => exact ⟨hsub _ h.1, hsub _ h.2⟩
  | proof => exact hsub _ h
  | acknowledge => exact hsub _ h

theorem Granted.mono (h : Granted answers round k earlier)
    (hsub : forall x, x ∈ earlier -> x ∈ later) : Granted answers round k later :=
  ⟨h.1, h.2.imp fun _ hvoted => hsub _ hvoted⟩

namespace DistributedStepCoordinator

/-! ## One rank -/

section Attempt

variable {answers : Answers} {publisher stuck : Prop} {host : Host}
variable {envelope : DistributedStepEnvelope} {s s' s'' : DistributedStepCoordinator}

/-- The state of an attempt: its acts are licensed, and a worker that had failed before
stays failed and admits nothing. -/
structure Tracked (answers : Answers) (publisher stuck : Prop) (s : DistributedStepCoordinator) :
    Prop where
  licensed : Entries (Licensed answers publisher) s.trace
  publishes : s.rank = s.publisherRank <-> publisher
  stuck : stuck -> s.worker.state = failed
    ∧ forall k, (k, admitted) ∉ s.trace

/-- A later state of the attempt. -/
structure Reach (answers : Answers) (publisher stuck : Prop) (s s' : DistributedStepCoordinator) :
    Prop where
  tracked : Tracked answers publisher stuck s'
  grows : forall x, x ∈ s.trace -> x ∈ s'.trace

def FailedClosed (s : DistributedStepCoordinator) : Prop :=
  s.worker.state = failed
    ∧ exists k, (k, failedClosed) ∈ s.trace

def RolledBack (s : DistributedStepCoordinator) : Prop :=
  exists k, (k, rolledBack) ∈ s.trace ∧ (k, refused) ∈ s.trace

/-- A state in which a part of the attempt has raised; only what has been dealt with is
raised as a refusal. -/
structure Raised (answers : Answers) (publisher stuck : Prop) (s : DistributedStepCoordinator)
    (exc : StepError) (s' : DistributedStepCoordinator) : Prop where
  reach : Reach answers publisher stuck s s'
  down : exc.isRefused = true -> s'.FailedClosed ∨ s'.RolledBack

theorem Tracked.refl (h : Tracked answers publisher stuck s) : Reach answers publisher stuck s s :=
  ⟨h, fun _ hx => hx⟩

section

variable (h : Reach answers publisher stuck s s')
include h

theorem Reach.trans (h' : Reach answers publisher stuck s' s'') :
    Reach answers publisher stuck s s'' :=
  ⟨h'.tracked, fun x hx => h'.grows x (h.grows x hx)⟩

theorem Reach.raised (h' : Raised answers publisher stuck s' exc s'') :
    Raised answers publisher stuck s exc s'' :=
  ⟨h.trans h'.reach, h'.down⟩

theorem Reach.control (exc : ControlError) :
    Raised answers publisher stuck s exc.toStepError s' := by
  refine ⟨h, fun hrefused => ?_⟩
  cases exc with
  | collectiveTimeout message => cases hrefused
  | other exc => cases hrefused

end

theorem Tracked.note (h : Tracked answers publisher stuck s) (k : Int) (act : StepAct)
    (hreceived : act ≠ received -> act ≠ failedClosed -> (k, received) ∈ s.trace)
    (hlicensed : Licenses answers publisher k s.trace act) (hadmitted : act ≠ admitted) :
    Reach answers publisher stuck s { s with trace := (k, act) :: s.trace } := by
  refine ⟨⟨⟨⟨hreceived, hlicensed⟩, h.licensed⟩, h.publishes, fun hstuck => ?_⟩,
    fun _ hx => List.mem_cons_of_mem _ hx⟩
  refine ⟨(h.stuck hstuck).1, fun j hmem => ?_⟩
  cases hmem with
  | head => exact hadmitted rfl
  | tail _ hmem => exact (h.stuck hstuck).2 j hmem

variable {fail : StepError -> DistributedStepCoordinator -> Prop}

theorem wp_note (h : Tracked answers publisher stuck s) (act : StepAct)
    (hreceived : (k, received) ∈ s.trace)
    (hlicensed : Licenses answers publisher k s.trace act) (hadmitted : act ≠ admitted) :
    Wp (DistributedStepCoordinator.note k act)
      (fun _ s' => Reach answers publisher stuck s s' ∧ (k, act) ∈ s'.trace) fail s :=
  ⟨h.note k act (fun _ _ => hreceived) hlicensed hadmitted, List.mem_cons_self⟩

variable {post : Unit -> DistributedStepCoordinator -> Prop}

theorem wp_raiseIf (hpost : post () s)
    (hfail : forall exc, fault = some exc -> fail exc s) : Wp (raiseIf fault) post fail s := by
  cases fault with
  | none => exact hpost
  | some exc => exact hfail exc rfl

/-- A caught part: it returned, or the step goes on with what it raised. -/
theorem wp_caught {post : DistributedStepCoordinator -> Prop}
    (h : Wp x (fun _ s' => post s' ∧ Reach answers publisher stuck s s')
    (fun _ s' => Reach answers publisher stuck s s') s) :
    Wp (caught x)
      (fun failure s' => Reach answers publisher stuck s s' ∧ (failure.isNone = true -> post s'))
      fail s := by
  unfold caught
  rw [wp_tryCatch]
  exact wp_then h (fun _ _ hs' => ⟨hs'.2, fun _ => hs'.1⟩)
    (fun _ _ hs' => ⟨hs', fun hnone => nomatch hnone⟩)

theorem wp_expired {alpha : Type} {post : alpha -> DistributedStepCoordinator -> Prop}
    (h : Tracked answers publisher stuck s) :
    Wp expired post (fun exc s' => Raised answers publisher stuck s exc s') s :=
  ⟨h.refl, fun hrefused => nomatch hrefused⟩

theorem wp_answer {alpha : Type} (h : Reach answers publisher stuck s s')
    (outcome : Except ControlError alpha) :
    Wp (answer outcome) (fun a t => t = s' ∧ outcome = .ok a)
      (fun exc t => Raised answers publisher stuck s exc t) s' := by
  cases outcome with
  | ok a => exact ⟨rfl, rfl⟩
  | error exc => exact h.control exc

/-- One vote: what an answer tells, and that the rank has voted. -/
theorem wp_agree (h : Tracked answers publisher stuck s)
    (hreceived : (envelope.stepId, received) ∈ s.trace)
    (hgrants : localGrant = true -> Grants round envelope.stepId s.trace) :
    Wp (agree answers envelope round localGrant)
      (fun granted s' => Reach answers publisher stuck s s'
        ∧ answers.grant round = .answered (.ok granted)
        ∧ (envelope.stepId, voted round localGrant) ∈ s'.trace)
      (fun exc s' => Raised answers publisher stuck s exc s') s := by
  unfold agree
  cases hanswer : answers.grant round with
  | expired => exact wp_expired h
  | answered outcome =>
    refine wp_seq (wp_note h (voted round localGrant) hreceived hgrants nofun) fun _ s' hs' => ?_
    refine wp_mono (wp_answer hs'.1 outcome) (fun granted t ht => ?_) (fun _ _ hf => hf)
    rw [ht.1, ht.2]
    exact ⟨hs'.1, rfl, hs'.2⟩

/-! ## Receiving and preparing -/

theorem wp_broadcast (h : Tracked answers publisher stuck s)
    (prepared : Option DistributedStepEnvelope) :
    Wp (broadcast answers prepared) (fun envelope s' => Reach answers publisher stuck s s'
        ∧ (envelope.stepId, received) ∈ s'.trace)
      (fun exc s' => Raised answers publisher stuck s exc s') s := by
  unfold broadcast
  rw [wp_bind, wp_get, wp_bind]
  refine wp_raiseIf ?_ (fun exc hexc => ⟨h.refl, fun hrefused => ?_⟩)
  · rw [wp_bind]
    have htext : Wp (broadcastText answers) (fun _ s' => s' = s)
        (fun exc s' => Raised answers publisher stuck s exc s') s := by
      unfold broadcastText
      cases answers.broadcast with
      | expired => exact wp_expired h
      | answered outcome =>
        exact wp_mono (wp_answer h.refl outcome) (fun _ _ ht => ht.1) (fun _ _ hf => hf)
    refine wp_mono htext (fun envelope s' hs' => ?_) (fun _ _ hf => hf)
    rw [hs', wp_ite]
    refine ⟨fun _ => ⟨h.refl, fun hrefused => nomatch hrefused⟩, fun _ => ?_⟩
    have hattempt : Tracked answers publisher stuck { s with lastAttempt := envelope.stepId } :=
      ⟨h.licensed, h.publishes, h.stuck⟩
    have hnoted := hattempt.note envelope.stepId received (fun hne => absurd rfl hne) trivial nofun
    exact ⟨⟨hnoted.tracked, hnoted.grows⟩, List.mem_cons_self⟩
  · -- the checks of the argument raise value errors only
    unfold checkPrepared at hexc
    split at hexc
    · split at hexc
      · cases hexc
        cases hrefused
      · cases hexc
    · split at hexc
      · cases hexc
        cases hrefused
      · cases hexc

theorem wp_beginStep {worker} :
    Wp (RankLocalKVWorker.beginStep envelope)
      (fun _ _ => worker.state = ready) (fun _ w => w = worker) worker := by
  unfold RankLocalKVWorker.beginStep
  cases envelope.tampered with
  | some exc => rfl
  | none =>
    refine wp_if (fun _ => rfl) fun hready => ?_
    have hready := Decidable.not_not.mp hready
    rw [wp_ite]
    exact ⟨fun _ => rfl, fun _ => hready⟩

section

variable (h : Tracked answers publisher stuck s)
include h

section

variable (hreceived : (envelope.stepId, received) ∈ s.trace)
include hreceived

theorem wp_admitEnvelope : Wp (admitEnvelope host envelope)
      (fun _ s' => (envelope.stepId, admitted) ∈ s'.trace ∧ Reach answers publisher stuck s s')
      (fun _ s' => Reach answers publisher stuck s s') s := by
  refine wp_query_bind (fun localIdentity _ => ?_) fun _ _ => h.refl
  rw [wp_bind, wp_get, wp_bind]
  refine wp_raiseIf ?_ (fun _ _ => h.refl)
  unfold onWorker
  rw [wp_bind, wp_zoom]
  refine wp_mono (wp_beginStep) (fun _ worker hready => ?_) (fun _ worker hsame => ?_)
  · have hfree : ¬ stuck := by
      intro hstuck
      rw [(h.stuck hstuck).1] at hready
      cases hready
    refine ⟨List.mem_cons_self, ⟨⟨⟨fun _ _ => hreceived, trivial⟩, h.licensed⟩, h.publishes,
      fun hstuck => absurd hstuck hfree⟩, fun _ hx => List.mem_cons_of_mem _ hx⟩
  · rw [hsame]
    exact h.refl

theorem wp_prepare : Wp (prepare host envelope)
      (fun _ s' => Grants .prepare envelope.stepId s'.trace ∧ Reach answers publisher stuck s s')
      (fun _ s' => Reach answers publisher stuck s s') s := by
  refine wp_seq (wp_admitEnvelope h hreceived) fun _ s' hs' => ?_
  rcases hs' with ⟨hadmitted, hreach⟩
  rw [wp_bind]
  refine wp_raiseIf ?_ (fun _ _ => hreach)
  refine wp_mono (wp_note hreach.tracked prepared (hreach.grows _ hreceived) trivial nofun)
    (fun _ s'' hs'' => ?_) (fun _ _ hf => hf)
  exact ⟨⟨hs''.1.grows _ hadmitted, hs''.2⟩, hreach.trans hs''.1⟩

end

/-! ## Failing and ending -/

/-- Failing both leaves the worker failed, whatever the host makes of it. -/
theorem wp_failBoth (exc : StepError) : Wp (failBoth host exc)
      (fun _ s' => Reach answers publisher stuck s s' ∧ s'.FailedClosed)
      (fun _ s' => Reach answers publisher stuck s s' ∧ s'.FailedClosed) s := by
  unfold failBoth
  have hfailed : Tracked answers publisher stuck { s with worker := s.worker.fail exc.text } :=
    ⟨h.licensed, h.publishes, fun hstuck => ⟨rfl, (h.stuck hstuck).2⟩⟩
  have hnoted := hfailed.note s.lastAttempt failedClosed (fun _ hne => absurd rfl hne) trivial nofun
  have hreach : Reach answers publisher stuck s { s with
      worker := s.worker.fail exc.text
      trace := (s.lastAttempt, failedClosed) :: s.trace } :=
    ⟨hnoted.tracked, hnoted.grows⟩
  have hdown : FailedClosed { s with
      worker := s.worker.fail exc.text
      trace := (s.lastAttempt, failedClosed) :: s.trace } :=
    ⟨rfl, s.lastAttempt, List.mem_cons_self⟩
  exact wp_raiseIf ⟨hreach, hdown⟩ fun _ _ => ⟨hreach, hdown⟩

end

theorem wp_raiseFailed {alpha : Type} {post : alpha -> DistributedStepCoordinator -> Prop}
    (hfail : forall exc, fail exc s) (stepId : Int) (exc : StepError) :
    Wp (raiseFailed stepId exc) post fail s := by
  unfold raiseFailed
  rw [wp_bind, wp_get, wp_ite]
  exact ⟨fun _ => hfail _, fun _ => hfail _⟩

section

variable (h : Tracked answers publisher stuck s)
include h

theorem wp_failClosed (exc : StepError) : Wp (failClosed host exc) post
      (fun _ s' => Reach answers publisher stuck s s' ∧ s'.FailedClosed) s := by
  refine wp_seq (wp_failBoth h exc) fun _ s' hs' => ?_
  rw [wp_bind, wp_get]
  exact wp_raiseFailed (fun _ => hs') _ exc

/-- Ending a step completes it or finds nothing to complete; a worker that had failed is
not running. -/
theorem wp_endStep : Wp (endStep envelope) (fun _ s' => Reach answers publisher stuck s s')
      (fun exc s' => Raised answers publisher stuck s exc s') s := by
  unfold endStep
  refine wp_if (fun hrunning => ?_) fun _ => h.refl
  have hfree : ¬ stuck := by
    intro hstuck
    rw [(h.stuck hstuck).1] at hrunning
    cases hrunning
  unfold onWorker RankLocalKVWorker.complete RankLocalKVWorker.raise
  rw [wp_zoom, wp_bind, wp_get, wp_ite]
  refine ⟨fun _ => ⟨h.refl, fun hrefused => nomatch hrefused⟩, fun _ => ?_⟩
  rw [wp_ite]
  refine ⟨fun _ => ⟨h.refl, fun hrefused => nomatch hrefused⟩, fun _ => ?_⟩
  exact ⟨⟨h.licensed, h.publishes, fun hstuck => absurd hstuck hfree⟩, fun _ hx => hx⟩

section

variable (hreceived : (envelope.stepId, received) ∈ s.trace)
include hreceived

theorem wp_refuse (hanswer : answers.grant .prepare = .answered (.ok false))
    (hvoted : (envelope.stepId, voted .prepare localGrant) ∈ s.trace)
    (refusal : Option StepError) : Wp (refuse host envelope refusal) post
      (fun exc s' => Raised answers publisher stuck s exc s') s := by
  refine wp_seq (wp_note h declined hreceived ⟨hanswer, localGrant, hvoted⟩ nofun) fun _ s1 h1 => ?_
  rw [wp_bind]
  refine wp_raiseIf ?_ (fun exc hexc => ?_)
  · refine wp_seq (wp_note h1.1.tracked rolledBack (h1.1.grows _ hreceived) trivial nofun)
      fun _ s2 h2 => ?_
    have hreach2 := h1.1.trans h2.1
    refine wp_then (wp_endStep hreach2.tracked) (fun _ s3 h3 => ?_)
      (fun _ _ hf => hreach2.raised hf)
    have hreach3 := hreach2.trans h3
    refine wp_seq (wp_note hreach3.tracked refused (hreach3.grows _ hreceived) trivial nofun)
      fun _ s4 h4 => ?_
    refine ⟨hreach3.trans h4.1, fun _ => .inr ⟨envelope.stepId, ?_, h4.2⟩⟩
    exact h4.1.grows _ (h3.grows _ h2.2)
  · rcases Option.map_eq_some_iff.mp hexc with ⟨control, _, heq⟩
    rw [<- heq]
    exact h1.1.control control

/-! ## Launching, committing and publishing -/

theorem wp_launch (hgranted : Granted answers .prepare envelope.stepId s.trace) :
    Wp (launch host envelope) (fun _ s' => Grants .proof envelope.stepId s'.trace
        ∧ Reach answers publisher stuck s s')
      (fun _ s' => Reach answers publisher stuck s s') s := by
  refine wp_seq (wp_note h .launched hreceived hgranted nofun) fun _ s1 h1 => ?_
  rw [wp_bind]
  refine wp_raiseIf ?_ (fun _ _ => h1.1)
  refine wp_query_bind (fun proven _ => ?_) fun _ _ => h1.1
  refine wp_if (fun _ => ?_) fun _ => h1.1
  refine wp_mono (wp_note h1.1.tracked fenced (h1.1.grows _ hreceived) h1.2 nofun)
    (fun _ s2 h2 => ?_) (fun _ _ hf => hf)
  exact ⟨h2.2, h1.1.trans h2.1⟩

theorem wp_commit (hgranted : Granted answers .proof envelope.stepId s.trace) :
    Wp (commit host envelope) (fun _ s' => Grants .acknowledge envelope.stepId s'.trace
        ∧ Reach answers publisher stuck s s')
      (fun _ s' => Reach answers publisher stuck s s') s := by
  refine wp_seq (wp_note h committing hreceived hgranted nofun) fun _ s1 h1 => ?_
  rw [wp_bind]
  refine wp_raiseIf ?_ (fun _ _ => h1.1)
  refine wp_mono (wp_note h1.1.tracked committed (h1.1.grows _ hreceived) h1.2 nofun)
    (fun _ s2 h2 => ?_) (fun _ _ hf => hf)
  exact ⟨h2.2, h1.1.trans h2.1⟩

section

variable (hgranted : Granted answers Round.acknowledge envelope.stepId s.trace)
include hgranted

theorem wp_publish : Wp (publish host envelope) (fun _ s' => (envelope.stepId, published) ∈ s'.trace
        ∧ Reach answers publisher stuck s s')
      (fun _ s' => Reach answers publisher stuck s s') s := by
  refine wp_seq (wp_note h publishing hreceived hgranted nofun) fun _ s1 h1 => ?_
  rw [wp_bind]
  refine wp_raiseIf ?_ (fun _ _ => h1.1)
  refine wp_mono (wp_note h1.1.tracked published (h1.1.grows _ hreceived) trivial nofun)
    (fun _ s2 h2 => ?_) (fun _ _ hf => hf)
  exact ⟨h2.2, h1.1.trans h2.1⟩

theorem wp_publication : Wp (publication host envelope)
      (fun _ s' => Reach answers publisher stuck s s'
        ∧ (publisher -> (envelope.stepId, published) ∈ s'.trace))
      (fun exc s' => Raised answers publisher stuck s exc s') s := by
  unfold publication
  rw [wp_bind, wp_get, wp_ite]
  refine ⟨fun _ => ?_, fun hother => ⟨h.refl, fun hpublisher => ?_⟩⟩
  · rw [wp_tryCatch]
    refine wp_mono (wp_publish h hreceived hgranted) (fun _ s' hs' => ⟨hs'.2, fun _ => hs'.1⟩)
      (fun exc s' hs' => ?_)
    refine wp_mono (wp_failClosed hs'.tracked exc) (fun _ _ hpost => hpost) (fun _ s'' hs'' => ?_)
    exact ⟨hs'.trans hs''.1, fun _ => .inl hs''.2⟩
  · exact absurd (h.publishes.mpr hpublisher) hother

end

theorem wp_enterBarrier
    (hlicensed : Licenses answers publisher envelope.stepId s.trace barrierEntered) :
    Wp (enterBarrier answers envelope) (fun _ s' => Reach answers publisher stuck s s'
        ∧ Licenses answers publisher envelope.stepId s'.trace returned)
      (fun exc s' => Raised answers publisher stuck s exc s') s := by
  unfold enterBarrier
  cases hanswer : answers.barrier with
  | expired => exact wp_expired h
  | answered outcome =>
    refine wp_seq (wp_note h barrierEntered hreceived hlicensed nofun) fun _ s' hs' => ?_
    refine wp_mono (wp_answer hs'.1 outcome) (fun _ t ht => ?_) (fun _ _ hf => hf)
    rw [ht.1]
    exact ⟨hs'.1, hanswer.trans (ht.2 ▸ rfl), hs'.2⟩

end

end

/-- What a part of the attempt that ends it leaves: the step has returned, or raised. -/
abbrev Ends (answers : Answers) (publisher stuck : Prop) (x : StepM Unit)
    (s : DistributedStepCoordinator) : Prop :=
  Wp x (fun _ s' => Reach answers publisher stuck s s'
      ∧ exists k, (k, .returned) ∈ s'.trace)
    (fun exc s' => Raised answers publisher stuck s exc s') s

theorem Reach.ends (h : Reach answers publisher stuck s s')
    (hends : Ends answers publisher stuck x s') :
    Wp x (fun _ s'' => Reach answers publisher stuck s s'' ∧ exists k, (k, returned) ∈ s''.trace)
      (fun exc s'' => Raised answers publisher stuck s exc s'') s' :=
  wp_mono hends (fun _ _ hpost => ⟨h.trans hpost.1, hpost.2⟩) (fun _ _ hf => h.raised hf)

section

variable (h : Tracked answers publisher stuck s)
include h

section

variable (hreceived : (envelope.stepId, received) ∈ s.trace)
include hreceived

theorem wp_finishStep (hgranted : Granted answers .acknowledge envelope.stepId s.trace) :
    Ends answers publisher stuck (finishStep host answers envelope) s := by
  refine wp_seq (wp_publication h hreceived hgranted) fun _ s1 h1 => ?_
  rcases h1 with ⟨h1, hpublished⟩
  refine wp_then
    (wp_enterBarrier h1.tracked (h1.grows _ hreceived) ⟨hgranted.mono h1.grows, hpublished⟩)
    (fun _ s2 h2 => ?_) (fun _ _ hf => h1.raised hf)
  rcases h2 with ⟨h2, hreturned⟩
  have hreach2 := h1.trans h2
  refine wp_then (wp_endStep h2.tracked) (fun _ s3 h3 => ?_) (fun _ _ hf => hreach2.raised hf)
  have hreach3 := hreach2.trans h3
  refine wp_mono (wp_note h3.tracked returned (hreach3.grows _ hreceived)
    ⟨hreturned.1, h3.grows _ hreturned.2⟩ nofun) (fun _ s4 h4 => ?_) (fun _ _ hf => hf)
  exact ⟨hreach3.trans h4.1, envelope.stepId, h4.2⟩

theorem wp_commitPhase (hgranted : Granted answers .proof envelope.stepId s.trace) :
    Ends answers publisher stuck (commitPhase host answers envelope) s := by
  refine wp_seq (wp_caught (wp_commit h hreceived hgranted)) fun failure s1 h1 => ?_
  rcases h1 with ⟨h1, hgrants⟩
  refine wp_then (wp_agree h1.tracked (h1.grows _ hreceived) hgrants) (fun granted s2 h2 => ?_)
    (fun _ _ hf => h1.raised hf)
  rcases h2 with ⟨h2, hanswer, hvoted⟩
  have hreach := h1.trans h2
  refine wp_if (fun htrue => ?_) fun _ => ?_
  · rw [htrue] at hanswer
    exact hreach.ends (wp_finishStep h2.tracked (hreach.grows _ hreceived) ⟨hanswer, _, hvoted⟩)
  · refine wp_then (wp_failBoth h2.tracked _) (fun _ s3 h3 => ?_) (fun _ s3 h3 => ?_)
    · exact ⟨hreach.trans h3.1, fun _ => .inl h3.2⟩
    · exact ⟨hreach.trans h3.1, fun _ => .inl h3.2⟩

theorem wp_launchPhase (hgranted : Granted answers .prepare envelope.stepId s.trace) :
    Ends answers publisher stuck (launchPhase host answers envelope) s := by
  refine wp_seq (wp_caught (wp_launch h hreceived hgranted)) fun failure s1 h1 => ?_
  rcases h1 with ⟨h1, hgrants⟩
  refine wp_then (wp_agree h1.tracked (h1.grows _ hreceived) hgrants) (fun granted s2 h2 => ?_)
    (fun _ _ hf => h1.raised hf)
  rcases h2 with ⟨h2, hanswer, hvoted⟩
  have hreach := h1.trans h2
  refine wp_if (fun htrue => ?_) fun _ => ?_
  · rw [htrue] at hanswer
    exact hreach.ends (wp_commitPhase h2.tracked (hreach.grows _ hreceived) ⟨hanswer, _, hvoted⟩)
  · refine wp_then (wp_failBoth h2.tracked _) (fun _ s3 h3 => ?_) (fun _ s3 h3 => ?_)
    · exact wp_raiseFailed (fun _ => ⟨hreach.trans h3.1, fun _ => .inl h3.2⟩) _ _
    · exact ⟨hreach.trans h3.1, fun _ => .inl h3.2⟩

end

theorem wp_attempt (prepared : Option DistributedStepEnvelope) :
    Ends answers publisher stuck (attempt host answers prepared) s := by
  refine wp_seq (wp_broadcast h prepared) fun envelope s1 h1 => ?_
  rcases h1 with ⟨h1, hreceived⟩
  refine wp_seq (wp_caught (wp_prepare h1.tracked hreceived)) fun refusal s2 h2 => ?_
  rcases h2 with ⟨h2, hgrants⟩
  have hreach2 := h1.trans h2
  refine wp_then (wp_agree h2.tracked (h2.grows _ hreceived) hgrants) (fun granted s3 h3 => ?_)
    (fun _ _ hf => hreach2.raised hf)
  rcases h3 with ⟨h3, hanswer, hvoted⟩
  have hreach3 := hreach2.trans h3
  have hreceived3 := h3.grows _ (h2.grows _ hreceived)
  refine wp_if (fun htrue => ?_) fun hfalse => ?_
  · rw [htrue] at hanswer
    exact hreach3.ends (wp_launchPhase h3.tracked hreceived3 ⟨hanswer, _, hvoted⟩)
  · rw [Bool.eq_false_of_not_eq_true hfalse] at hanswer
    exact hreach3.ends (wp_refuse h3.tracked hreceived3 hanswer hvoted refusal)

end

/-- An attempt from any state: it returns after the barrier, or raises with the worker
failed or the step rolled back. -/
theorem wp_run (host : Host) (answers : Answers) (prepared : Option DistributedStepEnvelope)
    (s : DistributedStepCoordinator) :
    Wp (run host answers prepared) (fun _ s' => Tracked answers (s.rank = s.publisherRank)
          (s.worker.state = failed) s'
        ∧ exists k, (k, returned) ∈ s'.trace)
      (fun _ s' => Tracked answers (s.rank = s.publisherRank) (s.worker.state = failed) s'
        ∧ (s'.FailedClosed ∨ s'.RolledBack)) s := by
  have hstart : Tracked answers (s.rank = s.publisherRank) (s.worker.state = failed)
      ({ s with trace := [] } : DistributedStepCoordinator) :=
    ⟨trivial, Iff.rfl, fun hfailed => ⟨hfailed, fun _ hmem => nomatch hmem⟩⟩
  unfold run
  rw [wp_bind, wp_modify, wp_tryCatch]
  refine wp_mono (wp_attempt hstart prepared) (fun _ s' hs' => ⟨hs'.1.tracked, hs'.2⟩)
    (fun exc s' hs' => ?_)
  refine wp_if (fun hrefused => ⟨hs'.reach.tracked, hs'.down hrefused⟩) fun _ => ?_
  exact wp_mono (wp_failClosed hs'.reach.tracked exc) (fun _ _ hpost => hpost)
    (fun _ _ hs'' => ⟨hs''.1.tracked, .inl hs''.2⟩)

end Attempt

end DistributedStepCoordinator

/-! ## The group -/

open DistributedStepCoordinator (FailedClosed RolledBack Tracked)

/-- One rank of the group; `awaitingRecovery` remembers a failed step, for the proofs. -/
structure Member where
  coordinator : DistributedStepCoordinator
  awaitingRecovery : Bool := false

abbrev Group (ranks : Type) := ranks -> Member

structure GroupStep (ranks : Type) where
  hosts : ranks -> Host
  answers : ranks -> Answers
  prepared : ranks -> Option DistributedStepEnvelope

abbrev Recovery := Except StepError (Option (Nat × Nat))

inductive GroupCall (ranks : Type) where
  | attempt (step : GroupStep ranks)
  | recover (choices : ranks -> Option Recovery)

namespace Group

variable {ranks : Type}

def outcome (g : Group ranks) (step : GroupStep ranks) (r : ranks) :
    EStateM.Result StepError DistributedStepCoordinator Unit :=
  DistributedStepCoordinator.run (step.hosts r) (step.answers r) (step.prepared r)
    (g r).coordinator

def acts (g : Group ranks) (step : GroupStep ranks) (r : ranks) : Trace :=
  (finalState (g.outcome step r)).trace

def isPublisher (g : Group ranks) (r : ranks) : Prop :=
  (g r).coordinator.rank = (g r).coordinator.publisherRank

def stepFailed : EStateM.Result StepError DistributedStepCoordinator Unit -> Bool
  | .ok _ _ => false
  | .error _ s => s.trace.all fun entry => entry.2 ≠ refused

def recoverMember (member : Member) (recovery : Recovery) : Member :=
  match DistributedStepCoordinator.recover recovery member.coordinator with
  | .ok _ coordinator => { coordinator, awaitingRecovery := false }
  | .error _ coordinator => { member with coordinator }

def step (g : Group ranks) : GroupCall ranks -> Group ranks
  | .attempt step => fun r =>
    { coordinator := finalState (g.outcome step r)
      awaitingRecovery := (g r).awaitingRecovery || stepFailed (g.outcome step r) }
  | .recover choices => fun r => (choices r).elim (g r) (recoverMember (g r))

/-- The rounds are matched: an answer a rank gets is the conjunction of the votes of all
ranks, a barrier is left after all have entered, and all receive one step. -/
structure Matched (g : Group ranks) (step : GroupStep ranks) : Prop where
  broadcast : forall r q k j, (k, received) ∈ g.acts step r ->
    (j, received) ∈ g.acts step q -> k = j
  grant : forall r round granted,
    (exists k localGrant, (k, voted round localGrant) ∈ g.acts step r) ->
    (step.answers r).grant round = .answered (.ok granted) ->
    (granted = true <-> forall q, exists k, (k, voted round true) ∈ g.acts step q)
  barrier : forall r, (exists k, (k, barrierEntered) ∈ g.acts step r) ->
    (step.answers r).barrier = .answered (.ok ()) ->
    forall q, exists k, (k, barrierEntered) ∈ g.acts step q

def Meets (g : Group ranks) : GroupCall ranks -> Prop
  | .attempt step => g.Matched step
  | .recover _ => True

structure AllOrNothing (g : Group ranks) (step : GroupStep ranks) : Prop where
  launched : forall r k, (k, .launched) ∈ g.acts step r ->
    forall q, (k, admitted) ∈ g.acts step q ∧ (k, .prepared) ∈ g.acts step q
  committing : forall r k, (k, .committing) ∈ g.acts step r ->
    forall q, (k, fenced) ∈ g.acts step q
  publishing : forall r k, (k, .publishing) ∈ g.acts step r ->
    forall q, (k, committed) ∈ g.acts step q
  returned : forall r, returned? (g.outcome step r) = some () ->
    exists k, forall q, (k, committed) ∈ g.acts step q
      ∧ (g.isPublisher q -> (k, published) ∈ g.acts step q)
  declined : forall r k, (k, .declined) ∈ g.acts step r ->
    forall q, (forall j, (j, .launched) ∉ g.acts step q)
      ∧ ((k, .prepared) ∈ g.acts step q ->
        (k, rolledBack) ∈ g.acts step q
          ∨ exists j, (j, failedClosed) ∈ g.acts step q)

/-! ## From one rank to all -/

section Matched

variable {g : Group ranks} {s : GroupStep ranks}

theorem tracked (g : Group ranks) (s : GroupStep ranks) (r : ranks) :
    Tracked (s.answers r) (g.isPublisher r) ((g r).coordinator.worker.state = failed)
      (finalState (g.outcome s r)) := by
  have hrun := DistributedStepCoordinator.wp_run (s.hosts r) (s.answers r) (s.prepared r)
    (g r).coordinator
  exact wp_inv_iff.mp (wp_mono hrun (fun _ _ h => h.1) (fun _ _ h => h.1))

/-- The license of an act, with the rank's whole attempt behind it. -/
theorem license (h : (k, act) ∈ g.acts s r) :
    exists earlier, Licensed (s.answers r) (g.isPublisher r) (k, act) earlier
      ∧ forall x, x ∈ earlier -> x ∈ g.acts s r :=
  (g.tracked s r).licensed.of_mem h

theorem received_of_mem (h : (k, act) ∈ g.acts s r)
    (hact : act ≠ failedClosed) : (k, received) ∈ g.acts s r := by
  by_cases hfirst : act = received
  · exact hfirst ▸ h
  · rcases license h with ⟨_, hlicensed, hsub⟩
    exact hsub _ (hlicensed.1 hfirst hact)

section

variable (h : g.Matched s)
include h

variable {r q : ranks} {k j : Int}

/-- Acts of one attempt, on any ranks, are about one step. -/
theorem Matched.same (hr : (k, act) ∈ g.acts s r) (hq : (j, act') ∈ g.acts s q)
    (hact : act ≠ failedClosed) (hact' : act' ≠ failedClosed) : j = k :=
  h.broadcast q r j k (received_of_mem hq hact') (received_of_mem hr hact)

/-- A granted round tells what every rank has behind its vote. -/
theorem Matched.granted (hgranted : Granted (s.answers r) round k earlier)
    (hsub : forall x, x ∈ earlier -> x ∈ g.acts s r) (q : ranks) : Grants round k (g.acts s q) := by
  rcases hgranted with ⟨hanswer, localGrant, hvoted⟩
  have hvoted := hsub _ hvoted
  rcases (h.grant r round true ⟨k, localGrant, hvoted⟩ hanswer).mp rfl q with ⟨j, hj⟩
  rcases license hj with ⟨before, hlicensed, hbefore⟩
  have hgrants : Grants round j before := hlicensed.2 rfl
  rw [h.same hvoted hj nofun nofun] at hgrants
  exact hgrants.mono hbefore

theorem Matched.launched (hact : (k, .launched) ∈ g.acts s r) (q : ranks) :
    Grants .prepare k (g.acts s q) := by
  rcases license hact with ⟨_, hlicensed, hsub⟩
  exact h.granted hlicensed.2 hsub q

theorem Matched.committing (hact : (k, committing) ∈ g.acts s r) (q : ranks) :
    Grants .proof k (g.acts s q) := by
  rcases license hact with ⟨_, hlicensed, hsub⟩
  exact h.granted hlicensed.2 hsub q

/-- A step declined on one rank is launched on none. -/
theorem Matched.not_launched (hdeclined : (k, declined) ∈ g.acts s r)
    (hlaunched : (j, .launched) ∈ g.acts s q) : False := by
  rcases license hdeclined with ⟨_, hlicensed, hsub⟩
  rcases hlicensed.2 with ⟨hanswer, localGrant, hvoted⟩
  have hrefused := h.grant r .prepare false ⟨k, localGrant, hsub _ hvoted⟩ hanswer
  rcases license hlaunched with ⟨_, hlaunch, hbefore⟩
  rcases hlaunch.2 with ⟨hgrant, localGrant', hvoted'⟩
  have hall := h.grant q .prepare true ⟨j, localGrant', hbefore _ hvoted'⟩ hgrant
  cases hrefused.mpr (hall.mp rfl)

end

theorem launched_of_committed (h : g.Matched s)
    (hact : (k, committed) ∈ g.acts s q) : (k, .launched) ∈ g.acts s q := by
  rcases license hact with ⟨_, hlicensed, hsub⟩
  have hfenced : (k, fenced) ∈ g.acts s q := h.committing (hsub _ hlicensed.2) q
  rcases license hfenced with ⟨_, hbehind, hbefore⟩
  exact hbefore _ hbehind.2

/-- A rank whose call has returned: what all ranks have behind the barrier. -/
theorem Matched.returned (h : g.Matched s) (hact : (k, returned) ∈ g.acts s r) (q : ranks) :
    (k, committed) ∈ g.acts s q ∧ (g.isPublisher q -> (k, published) ∈ g.acts s q) := by
  rcases license hact with ⟨_, hlicensed, hsub⟩
  rcases hlicensed.2 with ⟨hbarrier, hentered⟩
  have hentered := hsub _ hentered
  rcases h.barrier r ⟨k, hentered⟩ hbarrier q with ⟨j, hj⟩
  have hsame : j = k := h.same hentered hj nofun nofun
  rw [hsame] at hj
  rcases license hj with ⟨_, hbehind, hbefore⟩
  exact ⟨h.granted hbehind.2.1 hbefore q, fun hpublisher => hbefore _ (hbehind.2.2 hpublisher)⟩

/-- A call that raises has failed closed or rolled the step back. -/
theorem raised_down (g : Group ranks) (s : GroupStep ranks) (r : ranks)
    (h : returned? (g.outcome s r) ≠ some ()) :
    (finalState (g.outcome s r)).FailedClosed ∨ (finalState (g.outcome s r)).RolledBack := by
  have hrun := DistributedStepCoordinator.wp_run (s.hosts r) (s.answers r) (s.prepared r)
    (g r).coordinator
  cases houtcome : g.outcome s r with
  | ok a t =>
    rw [houtcome] at h
    exact absurd rfl h
  | error exc t => exact (wp_run_error houtcome hrun).2

theorem returned_act (h : returned? (g.outcome s r) = some ()) :
    exists k, (k, returned) ∈ g.acts s r := by
  have hrun := DistributedStepCoordinator.wp_run (s.hosts r) (s.answers r) (s.prepared r)
    (g r).coordinator
  unfold acts
  cases houtcome : g.outcome s r with
  | ok a t => exact (wp_run_ok houtcome hrun).2
  | error exc t =>
    rw [houtcome] at h
    cases h

theorem Matched.allOrNothing (h : g.Matched s) : g.AllOrNothing s where
  launched := fun _ _ hact q => h.launched hact q
  committing := fun _ _ hact q => h.committing hact q
  publishing := fun r k hact q => by
    rcases license hact with ⟨_, hlicensed, hsub⟩
    exact h.granted hlicensed.2 hsub q
  returned := fun r hreturned => by
    rcases returned_act hreturned with ⟨k, hk⟩
    exact ⟨k, h.returned hk⟩
  declined := fun r k hdeclined q => by
    refine ⟨fun j hlaunched => h.not_launched hdeclined hlaunched, fun hprepared => ?_⟩
    by_cases hreturned : returned? (g.outcome s q) = some ()
    · rcases returned_act hreturned with ⟨j, hj⟩
      exact (h.not_launched hdeclined (launched_of_committed h (h.returned hj q).1)).elim
    · rcases g.raised_down s q hreturned with hclosed | ⟨j, hrolled, _⟩
      · exact .inr hclosed.2
      · have hsame : j = k := h.same hdeclined hrolled nofun nofun
        exact .inl (hsame ▸ hrolled)

end Matched

/-! ## Sequences of steps -/

def Sound (g : Group ranks) : Prop :=
  forall r, (g r).awaitingRecovery = true ->
    (g r).coordinator.worker.state = failed

variable {g : Group ranks}

theorem sound_attempt (h : g.Sound) (s : GroupStep ranks) : (g.step (.attempt s)).Sound := by
  intro r hawaiting
  rcases Bool.or_eq_true_iff.mp hawaiting with hbefore | hfailed
  · exact ((g.tracked s r).stuck (h r hbefore)).1
  · show (finalState (g.outcome s r)).worker.state = _
    have hdown := g.raised_down s r
    cases houtcome : g.outcome s r with
    | ok a t =>
      rw [houtcome] at hfailed
      cases hfailed
    | error exc t =>
      rw [houtcome] at hfailed hdown
      rcases hdown nofun with hclosed | ⟨_, _, hrefused⟩
      · exact hclosed.1
      · have hnone := List.all_eq_true.mp hfailed _ hrefused
        simp at hnone

/-- A recovery that raises leaves a failed worker failed. -/
theorem wp_recover (recovery : Recovery) (s : DistributedStepCoordinator) :
    Wp (DistributedStepCoordinator.recover recovery) (fun _ _ => True)
      (fun _ s' => s.worker.state = failed -> s'.worker.state = failed) s := by
  unfold DistributedStepCoordinator.recover DistributedStepCoordinator.onWorker
    RankLocalKVWorker.recover
  rw [wp_bind, wp_zoom, wp_bind, wp_get]
  refine wp_if (fun _ => fun hfailed => hfailed) fun _ => ?_
  cases recovery with
  | error exc => exact fun hfailed => hfailed
  | ok replacement =>
    rw [wp_modify, wp_bind, wp_get]
    cases replacement with
    | none => trivial
    | some plane =>
      rw [wp_ite]
      exact ⟨fun _ _ => rfl, fun _ => trivial⟩

theorem sound_recover (h : g.Sound) (choices : ranks -> Option Recovery) :
    (g.step (.recover choices)).Sound := by
  intro r hawaiting
  unfold step at hawaiting ⊢
  dsimp only at hawaiting ⊢
  cases hchoice : choices r with
  | none =>
    rw [hchoice] at hawaiting
    exact h r hawaiting
  | some recovery =>
    rw [hchoice] at hawaiting
    have hrecover := wp_recover recovery (g r).coordinator
    dsimp only [Option.elim, recoverMember] at hawaiting ⊢
    cases hrun : DistributedStepCoordinator.recover recovery (g r).coordinator with
    | ok a coordinator =>
      rw [hrun] at hawaiting
      cases hawaiting
    | error exc coordinator =>
      rw [hrun] at hawaiting
      exact wp_run_error hrun hrecover (h r hawaiting)

theorem Sound.step (h : g.Sound) (call : GroupCall ranks) : (g.step call).Sound := by
  cases call with
  | attempt s => exact sound_attempt h s
  | recover choices => exact sound_recover h choices

def initial (start : ranks -> DistributedStepCoordinator) : Group ranks :=
  fun r => { coordinator := start r }

def run (g : Group ranks) (calls : List (GroupCall ranks)) : Group ranks :=
  calls.foldl step g

/-- In every sequence of steps over matched rounds, with recoveries in between, every step
is all or nothing, and a rank that has failed a step admits none before it recovers. -/
theorem run_allOrNothing (start : ranks -> DistributedStepCoordinator)
    (before after : List (GroupCall ranks)) (s : GroupStep ranks)
    (h : Guarded step Meets (initial start) (before ++ GroupCall.attempt s :: after)) :
    ((initial start).run before).AllOrNothing s
      ∧ forall r, ((initial start).run before r).awaitingRecovery = true ->
        forall k, (k, admitted) ∉ ((initial start).run before).acts s r := by
  have hstart : (initial start).Sound := fun _ hawaiting => nomatch hawaiting
  have hstep : forall (g : Group ranks) call, g.Sound -> g.Meets call -> (g.step call).Sound :=
    fun _ call hg _ => hg.step call
  rcases h.invariant hstep hstart with ⟨hsound, hrest⟩
  have hmatched : ((initial start).run before).Matched s := hrest.1
  refine ⟨hmatched.allOrNothing, fun r hawaiting k => ?_⟩
  exact ((((initial start).run before).tracked s r).stuck (hsound r hawaiting)).2 k

/-! ## Two ranks -/

def sampleEnvelope (stepId : Int) : DistributedStepEnvelope where
  stepId
  sha256 := "digest"
  plan := fun _ => none
  graphMode := "eager"
  distributed := none

/-- Two ranks with ready workers; the first one is source and publisher. -/
def sampleStart (second : Bool) : DistributedStepCoordinator where
  rank := second.toNat
  worldSize := 2
  worker := { rank := second.toNat, state := ready }

/-- A step that the second rank refuses to prepare, or that nothing fails. -/
def sampleStep (stepId : Int) (refuses : Bool) : GroupStep Bool where
  hosts := fun second =>
    { prepare := if second && refuses then some (.refused "no pages") else none }
  answers := fun _ =>
    { broadcast := .answered (.ok (sampleEnvelope stepId))
      grant := fun _ => .answered (.ok !refuses)
      barrier := .answered (.ok ()) }
  prepared := fun second => if second then none else some (sampleEnvelope stepId)

theorem refused_acts (second : Bool) :
    (initial sampleStart).acts (sampleStep 1 true) second =
      [(1, refused), (1, rolledBack), (1, declined), (1, voted .prepare !second)]
        ++ (if second then [] else [(1, prepared)]) ++ [(1, admitted), (1, received)] := by
  cases second <;> rfl

theorem refused_matched : (initial sampleStart).Matched (sampleStep 1 true) where
  broadcast := fun r q k j hk hj => by
    rw [refused_acts] at hk hj
    cases r <;> cases q <;> simp_all
  grant := fun r round granted _ hanswer => by
    cases hanswer
    constructor
    · intro hfalse
      cases hfalse
    · intro hall
      rcases hall true with ⟨k, hvoted⟩
      rw [refused_acts] at hvoted
      simp at hvoted
  barrier := fun r ⟨k, hentered⟩ _ _ => by
    rw [refused_acts] at hentered
    cases r <;> simp at hentered

def afterRefusal : Group Bool :=
  (initial sampleStart).run [.attempt (sampleStep 1 true)]

theorem granted_acts (second : Bool) :
    afterRefusal.acts (sampleStep 2 false) second = [(2, returned), (2, barrierEntered)]
        ++ (if second then [] else [(2, published), (2, publishing)])
        ++ [(2, voted .acknowledge true), (2, committed),
          (2, committing), (2, voted .proof true), (2, fenced),
          (2, .launched), (2, voted .prepare true), (2, prepared),
          (2, admitted), (2, received)] := by
  cases second <;> rfl

theorem granted_matched : afterRefusal.Matched (sampleStep 2 false) where
  broadcast := fun r q k j hk hj => by
    rw [granted_acts] at hk hj
    cases r <;> cases q <;> simp_all
  grant := fun r round granted _ hanswer => by
    have hgranted : granted = true := by
      cases hanswer
      rfl
    refine ⟨fun _ q => ⟨2, ?_⟩, fun _ => hgranted⟩
    rw [granted_acts]
    cases q <;> cases round <;> simp
  barrier := fun _ _ _ q => ⟨2, by rw [granted_acts]; simp⟩

/-- One rank refuses the first step and all roll it back; the second one is launched. -/
theorem run_allOrNothing_refused :
    ((initial sampleStart).AllOrNothing (sampleStep 1 true)
      ∧ (1, StepAct.rolledBack) ∈ (initial sampleStart).acts (sampleStep 1 true) false)
    ∧ afterRefusal.AllOrNothing (sampleStep 2 false)
      ∧ (2, StepAct.launched) ∈ afterRefusal.acts (sampleStep 2 false) false := by
  have hmeets : Guarded step Meets (initial sampleStart)
      [.attempt (sampleStep 1 true), .attempt (sampleStep 2 false)] :=
    ⟨refused_matched, granted_matched, trivial⟩
  refine ⟨⟨?_, ?_⟩, ?_, ?_⟩
  · exact (run_allOrNothing sampleStart [] [.attempt (sampleStep 2 false)] (sampleStep 1 true)
      hmeets).1
  · rw [refused_acts]
    simp
  · exact (run_allOrNothing sampleStart [.attempt (sampleStep 1 true)] [] (sampleStep 2 false)
      hmeets).1
  · rw [granted_acts]
    simp

end Group
end Distributed
end Ayaka
