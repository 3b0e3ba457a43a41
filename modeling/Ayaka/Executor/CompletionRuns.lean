import Ayaka.Executor.CompletionSettlement

/-!
# Exactly-once settlement

Over every run of the coordinator and its executor a ticket's bundle is committed
at most once, and only after the executor reported a quiescent success; it is
retired at most once; every slice of a ticket publishes at most once, and the
output of a request is the publications made for it, in order.  All of this rests
on one mark: a settlement begins by marking its ticket, only an unmarked ticket is
settled, and the mark is never taken back.
-/

namespace Ayaka
namespace Completion

open Foundation Sched Executor Request
open TicketState (completed)

variable {world : Type}

section Handling

variable {first : CompletionCoordinator world} {ticket : ExecutionTicket}
  {c : CompletionCoordinator world} {outcome : TerminalOutcome} (env : Surroundings world)

/-! ## Handling outcomes -/

/-- What any call of the coordinator may do. -/
structure Proceeds (first c : CompletionCoordinator world) : Prop where
  once : Once c
  spent : forall id, Spent first.executor id -> Spent c.executor id
  settlements : forall id, Spent first.executor id ->
    settlementsOf c.executor id = settlementsOf first.executor id
  publications : first.publications <+: c.publications

theorem Once.proceeds (h : Once c) : Proceeds c c where
  once := h
  spent := fun _ hid => hid
  settlements := fun _ _ => rfl
  publications := List.prefix_rfl

theorem Proceeds.trans {c'} (h : Proceeds first c) (h' : Proceeds c c') : Proceeds first c' where
  once := h'.once
  spent := fun id hid => h'.spent id (h.spent id hid)
  settlements := fun id hid => (h'.settlements id (h.spent id hid)).trans (h.settlements id hid)
  publications := h.publications.trans h'.publications

theorem Once.proceeds_still (h : Once first) (hc : Still first c) : Proceeds first c where
  once := h.still hc
  spent := fun _ hid => hid.follows hc.executor
  settlements := fun id _ => hc.executor.settlementsOf_eq id
  publications := by rw [hc.publications]

theorem proceeds_of_still {alpha : Type} {x : CoordinatorM world alpha}
    (hx : forall start, Keeps (Still start) x) : Keeps (Proceeds first) x := by
  intro c h
  exact wp_mono (hx c c h.once.ready.still) (fun _ _ h' => h.trans (h.once.proceeds_still h'))
    fun _ _ h' => ⟨h.trans (h.once.proceeds_still h'.1), trivial⟩

/-- The state in which the settlement of a ticket starts. -/
def marked (id : TicketId) (c : CompletionCoordinator world) : CompletionCoordinator world :=
  { c with executor := c.executor.withTicket id (fun ticket => { ticket with settling := true }) }

theorem marked_still (h : Ready c) (id : TicketId) : Still c (marked id c) := by
  have hfollows : Follows c.executor (marked id c).executor :=
    markSettling_keeps id c.executor h.sound.follows
  exact ⟨hfollows, h.heap.quiet, h.bound.follows hfollows, rfl⟩

theorem settling_marked (h : Once c) {id}
    (hticket : c.executor.tickets.get? id = some ticket) (hopen : ticket.settling = false)
    (hcompleted : ticket.state = completed) : Settling c ticket false 0 (marked ticket.id c) := by
  have hstill := marked_still h.ready ticket.id
  have hid : ticket.id = id := h.ready.sound.named id ticket hticket
  rw [<- hid] at hticket
  have hunspent : ¬ Spent c.executor ticket.id := by
    intro hspent
    exact absurd (hopen.symm.trans (hspent.settling ticket hticket)) (by decide)
  have hspent : Spent (marked ticket.id c).executor ticket.id := by
    refine ⟨h.ready.sound.below ticket.id ticket hticket, fun found hfound => ?_⟩
    have hself := get?_withTicket_self hticket
      (fun ticket : ExecutionTicket => { ticket with settling := true })
    rw [<- Option.some.inj (hself.symm.trans hfound)]
  have hok := h.ready.sound.ok ticket.id ticket hticket
  refine ⟨h.still hstill, hspent, fun hsucceeded => ?_, fun _ call hcall => ?_,
    (fun hcommitted => nomatch hcommitted), fun call hcall => ?_, fun p hp hid' => ?_, ?_⟩
  · have hquiet := hok.quiet hcompleted (.inr hsucceeded)
    exact ⟨hcompleted, hsucceeded, hquiet.1, hquiet.2⟩
  · exact Bool.of_not_eq_true fun hkind =>
      hunspent (h.called ticket.id call hcall (.inl hkind))
  · exact Bool.of_not_eq_true fun hkind =>
      hunspent (h.called ticket.id call hcall (.inr hkind))
  · have hold := (h.published p hp).1
    rw [hid'] at hold
    exact absurd hold hunspent
  · exact ⟨fun _ _ => rfl, fun _ hother => hother.follows hstill.executor, List.prefix_rfl⟩

theorem failSettlement_keeps (id : TicketId) (exc : Failure) :
    Keeps (Still first) (failSettlement id exc) := by
  refine Maintains.bind (onExecutor_keeps fun _ => Executor.quarantine_keeps id _ true) ?_
  exact fun _ => reraise_keeps exc none

section

variable (limit : PublicationLimit)

theorem wp_guardedSettle (bindings : List Binding) (h : Settling first ticket false 0 c)
    (hterminal : ticket.terminal = some outcome)
    (hbindings : bindings.map Prod.snd = ticket.prepared.step.slices) :
    Wp (tryCatch (some <$> settle env limit ticket outcome bindings) (failSettlement ticket.id))
      (fun _ c' => Done first ticket.id c') (fun _ c' => Done first ticket.id c') c := by
  rw [wp_tryCatch, map_eq_pure_bind]
  refine wp_then (wp_settle env limit bindings h hterminal hbindings) (fun _ _ h' => h')
    fun exc c1 h1 => ?_
  exact wp_mono (Done.keeps (fun _ => failSettlement_keeps ticket.id exc) c1 h1)
    (fun _ _ h' => h') fun _ _ h' => h'.1

section

variable (h : Once c) {bindings : List Binding}
  (hticket : c.executor.tickets.get? outcome.ticketId = some ticket)
  (hcompleted : ticket.state = completed) (hterminal : ticket.terminal = some outcome)
  (hopen : ticket.settling = false) (hbindings : c.bindings.get? ticket.id = some bindings)
include h hticket hcompleted hterminal hopen hbindings

/-- A settlement that starts leaves its ticket spent. -/
theorem wp_handle_settling :
    Wp (handle env limit outcome) (fun _ c' => Done c ticket.id c')
      (fun _ c' => Done c ticket.id c') c := by
  have hid : ticket.id = outcome.ticketId := h.ready.sound.named _ ticket hticket
  have hslices : bindings.map Prod.snd = ticket.prepared.step.slices := by
    rw [<- hid] at hticket
    exact h.ready.bound.slices ticket.id bindings ticket hbindings hticket
  have hcurrent : ¬ (ticket.state ≠ completed ∨ ticket.terminal ≠ some outcome) := by
    rw [not_or, not_not, not_not]
    exact ⟨hcompleted, hterminal⟩
  have hstart := settling_marked h hticket hopen hcompleted
  unfold handle
  rw [wp_bind, wp_get, hticket]
  dsimp only
  rw [if_neg hcurrent, hopen, if_neg (by decide), hbindings]
  unfold markSettling onExecutor
  exact wp_guardedSettle env limit bindings hstart hterminal hslices

theorem handle_spends : Spent (finalState (handle env limit outcome c)).executor ticket.id :=
  (wp_inv_iff.mp
    (wp_handle_settling env limit h hticket hcompleted hterminal hopen hbindings)).spent

end

theorem wp_handle (outcome : TerminalOutcome) (h : Once c) :
    Wp (handle env limit outcome) (fun _ c' => Proceeds c c') (fun _ c' => Proceeds c c') c := by
  cases hticket : c.executor.tickets.get? outcome.ticketId with
  | none =>
    unfold handle
    rw [wp_bind, wp_get, hticket]
    exact h.proceeds
  | some ticket =>
    have hid : ticket.id = outcome.ticketId := h.ready.sound.named _ ticket hticket
    by_cases hcurrent : ticket.state ≠ completed ∨ ticket.terminal ≠ some outcome
    · unfold handle
      rw [wp_bind, wp_get, hticket]
      dsimp only
      rw [if_pos hcurrent]
      exact h.proceeds
    cases hopen : ticket.settling with
    | true =>
      unfold handle
      rw [wp_bind, wp_get, hticket]
      dsimp only
      rw [if_neg hcurrent, hopen, if_pos rfl]
      exact h.proceeds
    | false =>
      cases hbindings : c.bindings.get? ticket.id with
      | none =>
        unfold handle
        rw [wp_bind, wp_get, hticket]
        dsimp only
        rw [if_neg hcurrent, hopen, if_neg (by decide), hbindings]
        exact keeps_wp_bind (proceeds_of_still fun _ => onExecutor_keeps fun _ =>
          Executor.quarantine_keeps ticket.id _ true) h.proceeds (fun _ _ h' => h')
          fun _ _ h' => h'
      | some bindings =>
        rw [not_or, not_not, not_not] at hcurrent
        have hproceeds : forall c', Done c ticket.id c' -> Proceeds c c' := by
          intro c' hdone
          refine ⟨hdone.once, hdone.adds.spent, fun id hspent => hdone.adds.others id ?_,
            hdone.adds.publications⟩
          -- the ticket was not marked before, so it was not spent
          intro heq
          rw [heq, hid] at hspent
          exact absurd (hopen.symm.trans (hspent.settling ticket hticket)) (by decide)
        exact wp_mono (wp_handle_settling env limit h hticket hcurrent.1 hcurrent.2 hopen hbindings)
          (fun _ c' h' => hproceeds c' h') fun _ c' h' => hproceeds c' h'

theorem handle_keeps (outcome : TerminalOutcome) :
    Keeps (Proceeds first) (handle env limit outcome) := by
  intro _ h
  exact wp_mono (wp_handle env limit outcome h.once) (fun _ _ h' => h.trans h')
    fun _ _ h' => ⟨h.trans h', trivial⟩

theorem handleEach_keeps (outcomes : List TerminalOutcome) :
    Keeps (Proceeds first) (handleEach env limit outcomes) := by
  induction outcomes with
  | nil => exact maintains_pure _
  | cons outcome rest ih =>
    refine Maintains.bind (handle_keeps env limit outcome) fun _ => ?_
    exact Maintains.bind ih fun _ => maintains_pure _

theorem poll_keeps : Keeps (Proceeds first) (poll env limit) := by
  refine Maintains.bind (proceeds_of_still fun _ => onExecutor_keeps fun _ =>
    pollTerminal_keeps env.toBackend) fun outcomes => ?_
  exact handleEach_keeps env limit outcomes

theorem shutdown_keeps : Keeps (Proceeds first) (shutdown env limit) := by
  have hstop : Keeps (Proceeds first) (onExecutor (Executor.shutdown env.toBackend)) :=
    proceeds_of_still fun _ => onExecutor_keeps fun _ => Executor.shutdown_keeps env.toBackend
  refine Maintains.bind hstop fun _ => ?_
  refine Maintains.bind (poll_keeps env limit) fun _ => ?_
  exact Maintains.bind hstop fun _ => maintains_pure _

end

end Handling

/-! ## Runs -/

/-- A call on the coordinator, on its executor or on one of its requests.  Requests
are moved by their owner, by reports without forward evidence, and by anyone who
signals their token. -/
inductive CoordinatorStep where
  | executor (call : ExecutorStep)
  | create (request : Request)
  | advance (ref : LifecycleRef) (deferToRemoteKV : Bool)
  | transition (ref : LifecycleRef) (dst : RequestState)
  | bindSequence (ref : LifecycleRef) (sequence : SequenceHandle)
      (stateVersion computedTokens : Nat)
  | cancelRequest (requestId : RequestId) (reason : String)
  | signal (ref : LifecycleRef) (reason : String)
  | report (entry : RequestReport) (stepId : Nat) (hstate : entry.evidence = none)
  | forget (requestId : RequestId)
  | rollback (requestId : RequestId)
  | adopt (prepared : PreparedStep)
  | launch (id : TicketId)
  | handle (limit : PublicationLimit) (outcome : TerminalOutcome)
  | poll (limit : PublicationLimit)
  | shutdown (limit : PublicationLimit)

section

variable (env : Surroundings world) {first c : CompletionCoordinator world}

def step (c : CompletionCoordinator world) :
    CoordinatorStep -> CompletionCoordinator world
  | .executor call =>
    { c with executor := Executor.step env.toBackend c.executor call }
  | .create request => finalState (onRequests (LifecycleManager.create request) c)
  | .advance ref deferred => finalState (onRequest ref (advanceToQueue deferred) c)
  | .transition ref dst => finalState (onRequest ref (Request.transition dst) c)
  | .bindSequence ref sequence stateVersion computedTokens =>
    finalState (onRequest ref (Request.bindSequence sequence stateVersion computedTokens) c)
  | .cancelRequest requestId reason =>
    finalState (onRequests (LifecycleManager.cancel requestId reason) c)
  | .signal ref reason =>
    finalState (onRequest ref
      (modify (Cell.withLifecycle (RequestLifecycle.cancelToken reason))) c)
  | .report entry stepId _ =>
    finalState (onRequests (LifecycleManager.applyOne entry stepId) c)
  | .forget requestId =>
    finalState (onRequests (LifecycleManager.forget requestId) c)
  | .rollback requestId =>
    finalState (onRequests (LifecycleManager.rollback requestId) c)
  | .adopt prepared => finalState (adopt env prepared c)
  | .launch id => finalState (launch env id c)
  | .handle limit outcome => finalState (handle env limit outcome c)
  | .poll limit => finalState (poll env limit c)
  | .shutdown limit => finalState (shutdown env limit c)

def run (c : CompletionCoordinator world) (steps : List CoordinatorStep) :
    CompletionCoordinator world :=
  steps.foldl (step env) c

theorem step_proceeds (h : Proceeds first c) (call : CoordinatorStep) :
    Proceeds first (step env c call) := by
  have hrequests : forall {alpha : Type} {x : ManagerM alpha},
      (forall start, Keeps (Request.Quiet start) x) ->
        Proceeds first (finalState (onRequests x c)) :=
    fun hx => (proceeds_of_still fun _ => onRequests_keeps hx).final h
  have hrequest : forall {alpha : Type} {x : LifecycleM alpha} (ref : LifecycleRef),
      (forall request output, Keeps (Steady request output) x) ->
        Proceeds first (finalState (onRequest ref x c)) :=
    fun ref hx => (proceeds_of_still fun _ => onRequest_keeps ref hx).final h
  cases call with
  | executor call =>
    have hfollows := step_follows env.toBackend h.once.ready.sound.follows call
    exact h.trans (h.once.proceeds_still
      ⟨hfollows, h.once.ready.heap.quiet, h.once.ready.bound.follows hfollows, rfl⟩)
  | create request => exact hrequests fun _ => create_keeps request
  | advance ref deferred => exact hrequest ref fun _ _ => advanceToQueue_keeps deferred
  | transition ref dst => exact hrequest ref fun _ _ => transition_keeps dst
  | bindSequence ref sequence stateVersion computedTokens =>
    exact hrequest ref fun _ _ => bindSequence_keeps sequence stateVersion computedTokens
  | cancelRequest requestId reason => exact hrequests fun _ => Request.cancel_keeps requestId reason
  | signal ref reason => exact hrequests fun _ => Request.cancelToken_keeps ref reason
  | report entry stepId hstate => exact hrequests fun _ => applyOne_keeps hstate stepId
  | forget requestId => exact hrequests fun _ => forget_keeps requestId
  | rollback requestId => exact hrequests fun _ => rollback_keeps requestId
  | adopt prepared => exact (proceeds_of_still fun _ => adopt_keeps env prepared).final h
  | launch id => exact (proceeds_of_still fun _ => launch_keeps env id).final h
  | handle limit outcome => exact (handle_keeps env limit outcome).final h
  | poll limit => exact (poll_keeps env limit).final h
  | shutdown limit => exact (shutdown_keeps env limit).final h

theorem run_proceeds (h : Proceeds first c) (steps : List CoordinatorStep) :
    Proceeds first (run env c steps) := by
  induction steps generalizing c with
  | nil => exact h
  | cons call rest ih => exact ih (step_proceeds env h call)

end

theorem new_once (maxInflight executorId : Nat) (w : world) :
    Once (new (Executor.new maxInflight executorId w)) where
  ready :=
    { sound := new_sound maxInflight executorId w
      heap := new_heapOk
      bound := ⟨fun _ _ h => (nomatch h), fun _ _ _ h => (nomatch h)⟩ }
  commit_once := fun _ => Nat.zero_le _
  retire_once := fun _ => Nat.zero_le _
  called := fun _ _ h => nomatch h
  quiet := fun _ _ h => nomatch h
  publish_once := List.nodup_nil
  published := fun _ h => nomatch h
  output := fun _ _ h => nomatch h

/-- What is promised of a state reached.  `handle` settles an outcome when it is the
current one of a completed ticket that is not marked and still bound; afterwards,
whether that settlement returned or raised, no call commits or retires the bundle of
that ticket. -/
structure ExactlyOnce (env : Surroundings world) (c : CompletionCoordinator world) : Prop where
  commit_once : forall id, c.executor.calls.countP (ResourceCall.commits id) ≤ 1
  commit_after_success : forall ticket heard,
    .commit ticket heard ∈ c.executor.calls -> Succeeded ticket heard
  retire_once : forall id, c.executor.calls.countP (ResourceCall.retires id) ≤ 1
  publish_once : (c.publications.map Publication.key).Nodup
  origin : forall p, p ∈ c.publications -> exists ticket heard outcome samples,
    Origin c.executor.calls p ticket heard outcome samples
  output : forall ref lc, c.requests.heap.slot ref = some lc ->
    lc.outputTokenIds = outputOf c.publications ref
  settled : forall limit outcome ticket bindings,
    c.executor.tickets.get? outcome.ticketId = some ticket ->
    ticket.state = .completed -> ticket.terminal = some outcome ->
    ticket.settling = false -> c.bindings.get? ticket.id = some bindings ->
      forall later,
        settlementsOf (run env (finalState (handle env limit outcome c)) later).executor ticket.id
          = settlementsOf (finalState (handle env limit outcome c)).executor ticket.id

/-- Settlement is exactly-once in every run, whatever is delivered, cancelled,
signalled or raised on the way. -/
theorem run_settles_once (env : Surroundings world) (maxInflight executorId : Nat) (w : world)
    (steps : List CoordinatorStep) :
    ExactlyOnce env (run env (new (Executor.new maxInflight executorId w)) steps) := by
  have honce := (run_proceeds env (new_once maxInflight executorId w).proceeds steps).once
  refine ⟨honce.commit_once, honce.quiet, honce.retire_once, honce.publish_once,
    fun p hp => (honce.published p hp).2.2, honce.output, ?_⟩
  intro limit outcome ticket _ hticket hcompleted hterminal hopen hbindings later
  have hhandled := (handle_keeps env limit outcome).final honce.proceeds
  have hspent := handle_spends env limit honce hticket hcompleted hterminal hopen hbindings
  exact (run_proceeds env hhandled.once.proceeds later).settlements ticket.id hspent

/-- A run in which one prompt is prefilled and its sample published. -/
def promptSurroundings : Surroundings Unit where
  toBackend := promptBackend
  signals := fun w => ([], w)

def promptRequest : Request where
  requestId := "r"
  promptTokenIds := [7]
  stop := { maxTokens := 1, maxTokens_pos := Nat.one_pos, minTokens_le := by decide }
  id_text := prompt_text
  prompt_nonempty := by decide

def promptSteps : List CoordinatorStep :=
  [.executor .initializeHost, .create promptRequest,
   .advance 0 false, .transition 0 .admitted,
   .bindSequence 0 (Handle.first .sequence 0) 0 0,
   .adopt { step := oneSlicePlan },
   .launch { executor := 1, ordinal := 1 }, .poll none]

example : (run promptSurroundings (new (Executor.new 1 1 ())) promptSteps).publications
    = [{ ticket := { executor := 1, ordinal := 1 }, sliceIndex := 0, ref := 0,
         tokens := [3] }] := by
  decide +kernel

end Completion
end Ayaka
