import Ayaka.Executor.Completion
import Ayaka.Executor.ExecutorRuns
import Ayaka.Request.ManagerInvariant

/-!
# What a coordinator does between settlements

`Still first c` relates two coordinator states between which no bundle was
committed or retired and no token published.  Signals, adoption, launch and the
handling of invalidated slices are all of this kind; what is left for a settlement
is two resource calls and the publications.
-/

namespace Ayaka
namespace Completion

open Foundation Sched Executor Request

variable {world : Type}

/-- Bindings belong to tickets handed out and name the slices of their step. -/
structure Bound (c : CompletionCoordinator world) : Prop where
  issued : forall id bindings, c.bindings.get? id = some bindings ->
    id.ordinal < c.executor.nextOrdinal
  slices : forall id bindings ticket, c.bindings.get? id = some bindings ->
    c.executor.tickets.get? id = some ticket ->
      bindings.map Prod.snd = ticket.prepared.step.slices

structure Still (first c : CompletionCoordinator world) : Prop where
  executor : Follows first.executor c.executor
  requests : Request.Quiet first.requests c.requests
  bound : Bound c
  publications : c.publications = first.publications

/-- What every reachable state has. -/
structure Ready (c : CompletionCoordinator world) : Prop where
  sound : Sound c.executor
  heap : HeapOk c.requests
  bound : Bound c

theorem Ready.still (h : Ready c) : Still c c where
  __ := h
  executor := h.sound.follows
  requests := h.heap.quiet
  publications := rfl

variable {first : CompletionCoordinator world}

theorem Still.ready (h : Still first c) : Ready c where
  __ := h
  sound := h.executor.sound
  heap := h.requests.ok

/-- Bindings may be dropped. -/
theorem Still.unbind (h : Still first c) (id : TicketId) :
    Still first { c with bindings := c.bindings.erase id } := by
  have hback : forall id' bindings, (c.bindings.erase id).get? id' = some bindings ->
      c.bindings.get? id' = some bindings := by
    intro id' bindings hbindings
    rw [Dict.get?_erase] at hbindings
    split at hbindings
    next => cases hbindings
    next => exact hbindings
  refine ⟨h.executor, h.requests, ⟨fun id' bindings hbindings => ?_,
    fun id' bindings ticket hbindings hticket => ?_⟩, h.publications⟩
  · exact h.bound.issued id' bindings (hback id' bindings hbindings)
  · exact h.bound.slices id' bindings ticket (hback id' bindings hbindings) hticket

/-- Bindings outlive what an executor call does to the tickets. -/
theorem Bound.follows (h : Bound c) (he : Follows c.executor e) :
    Bound { c with executor := e } where
  issued := fun id bindings hbindings =>
    Nat.lt_of_lt_of_le (h.issued id bindings hbindings) he.ordinals
  slices := fun id bindings ticket' hbindings hticket' => by
    rcases he.settling id ticket' hticket' (h.issued id bindings hbindings) with
      ⟨ticket, hticket, hprepared, _⟩
    rw [hprepared]
    exact h.slices id bindings ticket hbindings hticket

section Methods

variable {alpha : Type} (env : Surroundings world)

theorem onExecutor_keeps
    (hx : forall first, Keeps (Follows first) x) : Keeps (Still first) (onExecutor x) := by
  intro c h
  have hnext : forall e, Follows c.executor e -> Still first { c with executor := e } :=
    fun e he =>
      { h with
        executor := h.executor.trans he
        bound := h.bound.follows he }
  unfold onExecutor
  rw [wp_zoom]
  exact wp_mono (hx c.executor c.executor h.executor.sound.follows) (fun _ e he => hnext e he)
    fun _ e he => ⟨hnext e he.1, trivial⟩

theorem onRequests_keeps (hx : forall first, Keeps (Request.Quiet first) x) :
    Keeps (Still first) (onRequests x) := by
  intro c h
  unfold onRequests
  rw [wp_zoom]
  have hnext : forall m, Request.Quiet first.requests m -> Still first { c with requests := m } :=
    fun m hm =>
      { h with
        requests := hm
        bound := ⟨h.bound.issued, h.bound.slices⟩ }
  exact wp_mono (hx first.requests c.requests h.requests) (fun _ m hm => hnext m hm)
    fun _ m hm => ⟨hnext m hm.1, trivial⟩

theorem onRequest_keeps (ref : LifecycleRef)
    (hx : forall request output, Keeps (Steady request output) x) :
    Keeps (Still first) (onRequest ref x) :=
  onRequests_keeps fun _ => Request.onRequest_keeps ref hx

theorem ask_keeps (ref : LifecycleRef) (f : RequestLifecycle -> alpha) :
    Keeps (Still first) (ask ref f) :=
  onRequest_keeps ref fun _ _ => keeps_query _

theorem cancelToken_keeps (ref : LifecycleRef) (reason : String) :
    Keeps (Still first) (onRequest ref
      (modify (Cell.withLifecycle (RequestLifecycle.cancelToken reason)))) :=
  onRequests_keeps fun _ => Request.cancelToken_keeps ref reason

theorem receiveSignals_keeps : Keeps (Still first) (receiveSignals env) := by
  refine Maintains.bind maintains_get fun c => ?_
  refine Maintains.bind (maintains_modify fun c h => ?_) fun _ => ?_
  · exact ⟨h.executor.of_eq rfl rfl (List.Subset.refl _) rfl, h.requests,
      ⟨h.bound.issued, h.bound.slices⟩, h.publications⟩
  · exact Maintains.forM fun ref _ => cancelToken_keeps ref _

theorem accepts_keeps (stepId : Nat) (binding : Binding) :
    Keeps (Still first) (accepts env stepId binding) :=
  Maintains.bind (receiveSignals_keeps env) fun _ => ask_keeps binding.1 _

theorem anyAccepts_keeps (stepId : Nat) (bindings : List Binding) :
    Keeps (Still first) (anyAccepts env stepId bindings) := by
  induction bindings with
  | nil => exact maintains_pure _
  | cons binding rest ih =>
    refine Maintains.bind (accepts_keeps env stepId binding) fun _ => ?_
    exact Maintains.ite (maintains_pure _) ih

theorem cancel_keeps (id : TicketId) (reason : String) :
    Keeps (Still first) (onExecutor (Executor.cancel id reason)) :=
  onExecutor_keeps fun _ => Executor.cancel_keeps id reason

theorem reraise_keeps (exc : Failure) (recorded : alpha) :
    Keeps (Still first) (onExecutor (reraise exc recorded)) :=
  onExecutor_keeps fun _ => Executor.reraise_keeps exc recorded

/-! ### Adoption and launch -/

/-- Binding resolves every slice, in order. -/
theorem wp_bindSlices (slices : List ScheduledSlice) (h : Still first c) :
    Wp (bind slices) (fun bindings c' => Still first c' ∧ bindings.map Prod.snd = slices)
      (fun _ c' => Still first c' ∧ True) c := by
  induction slices generalizing c with
  | nil => exact ⟨h, rfl⟩
  | cons scheduled rest ih =>
    refine Maintains.wp_bind (onRequests_keeps fun _ => get_keeps _) h fun ref c' h' => ?_
    refine wp_seq (ih h') fun later c'' h'' => ⟨h''.1, ?_⟩
    exact congrArg (List.cons scheduled) h''.2

theorem preflight_keeps (stepId : Nat) (binding : Binding) (value : RequestStepInput) :
    Keeps (Still first) (preflight env stepId binding value) := by
  refine Maintains.bind (receiveSignals_keeps env) fun _ => ?_
  refine Maintains.bind (onRequest_keeps binding.1 fun _ _ => keeps_query _) fun _ => ?_
  exact Maintains.ite (maintains_throw trivial) (maintains_pure _)

theorem claim_keeps (stepId : Nat) (binding : Binding) :
    Keeps (Still first) (claim env stepId binding) := by
  refine Maintains.bind (receiveSignals_keeps env) fun _ => ?_
  refine Maintains.bind (ask_keeps binding.1 _) fun _ => Maintains.ite (maintains_pure _) ?_
  refine Maintains.bind (receiveSignals_keeps env) fun _ => ?_
  refine keeps_tryCatch ?_ fun exc => ?_
  · refine Maintains.bind (onRequest_keeps binding.1 fun _ _ => beginSlice_keeps stepId _) ?_
    exact fun _ => maintains_pure _
  · refine Maintains.bind (ask_keeps binding.1 _) fun _ => ?_
    exact Maintains.ite (maintains_pure _) (maintains_throw trivial)

theorem claimAll_keeps (id : TicketId) (stepId : Nat) (bindings : List Binding) :
    Keeps (Still first) (claimAll env id stepId bindings) := by
  refine keeps_tryCatch ?_ fun exc => ?_
  · refine Maintains.bind (Maintains.forM fun binding _ => claim_keeps env stepId binding) ?_
    intro _
    refine Maintains.bind (anyAccepts_keeps env stepId bindings) fun _ => ?_
    exact Maintains.ite (cancel_keeps id _) (maintains_pure _)
  · exact Maintains.bind (cancel_keeps id _) fun _ => reraise_keeps exc ()

theorem adopt_keeps (prepared : PreparedStep) : Keeps (Still first) (adopt env prepared) := by
  intro _ h
  refine wp_seq (wp_bindSlices prepared.step.slices h) fun bindings c1 h1 => ?_
  refine Maintains.wp_bind (Maintains.forM fun bound _ => preflight_keeps env _ bound.1 bound.2)
    h1.1 fun _ c2 h2 => ?_
  rw [wp_bind]
  unfold onExecutor
  rw [wp_zoom]
  refine wp_mono (wp_adopt env.toBackend prepared h2.executor.sound.follows)
    (fun id e he => ?_) fun exc e he => ?_
  · rw [wp_bind, wp_modify]
    refine Maintains.wp_bind (claimAll_keeps env id _ bindings) ?_ fun _ _ h' => h'
    have hkept := h2.bound.follows he.1
    refine ⟨h2.executor.trans he.1, h2.requests, ⟨?_, ?_⟩, h2.publications⟩
    · intro id' bindings' hbindings'
      rw [Dict.get?_set] at hbindings'
      split at hbindings'
      next heq => rw [heq]; exact he.2.1
      next => exact hkept.issued id' bindings' hbindings'
    · intro id' bindings' ticket hbindings' hticket
      rw [Dict.get?_set] at hbindings'
      split at hbindings'
      next heq =>
        rw [heq] at hticket
        rw [<- Option.some.inj hbindings', h1.2, he.2.2 ticket hticket]
      next => exact hkept.slices id' bindings' ticket hbindings' hticket
  · exact ⟨⟨h2.executor.trans he.1, h2.requests, h2.bound.follows he.1, h2.publications⟩, trivial⟩

theorem launch_keeps (id : TicketId) : Keeps (Still first) (launch env id) := by
  refine Maintains.bind maintains_get fun c => ?_
  split
  next bindings ticket _ _ =>
    refine Maintains.ite (Maintains.ite (maintains_pure _) (maintains_throw trivial)) ?_
    refine Maintains.bind (anyAccepts_keeps env _ bindings) fun _ => ?_
    refine Maintains.ite (onExecutor_keeps fun _ => Executor.launch_keeps env.toBackend id) ?_
    exact cancel_keeps id _
  next => exact maintains_throw trivial

/-! ### Slices that publish nothing -/

theorem endRequest_keeps (ticket : ExecutionTicket) (ref : LifecycleRef) (cancel fail : Bool) :
    Keeps (Still first) (endRequest env ticket ref cancel fail) := by
  refine Maintains.bind (receiveSignals_keeps env) fun _ => ?_
  refine Maintains.bind (ask_keeps ref _) fun _ => Maintains.ite ?_ (Maintains.ite ?_ ?_)
  · refine Maintains.bind (cancelToken_keeps ref _) fun _ => ?_
    exact onRequest_keeps ref fun _ _ => onCancelled_keeps
  · exact onRequest_keeps ref fun _ _ => onFailed_keeps _
  · exact maintains_pure _

theorem discard_keeps (ticket : ExecutionTicket) (binding : Binding) (cancel fail : Bool) :
    Keeps (Still first) (discard env ticket binding cancel fail) := by
  have hretire : Keeps (Still first) (onRequests (LifecycleManager.retireTerminal binding.1)) :=
    onRequests_keeps fun _ => retireTerminal_keeps binding.1
  have hend : Keeps (Still first) (endRequest env ticket binding.1 cancel fail) :=
    endRequest_keeps env ticket binding.1 cancel fail
  have hdiscard : Keeps (Still first) (onRequest binding.1
      (discardSlice ticket.prepared.step.stepId binding.2)) :=
    onRequest_keeps binding.1 fun _ _ => discardSlice_keeps _ _
  refine Maintains.bind (ask_keeps binding.1 _) fun current => ?_
  refine Maintains.bind (ask_keeps binding.1 _) fun owned => ?_
  cases owned with
  | true =>
    refine Maintains.bind hdiscard fun _ => ?_
    cases current with
    | true => exact Maintains.bind hend fun _ => hretire
    | false => exact hretire
  | false =>
    cases current with
    | true => exact Maintains.bind hend fun _ => hretire
    | false => exact hretire

theorem invalidated_keeps (binding : Binding) : Keeps (Still first) (invalidated env binding) :=
  Maintains.bind (receiveSignals_keeps env) fun _ => ask_keeps binding.1 _

theorem ignoreSlice_keeps (ticket : ExecutionTicket) (binding : Binding) (cancel : Bool)
    (progress : Progress) : Keeps (Still first) (ignoreSlice env ticket binding cancel progress) :=
  Maintains.bind (discard_keeps env ticket binding cancel false) fun _ =>
    Maintains.bind (ask_keeps binding.1 _) fun _ => maintains_pure _

end Methods

end Completion
end Ayaka
