import Ayaka.Foundation.Invariant
import Ayaka.Executor.Base

/-!
# Tickets complete after their fences

Over every run of the executor a submitted ticket is completed only after each
fence it awaits has answered that it is finished, and a ticket quarantined by a
host failure stays in quarantine for good.  The argument is local to one ticket:
every method changes tickets one at a time, by one of a few transformations that
keep the invariant below.
-/

namespace Ayaka
namespace Executor

open Foundation Sched
open TicketState

/-! ## The invariant of one ticket -/

def Finished (answers : List (FenceId × FenceResult)) (fence : FenceId) : Prop :=
  exists result, (fence, result) ∈ answers ∧ result.quiescent = true

structure TicketOk (answers : List (FenceId × FenceResult)) (ticket : ExecutionTicket) :
    Prop where
  host : ticket.hostFailure = true -> ticket.state = quarantined
  unsubmitted : ticket.state = adopted -> ticket.submitted = false
  quiet : ticket.state = completed ->
    ticket.submitted = true ∨ ticket.hasSucceeded = true ->
      ticket.awaited ≠ [] ∧ forall fence, fence ∈ ticket.awaited -> Finished answers fence

/-- What every change of a ticket respects. -/
structure Advance (answers : List (FenceId × FenceResult)) (before after : ExecutionTicket) :
    Prop where
  id : after.id = before.id
  prepared : after.prepared = before.prepared
  host : before.hostFailure = true -> after.hostFailure = true
  settling : before.settling = true -> after.settling = true
  ok : TicketOk answers before -> TicketOk answers after

variable {answers : List (FenceId × FenceResult)}

theorem Finished.mono {fence : FenceId} (hsub : answers ⊆ answers') (h : Finished answers fence) :
    Finished answers' fence := by
  rcases h with ⟨result, hmem, hquiescent⟩
  exact ⟨result, hsub hmem, hquiescent⟩

variable {ticket : ExecutionTicket}

theorem TicketOk.mono (hsub : answers ⊆ answers') (h : TicketOk answers ticket) :
    TicketOk answers' ticket where
  __ := h
  quiet := fun hstate hsubmitted =>
    ⟨(h.quiet hstate hsubmitted).1, fun fence hfence =>
      ((h.quiet hstate hsubmitted).2 fence hfence).mono hsub⟩

/-- A ticket outside quarantine carries no host failure. -/
theorem TicketOk.no_host (h : TicketOk answers ticket)
    (hstate : ticket.state ≠ quarantined) : ticket.hostFailure = false := by
  cases hhost : ticket.hostFailure with
  | false => rfl
  | true => exact absurd (h.host hhost) hstate

/-! ## What the transformations keep -/

namespace Advance

variable {ticket : ExecutionTicket}

/-- What the invariant reads of a ticket. -/
def view (ticket : ExecutionTicket) :
    TicketId × PreparedStep × Bool × TicketState × Bool × Option TerminalOutcome × List FenceId :=
  (ticket.id, ticket.prepared, ticket.hostFailure, ticket.state, ticket.submitted,
    ticket.terminal, ticket.awaited)

/-- A change that leaves the invariant's fields alone. -/
theorem of_view {after} (hview : view after = view ticket)
    (hsettling : ticket.settling = true -> after.settling = true) :
    Advance answers ticket after := by
  unfold view at hview
  simp only [Prod.mk.injEq] at hview
  rcases hview with ⟨hid, hprepared, hhost, hstate, hsubmitted, hterminal, hawaited⟩
  have hsucceeded : after.hasSucceeded = ticket.hasSucceeded := by
    unfold ExecutionTicket.hasSucceeded
    rw [hterminal]
  refine ⟨hid, hprepared, fun h => by rw [hhost]; exact h, hsettling, fun h => ⟨?_, ?_, ?_⟩⟩
  · rw [hhost, hstate]
    exact h.host
  · rw [hstate, hsubmitted]
    exact h.unsubmitted
  · rw [hstate, hsubmitted, hsucceeded, hawaited]
    exact h.quiet

/-- Completing a ticket is safe when its submission, if any, is known quiescent. -/
theorem finish (ticket : ExecutionTicket) (status : TerminalStatus)
    (hhost : ticket.hostFailure = false) (hquiet : ticket.submitted = true ∨ status = .succeeded ->
      ticket.awaited ≠ [] ∧ forall fence, fence ∈ ticket.awaited -> Finished answers fence) :
    Advance answers ticket (ticket.finish status) where
  id := rfl
  prepared := rfl
  host := fun h => h
  settling := fun h => h
  ok := fun _ =>
    { host := fun hh => absurd (hhost.symm.trans hh) (by decide)
      unsubmitted := fun hs => nomatch hs
      quiet := fun _ hdone =>
        hquiet (hdone.imp_right fun hsucceeded => of_decide_eq_true hsucceeded) }

theorem trans {middle after} (h : Advance answers ticket middle)
    (h' : Advance answers middle after) : Advance answers ticket after where
  id := h'.id.trans h.id
  prepared := h'.prepared.trans h.prepared
  host := fun hh => h'.host (h.host hh)
  settling := fun hh => h'.settling (h.settling hh)
  ok := fun hok => h'.ok (h.ok hok)

theorem quarantine (error : String) (hostFailure : Bool) :
    Advance answers ticket (ticket.quarantine error hostFailure) where
  id := rfl
  prepared := rfl
  host := fun h => by
    show (ticket.hostFailure || hostFailure) = true
    rw [h, Bool.true_or]
  settling := fun h => h
  ok := fun _ =>
    { host := fun _ => rfl
      unsubmitted := fun hs => nomatch hs
      quiet := fun hs => nomatch hs }

/-- Moving on to a state that is neither adopted, completed nor quarantined. -/
theorem onward {after} (hid : after.id = ticket.id) (hprepared : after.prepared = ticket.prepared)
    (hhost : after.hostFailure = ticket.hostFailure) (hsettling : after.settling = ticket.settling)
    (hno : ticket.hostFailure = false) (hadopted : after.state ≠ adopted)
    (hcompleted : after.state ≠ completed) : Advance answers ticket after where
  id := hid
  prepared := hprepared
  host := fun h => by rw [hhost]; exact h
  settling := fun h => by rw [hsettling]; exact h
  ok := fun _ =>
    { host := fun hh => absurd (hno.symm.trans (hhost.symm.trans hh)) (by decide)
      unsubmitted := fun hs => absurd hs hadopted
      quiet := fun hs => absurd hs hcompleted }

theorem noteCancel (error : String) : Advance answers ticket (ticket.noteCancel error) :=
  of_view rfl fun h => h

theorem cancel (hok : TicketOk answers ticket) (reason : String) :
    Advance answers ticket (ticket.cancel reason) := by
  have hsame : Advance answers ticket ticket := of_view rfl fun h => h
  unfold ExecutionTicket.cancel
  split
  next => exact hsame
  next =>
    split
    next hcompleted =>
      have hhost := hok.no_host (by rw [hcompleted]; decide)
      split
      next =>
        exact (noteCancel reason).trans (finish (ticket.noteCancel reason) _ hhost fun hdone =>
            hok.quiet hcompleted (hdone.imp_right fun hs => nomatch hs))
      next => exact hsame
    next =>
      generalize (if ticket.error = "" then reason else ticket.error) = error
      split
      next hadopted =>
        have hhost := hok.no_host (by rw [hadopted]; decide)
        have hfresh := hok.unsubmitted hadopted
        exact (noteCancel error).trans (finish (ticket.noteCancel error) _ hhost fun hdone =>
            hdone.elim (fun hsub => absurd (hfresh.symm.trans hsub) (by decide))
              fun hs => nomatch hs)
      next =>
        split
        next hquarantined =>
          exact onward rfl rfl rfl rfl (hok.no_host hquarantined) (fun h => nomatch h)
            (fun h => nomatch h)
        next => exact noteCancel error

theorem conclude (failed : Bool) (hhost : ticket.hostFailure = false)
    (hawaited : ticket.awaited ≠ [])
    (hquiet : forall fence, fence ∈ ticket.awaited -> Finished answers fence) :
    Advance answers ticket (ticket.conclude failed) := by
  have hfinish : forall status, Advance answers ticket (ticket.finish status) :=
    fun status => finish ticket status hhost fun _ => ⟨hawaited, hquiet⟩
  unfold ExecutionTicket.conclude
  split
  next => exact hfinish _
  next =>
    split
    next => exact hfinish _
    next =>
      split
      next =>
        have hmissing : Advance answers ticket ticket.noteMissing :=
          of_view rfl fun h => h
        exact hmissing.trans (finish ticket.noteMissing _ hhost fun _ => ⟨hawaited, hquiet⟩)
      next => exact hfinish _

end Advance

/-! ## The invariant of a run

`Follows first e` says that `e` is a sound registry that a run from `first` may
have led to: ordinals only grow, answers are never forgotten, a ticket with a host
failure is still there with it, and one whose settlement began is still marked.
The executor itself never commits or retires a bundle. -/

variable {world : Type}

structure Sound (e : Executor world) : Prop where
  named : forall id ticket, e.tickets.get? id = some ticket -> ticket.id = id
  below : forall id ticket, e.tickets.get? id = some ticket -> id.ordinal < e.nextOrdinal
  ok : forall id ticket, e.tickets.get? id = some ticket -> TicketOk e.answers ticket

theorem Sound.of_eq {e e' : Executor world} (h : Sound e) (htickets : e'.tickets = e.tickets)
    (hordinal : e'.nextOrdinal = e.nextOrdinal) (hanswers : e.answers ⊆ e'.answers) : Sound e' where
  named := by rw [htickets]; exact h.named
  below := by rw [htickets, hordinal]; exact h.below
  ok := fun id ticket hticket => by
    rw [htickets] at hticket
    exact (h.ok id ticket hticket).mono hanswers

theorem get?_withTicket (e : Executor world) (id other : TicketId)
    (f : ExecutionTicket -> ExecutionTicket) :
    (e.withTicket id f).tickets.get? other =
      if other = id then (e.tickets.get? id).map f else e.tickets.get? other :=
  Dict.get?_modify e.tickets id other f

theorem get?_withTicket_self {e : Executor world} {id : TicketId}
    (h : e.tickets.get? id = some ticket) (f : ExecutionTicket -> ExecutionTicket) :
    (e.withTicket id f).tickets.get? id = some (f ticket) := by
  rw [get?_withTicket, if_pos rfl, h]
  rfl

structure Follows (first e : Executor world) : Prop where
  start : Sound first
  sound : Sound e
  ordinals : first.nextOrdinal ≤ e.nextOrdinal
  answers : first.answers ⊆ e.answers
  calls : e.calls.filter ResourceCall.isSettlement = first.calls.filter ResourceCall.isSettlement
  host : forall id ticket, first.tickets.get? id = some ticket -> ticket.hostFailure = true ->
    exists ticket', e.tickets.get? id = some ticket' ∧ ticket'.hostFailure = true
  settling : forall id ticket', e.tickets.get? id = some ticket' ->
    id.ordinal < first.nextOrdinal ->
      exists ticket, first.tickets.get? id = some ticket ∧ ticket'.prepared = ticket.prepared
        ∧ (ticket.settling = true -> ticket'.settling = true)

theorem Sound.follows (h : Sound e) : Follows e e where
  start := h
  sound := h
  ordinals := Nat.le_refl _
  answers := List.Subset.refl _
  calls := rfl
  host := fun _ ticket hticket hhost => ⟨ticket, hticket, hhost⟩
  settling := fun _ ticket hticket _ => ⟨ticket, hticket, rfl, fun h => h⟩

namespace Follows

theorem of_eq {e' : Executor world} (h : Follows first e) (htickets : e'.tickets = e.tickets)
    (hordinal : e'.nextOrdinal = e.nextOrdinal) (hanswers : e.answers ⊆ e'.answers)
    (hcalls : e'.calls.filter ResourceCall.isSettlement
      = e.calls.filter ResourceCall.isSettlement) : Follows first e' where
  __ := h
  sound := h.sound.of_eq htickets hordinal hanswers
  ordinals := by rw [hordinal]; exact h.ordinals
  answers := List.Subset.trans h.answers hanswers
  calls := hcalls.trans h.calls
  host := by rw [htickets]; exact h.host
  settling := by rw [htickets]; exact h.settling

theorem trans {last} (h : Follows first e) (h' : Follows e last) :
    Follows first last where
  __ := h
  sound := h'.sound
  ordinals := Nat.le_trans h.ordinals h'.ordinals
  answers := List.Subset.trans h.answers h'.answers
  calls := h'.calls.trans h.calls
  host := fun id ticket hticket hhost => by
    rcases h.host id ticket hticket hhost with ⟨middle, hmiddle, hhost'⟩
    exact h'.host id middle hmiddle hhost'
  settling := fun id ticket' hticket' hold => by
    rcases h'.settling id ticket' hticket' (Nat.lt_of_lt_of_le hold h.ordinals) with
      ⟨middle, hmiddle, hprepared', hsettling'⟩
    rcases h.settling id middle hmiddle hold with ⟨ticket, hticket, hprepared, hsettling⟩
    exact ⟨ticket, hticket, hprepared'.trans hprepared, fun hs => hsettling' (hsettling hs)⟩

theorem withTicket (h : Follows first e) {id} {f : ExecutionTicket -> ExecutionTicket}
    (hf : forall ticket, e.tickets.get? id = some ticket -> Advance e.answers ticket (f ticket)) :
    Follows first (e.withTicket id f) := by
  have hback : forall id' ticket', (e.withTicket id f).tickets.get? id' = some ticket' ->
      exists ticket, e.tickets.get? id' = some ticket ∧ Advance e.answers ticket ticket' := by
    intro id' ticket' hticket'
    rw [get?_withTicket] at hticket'
    by_cases hid : id' = id
    · rw [if_pos hid, Option.map_eq_some_iff] at hticket'
      rcases hticket' with ⟨ticket, hticket, rfl⟩
      exact ⟨ticket, by rw [hid]; exact hticket, hf ticket hticket⟩
    · rw [if_neg hid] at hticket'
      exact ⟨ticket', hticket', Advance.of_view rfl fun h => h⟩
  refine ⟨h.start, ⟨?_, ?_, ?_⟩, h.ordinals, h.answers, h.calls, ?_, ?_⟩
  · intro id' ticket' hticket'
    rcases hback id' ticket' hticket' with ⟨ticket, hticket, hadvance⟩
    exact hadvance.id.trans (h.sound.named id' ticket hticket)
  · intro id' ticket' hticket'
    rcases hback id' ticket' hticket' with ⟨ticket, hticket, _⟩
    exact h.sound.below id' ticket hticket
  · intro id' ticket' hticket'
    rcases hback id' ticket' hticket' with ⟨ticket, hticket, hadvance⟩
    exact hadvance.ok (h.sound.ok id' ticket hticket)
  · intro id' ticket hticket hhost
    rcases h.host id' ticket hticket hhost with ⟨ticket', hticket', hhost'⟩
    rw [get?_withTicket]
    by_cases hid : id' = id
    · rw [hid] at hticket'
      exact ⟨f ticket', by rw [if_pos hid, hticket']; rfl, (hf ticket' hticket').host hhost'⟩
    · exact ⟨ticket', by rw [if_neg hid]; exact hticket', hhost'⟩
  · intro id' ticket' hticket' hold
    rcases hback id' ticket' hticket' with ⟨ticket, hticket, hadvance⟩
    rcases h.settling id' ticket hticket hold with ⟨origin, horigin, hprepared, hsettling⟩
    exact ⟨origin, horigin, hadvance.prepared.trans hprepared,
      fun hs => hadvance.settling (hsettling hs)⟩

/-- A ticket without a host failure may leave the registry. -/
theorem erase (h : Follows first e) {id}
    (hno : forall ticket, e.tickets.get? id = some ticket -> ticket.hostFailure = false) :
    Follows first { e with tickets := e.tickets.erase id } := by
  have hback : forall id' ticket, (e.tickets.erase id).get? id' = some ticket ->
      e.tickets.get? id' = some ticket := by
    intro id' ticket hticket
    rw [Dict.get?_erase] at hticket
    split at hticket
    next => exact absurd hticket (by simp)
    next => exact hticket
  refine ⟨h.start, ⟨?_, ?_, ?_⟩, h.ordinals, h.answers, h.calls, ?_, ?_⟩
  · intro id' ticket hticket
    exact h.sound.named id' ticket (hback id' ticket hticket)
  · intro id' ticket hticket
    exact h.sound.below id' ticket (hback id' ticket hticket)
  · intro id' ticket hticket
    exact h.sound.ok id' ticket (hback id' ticket hticket)
  · intro id' ticket hticket hhost
    rcases h.host id' ticket hticket hhost with ⟨ticket', hticket', hhost'⟩
    refine ⟨ticket', ?_, hhost'⟩
    have hne : id' ≠ id := by
      intro heq
      rw [heq] at hticket'
      exact absurd (hhost'.symm.trans (hno ticket' hticket')) (by decide)
    show (e.tickets.erase id).get? id' = some ticket'
    rw [Dict.get?_erase, if_neg hne]
    exact hticket'
  · intro id' ticket hticket hold
    exact h.settling id' ticket (hback id' ticket hticket) hold

theorem register (h : Follows first e) (prepared : PreparedStep) :
    Follows first (e.register prepared) := by
  let id : TicketId := { executor := e.executorId, ordinal := e.nextOrdinal }
  have hget : forall id', (e.register prepared).tickets.get? id'
      = if id' = id then some { id, prepared } else e.tickets.get? id' :=
    fun id' => Dict.get?_set e.tickets id id' { id, prepared }
  have hold : forall id' ticket, e.tickets.get? id' = some ticket -> id' ≠ id := by
    intro id' ticket hticket heq
    have hlt := h.sound.below id' ticket hticket
    rw [heq] at hlt
    exact Nat.lt_irrefl _ hlt
  refine ⟨h.start, ⟨?_, ?_, ?_⟩, Nat.le_succ_of_le h.ordinals, h.answers, h.calls, ?_, ?_⟩
  · intro id' ticket hticket
    rw [hget] at hticket
    split at hticket
    next hid => rw [hid, <- Option.some.inj hticket]
    next => exact h.sound.named id' ticket hticket
  · intro id' ticket hticket
    rw [hget] at hticket
    split at hticket
    next hid => rw [hid]; exact Nat.lt_succ_self _
    next => exact Nat.lt_succ_of_lt (h.sound.below id' ticket hticket)
  · intro id' ticket hticket
    rw [hget] at hticket
    split at hticket
    next =>
      rw [<- Option.some.inj hticket]
      exact ⟨fun hh => (by cases hh), fun _ => rfl, fun hs => (by cases hs)⟩
    next => exact h.sound.ok id' ticket hticket
  · intro id' ticket hticket hhost
    rcases h.host id' ticket hticket hhost with ⟨ticket', hticket', hhost'⟩
    exact ⟨ticket', by rw [hget, if_neg (hold id' ticket' hticket')]; exact hticket', hhost'⟩
  · intro id' ticket hticket hbefore
    rw [hget] at hticket
    split at hticket
    next hid =>
      rw [hid] at hbefore
      exact absurd hbefore (Nat.not_lt_of_le h.ordinals)
    next => exact h.settling id' ticket hticket hbefore

end Follows

/-! ## The methods keep the invariant -/

section Methods

variable {alpha : Type} {e : Executor world} (backend : Backend world)
  {fail : Failure -> Executor world -> Prop}

theorem wp_outside {x} {post : alpha -> Executor world -> Prop}
    (hpost : forall a w, post a { e with world := w })
    (hfail : forall exc w, fail exc { e with world := w }) : Wp (outside x) post fail e := by
  unfold outside
  rw [wp_zoom]
  exact wp_any hpost hfail

variable {id : TicketId}

theorem wp_requireOwned {post : ExecutionTicket -> Executor world -> Prop}
    (hpost : forall ticket, e.tickets.get? id = some ticket -> post ticket e)
    (hfail : forall exc, fail exc e) : Wp (requireOwned id) post fail e := by
  unfold requireOwned
  rw [wp_query]
  constructor
  · intro ticket hticket
    apply hpost
    cases hget : e.tickets.get? id with
    | none => rw [hget] at hticket; cases hticket
    | some found => rw [hget] at hticket; exact congrArg some (Except.ok.inj hticket)
  · intro exc _
    exact hfail exc

variable {f : ExecutionTicket -> ExecutionTicket}

theorem wp_update {post : Unit -> Executor world -> Prop} :
    Wp (update id f) post fail e <-> post () (e.withTicket id f) :=
  Iff.rfl

theorem update_keeps
    (hf : forall answers ticket, TicketOk answers ticket -> Advance answers ticket (f ticket)) :
    Keeps (Follows first) (update id f : ExecutorM world Unit) :=
  fun e h => h.withTicket fun ticket hticket => hf e.answers ticket (h.sound.ok id ticket hticket)

theorem requireOwned_keeps (id : TicketId) :
    Keeps (Follows first) (requireOwned id : ExecutorM world ExecutionTicket) :=
  keeps_query _

theorem cancel_keeps (id : TicketId) (reason : String) :
    Keeps (Follows first) (cancel id reason : ExecutorM world Unit) := by
  refine Maintains.bind (requireOwned_keeps id) fun _ => ?_
  exact update_keeps fun _ _ hok => Advance.cancel hok reason

theorem quarantine_keeps (id : TicketId) (error : String) (hostFailure : Bool) :
    Keeps (Follows first) (quarantine id error hostFailure : ExecutorM world Unit) := by
  refine Maintains.bind (requireOwned_keeps id) fun _ => ?_
  exact update_keeps fun _ _ _ => Advance.quarantine error hostFailure

theorem reraise_keeps {inv : Executor world -> Prop} (exc : Failure) (recorded : alpha) :
    Keeps inv (reraise exc recorded : ExecutorM world alpha) :=
  Maintains.ite (maintains_pure recorded) (maintains_throw trivial)

theorem outside_keeps (x : EStateM Failure world alpha) : Keeps (Follows first) (outside x) := by
  intro _ h
  exact wp_outside (fun _ _ => h.of_eq rfl rfl (List.Subset.refl _) rfl)
    fun _ _ => ⟨h.of_eq rfl rfl (List.Subset.refl _) rfl, trivial⟩

theorem filter_calls (calls : List ResourceCall) {call} (hcall : call.isSettlement = false) :
    (calls ++ [call]).filter ResourceCall.isSettlement
      = calls.filter ResourceCall.isSettlement := by
  simp [hcall]

/-! ### Launching

Between submission and the end of the enqueue hook no host failure can appear, so
the launch handler finds a ticket it may send to draining. -/

/-- No ticket gained or lost a host failure, and none came or went. -/
def HostKept (base e : Executor world) : Prop :=
  forall id, (e.tickets.get? id).map ExecutionTicket.hostFailure
    = (base.tickets.get? id).map ExecutionTicket.hostFailure

theorem HostKept.withTicket {base} (h : HostKept base e)
    (hf : forall ticket, (f ticket).hostFailure = ticket.hostFailure) :
    HostKept base (e.withTicket id f) := by
  intro id'
  rw [<- h id']
  rw [get?_withTicket]
  split
  next hid =>
    rw [hid]
    cases e.tickets.get? id with
    | none => rfl
    | some ticket => exact congrArg some (hf ticket)
  next => rfl

/-- A call that keeps host failures in place, seen without that part. -/
theorem keeps_of_hostKept (hx : forall base, Keeps (fun e => Follows first e ∧ HostKept base e) x) :
    Keeps (Follows first) x := by
  intro e h
  exact wp_mono (hx e e ⟨h, fun _ => rfl⟩) (fun _ _ h' => h'.1) fun _ _ h' => ⟨h'.1.1, trivial⟩

section

variable (id : TicketId)

theorem trackFence_keeps_host (fence : FenceId) (base : Executor world) :
    Keeps (fun e => Follows first e ∧ HostKept base e)
      (trackFence id fence : ExecutorM world Unit) := by
  intro e h
  unfold trackFence
  rw [wp_bind]
  refine wp_requireOwned (fun ticket hticket => ?_) fun _ => ⟨h, trivial⟩
  refine wp_if (fun _ => ⟨h, trivial⟩) fun hstate => ?_
  have hsubmitted : ticket.state = submitted := not_not.mp hstate
  refine ⟨h.1.withTicket fun found hfound => ?_, h.2.withTicket fun _ => rfl⟩
  rw [hticket] at hfound
  rw [<- Option.some.inj hfound]
  have hhost := (h.1.sound.ok id ticket hticket).no_host (by rw [hsubmitted]; decide)
  exact Advance.onward rfl rfl rfl rfl hhost (by rw [ExecutionTicket.track, hsubmitted]; decide)
    (by rw [ExecutionTicket.track, hsubmitted]; decide)

theorem setSamples_keeps_host (samples : SampleOutputs) (base : Executor world) :
    Keeps (fun e => Follows first e ∧ HostKept base e)
      (setSamples id samples : ExecutorM world Unit) := by
  refine Maintains.bind (keeps_query _) fun ticket => ?_
  refine Maintains.ite (maintains_throw trivial) ?_
  refine Maintains.bind (keeps_query _) fun _ => ?_
  intro e h
  refine ⟨h.1.withTicket fun found _ => ?_, h.2.withTicket fun _ => rfl⟩
  exact Advance.of_view rfl fun h => h

theorem hookCall_keeps_host (call : HookCall) (base : Executor world) :
    Keeps (fun e => Follows first e ∧ HostKept base e)
      (hookCall id call : ExecutorM world Unit) := by
  cases call with
  | trackFence fence => exact trackFence_keeps_host id fence base
  | setSamples samples => exact setSamples_keeps_host id samples base

theorem enqueue_keeps_host (base : Executor world) :
    Keeps (fun e => Follows first e ∧ HostKept base e) (enqueue backend id) := by
  refine Maintains.bind (keeps_query _) fun ticket => ?_
  refine Maintains.bind maintains_get fun seen => ?_
  refine Maintains.bind (maintains_modify fun e h => ?_) fun _ => ?_
  · exact ⟨h.1.of_eq rfl rfl (List.Subset.refl _) rfl, h.2⟩
  refine Maintains.bind (Maintains.forM fun call _ => hookCall_keeps_host id call base) fun _ => ?_
  cases (backend.enqueue ticket seen.world).1.fault with
  | some exc => exact maintains_throw trivial
  | none =>
    refine Maintains.bind (keeps_query _) fun _ => ?_
    exact Maintains.ite (maintains_throw trivial) (maintains_pure _)

theorem wp_beginSubmission (h : Follows first e) : Wp (beginSubmission backend id)
      (fun ready e' => Follows first e' ∧ (ready = true -> e'.tickets = e.tickets))
      (fun _ e' => Follows first e' ∧ True) e := by
  have hrefused : forall exc w, Follows first w -> Wp
      (do
        quarantine id ("resource submission failed: " ++ exc.text) true
        reraise exc false : ExecutorM world Bool)
      (fun ready e' => Follows first e' ∧ (ready = true -> e'.tickets = e.tickets))
      (fun _ e' => Follows first e' ∧ True) w := by
    intro exc w hw
    refine Maintains.wp_bind (quarantine_keeps id _ true) hw fun _ e' h' => ?_
    unfold reraise
    rw [wp_ite]
    exact ⟨fun _ => ⟨h', fun hready => nomatch hready⟩, fun _ => ⟨h', trivial⟩⟩
  unfold beginSubmission callResources
  rw [wp_tryCatch, wp_bind, wp_bind, wp_modify]
  have hsame := List.Subset.refl e.answers
  have hcalls : (e.calls ++ [ResourceCall.markSubmitted id]).filter ResourceCall.isSettlement
      = e.calls.filter ResourceCall.isSettlement := filter_calls e.calls rfl
  exact wp_outside (fun _ w => ⟨h.of_eq rfl rfl hsame hcalls, fun _ => rfl⟩)
    fun exc w => hrefused exc _ (h.of_eq rfl rfl hsame hcalls)

theorem launch_keeps : Keeps (Follows first) (launch backend id) := by
  intro e h
  unfold launch
  rw [wp_bind]
  refine wp_requireOwned (fun ticket hticket => ?_) fun _ => ⟨h, trivial⟩
  refine wp_if (fun _ => ⟨h, trivial⟩) fun hstate => ?_
  have hadopted : ticket.state = adopted := not_not.mp hstate
  have hhost := (h.sound.ok id ticket hticket).no_host (by rw [hadopted]; decide)
  refine wp_if (fun _ => cancel_keeps id _ e h) fun _ => ?_
  refine wp_seq (wp_beginSubmission backend id h) fun ready e' h' => ?_
  refine wp_if (fun hready => ?_) fun _ => h'.1
  have htickets := h'.2 hready
  rw [wp_bind]
  -- the ticket in hand is still the adopted one
  have hsubmit : Follows first (e'.withTicket id ExecutionTicket.submit) :=
    h'.1.withTicket fun found hfound => by
      rw [htickets, hticket] at hfound
      rw [<- Option.some.inj hfound]
      exact Advance.onward rfl rfl rfl rfl hhost (fun hs => nomatch hs) (fun hs => nomatch hs)
  rw [wp_update, wp_tryCatch]
  refine wp_mono (enqueue_keeps_host backend id _ _ ⟨hsubmit, fun _ => rfl⟩)
    (fun _ _ hafter => hafter.1) fun exc e'' hafter => ?_
  refine reraise_keeps exc _ _ (hafter.1.1.withTicket fun found hfound => ?_)
  have hclean : found.hostFailure = false := by
    have hkept := hafter.1.2 id
    rw [<- htickets] at hticket
    rw [hfound, get?_withTicket_self hticket] at hkept
    exact (Option.some.inj hkept).trans hhost
  exact Advance.onward rfl rfl rfl rfl hclean (fun hs => nomatch hs) (fun hs => nomatch hs)

/-! ### Polling -/

theorem quarantine_keeps_host (error : String) (base : Executor world) :
    Keeps (fun e => Follows first e ∧ HostKept base e)
      (quarantine id error false : ExecutorM world Unit) := by
  refine Maintains.bind (keeps_query _) fun _ => ?_
  intro e h
  refine ⟨h.1.withTicket fun _ _ => Advance.quarantine error false, h.2.withTicket fun ticket => ?_⟩
  exact Bool.or_false ticket.hostFailure

theorem drain_keeps_host (base : Executor world) :
    Keeps (fun e => Follows first e ∧ HostKept base e) (drain backend id) := by
  intro e h
  unfold drain
  rw [wp_bind]
  refine wp_requireOwned (fun ticket hticket => ?_) fun _ => ⟨h, trivial⟩
  refine wp_if (fun _ => h) fun hopen => ?_
  rw [not_or, not_or] at hopen
  have hneeds : ticket.needsDrain = true := Bool.of_not_eq_false hopen.2.1
  have hnone : ticket.drainFence = none := Option.not_isSome_iff_eq_none.mp hopen.2.2
  have hawaited : ticket.awaited = [] := by
    unfold ExecutionTicket.awaited
    rw [if_pos hneeds, hnone]
    rfl
  have hoften : forall w, Follows first { e with world := w } :=
    fun w => h.1.of_eq rfl rfl (List.Subset.refl _) rfl
  rw [wp_tryCatch, wp_bind]
  refine wp_outside (fun fence w => ?_) fun exc w => ?_
  · refine ⟨(hoften w).withTicket fun found hfound => ?_,
      HostKept.withTicket (e := { e with world := w }) h.2 fun _ => rfl⟩
    have hfound' : e.tickets.get? id = some found := hfound
    rw [hticket] at hfound'
    rw [<- Option.some.inj hfound']
    refine ⟨rfl, rfl, fun hh => hh, fun hh => hh,
      fun hok => ⟨hok.host, hok.unsubmitted, fun hs hsub => ?_⟩⟩
    -- a completed submission that needs a drain has its drain fence already
    exact absurd hawaited (hok.quiet hs hsub).1
  · refine Maintains.wp_bind (quarantine_keeps_host id _ base) ⟨hoften w, h.2⟩ fun _ e' h' => ?_
    exact reraise_keeps exc _ e' h'

theorem drain_keeps : Keeps (Follows first) (drain backend id) :=
  keeps_of_hostKept fun base => drain_keeps_host backend id base

end

/-- The ticket a poll works on: what it awaits does not change under the poll. -/
def Waiting (id : TicketId) (awaited : List FenceId) (e : Executor world) : Prop :=
  exists ticket, e.tickets.get? id = some ticket ∧ ticket.hostFailure = false
    ∧ ticket.awaited = awaited

theorem Waiting.withTicket (h : Waiting id awaited e)
    (hhost : forall ticket, (f ticket).hostFailure = ticket.hostFailure)
    (hawaited : forall ticket, (f ticket).awaited = ticket.awaited) :
    Waiting id awaited (e.withTicket id f) := by
  rcases h with ⟨ticket, hticket, hclean, hfences⟩
  exact ⟨f ticket, get?_withTicket_self hticket f, (hhost ticket).trans hclean,
    (hawaited ticket).trans hfences⟩

section

variable (id : TicketId)

theorem wp_askFence (fence : FenceId) (h : Follows first e) (hwaiting : Waiting id awaited e) :
    Wp (askFence backend id fence)
      (fun result? e' => Follows first e' ∧ forall result, result? = some result ->
        Waiting id awaited e' ∧ e.answers ⊆ e'.answers ∧ (fence, result) ∈ e'.answers)
      (fun _ e' => Follows first e' ∧ True) e := by
  unfold askFence
  rw [wp_tryCatch, wp_bind]
  refine wp_outside (fun result w => ?_) fun exc w => ?_
  · have hgrown : e.answers ⊆ e.answers ++ [(fence, result)] := List.subset_append_left _ _
    refine ⟨h.of_eq rfl rfl hgrown rfl, fun found hfound => ⟨hwaiting, hgrown, ?_⟩⟩
    rw [<- Option.some.inj hfound]
    exact List.mem_append_right _ (List.mem_singleton.mpr rfl)
  · refine Maintains.wp_bind (quarantine_keeps id _ false)
      (h.of_eq rfl rfl (List.Subset.refl _) rfl) fun _ e' h' => ?_
    unfold reraise
    rw [wp_ite]
    exact ⟨fun _ => ⟨h', fun _ hnone => nomatch hnone⟩, fun _ => ⟨h', trivial⟩⟩

/-- `done` are the fences heard before; if all were quiescent so far, they have
all answered so. -/
theorem wp_queryFences (rest : List FenceId) (done : List FenceId) (quiescent failed : Bool)
    (h : Follows first e) (hwaiting : Waiting id awaited e)
    (hdone : quiescent = true -> forall fence, fence ∈ done -> Finished e.answers fence) :
    Wp (queryFences backend id rest quiescent failed)
      (fun result? e' => Follows first e' ∧ forall quiescent' failed',
        result? = some (quiescent', failed') -> Waiting id awaited e' ∧ (quiescent' = true ->
            forall fence, fence ∈ done ++ rest -> Finished e'.answers fence))
      (fun _ e' => Follows first e' ∧ True) e := by
  induction rest generalizing e done quiescent failed with
  | nil =>
    refine ⟨h, fun quiescent' failed' hresult => ⟨hwaiting, fun hquiescent => ?_⟩⟩
    have hpair := Option.some.inj hresult
    rw [List.append_nil]
    exact hdone ((congrArg Prod.fst hpair).trans hquiescent)
  | cons fence rest ih =>
    refine wp_seq (wp_askFence backend id fence h hwaiting) fun result? e' h' => ?_
    cases result? with
    | none => exact ⟨h'.1, fun _ _ hnone => nomatch hnone⟩
    | some result =>
      rcases h'.2 result rfl with ⟨hwaiting', hgrown, hanswer⟩
      have hnext : forall quiescent', (quiescent' = true ->
          quiescent = true ∧ result.quiescent = true) ->
          quiescent' = true -> forall f, f ∈ done ++ [fence] -> Finished e'.answers f := by
        intro quiescent' hboth htrue f hf
        rcases List.mem_append.mp hf with hold | hnew
        · exact (hdone (hboth htrue).1 f hold).mono hgrown
        · rw [List.mem_singleton.mp hnew]
          exact ⟨result, hanswer, (hboth htrue).2⟩
      have hsplit : done ++ fence :: rest = (done ++ [fence]) ++ rest := by simp
      rw [hsplit, wp_ite]
      constructor
      · intro _
        rw [wp_bind]
        have hnoted : Follows first
            (e'.withTicket id (fun ticket => ticket.noteFailure result.error)) :=
          h'.1.withTicket fun _ _ => Advance.of_view rfl fun h => h
        have hwaiting'' :=
          hwaiting'.withTicket (f := fun ticket => ticket.noteFailure result.error)
            (fun _ => rfl) fun _ => rfl
        refine wp_if (fun hquiet => ?_) fun _ => ?_
        · exact ih (done ++ [fence]) quiescent true hnoted hwaiting''
            (hnext quiescent fun htrue => ⟨htrue, hquiet⟩)
        · refine Maintains.wp_bind (quarantine_keeps id _ false) hnoted fun _ e'' h'' => ?_
          exact ⟨h'', fun _ _ hnone => nomatch hnone⟩
      · intro _
        exact ih (done ++ [fence]) (quiescent && result.quiescent) failed h'.1 hwaiting'
          (hnext _ fun htrue => by
            rw [Bool.and_eq_true] at htrue
            exact htrue)

theorem pollFences_wp {ticket} (h : Follows first e)
    (hticket : e.tickets.get? id = some ticket) (hhost : ticket.hostFailure = false) :
    Wp (pollFences backend id) (fun _ e' => Follows first e')
      (fun _ e' => Follows first e' ∧ True) e := by
  unfold pollFences
  rw [wp_bind]
  refine wp_requireOwned (fun found hfound => ?_) fun _ => ⟨h, trivial⟩
  rw [hticket] at hfound
  rw [<- Option.some.inj hfound]
  refine wp_if (fun _ => h) fun hawaited => ?_
  rw [wp_bind]
  have hwaiting : Waiting id ticket.awaited e := ⟨ticket, hticket, hhost, rfl⟩
  refine wp_mono (wp_queryFences backend id ticket.awaited [] true false h hwaiting
    fun _ _ hnil => nomatch hnil) (fun result? e' h' => ?_) fun _ _ h' => h'
  cases result? with
  | none => exact h'.1
  | some result =>
    rcases result with ⟨quiescent, failed⟩
    rcases h'.2 quiescent failed rfl with ⟨⟨after, hafter, hclean, hsame⟩, hquiet⟩
    show Wp (if quiescent = true then _ else _) _ _ e'
    refine wp_if (fun hquiescent => h'.1.withTicket fun found hfound => ?_) fun _ => h'.1
    rw [hafter] at hfound
    rw [<- Option.some.inj hfound]
    refine Advance.conclude failed hclean (by rw [hsame]; exact hawaited) fun fence hfence => ?_
    rw [hsame] at hfence
    exact hquiet hquiescent fence hfence

theorem poll_keeps : Keeps (Follows first) (poll backend id) := by
  intro e h
  unfold poll
  rw [wp_bind]
  refine wp_requireOwned (fun ticket hticket => ?_) fun _ => ⟨h, trivial⟩
  refine wp_if (fun _ => h) fun hopen => ?_
  have hhost : ticket.hostFailure = false := Bool.of_not_eq_true fun hh => hopen (.inl hh)
  have hfences : forall e', Follows first e' -> HostKept e e' ->
      Wp (pollFences backend id) (fun _ e'' => Follows first e'')
        (fun _ e'' => Follows first e'' ∧ True) e' := by
    intro e' h' hkept
    have hsame := hkept id
    rw [hticket] at hsame
    rcases Option.map_eq_some_iff.mp hsame with ⟨_, hticket', hhost'⟩
    exact pollFences_wp backend id h' hticket' (hhost'.trans hhost)
  by_cases hneeds : ticket.needsDrain = true
  · rw [if_pos hneeds]
    refine wp_then (drain_keeps_host backend id e e ⟨h, fun _ => rfl⟩) (fun _ e' h' => ?_)
      fun _ _ h' => ⟨h'.1.1, trivial⟩
    exact hfences e' h'.1 h'.2
  · rw [if_neg hneeds]
    exact hfences e h fun _ => rfl

end

theorem pollEach_keeps (ids : List TicketId) : Keeps (Follows first) (pollEach backend ids) := by
  induction ids with
  | nil => exact maintains_pure _
  | cons id rest ih =>
    refine Maintains.bind (poll_keeps backend id) fun _ => ?_
    refine Maintains.bind maintains_get fun _ => ?_
    exact Maintains.bind ih fun _ => maintains_pure _

theorem pollTerminal_keeps : Keeps (Follows first) (pollTerminal backend) :=
  Maintains.bind maintains_get fun e => pollEach_keeps backend e.tickets.keys

/-! ### Adoption, retirement and shutdown -/

theorem initializeHost_keeps : Keeps (Follows first) (initializeHost : ExecutorM world Unit) := by
  refine Maintains.bind maintains_get fun _ => ?_
  refine Maintains.ite (maintains_throw trivial) (maintains_modify fun e h => ?_)
  exact h.of_eq rfl rfl (List.Subset.refl _) rfl

/-- An adopted ticket is registered with its step. -/
theorem wp_adopt (prepared : PreparedStep) (h : Follows first e) :
    Wp (adopt backend prepared) (fun id e' => Follows first e' ∧ id.ordinal < e'.nextOrdinal
        ∧ forall ticket, e'.tickets.get? id = some ticket -> ticket.prepared = prepared)
      (fun _ e' => Follows first e' ∧ True) e := by
  unfold adopt
  refine wp_if (fun _ => ⟨h, trivial⟩) fun _ => ?_
  refine wp_if (fun _ => ⟨h, trivial⟩) fun _ => ?_
  have hreg := h.register prepared
  have hnew : (e.register prepared).tickets.get?
      { executor := e.executorId, ordinal := e.nextOrdinal }
        = some { id := { executor := e.executorId, ordinal := e.nextOrdinal }, prepared } :=
    Dict.get?_set_self ..
  have hcalls : (e.calls ++ [ResourceCall.adopt
      { executor := e.executorId, ordinal := e.nextOrdinal }]).filter ResourceCall.isSettlement
        = e.calls.filter ResourceCall.isSettlement := filter_calls e.calls rfl
  rw [wp_bind, wp_modify, wp_bind, wp_tryCatch]
  unfold callResources
  have hcalled : forall w, Follows first
      { e.register prepared with
        calls := (e.register prepared).calls
          ++ [.adopt { executor := e.executorId, ordinal := e.nextOrdinal }]
        world := w } := fun w => hreg.of_eq rfl rfl (List.Subset.refl _) hcalls
  refine wp_outside (fun _ w => ?_) fun exc w => ?_
  · refine ⟨(hcalled w).of_eq rfl rfl (List.Subset.refl _) rfl, Nat.lt_succ_self _, ?_⟩
    intro ticket hticket
    have hsame := hnew.symm.trans hticket
    rw [<- Option.some.inj hsame]
  · refine ⟨(hcalled w).erase fun ticket hticket => ?_, trivial⟩
    have hsame := hnew.symm.trans hticket
    rw [<- Option.some.inj hsame]

theorem adopt_keeps (prepared : PreparedStep) : Keeps (Follows first) (adopt backend prepared) := by
  intro _ h
  exact wp_mono (wp_adopt backend prepared h) (fun _ _ h' => h'.1) fun _ _ h' => h'

section

variable (id : TicketId)

theorem markSettling_keeps : Keeps (Follows first) (markSettling id : ExecutorM world Unit) :=
  update_keeps fun _ _ _ => Advance.of_view rfl fun _ => rfl

theorem completeRetirement_keeps :
    Keeps (Follows first) (completeRetirement id : ExecutorM world Unit) :=
  update_keeps fun _ _ _ => Advance.of_view rfl fun h => h

theorem acknowledgeRetired_keeps :
    Keeps (Follows first) (acknowledgeRetired id : ExecutorM world Unit) := by
  intro _ h
  unfold acknowledgeRetired
  rw [wp_bind]
  refine wp_requireOwned (fun ticket hticket => ?_) fun _ => ⟨h, trivial⟩
  refine wp_if (fun _ => ⟨h, trivial⟩) fun hsettled => ?_
  rw [not_or, not_not] at hsettled
  refine h.erase fun found hfound => ?_
  rw [hticket] at hfound
  rw [<- Option.some.inj hfound]
  exact (h.sound.ok id ticket hticket).no_host (by rw [hsettled.1]; decide)

theorem stop_keeps : Keeps (Follows first) (stop backend id) := by
  refine Maintains.bind (requireOwned_keeps id) fun _ => ?_
  exact Maintains.ite (cancel_keeps id _) (drain_keeps backend id)

end

theorem closeIdle_keeps : Keeps (Follows first) (closeIdle backend) := by
  refine Maintains.bind maintains_get fun _ => ?_
  refine Maintains.ite (maintains_pure _) (Maintains.ite (maintains_pure _) ?_)
  refine Maintains.bind (outside_keeps backend.close) fun _ => ?_
  refine Maintains.bind (maintains_modify fun e h => ?_) fun _ => maintains_pure _
  exact h.of_eq rfl rfl (List.Subset.refl _) rfl

theorem shutdown_keeps : Keeps (Follows first) (shutdown backend) := by
  refine Maintains.bind (maintains_modify fun e h => ?_) fun _ => ?_
  · exact h.of_eq rfl rfl (List.Subset.refl _) rfl
  refine Maintains.bind maintains_get fun _ => ?_
  refine Maintains.bind (Maintains.forM fun id _ => stop_keeps backend id) fun _ => ?_
  exact closeIdle_keeps backend

end Methods

/-! ## Runs -/

/-- A call on the executor, by its owner, the coordinator or the backend. -/
inductive ExecutorStep where
  | initializeHost
  | adopt (prepared : PreparedStep)
  | trackFence (id : TicketId) (fence : FenceId)
  | setSamples (id : TicketId) (samples : SampleOutputs)
  | launch (id : TicketId)
  | cancel (id : TicketId) (reason : String)
  | quarantine (id : TicketId) (error : String) (hostFailure : Bool)
  | drain (id : TicketId)
  | pollTerminal
  | markSettling (id : TicketId)
  | completeRetirement (id : TicketId)
  | acknowledgeRetired (id : TicketId)
  | shutdown

section

variable (backend : Backend world)

def step (e : Executor world) : ExecutorStep -> Executor world
  | .initializeHost => finalState (initializeHost e)
  | .adopt prepared => finalState (adopt backend prepared e)
  | .trackFence id fence => finalState (trackFence id fence e)
  | .setSamples id samples => finalState (setSamples id samples e)
  | .launch id => finalState (launch backend id e)
  | .cancel id reason => finalState (cancel id reason e)
  | .quarantine id error hostFailure => finalState (quarantine id error hostFailure e)
  | .drain id => finalState (drain backend id e)
  | .pollTerminal => finalState (pollTerminal backend e)
  | .markSettling id => finalState (markSettling id e)
  | .completeRetirement id => finalState (completeRetirement id e)
  | .acknowledgeRetired id => finalState (acknowledgeRetired id e)
  | .shutdown => finalState (shutdown backend e)

def run (e : Executor world) (steps : List ExecutorStep) : Executor world :=
  steps.foldl (step backend) e

theorem step_follows (h : Follows first e) (call : ExecutorStep) :
    Follows first (step backend e call) := by
  cases call with
  | initializeHost => exact initializeHost_keeps.final h
  | adopt prepared => exact (adopt_keeps backend prepared).final h
  | trackFence id fence =>
    exact (keeps_of_hostKept fun base => trackFence_keeps_host id fence base).final h
  | setSamples id samples =>
    exact (keeps_of_hostKept fun base => setSamples_keeps_host id samples base).final h
  | launch id => exact (launch_keeps backend id).final h
  | cancel id reason => exact (cancel_keeps id reason).final h
  | quarantine id error hostFailure => exact (quarantine_keeps id error hostFailure).final h
  | drain id => exact (drain_keeps backend id).final h
  | pollTerminal => exact (pollTerminal_keeps backend).final h
  | markSettling id => exact (markSettling_keeps id).final h
  | completeRetirement id => exact (completeRetirement_keeps id).final h
  | acknowledgeRetired id => exact (acknowledgeRetired_keeps id).final h
  | shutdown => exact (shutdown_keeps backend).final h

theorem run_follows (h : Follows first e) (steps : List ExecutorStep) :
    Follows first (run backend e steps) := by
  induction steps generalizing e with
  | nil => exact h
  | cons call rest ih => exact ih (step_follows backend h call)

end

theorem new_sound (maxInflight executorId : Nat) (w : world) :
    Sound (new maxInflight executorId w) where
  named := fun _ _ h => nomatch h
  below := fun _ _ h => nomatch h
  ok := fun _ _ h => nomatch h

/-- In every run, whatever the hooks answer or raise: a ticket that is completed
was never submitted, or its drain fence, if it needs a drain, and otherwise each
of its fences, of which there is one, has answered that it is quiescent; and a
ticket with a host failure is never completed by any continuation of the run. -/
theorem run_completes_after_fences (backend : Backend world) (maxInflight executorId : Nat)
    (w : world) (steps : List ExecutorStep) (id : TicketId) (ticket : ExecutionTicket)
    (hticket : (run backend (new maxInflight executorId w) steps).tickets.get? id = some ticket) :
    (ticket.state = completed ->
      ticket.submitted = false ∨
        if ticket.needsDrain then
          exists fence, ticket.drainFence = some fence
            ∧ Finished (run backend (new maxInflight executorId w) steps).answers fence
        else
          ticket.fences ≠ [] ∧ forall fence, fence ∈ ticket.fences ->
            Finished (run backend (new maxInflight executorId w) steps).answers fence)
    ∧ (ticket.hostFailure = true -> forall later,
        exists ticket',
          (run backend (new maxInflight executorId w) (steps ++ later)).tickets.get? id
            = some ticket'
          ∧ ticket'.state ≠ completed) := by
  have hrun := run_follows backend (new_sound maxInflight executorId w).follows steps
  have hok := hrun.sound.ok id ticket hticket
  constructor
  · intro hcompleted
    cases hsubmitted : ticket.submitted with
    | false => exact Or.inl rfl
    | true =>
      right
      have hquiet := hok.quiet hcompleted (Or.inl hsubmitted)
      unfold ExecutionTicket.awaited at hquiet
      by_cases hneeds : ticket.needsDrain = true
      · rw [if_pos hneeds] at hquiet ⊢
        cases hfence : ticket.drainFence with
        | none => rw [hfence] at hquiet; exact absurd rfl hquiet.1
        | some fence =>
          rw [hfence] at hquiet
          exact ⟨fence, rfl, hquiet.2 fence (List.mem_singleton.mpr rfl)⟩
      · rw [if_neg hneeds] at hquiet ⊢
        exact hquiet
  · intro hhost later
    have hlater := run_follows backend hrun.sound.follows later
    rcases hlater.host id ticket hticket hhost with ⟨ticket', hticket', hhost'⟩
    refine ⟨ticket', ?_, ?_⟩
    · unfold run at hticket' ⊢
      rw [List.foldl_append]
      exact hticket'
    · rw [(hlater.sound.ok id ticket' hticket').host hhost']
      decide

/-! ### A run that completes -/

theorem prompt_text : isBlank "r" = false := by decide

def oneSlicePlan : BatchStepPlan where
  stepId := 0
  slices :=
    [{ requestId := "r", sequenceEpoch := 1, expectedStateVersion := 0, queryStart := 0,
       queryCount := 1, phase := .prefill, sampleLastQuery := true
       id_text := prompt_text, epoch_pos := Nat.one_pos, count_pos := Nat.one_pos }]
  inputs :=
    [{ requestId := "r", sequence := Handle.first .sequence 0, sequenceEpoch := 1,
       stateVersion := 0, promptTokens := 1, knownTokens := [7], computedTokens := 0,
       maxOutputTokens := 1 }]
  samplingRows := [0]
  speculative := []

def promptBackend : Backend Unit where
  enqueue := fun _ w =>
    ({ calls := [.trackFence 0, .setSamples { tokenIds := [3] }] }, w)
  beginDrain := fun _ => pure 1
  query := fun _ => pure FenceResult.succeeded
  close := pure ()
  adopt := fun _ _ => pure ()
  markSubmitted := fun _ => pure ()
  commit := fun _ _ => pure [1]
  retire := fun _ _ _ => pure ()

def promptRun : List ExecutorStep :=
  [.initializeHost, .adopt { step := oneSlicePlan },
   .launch { executor := 1, ordinal := 1 }, .pollTerminal]

theorem promptRun_completes_after_fences :
    exists ticket, (run promptBackend (new 1 1 ()) promptRun).tickets.get?
        { executor := 1, ordinal := 1 } = some ticket
      ∧ ticket.state = completed ∧ ticket.submitted = true
      ∧ forall fence, fence ∈ ticket.fences ->
          Finished (run promptBackend (new 1 1 ()) promptRun).answers fence := by
  refine ⟨_, rfl, rfl, rfl, ?_⟩
  have h := (run_completes_after_fences promptBackend 1 1 () promptRun
    { executor := 1, ordinal := 1 } _ rfl).1 rfl
  rcases h with hfalse | hquiet
  · exact absurd hfalse (by decide)
  · exact hquiet.2

end Executor
end Ayaka
