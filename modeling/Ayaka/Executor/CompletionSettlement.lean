import Ayaka.Executor.CompletionQuiet

/-!
# One settlement

A settlement makes at most one commit and one retire call for its ticket, commits
only a quiescent success, and publishes every slice at most once, whatever the
resource callbacks answer or raise and whoever is cancelled on the way.  `Once` is
what every reachable state has; `Settling` is what holds inside a settlement, with
the slice it has come to.
-/

namespace Ayaka
namespace Executor

/-! ## Resource calls of a ticket -/

def ResourceCall.commits (id : TicketId) : ResourceCall -> Bool
  | commit ticket _ => decide (ticket.id = id)
  | _ => false

def ResourceCall.retires (id : TicketId) : ResourceCall -> Bool
  | retire ticket => decide (ticket.id = id)
  | _ => false

variable {call : ResourceCall} {id : TicketId}

theorem ResourceCall.isSettlement_of_commits (h : call.commits id = true) :
    call.isSettlement = true := by
  cases call with
  | commit ticket heard => rfl
  | retire ticket => rfl
  | adopt ticket => cases h
  | markSubmitted ticket => cases h

theorem ResourceCall.isSettlement_of_retires (h : call.retires id = true) :
    call.isSettlement = true := by
  cases call with
  | commit ticket heard => rfl
  | retire ticket => rfl
  | adopt ticket => cases h
  | markSubmitted ticket => cases h

def ResourceCall.settles (id : TicketId) (call : ResourceCall) : Bool :=
  call.commits id || call.retires id

/-- The ticket completed in success, on the word of every fence it awaited. -/
structure Succeeded (ticket : ExecutionTicket) (heard : List (FenceId × FenceResult)) :
    Prop where
  completed : ticket.state = .completed
  succeeded : ticket.hasSucceeded = true
  awaited : ticket.awaited ≠ []
  finished : forall fence, fence ∈ ticket.awaited -> Finished heard fence

variable {world : Type} {first e : Executor world}

structure Spent (e : Executor world) (id : TicketId) : Prop where
  issued : id.ordinal < e.nextOrdinal
  settling : forall ticket, e.tickets.get? id = some ticket -> ticket.settling = true

theorem Spent.follows (h : Spent first id) (he : Follows first e) : Spent e id where
  issued := Nat.lt_of_lt_of_le h.issued he.ordinals
  settling := fun ticket' hticket' => by
    rcases he.settling id ticket' hticket' h.issued with ⟨ticket, hticket, _, hsettling⟩
    exact hsettling (h.settling ticket hticket)

theorem Follows.mem_calls (h : Follows first e) (hcall : call.isSettlement = true) :
    call ∈ e.calls <-> call ∈ first.calls := by
  have hmem : forall calls : List ResourceCall,
      call ∈ calls <-> call ∈ calls.filter ResourceCall.isSettlement := by
    intro calls
    rw [List.mem_filter, hcall]
    simp
  rw [hmem e.calls, h.calls, <- hmem first.calls]

def settlementsOf (e : Executor world) (id : TicketId) : List ResourceCall :=
  e.calls.filter (ResourceCall.settles id)

theorem Follows.settlementsOf_eq (h : Follows first e) (id : TicketId) :
    settlementsOf e id = settlementsOf first id := by
  have hfilter : forall calls : List ResourceCall, calls.filter (ResourceCall.settles id)
      = (calls.filter ResourceCall.isSettlement).filter (ResourceCall.settles id) := by
    intro calls
    rw [List.filter_filter]
    apply List.filter_congr
    intro call _
    cases hcall : call.settles id with
    | false => rfl
    | true =>
      rcases Bool.or_eq_true_iff.mp hcall with hkind | hkind
      · rw [ResourceCall.isSettlement_of_commits hkind]; rfl
      · rw [ResourceCall.isSettlement_of_retires hkind]; rfl
  unfold settlementsOf
  rw [hfilter e.calls, h.calls, <- hfilter first.calls]

theorem Follows.countP_calls (h : Follows first e) {kind : ResourceCall -> Bool}
    (hkind : forall call, kind call = true -> call.isSettlement = true) :
    e.calls.countP kind = first.calls.countP kind := by
  have hcount : forall calls : List ResourceCall,
      calls.countP kind = (calls.filter ResourceCall.isSettlement).countP kind := by
    intro calls
    rw [List.countP_filter]
    apply List.countP_congr
    intro call _
    cases hcall : kind call with
    | false => simp
    | true => simp [hkind call hcall]
  rw [hcount e.calls, h.calls, <- hcount first.calls]

end Executor

namespace Completion

open Foundation Sched Executor Request

variable {world : Type}

/-! ## The invariant -/

/-- The tokens a slice of a succeeded step publishes: its sample, or the first of
its accepted drafts and then its sample. -/
def Emits (step : BatchStepPlan) (samples : SampleOutputs) (sliceIndex : Nat)
    (tokens : List Int) : Prop :=
  exists token, samples.tokenIds[sampleIndex step.slices sliceIndex]? = some token
    ∧ (tokens = [token] ∨ exists plan accepted keep, plan ∈ step.speculative
      ∧ plan.sliceIndex = sliceIndex
      ∧ tokens = ((plan.draftTokenIds.take accepted).map (fun t => (t : Int)) ++ [token]).take keep)

structure Origin (calls : List ResourceCall) (publication : Publication)
    (ticket : ExecutionTicket) (heard : List (FenceId × FenceResult)) (outcome : TerminalOutcome)
    (samples : SampleOutputs) : Prop where
  committed : .commit ticket heard ∈ calls
  id : ticket.id = publication.ticket
  terminal : ticket.terminal = some outcome
  sampled : outcome.samples = some samples
  slice : publication.sliceIndex < ticket.prepared.step.slices.length
  emits : Emits ticket.prepared.step samples publication.sliceIndex publication.tokens

def outputOf (publications : List Publication) (ref : LifecycleRef) : List Nat :=
  (publications.filter (fun p => p.ref = ref)).flatMap (fun p => p.tokens.map Int.toNat)

def Publication.key (publication : Publication) : TicketId × Nat :=
  (publication.ticket, publication.sliceIndex)

structure Once (c : CompletionCoordinator world) : Prop where
  ready : Ready c
  commit_once : forall id, c.executor.calls.countP (ResourceCall.commits id) ≤ 1
  retire_once : forall id, c.executor.calls.countP (ResourceCall.retires id) ≤ 1
  called : forall id call, call ∈ c.executor.calls ->
    call.commits id = true ∨ call.retires id = true -> Spent c.executor id
  quiet : forall ticket heard, .commit ticket heard ∈ c.executor.calls ->
    Succeeded ticket heard
  publish_once : (c.publications.map Publication.key).Nodup
  published : forall p, p ∈ c.publications ->
    Spent c.executor p.ticket ∧ p.ref < c.requests.nextRef
      ∧ exists ticket heard outcome samples,
        Origin c.executor.calls p ticket heard outcome samples
  output : forall ref lc, c.requests.heap.slot ref = some lc ->
    lc.outputTokenIds = outputOf c.publications ref

theorem outputOf_eq_nil
    (h : forall p, p ∈ publications -> p.ref ≠ ref) : outputOf publications ref = [] := by
  unfold outputOf
  rw [List.filter_eq_nil_iff.mpr fun p hp => by simpa using h p hp]
  rfl

theorem outputOf_append (publications : List Publication) (p : Publication) (ref : LifecycleRef) :
    outputOf (publications ++ [p]) ref =
      outputOf publications ref ++ if p.ref = ref then p.tokens.map Int.toNat else [] := by
  unfold outputOf
  by_cases h : p.ref = ref
  · simp [h]
  · simp [h]

variable {first c : CompletionCoordinator world}

theorem Once.still (h : Once first) (hc : Still first c) : Once c := by
  have hfollows := hc.executor
  refine ⟨hc.ready, fun id => ?_, fun id => ?_, fun id call hcall hid => ?_,
    fun ticket heard hcall => ?_, ?_, fun p hp => ?_, fun ref lc hlc => ?_⟩
  · rw [hfollows.countP_calls fun _ => ResourceCall.isSettlement_of_commits]
    exact h.commit_once id
  · rw [hfollows.countP_calls fun _ => ResourceCall.isSettlement_of_retires]
    exact h.retire_once id
  · have hsettlement : call.isSettlement = true :=
      hid.elim ResourceCall.isSettlement_of_commits ResourceCall.isSettlement_of_retires
    exact (h.called id call ((hfollows.mem_calls hsettlement).mp hcall) hid).follows hfollows
  · exact h.quiet ticket heard ((hfollows.mem_calls rfl).mp hcall)
  · rw [hc.publications]
    exact h.publish_once
  · rw [hc.publications] at hp
    rcases h.published p hp with ⟨hspent, href, ticket, heard, outcome, samples, horigin⟩
    exact ⟨hspent.follows hfollows, Nat.lt_of_lt_of_le href hc.requests.refs, ticket, heard,
      outcome, samples,
      { horigin with committed := (hfollows.mem_calls rfl).mpr horigin.committed }⟩
  · rw [hc.publications]
    by_cases hold : ref < first.requests.nextRef
    · have hsame := hc.requests.old ref hold
      rw [hlc] at hsame
      rcases Option.map_eq_some_iff.mp hsame.symm with ⟨lc0, hlc0, hpublished⟩
      rw [<- h.output ref lc0 hlc0]
      exact (congrArg Prod.snd hpublished).symm
    · have hfresh := Nat.le_of_not_lt hold
      rw [hc.requests.fresh ref lc hlc hfresh, outputOf_eq_nil]
      intro p hp heq
      rw [<- heq] at hfresh
      exact Nat.not_lt_of_le hfresh (h.published p hp).2.1

/-! ## Inside a settlement -/

/-- A settlement that began in `first` only adds calls for its own ticket, and
publications. -/
structure Adds (first : CompletionCoordinator world) (id : TicketId)
    (c : CompletionCoordinator world) : Prop where
  others : forall other, other ≠ id ->
    settlementsOf c.executor other = settlementsOf first.executor other
  spent : forall other, Spent first.executor other -> Spent c.executor other
  publications : first.publications <+: c.publications

/-- The settlement of a ticket has begun: whether its bundle was committed, and the
first slice that has not published. -/
structure Settling (first : CompletionCoordinator world) (ticket : ExecutionTicket)
    (committed : Bool) (next : Nat) (c : CompletionCoordinator world) : Prop where
  once : Once c
  spent : Spent c.executor ticket.id
  success : ticket.hasSucceeded = true -> Succeeded ticket c.executor.answers
  uncommitted : committed = false ->
    forall call, call ∈ c.executor.calls -> call.commits ticket.id = false
  committed : committed = true -> exists heard, .commit ticket heard ∈ c.executor.calls
  unretired : forall call, call ∈ c.executor.calls -> call.retires ticket.id = false
  published : forall p, p ∈ c.publications -> p.ticket = ticket.id -> p.sliceIndex < next
  adds : Adds first ticket.id c

theorem Adds.still {first c c' : CompletionCoordinator world} {id : TicketId}
    (h : Adds first id c) (hc : Still c c') : Adds first id c' where
  others := fun other hother =>
    (hc.executor.settlementsOf_eq other).trans (h.others other hother)
  spent := fun other hother => (h.spent other hother).follows hc.executor
  publications := by
    rw [hc.publications]
    exact h.publications

theorem Adds.call {id} (h : Adds first id c) {call}
    (hcall : forall other, other ≠ id -> call.settles other = false) (w : world) :
    Adds first id { c with executor :=
      { c.executor with calls := c.executor.calls ++ [call], world := w } } where
  __ := h
  others := fun other hother => by
    rw [<- h.others other hother]
    unfold settlementsOf
    simp [hcall other hother]
  spent := fun other hother => ⟨(h.spent other hother).issued, (h.spent other hother).settling⟩

namespace Settling

variable {first : CompletionCoordinator world} {ticket : ExecutionTicket} {committed : Bool}
  {next : Nat} {c : CompletionCoordinator world}

section

variable (h : Settling first ticket committed next c)
include h

theorem skip : Settling first ticket committed (next + 1) c :=
  { h with published := fun p hp hid => Nat.lt_succ_of_lt (h.published p hp hid) }

theorem still {c' : CompletionCoordinator world} (hc : Still c c') :
    Settling first ticket committed next c' where
  once := h.once.still hc
  spent := h.spent.follows hc.executor
  success := fun hsucceeded =>
    { h.success hsucceeded with
      finished := fun fence hfence =>
        ((h.success hsucceeded).finished fence hfence).mono hc.executor.answers }
  uncommitted := fun hnone call hcall => by
    cases hcommits : call.commits ticket.id with
    | false => rfl
    | true =>
      have hold := (hc.executor.mem_calls (ResourceCall.isSettlement_of_commits hcommits)).mp hcall
      exact hcommits.symm.trans (h.uncommitted hnone call hold)
  committed := fun hsome => by
    rcases h.committed hsome with ⟨heard, hcall⟩
    exact ⟨heard, (hc.executor.mem_calls rfl).mpr hcall⟩
  unretired := fun call hcall => by
    cases hretires : call.retires ticket.id with
    | false => rfl
    | true =>
      have hold := (hc.executor.mem_calls (ResourceCall.isSettlement_of_retires hretires)).mp hcall
      exact hretires.symm.trans (h.unretired call hold)
  published := by
    rw [hc.publications]
    exact h.published
  adds := h.adds.still hc

end

theorem keeps {alpha : Type} {x : CoordinatorM world alpha}
    (hx : forall start, Keeps (Still start) x) :
    Keeps (Settling first ticket committed next) x := by
  intro c h
  exact wp_mono (hx c c h.once.ready.still) (fun _ _ h' => h.still h')
    fun _ _ h' => ⟨h.still h'.1, trivial⟩

end Settling

theorem Once.call (h : Once c) {call} (w : world)
    (hspent : forall id, call.commits id = true ∨ call.retires id = true -> Spent c.executor id)
    (hcommit : forall id, call.commits id = true ->
      forall old, old ∈ c.executor.calls -> old.commits id = false)
    (hretire : forall id, call.retires id = true ->
      forall old, old ∈ c.executor.calls -> old.retires id = false)
    (hquiet : forall ticket heard, call = .commit ticket heard ->
      Succeeded ticket heard) : Once { c with executor :=
      { c.executor with calls := c.executor.calls ++ [call], world := w } } := by
  have hcount : forall (kind : ResourceCall -> Bool), c.executor.calls.countP kind ≤ 1 ->
      (kind call = true -> forall old, old ∈ c.executor.calls -> kind old = false) ->
        (c.executor.calls ++ [call]).countP kind ≤ 1 := by
    intro kind hold hfirst
    rw [List.countP_append, List.countP_singleton]
    split
    next hkind =>
      rw [List.countP_eq_zero.mpr fun old hmem => by simp [hfirst hkind old hmem]]
    next => exact hold
  refine ⟨⟨h.ready.sound.of_eq rfl rfl (List.Subset.refl _), h.ready.heap,
      ⟨h.ready.bound.issued, h.ready.bound.slices⟩⟩, fun id => ?_, fun id => ?_,
    fun id old hold hid => ?_, fun ticket heard hold => ?_, h.publish_once, fun p hp => ?_,
    h.output⟩
  · exact hcount _ (h.commit_once id) (hcommit id)
  · exact hcount _ (h.retire_once id) (hretire id)
  · rcases List.mem_append.mp hold with hold | hnew
    · exact ⟨(h.called id old hold hid).issued, (h.called id old hold hid).settling⟩
    · rw [List.mem_singleton.mp hnew] at hid
      exact ⟨(hspent id hid).issued, (hspent id hid).settling⟩
  · rcases List.mem_append.mp hold with hold | hnew
    · exact h.quiet ticket heard hold
    · exact hquiet ticket heard (List.mem_singleton.mp hnew).symm
  · rcases h.published p hp with ⟨hspent', href, ticket, heard, outcome, samples, horigin⟩
    exact ⟨⟨hspent'.issued, hspent'.settling⟩, href, ticket, heard, outcome, samples,
      { horigin with committed := List.mem_append_left _ horigin.committed }⟩

namespace Settling

variable {first : CompletionCoordinator world} {ticket : ExecutionTicket} {next : Nat}
  {c : CompletionCoordinator world}

theorem commit (h : Settling first ticket false next c) (hsucceeded : ticket.hasSucceeded = true)
    (w : world) :
    Settling first ticket true next { c with executor := { c.executor with
      calls := c.executor.calls ++ [.commit ticket c.executor.answers], world := w } } := by
  have hid : forall id, (ResourceCall.commit ticket c.executor.answers).commits id = true ->
      ticket.id = id := fun id hcommits => of_decide_eq_true hcommits
  refine ⟨h.once.call w ?_ ?_ ?_ ?_, ⟨h.spent.issued, h.spent.settling⟩, h.success,
    (fun hfalse => nomatch hfalse), fun _ => ⟨c.executor.answers, by simp⟩, ?_, h.published,
    h.adds.call (fun other hother => ?_) w⟩
  · intro id hkind
    rw [<- hid id (hkind.resolve_right fun hretires => nomatch hretires)]
    exact h.spent
  · intro id hcommits
    rw [<- hid id hcommits]
    exact h.uncommitted rfl
  · intro id hretires
    cases hretires
  · intro _ _ heq
    cases heq
    exact h.success hsucceeded
  · intro call hcall
    rcases List.mem_append.mp hcall with hold | hnew
    · exact h.unretired call hold
    · rw [List.mem_singleton.mp hnew]
      rfl
  · simp [ResourceCall.settles, ResourceCall.commits, ResourceCall.retires, Ne.symm hother]

theorem retire {committed : Bool} (h : Settling first ticket committed next c) (w : world) :
    Once { c with executor := { c.executor with
      calls := c.executor.calls ++ [.retire ticket], world := w } } := by
  have hid : forall id, (ResourceCall.retire ticket).retires id = true -> ticket.id = id :=
    fun id hretires => of_decide_eq_true hretires
  refine h.once.call w ?_ ?_ ?_ ?_
  · intro id hkind
    rw [<- hid id (hkind.resolve_left fun hcommits => nomatch hcommits)]
    exact h.spent
  · intro id hcommits
    cases hcommits
  · intro id hretires
    rw [<- hid id hretires]
    exact h.unretired
  · intro _ _ heq
    cases heq

/-- The tokens go to the request and to the record at once. -/
theorem publish (h : Settling first ticket true next c) (hterminal : ticket.terminal = some outcome)
    (hsamples : outcome.samples = some samples) (hslice : next < ticket.prepared.step.slices.length)
    (hemits : Emits ticket.prepared.step samples next tokens)
    (hlc : c.requests.heap.slot ref = some lc)
    (hcell : Steady lc.request (lc.outputTokenIds ++ tokens.map Int.toNat) cell) :
    Settling first ticket true (next + 1) { c with
      requests := c.requests.store ref cell
      publications := c.publications ++
        [{ ticket := ticket.id, sliceIndex := next, ref, tokens }] } := by
  rcases h.committed rfl with ⟨heard, hcall⟩
  let p : Publication := { ticket := ticket.id, sliceIndex := next, ref, tokens }
  have horigin : Origin c.executor.calls p ticket heard outcome samples :=
    ⟨hcall, rfl, hterminal, hsamples, hslice, hemits⟩
  have hheap := h.once.ready.heap
  have hspent : Spent c.executor p.ticket ∧ p.ref < c.requests.nextRef
      ∧ exists ticket heard outcome samples,
        Origin c.executor.calls p ticket heard outcome samples :=
    ⟨h.spent, hheap.below ref lc hlc, ticket, heard, outcome, samples, horigin⟩
  have honce : Once { c with
      requests := c.requests.store ref cell, publications := c.publications ++ [p] } := by
    refine ⟨⟨h.once.ready.sound, hheap.store hlc hcell.coherent,
        ⟨h.once.ready.bound.issued, h.once.ready.bound.slices⟩⟩, h.once.commit_once,
      h.once.retire_once, h.once.called, h.once.quiet, ?_, fun q hq => ?_, fun ref' lc' hlc' => ?_⟩
    · rw [List.map_append]
      refine List.nodup_append.mpr ⟨h.once.publish_once, List.nodup_singleton _, ?_⟩
      intro key hold _ hnew heq
      rcases List.mem_map.mp hold with ⟨q, hq, rfl⟩
      have hsame : q.key = p.key := heq.trans (List.mem_singleton.mp hnew)
      have hlt := h.published q hq (congrArg Prod.fst hsame)
      rw [show q.sliceIndex = next from congrArg Prod.snd hsame] at hlt
      exact Nat.lt_irrefl _ hlt
    · rcases List.mem_append.mp hq with hold | hnew
      · exact h.once.published q hold
      · rw [List.mem_singleton.mp hnew]
        exact hspent
    · rw [slot_store, Function.update_apply] at hlc'
      show lc'.outputTokenIds = outputOf (c.publications ++ [p]) ref'
      rw [outputOf_append]
      split at hlc'
      next heq =>
        rw [heq, if_pos rfl, <- h.once.output ref lc hlc, <- Option.some.inj hlc']
        exact hcell.output
      next hne =>
        rw [if_neg (Ne.symm hne), List.append_nil]
        exact h.once.output ref' lc' hlc'
  refine ⟨honce, h.spent, h.success, h.uncommitted, h.committed, h.unretired,
    fun q hq hid => ?_,
    ⟨h.adds.others, h.adds.spent, h.adds.publications.trans (List.prefix_append _ _)⟩⟩
  rcases List.mem_append.mp hq with hold | hnew
  · exact Nat.lt_succ_of_lt (h.published q hold hid)
  · rw [List.mem_singleton.mp hnew]
    exact Nat.lt_succ_self _

end Settling

/-! ## The settlement -/

section Settlement

variable {first : CompletionCoordinator world} {ticket : ExecutionTicket} {next : Nat}
  {c : CompletionCoordinator world} {outcome : TerminalOutcome} {samples : SampleOutputs}
  (env : Surroundings world) {tokens : List Int}

section

variable (h : Settling first ticket true next c)
include h

section

variable (hterminal : ticket.terminal = some outcome) (hsamples : outcome.samples = some samples)
variable (hslice : next < ticket.prepared.step.slices.length)
include hterminal hsamples hslice

theorem wp_publish (ref : LifecycleRef) {x}
    (hemits : Emits ticket.prepared.step samples next tokens)
    (hx : forall request output cell, Steady request output cell ->
      Wp x (fun _ cell' => Steady request (output ++ tokens.map Int.toNat) cell')
        (fun _ cell' => Steady request output cell') cell) : Wp (do
        onRequest ref x
        notePublication { ticket := ticket.id, sliceIndex := next, ref, tokens })
      (fun _ c' => Settling first ticket true (next + 1) c')
      (fun _ c' => Settling first ticket true next c') c := by
  rw [wp_bind]
  unfold onRequest onRequests
  rw [wp_zoom]
  refine wp_onRequest (fun _ _ => h) fun lc hlc => ?_
  have hsteady : Steady lc.request lc.outputTokenIds
      { lifecycle := lc, nextEpoch := c.requests.nextEpoch } :=
    ⟨h.once.ready.heap.coherent ref lc hlc, rfl, rfl⟩
  refine wp_mono (hx _ _ _ hsteady) (fun _ cell hcell => ?_) fun _ cell hcell => ?_
  · exact h.publish hterminal hsamples hslice hemits hlc hcell
  · have hquiet := h.once.ready.heap.quiet.store hlc hcell
    exact h.still ⟨h.once.ready.sound.follows, hquiet,
      ⟨h.once.ready.bound.issued, h.once.ready.bound.slices⟩, rfl⟩

theorem wp_publishEmission (hemits : Emits ticket.prepared.step samples next tokens)
    (binding : Binding) (version : Nat) (progress : Progress) :
    Wp (publishEmission ticket next binding tokens version progress)
      (fun _ c' => Settling first ticket true (next + 1) c')
      (fun _ c' => Settling first ticket true next c') c := by
  refine wp_then (Settling.keeps (fun _ => ask_keeps binding.1 _) c h) (fun lc c1 h1 => ?_)
    fun _ _ h1 => h1.1
  have hpublish := wp_publish h1 hterminal hsamples hslice binding.1 hemits
    fun request output cell hcell => wp_mono
      (wp_commitSpeculativeRange ticket.prepared.step.stepId binding.2 tokens version hcell)
      (fun _ _ h' => h'.2) fun _ _ h' => h'
  rw [wp_bind] at hpublish ⊢
  refine wp_mono hpublish (fun _ c2 h2 => ?_) fun _ _ h2 => h2
  exact wp_seq h2 fun _ _ h3 => h3

theorem wp_publishOrdinary (binding : Binding) {sample : Option Int}
    (hsample : forall token, sample = some token ->
      samples.tokenIds[sampleIndex ticket.prepared.step.slices next]? = some token) (version : Nat)
    (progress : Progress) : Wp (publishOrdinary env ticket next binding sample version progress)
      (fun _ c' => Settling first ticket true (next + 1) c')
      (fun _ c' => Settling first ticket true next c') c := by
  refine keeps_wp_bind (Settling.keeps fun _ => onRequest_keeps _ fun _ _ =>
    commitComputedRange_keeps _ _ _) h (fun _ c1 h1 => ?_) fun _ _ h' => h'
  cases sample with
  | none => exact h1.skip
  | some token =>
    refine keeps_wp_bind (Settling.keeps fun _ => accepts_keeps env _ binding) h1
      (fun live c2 h2 => ?_) fun _ _ h' => h'
    cases live with
    | false => exact h2.skip
    | true =>
      refine keeps_wp_bind (Settling.keeps fun _ => receiveSignals_keeps env) h2
        (fun _ c3 h3 => ?_) fun _ _ h' => h'
      refine keeps_wp_bind (Settling.keeps fun _ => ask_keeps binding.1 _) h3
        (fun requestId c4 h4 => ?_) fun _ _ h' => h'
      have hemits : Emits ticket.prepared.step samples next [token] :=
        ⟨token, hsample token rfl, .inl rfl⟩
      have hpublish := wp_publish h4 hterminal hsamples hslice binding.1 hemits
        fun request output cell hcell => wp_mono
          (wp_publishSample ticket.prepared.step.stepId binding.2 token hcell)
          (fun _ _ h' => h'.2) fun _ _ h' => h'
      rw [wp_bind] at hpublish
      show Wp (onRequest binding.1 _ >>= _) _ _ c4
      refine wp_seq hpublish fun _ c5 h5 => ?_
      exact wp_seq h5 fun _ _ h6 => h6

end

theorem wp_ignoreSlice (binding : Binding) (cancel : Bool) (progress : Progress) :
    Wp (ignoreSlice env ticket binding cancel progress)
      (fun _ c' => Settling first ticket true next c')
      (fun _ c' => Settling first ticket true next c') c :=
  wp_mono (Settling.keeps (fun _ => ignoreSlice_keeps env ticket binding cancel progress) c h)
    (fun _ _ h' => h') fun _ _ h' => h'.1

end

section Slice

variable (hterminal : ticket.terminal = some outcome) (hsamples : outcome.samples = some samples)
  (hslice : next < ticket.prepared.step.slices.length)
  {settlement : Option SpeculativeSettlement}
  (hemitted : forall tokens, settlement.bind (fun s => s.emittedAt next) = some tokens ->
    Emits ticket.prepared.step samples next tokens)
  (binding : Binding) {sample : Option Int}
  (hsample : forall token, sample = some token ->
    samples.tokenIds[sampleIndex ticket.prepared.step.slices next]? = some token)
  (version : Nat) (progress : Progress)

include hterminal hsamples hslice hemitted hsample

theorem wp_publishSlice (h : Settling first ticket true next c) :
    Wp (publishSlice env ticket settlement next binding sample version progress)
      (fun _ c' => Settling first ticket true (next + 1) c')
      (fun _ c' => Settling first ticket true (next + 1) c') c := by
  unfold publishSlice
  rw [wp_tryCatch]
  have hhandler : forall (exc : Failure) c1, Settling first ticket true next c1 -> Wp
      (do
        if exc.isValueError && (<- invalidated env binding) then
          let next <- ignoreSlice env ticket binding false progress
          pure (false, next)
        else
          throw exc)
      (fun _ c' => Settling first ticket true (next + 1) c')
      (fun _ c' => Settling first ticket true (next + 1) c') c1 := by
    intro exc c1 h1
    refine keeps_wp_bind (Settling.keeps fun _ => invalidated_keeps env binding) h1
      (fun ended c2 h2 => ?_) fun _ _ h' => h'.skip
    refine wp_if (fun _ => ?_) fun _ => h2.skip
    rw [wp_bind]
    exact wp_ignoreSlice env h2.skip binding false progress
  cases hfound : settlement.bind (fun s => s.emittedAt next) with
  | some tokens =>
    exact wp_then (wp_publishEmission h hterminal hsamples hslice (hemitted tokens hfound) binding
      version progress) (fun _ _ h' => h') fun exc c1 h1 => hhandler exc c1 h1
  | none =>
    exact wp_then
      (wp_publishOrdinary env h hterminal hsamples hslice binding hsample version progress)
      (fun _ _ h' => h') fun exc c1 h1 => hhandler exc c1 h1

theorem wp_settleSlice (h : Settling first ticket true next c) :
    Wp (settleSlice env ticket settlement next binding sample version progress)
      (fun _ c' => Settling first ticket true (next + 1) c')
      (fun _ c' => Settling first ticket true (next + 1) c') c := by
  refine keeps_wp_bind (Settling.keeps fun _ => accepts_keeps env _ binding) h
    (fun live c1 h1 => ?_) fun _ _ h' => h'.skip
  cases live with
  | false => exact wp_ignoreSlice env h1.skip binding false progress
  | true =>
    refine keeps_wp_bind (Settling.keeps fun _ => receiveSignals_keeps env) h1
      (fun _ c2 h2 => ?_) fun _ _ h' => h'.skip
    refine wp_seq
      (wp_publishSlice env hterminal hsamples hslice hemitted binding hsample version progress h2)
      fun done c3 h3 => ?_
    refine keeps_wp_bind (Settling.keeps fun _ => receiveSignals_keeps env) h3
      (fun _ c4 h4 => ?_) fun _ _ h' => h'
    refine keeps_wp_bind (Settling.keeps fun _ => ask_keeps binding.1 _) h4
      (fun ended c5 h5 => ?_) fun _ _ h' => h'
    rw [wp_ite]
    exact ⟨fun _ => wp_ignoreSlice env h5 binding true done.2, fun _ => h5⟩

end Slice

theorem sampleIndex_succ (h : slices[next]? = some scheduled) :
    sampleIndex slices (next + 1)
      = sampleIndex slices next + if scheduled.sampleLastQuery = true then 1 else 0 := by
  unfold sampleIndex
  rw [List.take_add_one, h, List.filter_append, List.length_append]
  cases hsampling : scheduled.sampleLastQuery with
  | true => simp [hsampling]
  | false => simp [hsampling]

/-- The loop from a slice on, with the sampling rows before it counted. -/
theorem wp_settleSlices (hterminal : ticket.terminal = some outcome)
    (hsamples : outcome.samples = some samples) {settlement}
    (hemitted : forall index tokens, settlement.bind (fun s => s.emittedAt index) = some tokens ->
      Emits ticket.prepared.step samples index tokens)
    (rest : List (Binding × Nat)) (progress : Progress) (h : Settling first ticket true next c)
    (hrest : (rest.map fun bound => bound.1.2) <+: ticket.prepared.step.slices.drop next) :
    Wp (settleSlices env ticket settlement samples.tokenIds next
        (sampleIndex ticket.prepared.step.slices next) rest progress)
      (fun _ c' => exists last, Settling first ticket true last c')
      (fun _ c' => exists last, Settling first ticket true last c') c := by
  induction rest generalizing next c progress with
  | nil => exact ⟨next, h⟩
  | cons bound later ih =>
    rcases bound with ⟨binding, version⟩
    rcases hrest with ⟨tail, htail⟩
    have hhead : ticket.prepared.step.slices[next]? = some binding.2 := by
      rw [<- List.head?_drop, <- htail]
      rfl
    have hslice : next < ticket.prepared.step.slices.length :=
      (List.getElem?_eq_some_iff.mp hhead).1
    have hlater : (later.map fun bound => bound.1.2)
        <+: ticket.prepared.step.slices.drop (next + 1) := by
      refine ⟨tail, ?_⟩
      rw [<- List.tail_drop, <- htail]
      rfl
    have hcount := sampleIndex_succ hhead
    unfold settleSlices
    by_cases hsampling : binding.2.sampleLastQuery = true
    · rw [if_pos hsampling]
      rw [if_pos hsampling] at hcount
      split
      next => exact ⟨next, h⟩
      next sample hsample =>
        rw [wp_bind, <- hcount]
        refine wp_mono (wp_settleSlice env hterminal hsamples hslice (hemitted next) binding
          (fun token htoken => ?_) version progress h) (fun progress' c1 h1 => ?_)
          fun _ _ h1 => ⟨next + 1, h1⟩
        · rw [<- htoken]
          exact hsample
        · exact ih progress' h1 hlater
    · rw [if_neg hsampling]
      rw [if_neg hsampling] at hcount
      have hsame : sampleIndex ticket.prepared.step.slices (next + 1)
          = sampleIndex ticket.prepared.step.slices next := hcount
      rw [wp_bind, <- hsame]
      refine wp_mono (wp_settleSlice env hterminal hsamples hslice (hemitted next) binding
        (fun token (htoken : none = some token) => nomatch htoken) version progress h)
        (fun progress' c1 h1 => ?_) fun _ _ h1 => ⟨next + 1, h1⟩
      exact ih progress' h1 hlater

/-! ### Drafts -/

def Emitted (step : BatchStepPlan) (samples : SampleOutputs) (settlement : SpeculativeSettlement) :
    Prop :=
  forall entry, entry ∈ settlement.emitted -> Emits step samples entry.1 entry.2

variable {step : BatchStepPlan}

theorem Emitted.emittedAt {settlement} (h : Emitted step samples settlement) {index : Nat}
    (hfound : settlement.emittedAt index = some tokens) : Emits step samples index tokens := by
  rcases Option.map_eq_some_iff.mp hfound with ⟨entry, hentry, htokens⟩
  have hindex : entry.1 = index := by simpa using List.find?_some hentry
  have hemits := h entry (List.mem_of_find?_eq_some hentry)
  rw [hindex, htokens] at hemits
  exact hemits

section

variable {committed : Bool} (h : Settling first ticket committed next c) (limit : PublicationLimit)
include h

theorem wp_settleDrafts (bindings : List Binding) {plan : SpeculativeSlicePlan}
    (hplan : plan ∈ step.speculative) (count : Int) {settlement : SpeculativeSettlement}
    (hemitted : Emitted step samples settlement) :
    Wp (settleDrafts env limit step bindings samples.tokenIds plan count settlement)
      (fun later c' => Settling first ticket committed next c' ∧ Emitted step samples later)
      (fun _ c' => Settling first ticket committed next c') c := by
  refine wp_if (fun _ => h) fun _ => ?_
  split
  next => exact h
  next binding _ =>
    refine keeps_wp_bind (Settling.keeps fun _ => accepts_keeps env _ binding) h
      (fun live c1 h1 => ?_) fun _ _ h' => h'
    cases live with
    | false => exact ⟨h1, hemitted⟩
    | true =>
      show Wp (query _ >>= _) _ _ c1
      refine wp_query_bind (fun token htoken => ?_) fun _ _ => h1
      have hsample : samples.tokenIds[sampleIndex step.slices plan.sliceIndex]? = some token := by
        cases hget : samples.tokenIds[sampleIndex step.slices plan.sliceIndex]? with
        | none => rw [hget] at htoken; cases htoken
        | some found => rw [hget] at htoken; exact congrArg some (Except.ok.inj htoken)
      refine keeps_wp_bind (Settling.keeps fun _ => ask_keeps binding.1 _) h1
        (fun lc c2 h2 => ?_) fun _ _ h' => h'
      rw [wp_bind, wp_query]
      refine ⟨fun keep _ => ⟨h2, ?_⟩, fun _ _ => h2⟩
      intro entry hentry
      rcases List.mem_append.mp hentry with hold | hnew
      · exact hemitted entry hold
      · rw [List.mem_singleton.mp hnew]
        exact ⟨token, hsample, .inr ⟨plan, count.toNat, keep, hplan, rfl, rfl⟩⟩

theorem wp_settleAllDrafts (bindings : List Binding) (plans : List SpeculativeSlicePlan)
    (hplans : plans ⊆ step.speculative) (counts : List Int)
    (hemitted : Emitted step samples settlement) :
    Wp (settleAllDrafts env limit step bindings samples.tokenIds plans counts settlement)
      (fun later c' => Settling first ticket committed next c' ∧ Emitted step samples later)
      (fun _ c' => Settling first ticket committed next c') c := by
  induction plans generalizing counts settlement c with
  | nil =>
    cases counts with
    | nil => exact ⟨h, hemitted⟩
    | cons count counts => exact h
  | cons plan plans ih =>
    cases counts with
    | nil => exact h
    | cons count counts =>
      refine wp_seq
        (wp_settleDrafts env h limit bindings (hplans List.mem_cons_self) count hemitted)
        fun later c1 h1 => ?_
      exact ih h1.1 (fun p hp => hplans (List.mem_cons_of_mem _ hp)) counts h1.2

theorem wp_speculativeSettlement (step : BatchStepPlan) (bindings : List Binding) :
    Wp (speculativeSettlement env limit step bindings samples)
      (fun later c' => Settling first ticket committed next c' ∧ Emitted step samples later)
      (fun _ c' => Settling first ticket committed next c') c := by
  unfold speculativeSettlement
  split
  next => exact h
  next speculative _ =>
    exact wp_settleAllDrafts env h limit bindings step.speculative (fun _ hp => hp) _
      fun entry hentry => nomatch hentry

theorem wp_draftSettlement (step : BatchStepPlan) (bindings : List Binding) :
    Wp (draftSettlement env limit step bindings samples)
      (fun later c' => Settling first ticket committed next c' ∧ forall index tokens,
        later.bind (fun s => s.emittedAt index) = some tokens -> Emits step samples index tokens)
      (fun _ c' => Settling first ticket committed next c') c := by
  unfold draftSettlement
  rw [wp_ite]
  refine ⟨fun _ => ⟨h, fun _ _ hnone => nomatch hnone⟩, fun _ => ?_⟩
  refine wp_seq (wp_speculativeSettlement env h limit step bindings) fun later c1 h1 => ?_
  exact ⟨h1.1, fun index tokens hfound => h1.2.emittedAt hfound⟩

end

/-! ### One outcome -/

theorem wp_commitResources (h : Settling first ticket false next c)
    (hsucceeded : ticket.hasSucceeded = true) (written : Option (List Nat)) :
    Wp (commitResources env ticket written) (fun _ c' => Settling first ticket true next c')
      (fun _ c' => Settling first ticket true next c') c := by
  unfold commitResources onExecutor callResources
  rw [wp_bind, wp_get, wp_zoom, wp_bind, wp_modify]
  exact wp_outside (fun _ w => h.commit hsucceeded w) fun _ w => h.commit hsucceeded w

theorem validateBinding_keeps (stepId : Nat) (binding : Binding) :
    Keeps (Still first) (validateBinding env stepId binding) := by
  refine Maintains.bind (accepts_keeps env stepId binding) fun _ => ?_
  refine Maintains.ite ?_ (maintains_pure _)
  refine Maintains.bind (receiveSignals_keeps env) fun _ => ?_
  refine keeps_tryCatch (onRequest_keeps binding.1 fun _ _ => keeps_query _) fun exc => ?_
  refine Maintains.bind (invalidated_keeps env binding) fun _ => ?_
  exact Maintains.ite (maintains_pure _) (maintains_throw trivial)

theorem wp_settleSuccess (limit : PublicationLimit) (bindings : List Binding)
    (h : Settling first ticket false 0 c) (hterminal : ticket.terminal = some outcome)
    (hstatus : outcome.status = .succeeded)
    (hbindings : bindings.map Prod.snd = ticket.prepared.step.slices) :
    Wp (settleSuccess env limit ticket outcome bindings)
      (fun _ c' => exists committed last, Settling first ticket committed last c')
      (fun _ c' => exists committed last, Settling first ticket committed last c') c := by
  have hsucceeded : ticket.hasSucceeded = true := by
    unfold ExecutionTicket.hasSucceeded
    rw [hterminal]
    exact decide_eq_true hstatus
  refine keeps_wp_bind (Settling.keeps fun _ => Maintains.forM fun binding _ =>
    validateBinding_keeps env _ binding) h (fun _ c1 h1 => ?_) fun _ _ h' => ⟨false, 0, h'⟩
  cases hsamples : outcome.samples with
  | none => exact ⟨false, 0, h1⟩
  | some samples =>
    refine wp_then (wp_draftSettlement env h1 limit ticket.prepared.step bindings)
      (fun settlement c2 h2 => ?_) fun _ _ h2 => ⟨false, 0, h2⟩
    refine wp_then (wp_commitResources env h2.1 hsucceeded _) (fun versions c3 h3 => ?_)
      fun _ _ h3 => ⟨true, 0, h3⟩
    refine wp_if (fun _ => ⟨true, 0, h3⟩) fun hversions => ?_
    split
    next => exact ⟨true, 0, h3⟩
    next =>
      have hlength : bindings.length ≤ versions.length := by
        rw [not_not.mp hversions, List.length_map]
      have hrest : ((bindings.zip versions).map fun bound => bound.1.2)
          <+: ticket.prepared.step.slices.drop 0 := by
        rw [List.drop_zero, <- hbindings, show (fun bound : Binding × Nat => bound.1.2)
          = Prod.snd ∘ Prod.fst from rfl, <- List.map_map, List.map_fst_zip hlength]
      exact wp_mono (wp_settleSlices env hterminal hsamples h2.2 _ {} h3 hrest)
        (fun _ _ h4 => ⟨true, h4⟩) fun _ _ h4 => ⟨true, h4⟩

theorem settleFailure_keeps (ticket : ExecutionTicket) (outcome : TerminalOutcome)
    (bindings : List Binding) (progress : Progress) :
    Keeps (Still first) (settleFailure env ticket outcome bindings progress) := by
  induction bindings generalizing progress with
  | nil => exact maintains_pure _
  | cons binding rest ih =>
    refine Maintains.bind (discard_keeps env ticket binding _ _) fun _ => ?_
    exact Maintains.bind (ask_keeps binding.1 _) fun requestId => ih _

theorem wp_settleOutcome (limit : PublicationLimit) (bindings : List Binding)
    (h : Settling first ticket false 0 c) (hterminal : ticket.terminal = some outcome)
    (hbindings : bindings.map Prod.snd = ticket.prepared.step.slices) :
    Wp (settleOutcome env limit ticket outcome bindings)
      (fun _ c' => exists committed last, Settling first ticket committed last c')
      (fun _ c' => exists committed last, Settling first ticket committed last c') c := by
  refine wp_if (fun hstatus => ?_) fun _ => ?_
  · exact wp_settleSuccess env limit bindings h hterminal hstatus hbindings
  · exact wp_mono (Settling.keeps (fun _ => settleFailure_keeps env ticket outcome bindings {})
      c h) (fun _ _ h' => ⟨false, 0, h'⟩) fun _ _ h' => ⟨false, 0, h'.1⟩

structure Done (first : CompletionCoordinator world) (id : TicketId)
    (c : CompletionCoordinator world) : Prop where
  once : Once c
  spent : Spent c.executor id
  adds : Adds first id c

theorem Done.still {id : TicketId} {c' : CompletionCoordinator world} (h : Done first id c)
    (hc : Still c c') : Done first id c' :=
  ⟨h.once.still hc, h.spent.follows hc.executor, h.adds.still hc⟩

theorem Done.keeps {id : TicketId} {alpha : Type} {x : CoordinatorM world alpha}
    (hx : forall start, Keeps (Still start) x) : Keeps (Done first id) x := by
  intro c h
  exact wp_mono (hx c c h.once.ready.still) (fun _ _ h' => h.still h')
    fun _ _ h' => ⟨h.still h'.1, trivial⟩

/-- A settlement, returned or raised, leaves the ticket spent. -/
theorem wp_settle (limit : PublicationLimit) (bindings : List Binding)
    (h : Settling first ticket false 0 c) (hterminal : ticket.terminal = some outcome)
    (hbindings : bindings.map Prod.snd = ticket.prepared.step.slices) :
    Wp (settle env limit ticket outcome bindings)
      (fun _ c' => Done first ticket.id c') (fun _ c' => Done first ticket.id c') c := by
  refine wp_then (wp_settleOutcome env limit bindings h hterminal hbindings)
    (fun progress c1 h1 => ?_) fun _ c1 h1 => ?_
  · rcases h1 with ⟨committed, last, h1⟩
    have hretired : forall w, Done first ticket.id { c1 with executor := { c1.executor with
        calls := c1.executor.calls ++ [.retire ticket], world := w } } :=
      fun w => ⟨h1.retire w, ⟨h1.spent.issued, h1.spent.settling⟩,
        h1.adds.call (fun other hother => by
          simp [ResourceCall.settles, ResourceCall.commits, ResourceCall.retires, Ne.symm hother])
          w⟩
    unfold onExecutor callResources
    rw [wp_bind, wp_zoom, wp_bind, wp_modify]
    refine wp_outside (fun _ w => ?_) fun _ w => hretired w
    refine keeps_wp_bind (Done.keeps fun _ => onExecutor_keeps fun _ =>
      completeRetirement_keeps ticket.id) (hretired w) (fun _ c2 h2 => ?_) fun _ _ h' => h'
    refine keeps_wp_bind (Done.keeps fun _ => onExecutor_keeps fun _ =>
      acknowledgeRetired_keeps ticket.id) h2 (fun _ c3 h3 => ?_) fun _ _ h' => h'
    exact h3.still (h3.once.ready.still.unbind ticket.id)
  · rcases h1 with ⟨committed, last, h1⟩
    exact ⟨h1.once, h1.spent, h1.adds⟩

end Settlement

end Completion
end Ayaka
