import Ayaka.Request.Lifecycle

/-!
# Output streams

The owner thread puts the events of a request, or of a family of parallel samples, into
a bounded stream that a consumer reads on another thread.  A full stream refuses an
event; the next settlement closes it and lets it go.

Every access to a stream is under its lock, so the two threads meet between accesses
only: a call of the owner that accesses the stream twice is two steps.  One stream is
modelled from its attachment on.  Waiting, and what is published for other ids, leave
nothing behind.  What was published and what the consumer got are recorded for the
proofs only.
-/

namespace Ayaka
namespace Runtime

open Request (FinishReason)
open Executor

structure OutputEvent where
  requestId : String
  eventIndex : Nat
  finishReason : Option FinishReason := none
  deriving DecidableEq

/-- `none` among the events is the terminal marker. -/
structure OutputStream where
  limit : Nat
  events : List (Option OutputEvent) := []
  overflowed : Bool := false
  deriving DecidableEq

namespace OutputStream

/-- `self._events[-1] is _CLOSED`. -/
def closed (stream : OutputStream) : Bool :=
  stream.events.getLast? == some none

def put (stream : OutputStream) (event : OutputEvent) : Bool × OutputStream :=
  if stream.closed then
    (true, stream)
  else if stream.events.length ≥ stream.limit then
    (false, { stream with overflowed := true })
  else
    (true, { stream with events := stream.events ++ [some event] })

def close (stream : OutputStream) : OutputStream :=
  if stream.closed then stream else { stream with events := stream.events ++ [none] }

end OutputStream

structure Delivery where
  requestId : String
  childIds : List String
  stream : OutputStream
  attached : Bool := true
  /-- The id is in `_overflowed`. -/
  marked : Bool := false
  /-- The owner has put a terminal event and is about to close the stream. -/
  closing : Bool := false
  published : List OutputEvent := []
  /-- What `next_event` gave so far; `none` is `StopAsyncIteration`. -/
  got : List (Option OutputEvent) := []
  deriving DecidableEq

namespace Delivery

/-- `on_output_event`, up to its first access to the stream. -/
def onOutputEvent (d : Delivery) (event : OutputEvent) : Delivery :=
  let child := event.requestId ≠ d.requestId
  if child ∧ event.requestId ∉ d.childIds then
    d
  else
    let d := { d with published := d.published ++ [event] }
    if d.attached then
      let (accepted, stream) := d.stream.put event
      { d with
        stream := stream
        marked := d.marked || !accepted
        closing := event.finishReason.isSome ∧ ¬ child }
    else
      d

/-- `drop`, after the stream was closed. -/
def closeAndDrop (d : Delivery) : Delivery :=
  { d with stream := d.stream.close, attached := false, marked := false }

/-- One pass of `_settle`; `terminal` when the request, or all of the family, has ended. -/
def settle (d : Delivery) (terminal : Bool) : Delivery :=
  if d.marked then
    d.closeAndDrop
  else if terminal then
    if d.stream.overflowed then { d with attached := false } else d.closeAndDrop
  else
    d

/-- `next_event`; it waits while there is nothing. -/
def nextEvent (d : Delivery) : Delivery :=
  match d.stream.events with
  | [] => d
  | event :: rest =>
    { d with stream := { d.stream with events := rest }, got := d.got ++ [event] }

end Delivery

inductive Access where
  | publish (event : OutputEvent)
  /-- The rest of `on_output_event` after a terminal event. -/
  | finish
  | settle (terminal : Bool)
  /-- `_fail_stragglers`, when the façade closes. -/
  | failStragglers
  | next
  deriving DecidableEq

namespace Delivery

/-- The owner starts nothing new while a call of it is under way. -/
def step (d : Delivery) : Access -> Delivery
  | .publish event => if d.closing then d else d.onOutputEvent event
  | .finish =>
    if d.closing then { d with stream := d.stream.close, closing := false } else d
  | .settle terminal => if d.closing || !d.attached then d else d.settle terminal
  | .failStragglers => if d.closing || !d.attached then d else d.closeAndDrop
  | .next => d.nextEvent

/-- What a run must meet at each step: while the stream has room and no marker at its
end, an event is put into it only if none was refused and the consumer was not told the
end. -/
def Admits (d : Delivery) : Access -> Prop
  | .publish _ =>
    d.attached = true -> d.stream.closed = false -> d.stream.events.length < d.stream.limit ->
      d.stream.overflowed = false ∧ none ∉ d.got
  | _ => True

def Meets : Delivery -> List Access -> Prop
  | _, [] => True
  | d, step :: rest => d.Admits step ∧ (d.step step).Meets rest

/-- The consumer has a prefix of what was published, and nothing after the end. -/
structure Unbroken (d : Delivery) : Prop where
  read : d.got.filterMap id <+: d.published
  ended : d.got.Pairwise fun before after => before = none -> after = none

/-- The books of a stream: `read` was read, `queued` waits, and the consumer was told the
end `ends` times. -/
structure Booked (d : Delivery) (read queued : List OutputEvent) (ends : Nat) (closed : Bool) :
    Prop where
  got : d.got = read.map some ++ List.replicate ends none
  events : d.stream.events = queued.map some ++ if closed then [none] else []
  ended : ends ≠ 0 -> queued = []
  inOrder : read ++ queued <+: d.published
  whole : d.attached = true -> d.stream.overflowed = false -> ends = 0 -> closed = false ->
    read ++ queued = d.published

def Sound (d : Delivery) : Prop :=
  exists read queued ends closed, d.Booked read queued ends closed

section

variable {d : Delivery} {read queued : List OutputEvent} {ends : Nat} {closed : Bool}
variable (h : d.Booked read queued ends closed)
include h

theorem Booked.unbroken : d.Unbroken where
  read := by
    have hread : d.got.filterMap id = read := by
      rw [h.got]
      simp
    rw [hread]
    exact (List.prefix_append _ _).trans h.inOrder
  ended := by
    rw [h.got, List.pairwise_append]
    simp [List.pairwise_replicate, List.pairwise_map, List.pairwise_of_forall]

theorem Booked.closed_eq : d.stream.closed = closed := by
  unfold OutputStream.closed
  rw [h.events]
  cases closed with
  | false =>
    rw [if_neg Bool.false_ne_true, List.append_nil, List.getLast?_map]
    cases queued.getLast? <;> rfl
  | true => simp

theorem Booked.close (attached marked closing : Bool) :
    Sound ⟨d.requestId, d.childIds, d.stream.close, attached, marked, closing, d.published,
      d.got⟩ := by
  refine ⟨read, queued, ends, true, h.got, ?_, h.ended, h.inOrder, fun _ _ _ hopen => nomatch hopen⟩
  have hevents := h.events
  unfold OutputStream.close
  rw [h.closed_eq]
  cases closed with
  | false => exact congrArg (· ++ [none]) (hevents.trans (List.append_nil _))
  | true => exact hevents

theorem Booked.next : d.nextEvent.Sound := by
  unfold nextEvent
  have hevents := h.events
  cases queued with
  | cons event rest =>
    have hends : ends = 0 := by_contra fun hne => nomatch h.ended hne
    subst hends
    rw [hevents]
    refine ⟨read ++ [event], rest, 0, closed, ?_, rfl, fun hne => absurd rfl hne, ?_, ?_⟩
    · simp [h.got]
    · simpa using h.inOrder
    · simpa using h.whole
  | nil =>
    rw [hevents]
    cases closed with
    | false => exact ⟨read, [], ends, false, h⟩
    | true =>
      refine ⟨read, [], ends + 1, false, ?_, rfl, fun _ => rfl, h.inOrder, ?_⟩
      · show d.got ++ [none] = _
        rw [h.got, List.replicate_succ', List.append_assoc]
      · exact fun _ _ hzero => nomatch hzero

theorem Booked.onOutputEvent (hadmits : d.Admits (.publish event)) :
    (d.onOutputEvent event).Sound := by
  have hlater : read ++ queued <+: d.published ++ [event] :=
    h.inOrder.trans (List.prefix_append _ _)
  have hclosed := h.closed_eq
  unfold Delivery.onOutputEvent OutputStream.put
  dsimp only
  split
  · exact ⟨read, queued, ends, closed, h⟩
  · split
    · next hattached =>
        split
        · next hend =>
            subst hclosed
            refine ⟨read, queued, ends, _, h.got, h.events, h.ended, hlater, fun _ _ _ hopen => ?_⟩
            cases hend.symm.trans hopen
        · next hopen =>
            split
            · exact ⟨read, queued, ends, closed, h.got, h.events, h.ended, hlater,
                fun _ hnone => nomatch hnone⟩
            · next hroom =>
                have hopen := Bool.eq_false_of_not_eq_true hopen
                rcases hadmits hattached hopen (Nat.not_le.mp hroom) with ⟨hkept, hgot⟩
                have hends : ends = 0 := by
                  rw [h.got] at hgot
                  by_contra hne
                  exact hgot (List.mem_append_right _ (List.mem_replicate.mpr ⟨hne, rfl⟩))
                have hsame : read ++ (queued ++ [event]) = d.published ++ [event] := by
                  rw [<- List.append_assoc, h.whole hattached hkept hends (hclosed ▸ hopen)]
                refine ⟨read, queued ++ [event], ends, closed, h.got, ?_,
                  fun hne => absurd hends hne,
                  hsame ▸ List.prefix_refl _, fun _ _ _ _ => hsame⟩
                rw [h.events, <- hclosed, hopen]
                simp
    · next hdetached =>
        exact ⟨read, queued, ends, closed, h.got, h.events, h.ended, hlater,
          fun hin => absurd hin hdetached⟩

theorem Booked.detached : Sound { d with attached := false } :=
  ⟨read, queued, ends, closed, h.got, h.events, h.ended, h.inOrder, fun hin => nomatch hin⟩

end

variable {d : Delivery}

theorem Sound.step {step : Access} (h : d.Sound) (hadmits : d.Admits step) :
    (d.step step).Sound := by
  rcases h with ⟨read, queued, ends, closed, hbooked⟩
  have hsame : d.Sound := ⟨read, queued, ends, closed, hbooked⟩
  cases step with
  | publish event =>
    simp only [Delivery.step]
    split
    · exact hsame
    · exact hbooked.onOutputEvent hadmits
  | finish =>
    simp only [Delivery.step]
    split
    · exact hbooked.close _ _ _
    · exact hsame
  | settle terminal =>
    simp only [Delivery.step, Delivery.settle]
    split
    · exact hsame
    · split
      · exact hbooked.close _ _ _
      · split
        · split
          · exact hbooked.detached
          · exact hbooked.close _ _ _
        · exact hsame
  | failStragglers =>
    simp only [Delivery.step]
    split
    · exact hsame
    · exact hbooked.close _ _ _
  | next => exact hbooked.next

theorem Sound.run (h : d.Sound) (hmeets : d.Meets steps) : (steps.foldl Delivery.step d).Sound := by
  induction steps generalizing d with
  | nil => exact h
  | cons step rest ih => exact ih (h.step hmeets.1) hmeets.2

/-- `attach`, and `attach_parallel` where there are children. -/
def attach (requestId : String) (childIds : List String) (limit : Nat) :
    Except Failure Delivery := do
  reject (limit < 1) (.valueError "stream limit must be at least 1")
  pure { requestId := requestId, childIds := childIds, stream := { limit := limit } }

theorem attach_unbroken {requestId : String} {childIds : List String} {limit : Nat}
    (hattach : attach requestId childIds limit = Except.ok d) {steps : List Access}
    (hmeets : d.Meets steps) : (steps.foldl Delivery.step d).Unbroken := by
  have hstart : d.Sound := by
    cases (check_bind_eq_ok_iff.mp hattach).2
    exact ⟨[], [], 0, false, rfl, rfl, fun hne => absurd rfl hne, List.prefix_refl _,
      fun _ _ _ _ => rfl⟩
  rcases hstart.run hmeets with ⟨_, _, _, _, hbooked⟩
  exact hbooked.unbroken

theorem room_after_refusal : exists d, attach "a" [] 1 = Except.ok d ∧
    let event index := Access.publish ⟨"a", index, none⟩
    ¬ ([event 0, event 1, Access.next, event 2, Access.next].foldl
      Delivery.step d).Unbroken := by
  refine ⟨_, rfl, fun h => ?_⟩
  have hread := h.read
  revert hread
  decide

theorem attach_unbroken_refused : exists d, attach "a" [] 1 = Except.ok d ∧
    let event index := Access.publish ⟨"a", index, none⟩
    ([event 0, event 1, Access.settle false, Access.next].foldl Delivery.step d).Unbroken :=
  ⟨_, rfl, attach_unbroken (rfl : attach "a" [] 1 = _)
    ⟨fun _ _ _ => by decide, fun _ _ hroom => absurd hroom (by decide), trivial, trivial, trivial⟩⟩

end Delivery
end Runtime
end Ayaka
