import Ayaka.Foundation.Guarded
import Ayaka.Foundation.Ring
import Ayaka.Sched.Budget

/-!
# The decode ring

Running requests stand in a dense ring.  A decode round walks the ring from the
cursor and plans the eligible requests it meets until the budget is spent.  While the
plan is prepared it can be narrowed and requests can leave; once it is adopted, the
cursor moves past the last request it serves.  A request that leaves gives its place to
the last one of the ring.
-/

namespace Ayaka
namespace Sched

open Foundation

/-- `_running_ids` and `_decode_cursor`; `_running_index` is the place of an id in the
ring. -/
structure DecodeRing where
  runningIds : List RequestId
  decodeCursor : Nat
  nodup : runningIds.Nodup
  cursor_lt : decodeCursor < max 1 runningIds.length

/-- The loop of `_append_decodes` over the requests in the order it meets them: the
requests it admits, with the budget they leave. -/
def admitDecodes {request : Type} (eligible : request -> Bool) :
    BatchBudget -> List request -> BatchBudget × List request
  | budget, [] => (budget, [])
  | budget, next :: rest =>
    if eligible next then
      match budget.tryConsume 1 .decode true with
      | none => (budget, [])
      | some left =>
        let admitted := admitDecodes eligible left rest
        (admitted.1, next :: admitted.2)
    else
      admitDecodes eligible budget rest

/-- The loop admits the first eligible requests, as many as the budget allows. -/
theorem admitDecodes_eq {request : Type} (eligible : request -> Bool) (budget : BatchBudget)
    (requests : List request) :
    exists n, (admitDecodes eligible budget requests).2 = (requests.filter eligible).take n := by
  induction requests generalizing budget with
  | nil => exact ⟨0, rfl⟩
  | cons next rest ih =>
    unfold admitDecodes
    cases hnext : eligible next with
    | false =>
      rcases ih budget with ⟨n, hn⟩
      exact ⟨n, by simpa [hnext] using hn⟩
    | true =>
      cases hleft : budget.tryConsume 1 .decode true with
      | none => exact ⟨0, by simp⟩
      | some left =>
        rcases ih left with ⟨n, hn⟩
        exact ⟨n + 1, by simp [hnext, hn]⟩

/-- What `_prepare_and_adopt` does with a plan that the runtime refuses. -/
inductive Refusal where
  /-- `_shrink_transient` takes away the last request of a pure decode plan. -/
  | narrow
  /-- `fail_request` after a permanent refusal, or `_try_preempt_one`: the request leaves
  the ring and the plan. -/
  | drop (requestId : RequestId)

def Refusal.dropped : Refusal -> Option RequestId
  | narrow => none
  | drop requestId => some requestId

/-- What one round depends on: the requests it passes over (those in flight), the budget,
and how its plan is refused before it is adopted. -/
structure Round where
  inflight : List RequestId
  budget : BatchBudget
  refusals : List Refusal

namespace Round

def eligible (round : Round) (requestId : RequestId) : Bool :=
  decide (requestId ∉ round.inflight)

/-- The requests that leave between the walk and the adoption. -/
def dropped (round : Round) : List RequestId :=
  round.refusals.filterMap Refusal.dropped

end Round

namespace DecodeRing

/-- The requests in the order `_append_decodes` meets them. -/
def walk (ring : DecodeRing) : List RequestId :=
  ring.runningIds.rotate ring.decodeCursor

/-- `_advance_decode_cursor`, given the requests of the decode slices. -/
def advanceDecodeCursor (ring : DecodeRing) (served : List RequestId) : DecodeRing :=
  match served.getLast? with
  | none => ring
  | some requestId =>
    match hfound : ring.runningIds.idxOf? requestId with
    | none => ring
    | some index =>
      { ring with
        decodeCursor := (index + 1) % ring.runningIds.length
        cursor_lt := by
          rcases List.idxOf?_eq_some_iff.mp hfound with ⟨hlt, _⟩
          exact lt_max_of_lt_right (Nat.mod_lt _ (Nat.zero_lt_of_lt hlt)) }

/-- `_running_remove`, both classes. -/
def runningRemove (ring : DecodeRing) (requestId : RequestId) : DecodeRing :=
  match hfound : ring.runningIds.idxOf? requestId with
  | none =>
    { ring with
      decodeCursor := ring.decodeCursor % max 1 ring.runningIds.length
      cursor_lt := Nat.mod_lt _ (by omega) }
  | some index =>
    let last := ring.runningIds.length - 1
    let cursor := if index ≠ last ∧ ring.decodeCursor = last then index else ring.decodeCursor
    let ids := swapRemove ring.runningIds index
    { runningIds := ids
      decodeCursor := cursor % max 1 ids.length
      nodup := (List.nodup_cons.mp
        ((perm_swapRemove ring.nodup hfound).nodup_iff.mp ring.nodup)).2
      cursor_lt := Nat.mod_lt _ (by omega) }

/-- The ring and the requests of the decode slices after one refusal. -/
def refuse (prepared : DecodeRing × List RequestId) : Refusal -> DecodeRing × List RequestId
  | .narrow => (prepared.1, prepared.2.dropLast)
  | .drop requestId =>
    (prepared.1.runningRemove requestId, prepared.2.filter fun id => decide (id ≠ requestId))

def prepare (ring : DecodeRing) (round : Round) : DecodeRing × List RequestId :=
  round.refusals.foldl refuse (ring, (admitDecodes round.eligible round.budget ring.walk).2)

def decodes (ring : DecodeRing) (round : Round) : List RequestId :=
  (ring.prepare round).2

def adopt (ring : DecodeRing) (round : Round) : DecodeRing :=
  (ring.prepare round).1.advanceDecodeCursor (ring.decodes round)

variable {ring : DecodeRing} {id : RequestId}

theorem mem_walk : id ∈ ring.walk <-> id ∈ ring.runningIds :=
  List.mem_rotate

theorem nodup_walk (ring : DecodeRing) : ring.walk.Nodup :=
  List.nodup_rotate.mpr ring.nodup

/-- The walk starts behind the request that was served last. -/
theorem walk_advance (hwalk : ring.walk = front ++ y :: back) (served : List RequestId) :
    (ring.advanceDecodeCursor (served ++ [y])).walk = back ++ (front ++ [y]) := by
  have hmem : y ∈ ring.runningIds := by
    rw [<- mem_walk, hwalk]
    simp
  unfold advanceDecodeCursor
  simp only [List.getLast?_concat]
  split
  · rename_i hnone
    exact absurd hmem (List.idxOf?_eq_none_iff.mp hnone)
  · rename_i index hfound
    rcases List.idxOf?_eq_some_iff.mp hfound with ⟨hlt, hget, _⟩
    exact (List.rotate_mod _ _).trans
      (rotate_past ring.nodup hwalk (List.getElem?_eq_some_iff.mpr ⟨hlt, hget⟩))

theorem runningIds_advance (ring : DecodeRing) (served : List RequestId) :
    (ring.advanceDecodeCursor served).runningIds = ring.runningIds := by
  unfold advanceDecodeCursor
  split
  · rfl
  · split
    · rfl
    · rfl

/-!
## Departures
-/

theorem mem_runningRemove :
    id ∈ (ring.runningRemove requestId).runningIds <-> id ∈ ring.runningIds ∧ id ≠ requestId := by
  unfold runningRemove
  split
  · rename_i hnone
    have habsent := List.idxOf?_eq_none_iff.mp hnone
    refine (and_iff_left_of_imp fun hmem => ?_).symm
    rintro rfl
    exact habsent hmem
  · rename_i index hfound
    have hperm := perm_swapRemove ring.nodup hfound
    have hnodup := List.nodup_cons.mp (hperm.nodup_iff.mp ring.nodup)
    rw [hperm.mem_iff, List.mem_cons]
    constructor
    · intro hmem
      refine ⟨.inr hmem, ?_⟩
      rintro rfl
      exact hnodup.1 hmem
    · rintro ⟨heq | hmem, hne⟩
      · exact absurd heq hne
      · exact hmem

theorem runningRemove_absent (h : requestId ∉ ring.runningIds) :
    ring.runningRemove requestId = ring := by
  unfold runningRemove
  split
  · have hcursor : ring.decodeCursor % max 1 ring.runningIds.length = ring.decodeCursor :=
      Nat.mod_eq_of_lt ring.cursor_lt
    simp only [hcursor]
  · rename_i hfound
    exact absurd (List.idxOf?_eq_none_iff.mpr h) (by rw [hfound]; simp)

/-- The refusals take requests out of the ring one by one, and leave a first part of the
plan without them. -/
theorem foldl_refuse (refusals : List Refusal) (ring : DecodeRing) (slices : List RequestId) :
    (refusals.foldl refuse (ring, slices)).1 =
        (refusals.filterMap Refusal.dropped).foldl runningRemove ring ∧
      exists front, front <+: slices ∧ (refusals.foldl refuse (ring, slices)).2 =
        front.filter fun id => decide (id ∉ refusals.filterMap Refusal.dropped) := by
  induction refusals generalizing ring slices with
  | nil => exact ⟨rfl, slices, List.prefix_rfl, by simp⟩
  | cons refusal rest ih =>
    cases refusal with
    | narrow =>
      rcases ih ring slices.dropLast with ⟨hring, front, hfront, hslices⟩
      exact ⟨hring, front, hfront.trans (List.dropLast_prefix slices), hslices⟩
    | drop requestId =>
      rcases ih (ring.runningRemove requestId) (slices.filter fun id => decide (id ≠ requestId))
        with ⟨hring, front, hfront, hslices⟩
      rcases List.prefix_filter_iff.mp hfront with ⟨front', hfront', rfl⟩
      refine ⟨hring, front', hfront', hslices.trans ?_⟩
      have hcons : (Refusal.drop requestId :: rest).filterMap Refusal.dropped =
          requestId :: rest.filterMap Refusal.dropped := rfl
      rw [List.filter_filter, hcons]
      refine List.filter_congr fun id _ => ?_
      simp only [List.mem_cons, not_or, Bool.decide_and]
      exact Bool.and_comm ..

theorem mem_foldl_runningRemove (dropped : List RequestId) (ring : DecodeRing) :
    id ∈ (dropped.foldl runningRemove ring).runningIds <->
      id ∈ ring.runningIds ∧ id ∉ dropped := by
  induction dropped generalizing ring with
  | nil => simp
  | cons requestId rest ih =>
    rw [List.foldl_cons, ih, mem_runningRemove, List.mem_cons, not_or, and_assoc]

theorem mem_prepare {round : Round} : id ∈ (ring.prepare round).1.runningIds <->
    id ∈ ring.runningIds ∧ id ∉ round.dropped := by
  unfold prepare
  rw [(foldl_refuse ..).1]
  exact mem_foldl_runningRemove ..

/-- A round serves the first eligible requests, without those that left. -/
theorem decodes_eq (ring : DecodeRing) (round : Round) :
    exists front, front <+: ring.walk.filter round.eligible ∧
      ring.decodes round = front.filter fun id => decide (id ∉ round.dropped) := by
  rcases admitDecodes_eq round.eligible round.budget ring.walk with ⟨n, hn⟩
  rcases (foldl_refuse round.refusals ring
    (admitDecodes round.eligible round.budget ring.walk).2).2 with ⟨front, hfront, hdecodes⟩
  rw [hn] at hfront
  exact ⟨front, hfront.trans (List.take_prefix ..), hdecodes⟩

theorem prepare_undropped {round : Round}
    (h : forall id, id ∈ round.dropped -> id ∉ ring.runningIds) :
    (ring.prepare round).1 = ring := by
  unfold prepare
  rw [(foldl_refuse ..).1]
  change round.dropped.foldl runningRemove ring = ring
  generalize round.dropped = dropped at h
  induction dropped with
  | nil => rfl
  | cons requestId rest ih =>
    rw [List.foldl_cons, runningRemove_absent (h requestId List.mem_cons_self)]
    exact ih fun id hid => h id (List.mem_cons_of_mem _ hid)

/-- How far a round reads the ring and where it leaves the cursor, if no request leaves. -/
theorem decodes_cases {round : Round}
    (h : forall id, id ∈ round.dropped -> id ∉ ring.runningIds) :
    ring.decodes round = [] ∨ exists passed ahead, ring.walk = passed ++ ahead ∧
      ring.decodes round = passed.filter round.eligible ∧
      (ring.adopt round).walk = ahead ++ passed := by
  rcases ring.decodes_eq round with ⟨served, hinitial, hserved⟩
  have hall : ring.decodes round = served := by
    rw [hserved, List.filter_eq_self]
    intro id hid
    refine decide_eq_true fun hdropped => h id hdropped ?_
    exact mem_walk.mp (List.mem_filter.mp (hinitial.subset hid)).1
  have htaken := hall.trans (List.prefix_iff_eq_take.mp hinitial)
  unfold adopt
  rw [prepare_undropped h]
  rcases take_filter_split round.eligible ring.walk served.length with
    hnone | ⟨front, y, back, hwalk, htake, hy⟩
  · exact .inl (htaken.trans hnone)
  · have hfront := htaken.trans htake
    refine .inr ⟨front ++ [y], back, hwalk.trans (by simp), ?_, ?_⟩
    · rw [hfront, List.filter_append, List.filter_singleton, hy]
      rfl
    · rw [hfront]
      exact walk_advance hwalk _

theorem walk_runningRemove (h : ring.runningIds.idxOf? id = some index) :
    (ring.runningRemove id).walk = (swapRemove ring.runningIds index).rotate
      (if index ≠ ring.runningIds.length - 1 ∧ ring.decodeCursor = ring.runningIds.length - 1 then
        index
      else
        ring.decodeCursor) := by
  unfold runningRemove
  split
  · rename_i hnone
    rw [h] at hnone
    cases hnone
  · rename_i found hfound
    rw [h] at hfound
    cases hfound
    exact rotate_mod_max _ _

/-- The turns before a departure are kept when the moved request does not pass a request
of the other kind. -/
theorem servedLast_remove {served : RequestId -> Prop} (h : ServedLast served ring.walk)
    (hkeeps : forall front back moved, ring.runningIds = front ++ id :: (back ++ [moved]) ->
      (ring.decodeCursor ≤ front.length -> served moved -> forall x, x ∈ back -> served x) ∧
      (front.length < ring.decodeCursor -> ring.decodeCursor < ring.runningIds.length - 1 ->
        forall x, x ∈ front -> served x -> served moved) ∧
      (ring.decodeCursor = ring.runningIds.length - 1 ->
        forall x, x ∈ back -> served x -> forall y, y ∈ front -> served y)) :
    ServedLast served (ring.runningRemove id).walk := by
  have hcursor := ring.cursor_lt
  cases hfound : ring.runningIds.idxOf? id with
  | none =>
    have hsame : (ring.runningRemove id).walk = ring.walk := by
      unfold runningRemove
      split
      · exact rotate_mod_max _ _
      · rename_i hsome
        rw [hfound] at hsome
        cases hsome
    rw [hsame]
    exact h
  | some index =>
    rw [walk_runningRemove hfound]
    unfold walk at h
    rcases swapRemove_cases ring.nodup hfound with
      ⟨front, hids, rfl⟩ | ⟨front, back, moved, hids, rfl⟩
    · rw [hids] at h hcursor ⊢
      have hle : ring.decodeCursor ≤ front.length := by simp at hcursor; omega
      rcases split_at hle with ⟨near, far, rfl, hnear⟩
      rw [List.append_assoc, rotate_append hnear] at h
      rw [swapRemove_last, if_neg (by simp), rotate_append hnear]
      rw [List.append_assoc] at h
      exact h.leave
    · rcases hkeeps front back moved hids with ⟨hforward, hbackward, haround⟩
      rw [hids] at h hcursor hbackward haround ⊢
      simp only [List.length_append, List.length_cons, List.length_nil, lt_sup_iff] at hcursor
      rw [swapRemove_inside]
      -- The moved request is next, or the freed place lies ahead of or behind the cursor.
      by_cases hnext : ring.decodeCursor = (front ++ id :: (back ++ [moved])).length - 1
      · have hlength : ring.decodeCursor = (front ++ id :: back).length := by
          rw [hnext]
          simp
        have hsplit : front ++ id :: (back ++ [moved]) = (front ++ id :: back) ++ [moved] := by
          simp
        rw [hsplit, rotate_append hlength] at h
        rw [if_pos ⟨by simp, hnext⟩, rotate_append rfl]
        exact h.around (haround hnext)
      · rw [if_neg (fun hboth => hnext hboth.2)]
        by_cases hahead : ring.decodeCursor ≤ front.length
        · rcases split_at hahead with ⟨near, far, rfl, hnear⟩
          rw [List.append_assoc, rotate_append hnear] at h
          rw [List.append_assoc, rotate_append hnear]
          simp only [List.append_assoc, List.cons_append, List.nil_append] at h ⊢
          exact h.forward (hforward hahead)
        · have hbehind : ring.decodeCursor - front.length - 1 ≤ back.length := by
            simp at hnext
            omega
          rcases split_at hbehind with ⟨near, far, rfl, hnear⟩
          have hlength : ring.decodeCursor = (front ++ id :: near).length := by
            simp
            omega
          have hlength' : ring.decodeCursor = (front ++ moved :: near).length := by
            simp
            omega
          have hsplit : front ++ id :: (near ++ far ++ [moved]) =
              (front ++ id :: near) ++ (far ++ [moved]) := by simp
          have hsplit' : front ++ moved :: (near ++ far) = (front ++ moved :: near) ++ far := by
            simp
          rw [hsplit, rotate_append hlength] at h
          rw [hsplit', rotate_append hlength']
          simp only [List.append_assoc, List.cons_append, List.nil_append] at h ⊢
          refine h.backward (hbackward (by omega) ?_)
          simp at hnext ⊢
          omega

end DecodeRing

/-!
## Rounds and departures
-/

inductive RingEvent where
  /-- A round is adopted and serves the requests of its decode slices. -/
  | round (round : Round)
  /-- A request finishes, fails or is aborted. -/
  | leave (requestId : RequestId)

structure RingRun where
  ring : DecodeRing
  rounds : List (List RequestId)

namespace RingRun

def start (ring : DecodeRing) : RingRun :=
  { ring, rounds := [] }

def served (run : RingRun) : List RequestId :=
  run.rounds.flatten

def step (run : RingRun) : RingEvent -> RingRun
  | .round round =>
    { ring := run.ring.adopt round, rounds := run.rounds ++ [run.ring.decodes round] }
  | .leave requestId => { run with ring := run.ring.runningRemove requestId }

/-- A round serves `slots` requests, or all when fewer are running, and no request that
waits for its first turn is passed over. -/
def Serves (slots : Nat) (run : RingRun) : RingEvent -> Prop
  | .round round =>
    (run.ring.decodes round).length = min slots (run.ring.prepare round).1.runningIds.length ∧
      forall id, id ∈ run.ring.runningIds -> id ∉ run.served -> id ∉ round.inflight
  | .leave _ => True

instance (slots : Nat) (run : RingRun) : (event : RingEvent) -> Decidable (run.Serves slots event)
  | .round .. => inferInstanceAs (Decidable (_ ∧ _))
  | .leave _ => inferInstanceAs (Decidable True)

/-- The request moved into the place of one that leaves does not mix up the turns.  When
one leaves during a round, the cursor is to come where the requests that still wait stand
before the served ones. -/
def KeepsTurns (run : RingRun) : RingEvent -> Prop
  | .round round =>
    (exists id, id ∈ round.dropped ∧ id ∈ run.ring.runningIds) ->
      ServedLast (fun id => id ∈ run.served ++ run.ring.decodes round) (run.ring.adopt round).walk
  | .leave requestId => forall front back moved,
      run.ring.runningIds = front ++ requestId :: (back ++ [moved]) ->
        (run.ring.decodeCursor ≤ front.length -> moved ∈ run.served ->
          forall id, id ∈ back -> id ∈ run.served) ∧
        (front.length < run.ring.decodeCursor ->
          run.ring.decodeCursor < run.ring.runningIds.length - 1 ->
            forall id, id ∈ front -> id ∈ run.served -> moved ∈ run.served) ∧
        (run.ring.decodeCursor = run.ring.runningIds.length - 1 ->
          forall id, id ∈ back -> id ∈ run.served ->
            forall other, other ∈ front -> other ∈ run.served)

/-- Every request that is still running was served within the rounds its ring takes, and
while one waits for its first turn no request was served twice. -/
def ServedInTurn (first : DecodeRing) (slots : Nat) (run : RingRun) : Prop :=
  let turns := (first.runningIds.length + slots - 1) / slots
  (turns ≤ run.rounds.length ->
    forall id, id ∈ run.ring.runningIds -> id ∈ (run.rounds.take turns).flatten) ∧
  ((exists id, id ∈ run.ring.runningIds ∧ id ∉ run.served) -> run.served.Nodup)

def waiting (run : RingRun) : List RequestId :=
  run.ring.runningIds.filter fun id => decide (id ∉ run.served)

theorem mem_waiting {run : RingRun} {id} :
    id ∈ run.waiting <-> id ∈ run.ring.runningIds ∧ id ∉ run.served := by
  simp [waiting]

/-- The requests that wait stand before the served ones in the walk, and each round has
taken its share of them. -/
structure Turns (first : DecodeRing) (slots : Nat) (run : RingRun) : Prop where
  order : ServedLast (fun id => id ∈ run.served) run.ring.walk
  counted : run.waiting ≠ [] -> run.waiting.length + run.rounds.length * slots ≤
    first.runningIds.length
  served : run.ServedInTurn first slots

section Steps

variable {first : DecodeRing} {slots : Nat} {run : RingRun} {id : RequestId}

/-- A round that leaves a request waiting has served waiting requests only. -/
theorem Turns.round_waiting (h : Turns first slots run) {round : Round}
    (hserves : run.Serves slots (.round round)) (hid : id ∈ run.waiting)
    (hstays : id ∉ round.dropped) (hleft : id ∉ run.ring.decodes round) :
    (run.ring.decodes round).Nodup ∧ forall other, other ∈ run.ring.decodes round ->
      other ∈ run.waiting ∧ other ∉ round.dropped := by
  have hwaits := mem_waiting.mp hid
  rcases run.ring.decodes_eq round with ⟨front, ⟨back, hsplit⟩, hserved⟩
  have hnodup := run.ring.nodup_walk.filter round.eligible
  have horder : ServedLast (fun id => id ∈ run.served) (run.ring.walk.filter round.eligible) :=
    h.order.sublist List.filter_sublist
  have hplanned : id ∈ run.ring.walk.filter round.eligible :=
    List.mem_filter.mpr ⟨DecodeRing.mem_walk.mpr hwaits.1,
      decide_eq_true (hserves.2 id hwaits.1 hwaits.2)⟩
  rw [<- hsplit] at hnodup horder hplanned
  rw [hserved] at hleft ⊢
  have hback : id ∈ back := by
    refine (List.mem_append.mp hplanned).resolve_left fun hfront => hleft ?_
    exact List.mem_filter.mpr ⟨hfront, decide_eq_true hstays⟩
  refine ⟨(List.nodup_append.mp hnodup).1.filter _, fun other hother => ?_⟩
  rcases List.mem_filter.mp hother with ⟨hfront, hkept⟩
  have hmem : other ∈ run.ring.walk.filter round.eligible := by
    rw [<- hsplit]
    exact List.mem_append_left _ hfront
  refine ⟨mem_waiting.mpr ⟨?_, fun hsooner => hwaits.2 ?_⟩, of_decide_eq_true hkept⟩
  · exact DecodeRing.mem_walk.mp (List.mem_filter.mp hmem).1
  · exact (List.pairwise_append.mp horder).2.2 other hfront id hback hsooner

theorem served_round (run : RingRun) (round : Round) :
    (run.step (.round round)).served = run.served ++ run.ring.decodes round := by
  simp [step, served]

theorem mem_running_round {round : Round} :
    id ∈ (run.step (.round round)).ring.runningIds <->
      id ∈ run.ring.runningIds ∧ id ∉ round.dropped := by
  change id ∈ ((run.ring.prepare round).1.advanceDecodeCursor _).runningIds <-> _
  rw [DecodeRing.runningIds_advance, DecodeRing.mem_prepare]

theorem mem_waiting_round {round : Round} :
    id ∈ (run.step (.round round)).waiting <->
      id ∈ run.waiting ∧ id ∉ round.dropped ∧ id ∉ run.ring.decodes round := by
  rw [mem_waiting, mem_waiting, served_round, List.mem_append, not_or, mem_running_round]
  tauto

theorem nodup_waiting (run : RingRun) : run.waiting.Nodup :=
  run.ring.nodup.filter _

section

variable (h : Turns first slots run)
include h

section

variable {round : Round} (hserves : run.Serves slots (RingEvent.round round))
include hserves

theorem Turns.round_order (hkeeps : run.KeepsTurns (.round round)) :
    ServedLast (fun id => id ∈ (run.step (.round round)).served)
      (run.step (.round round)).ring.walk := by
  simp only [served_round]
  change ServedLast _ (run.ring.adopt round).walk
  by_cases hdrops : exists id, id ∈ round.dropped ∧ id ∈ run.ring.runningIds
  · exact hkeeps hdrops
  · have hstay : forall id, id ∈ round.dropped -> id ∉ run.ring.runningIds :=
      fun id hdropped hmem => hdrops ⟨id, hdropped, hmem⟩
    simp only [List.mem_append]
    rcases DecodeRing.decodes_cases hstay with hnone | ⟨_, _, hwalk, hserved, hnext⟩
    · unfold DecodeRing.adopt
      simpa [hnone, DecodeRing.advanceDecodeCursor, DecodeRing.prepare_undropped hstay]
        using h.order
    · have hnodup := run.ring.nodup_walk
      have horder := h.order
      rw [hwalk] at hnodup horder
      rw [hnext, hserved]
      refine horder.pass ?_ ?_
      · intro id hid
        by_cases hsooner : id ∈ run.served
        · exact .inl hsooner
        · have hmem : id ∈ run.ring.runningIds := by
            rw [<- DecodeRing.mem_walk, hwalk]
            exact List.mem_append_left _ hid
          exact .inr (List.mem_filter.mpr ⟨hid, decide_eq_true (hserves.2 id hmem hsooner)⟩)
      · intro id hid
        refine or_iff_left fun hnow => ?_
        exact (List.nodup_append.mp hnodup).2.2 id (List.mem_filter.mp hnow).1 id hid rfl

/-- A round that leaves a request waiting has taken as many as it has slots. -/
theorem Turns.round_counted (hid : id ∈ (run.step (.round round)).waiting) :
    (run.step (.round round)).waiting.length + slots ≤ run.waiting.length := by
  rcases mem_waiting_round.mp hid with ⟨hwaits, hstays, hleft⟩
  rcases h.round_waiting hserves hwaits hstays hleft with ⟨hnodup, hsub⟩
  have hfull : (run.ring.decodes round).length = slots := by
    rw [hserves.1]
    refine Nat.min_eq_left (Nat.le_of_not_lt fun hfew => hleft ?_)
    have hall := (hnodup.subperm fun other hother => DecodeRing.mem_prepare.mpr
      ⟨(mem_waiting.mp (hsub other hother).1).1, (hsub other hother).2⟩).perm_of_length_le
        (by rw [hserves.1]; omega)
    exact hall.mem_iff.mpr (DecodeRing.mem_prepare.mpr ⟨(mem_waiting.mp hwaits).1, hstays⟩)
  have hboth : (run.ring.decodes round ++ (run.step (.round round)).waiting).Nodup := by
    refine List.nodup_append.mpr ⟨hnodup, nodup_waiting _, ?_⟩
    intro other hother _ hsame heq
    exact (mem_waiting_round.mp hsame).2.2 (heq ▸ hother)
  have hwithin : run.ring.decodes round ++ (run.step (.round round)).waiting ⊆ run.waiting :=
    fun other hother =>
      (List.mem_append.mp hother).elim (fun h => (hsub other h).1) fun h =>
        (mem_waiting_round.mp h).1
  have hle := (hboth.subperm hwithin).length_le
  rw [List.length_append, hfull] at hle
  omega

end

theorem Turns.round (hslots : 1 ≤ slots) {round : Round}
    (hserves : run.Serves slots (.round round)) (hkeeps : run.KeepsTurns (.round round)) :
    Turns first slots (run.step (.round round)) := by
  have hrounds : (run.step (.round round)).rounds = run.rounds ++ [run.ring.decodes round] := rfl
  have hcounted : forall id, id ∈ (run.step (.round round)).waiting ->
        (run.step (.round round)).waiting.length +
          (run.rounds.length + 1) * slots ≤ first.runningIds.length := by
    intro id hid
    have _ := h.counted (List.ne_nil_of_mem (mem_waiting_round.mp hid).1)
    have hround := h.round_counted hserves hid
    rw [Nat.succ_mul]
    omega
  refine ⟨h.round_order hserves hkeeps, ?_, ?_, ?_⟩
  · intro hwaiting
    rcases List.exists_mem_of_ne_nil _ hwaiting with ⟨id, hid⟩
    rw [hrounds, List.length_append, List.length_singleton]
    exact hcounted id hid
  · intro hturns id hid
    rw [hrounds, List.length_append, List.length_singleton] at hturns
    rw [hrounds]
    rcases Nat.lt_or_ge run.rounds.length ((first.runningIds.length + slots - 1) / slots) with
      hlast | hearlier
    · -- This is the last of the rounds the ring takes, so nobody can wait after it.
      rw [List.take_of_length_le (by simpa using hlast)]
      by_contra hmissing
      have hwaits : id ∈ (run.step (.round round)).waiting := mem_waiting.mpr ⟨hid, hmissing⟩
      have hle := hcounted id hwaits
      have hpos := List.length_pos_of_mem hwaits
      have hdiv := Nat.div_add_mod (first.runningIds.length + slots - 1) slots
      have hmod := Nat.mod_lt (first.runningIds.length + slots - 1) hslots
      have hmul := Nat.mul_le_mul_right slots hturns
      rw [Nat.mul_comm] at hdiv
      omega
    · rw [List.take_append_of_le_length hearlier]
      exact h.served.1 hearlier id (mem_running_round.mp hid).1
  · rintro ⟨id, hid, hmissing⟩
    rcases mem_waiting_round.mp (mem_waiting.mpr ⟨hid, hmissing⟩) with ⟨hwaits, hstays, hleft⟩
    rcases h.round_waiting hserves hwaits hstays hleft with ⟨hnodup, hsub⟩
    rw [served_round]
    refine List.nodup_append.mpr ⟨h.served.2 ⟨id, mem_waiting.mp hwaits⟩, hnodup, ?_⟩
    intro _ hother same hsame heq
    exact (mem_waiting.mp (hsub same hsame).1).2 (heq ▸ hother)

theorem Turns.leave {requestId} (hkeeps : run.KeepsTurns (.leave requestId)) :
    Turns first slots (run.step (.leave requestId)) := by
  have hsub : forall id, id ∈ (run.step (.leave requestId)).ring.runningIds ->
      id ∈ run.ring.runningIds := fun id hid => (DecodeRing.mem_runningRemove.mp hid).1
  have hwaiting : (run.step (.leave requestId)).waiting ⊆ run.waiting := by
    intro id hid
    have hwaits := mem_waiting.mp hid
    exact mem_waiting.mpr ⟨hsub id hwaits.1, hwaits.2⟩
  refine ⟨DecodeRing.servedLast_remove h.order hkeeps, ?_, ?_, ?_⟩
  · intro hleft
    rcases List.exists_mem_of_ne_nil _ hleft with ⟨id, hid⟩
    have hbefore := h.counted (List.ne_nil_of_mem (hwaiting hid))
    have hle := ((nodup_waiting _).subperm hwaiting).length_le
    exact le_trans (Nat.add_le_add_right hle _) hbefore
  · intro hturns id hid
    exact h.served.1 hturns id (hsub id hid)
  · rintro ⟨id, hid, hmissing⟩
    exact h.served.2 ⟨id, hsub id hid, hmissing⟩

end

end Steps

end RingRun

end Sched
end Ayaka
