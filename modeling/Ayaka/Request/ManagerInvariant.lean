import Ayaka.Request.LifecycleInvariant

/-!
# Tokens of all requests

Request objects are never dropped from the heap, stay coherent, and between
publications keep their output.  `Quiet first m` says so for everything that may
happen between two registries `first` and `m` without a publication.
-/

namespace Ayaka
namespace Request

open Foundation Sched Executor
open LifecycleManager (applyOne cancel create forget get new onRequest rollback)
open Function (update update_apply)

/-- Every object is coherent and was entered under a reference handed out. -/
structure HeapOk (m : LifecycleManager) : Prop where
  coherent : forall ref lc, m.heap.slot ref = some lc -> Coherent lc
  below : forall ref lc, m.heap.slot ref = some lc -> ref < m.nextRef

theorem new_heapOk : HeapOk new where
  coherent := fun _ _ h => nomatch h
  below := fun _ _ h => nomatch h

theorem slot_store (m : LifecycleManager) (ref : LifecycleRef) (c : Cell) :
    (m.store ref c).heap.slot = update m.heap.slot ref (some c.lifecycle) :=
  rfl

theorem HeapOk.store (h : HeapOk m) (hlc : m.heap.slot ref = some lc) (hc : Coherent c.lifecycle) :
    HeapOk (m.store ref c) := by
  refine ⟨fun ref' lc' hlc' => ?_, fun ref' lc' hlc' => ?_⟩
  · rw [slot_store, update_apply] at hlc'
    split at hlc'
    next => rw [<- Option.some.inj hlc']; exact hc
    next => exact h.coherent ref' lc' hlc'
  · rw [slot_store, update_apply] at hlc'
    split at hlc'
    next heq => rw [heq]; exact h.below ref lc hlc
    next => exact h.below ref' lc' hlc'

def published (lc : RequestLifecycle) : Request × List Nat :=
  (lc.request, lc.outputTokenIds)

structure Quiet (first m : LifecycleManager) : Prop where
  ok : HeapOk m
  refs : first.nextRef ≤ m.nextRef
  old : forall ref, ref < first.nextRef ->
    (m.heap.slot ref).map published = (first.heap.slot ref).map published
  fresh : forall ref lc, m.heap.slot ref = some lc -> first.nextRef ≤ ref ->
    lc.outputTokenIds = []

theorem HeapOk.quiet (h : HeapOk m) : Quiet m m where
  ok := h
  refs := Nat.le_refl _
  old := fun _ _ => rfl
  fresh := fun ref lc hlc hle => absurd (h.below ref lc hlc) (Nat.not_lt_of_le hle)

namespace Quiet

theorem of_heap (h : Quiet first m) (hheap : m'.heap = m.heap)
    (hnext : m'.nextRef = m.nextRef) : Quiet first m' where
  ok :=
    { coherent := by rw [hheap]; exact h.ok.coherent
      below := by rw [hheap, hnext]; exact h.ok.below }
  refs := by rw [hnext]; exact h.refs
  old := by rw [hheap]; exact h.old
  fresh := by rw [hheap]; exact h.fresh

theorem store (h : Quiet first m) (hlc : m.heap.slot ref = some lc)
    (hc : Steady lc.request lc.outputTokenIds c) : Quiet first (m.store ref c) := by
  have hsame : published c.lifecycle = published lc := Prod.ext hc.request hc.output
  refine ⟨h.ok.store hlc hc.coherent, h.refs, fun ref' hold => ?_, fun ref' lc' hlc' hfresh => ?_⟩
  · rw [<- h.old ref' hold, slot_store, update_apply]
    split
    next heq => rw [heq, hlc]; exact congrArg some hsame
    next => rfl
  · rw [slot_store, update_apply] at hlc'
    split at hlc'
    next heq =>
      rw [heq] at hfresh
      rw [<- Option.some.inj hlc', hc.output]
      exact h.fresh ref lc hlc hfresh
    next => exact h.fresh ref' lc' hlc' hfresh

theorem register (h : Quiet first m) (request : Request) : Quiet first (m.register request) := by
  have hslot : (m.register request).heap.slot = update m.heap.slot m.nextRef
      (some (RequestLifecycle.new request m.nextEpoch)) := rfl
  refine ⟨⟨fun ref' lc' hlc' => ?_, fun ref' lc' hlc' => ?_⟩, Nat.le_succ_of_le h.refs,
    fun ref' hold => ?_, fun ref' lc' hlc' hfresh => ?_⟩
  · rw [hslot, update_apply] at hlc'
    split at hlc'
    next => rw [<- Option.some.inj hlc']; exact new_coherent request m.nextEpoch
    next => exact h.ok.coherent ref' lc' hlc'
  · rw [hslot, update_apply] at hlc'
    split at hlc'
    next heq => rw [heq]; exact Nat.lt_succ_self _
    next => exact Nat.lt_succ_of_lt (h.ok.below ref' lc' hlc')
  · have hne : ref' ≠ m.nextRef := Nat.ne_of_lt (Nat.lt_of_lt_of_le hold h.refs)
    rw [<- h.old ref' hold, hslot, Function.update_of_ne hne]
  · rw [hslot, update_apply] at hlc'
    split at hlc'
    next => rw [<- Option.some.inj hlc']; rfl
    next => exact h.fresh ref' lc' hlc' hfresh

end Quiet

/-! ## The registry's methods -/

section Methods

variable {alpha : Type}

theorem wp_onRequest
    {post : alpha -> LifecycleManager -> Prop} {fail : Failure -> LifecycleManager -> Prop}
    (hnone : forall exc, m.heap.slot ref = none -> fail exc m)
    (hsome : forall lc, m.heap.slot ref = some lc ->
    Wp x (fun a c => post a (m.store ref c)) (fun exc c => fail exc (m.store ref c))
    { lifecycle := lc, nextEpoch := m.nextEpoch }) : Wp (onRequest ref x) post fail m := by
  unfold Wp onRequest
  cases hslot : m.heap.slot ref with
  | none => exact hnone _ hslot
  | some lc =>
    have hx := hsome lc hslot
    unfold Wp at hx
    cases hrun : x { lifecycle := lc, nextEpoch := m.nextEpoch } with
    | ok a c => rw [hrun] at hx; simp only [hrun]; exact hx
    | error exc c => rw [hrun] at hx; simp only [hrun]; exact hx

theorem onRequest_keeps (ref : LifecycleRef)
    (hx : forall request output, Keeps (Steady request output) x) :
    Keeps (Quiet first) (onRequest ref x) := by
  intro _ h
  refine wp_onRequest (fun _ _ => ⟨h, trivial⟩) fun lc hlc => ?_
  refine wp_mono (hx lc.request lc.outputTokenIds _ ⟨h.ok.coherent ref lc hlc, rfl, rfl⟩)
    (fun _ c hc => h.store hlc hc) fun _ c hc => ⟨h.store hlc hc.1, trivial⟩

theorem get_keeps (requestId : RequestId) : Keeps (Quiet first) (get requestId) :=
  keeps_query _

theorem create_keeps (request : Request) : Keeps (Quiet first) (create request) := by
  refine Maintains.bind maintains_get fun m => ?_
  refine Maintains.ite (maintains_throw trivial) ?_
  exact Maintains.bind (maintains_modify fun m h => h.register request) fun _ => maintains_pure _

theorem retireTerminal_keeps (ref : LifecycleRef) :
    Keeps (Quiet first) (LifecycleManager.retireTerminal ref) := by
  refine maintains_modify fun m h => ?_
  split
  next => exact h
  next =>
    split
    next => exact h.of_heap rfl rfl
    next => exact h

theorem forget_keeps (requestId : RequestId) : Keeps (Quiet first) (forget requestId) := by
  refine Maintains.bind maintains_get fun m => ?_
  exact Maintains.ite (maintains_throw trivial) (maintains_modify fun m h => h.of_heap rfl rfl)

theorem rollback_keeps (requestId : RequestId) : Keeps (Quiet first) (rollback requestId) :=
  maintains_modify fun _ h => h.of_heap rfl rfl

theorem cancelToken_keeps (ref : LifecycleRef) (reason : String) :
    Keeps (Quiet first) (onRequest ref
      (modify (Cell.withLifecycle (RequestLifecycle.cancelToken reason)))) :=
  onRequest_keeps ref fun _ _ => modify_keeps fun c => cancelToken_view reason c

theorem cancel_keeps (requestId : RequestId) (reason : String) :
    Keeps (Quiet first) (cancel requestId reason) := by
  refine Maintains.bind maintains_get fun m => ?_
  split
  next => exact maintains_pure _
  next ref _ =>
    refine onRequest_keeps ref fun _ _ => ?_
    refine Maintains.bind maintains_get fun _ => ?_
    exact Maintains.bind (modify_keeps fun c => cancelToken_view reason c) fun _ =>
      maintains_pure _

/-- A report without forward evidence publishes nothing. -/
theorem applyOne_keeps (hstate : entry.evidence = none) (stepId : Nat) :
    Keeps (Quiet first) (applyOne entry stepId) := by
  refine Maintains.bind maintains_get fun m => ?_
  split
  next => exact Maintains.ite (maintains_pure _) (maintains_throw trivial)
  next ref _ =>
    refine Maintains.bind (onRequest_keeps ref fun _ _ => keeps_query _) fun current => ?_
    refine Maintains.ite ?_ (maintains_pure _)
    rw [hstate]
    exact Maintains.bind (onRequest_keeps ref fun _ _ => applyState_keeps entry) fun _ =>
      retireTerminal_keeps ref

end Methods

end Request
end Ayaka
