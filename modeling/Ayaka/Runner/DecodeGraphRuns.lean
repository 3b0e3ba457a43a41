import Ayaka.Foundation.Guarded
import Ayaka.Foundation.Log
import Ayaka.Runner.DecodeGraphs

/-!
# Replays of captured graphs

A replay is launched only under the generation and the kernel binding a complete
capture has recorded, and only while nothing has ended that capture.  What ends it for
good is an invalidation of the pool, a growth of the workspace, a cleanup, or an
invalidation of the planner after the capture, whether asked for or because the planner
saw a mismatch.  A mismatch that `validate` raises is not among them: it is not latched.
-/

namespace Ayaka
namespace DecodeGraph

open Foundation
open Executor (Failure reject)
open GraphOwnerState

variable {gen : Type}

/-! ## What the log promises -/

namespace GraphEvent

/-- Events after which a capture may not be replayed. -/
def Disturbs : GraphEvent gen -> Prop
  | invalidated _ => True
  | poolInvalidated => True
  | cleanedUp => True
  | _ => False

/-- Events after which nothing is ever replayed, given what was logged before them. -/
def Ends : GraphEvent gen -> List (GraphEvent gen) -> Prop
  | invalidated _, earlier => exists recorded live, captured recorded live ∈ earlier
  | poolInvalidated, _ => True
  | cleanedUp, _ => True
  | _, _ => False

end GraphEvent

open GraphEvent (Disturbs Ends)

abbrev Running (log : List (GraphEvent gen)) : Prop :=
  Entries (fun event earlier => ¬ Ends event earlier) log

/-- The pairs of slot and bucket are all the pool is configured for. -/
def Complete (config : Config gen) (recorded : List (Nat × Nat)) : Prop :=
  forall slot, slot ∈ config.slots -> forall bucket, bucket ∈ config.buckets ->
    (slot, bucket) ∈ recorded

/-- A complete capture under this generation and binding, undisturbed since. -/
def Fresh (config : Config gen) (log : List (GraphEvent gen)) (live : Live gen) : Prop :=
  exists since recorded before, log = since ++ .captured recorded live :: before
    ∧ Complete config recorded ∧ forall event, event ∈ since -> ¬ Disturbs event

structure Smallest (buckets : List Nat) (tokens bucket : Nat) : Prop where
  mem : bucket ∈ buckets
  holds : tokens ≤ bucket
  least : forall other, other ∈ buckets -> tokens ≤ other -> bucket ≤ other

/-- What an entry of the log promises: a replay is of a fresh capture in the right bucket,
and nothing before it has ended the pool. -/
def Justified (config : Config gen) : GraphEvent gen -> List (GraphEvent gen) -> Prop
  | .replayed _ tokens bucket live, earlier =>
    Fresh config earlier live ∧ live.generation ≠ none
      ∧ Smallest config.buckets tokens bucket ∧ Running earlier
  | _, _ => True

/-- While the pool is running, a capture is not disturbed. -/
theorem Running.fresh (h : Running log) (hmem : .captured recorded live ∈ log)
    (hcomplete : Complete config recorded) : Fresh config log live := by
  rcases List.append_of_mem hmem with ⟨since, before, hlog⟩
  refine ⟨since, recorded, before, hlog, hcomplete, fun event hevent hdisturbs => ?_⟩
  rcases List.append_of_mem hevent with ⟨_, _, hsince⟩
  rw [hlog, hsince, List.append_assoc] at h
  apply h.entry
  cases event with
  | invalidated label => exact ⟨recorded, live, by simp⟩
  | poolInvalidated | cleanedUp => trivial
  | captured | mismatchRaised | replayed => exact hdisturbs.elim

theorem padToBucket_smallest (hascending : buckets.Pairwise (· < ·))
    (h : padToBucket tokens buckets = .ok bucket) : Smallest buckets tokens bucket := by
  unfold padToBucket at h
  rw [Executor.check_bind_eq_ok_iff] at h
  have h := h.2
  rw [Executor.check_bind_eq_ok_iff] at h
  have h := h.2
  cases hfind : buckets.find? fun bucket => tokens ≤ bucket with
  | none =>
    rw [hfind] at h
    cases h
  | some found =>
    rw [hfind] at h
    cases h
    rcases List.find?_eq_some_iff_append.mp hfind with ⟨hholds, _, _, hsplit, hbefore⟩
    refine ⟨List.mem_of_find?_eq_some hfind, of_decide_eq_true hholds, fun other hother hle => ?_⟩
    rw [hsplit, List.mem_append, List.mem_cons] at hother
    rcases hother with hearly | heq | hlate
    · have hsmall := hbefore other hearly
      simp [hle] at hsmall
    · exact Nat.le_of_eq heq.symm
    · rw [hsplit, List.pairwise_append, List.pairwise_cons] at hascending
      exact Nat.le_of_lt (hascending.2.1.1 other hlate)

namespace DecodeGraphPool

/-! ## The invariant -/

/-- A capture with the recorded generation and binding stands in the log. -/
def Published (s : DecodeGraphPool gen) : Prop :=
  exists recorded live, .captured recorded live ∈ s.log ∧ Complete s.config recorded
    ∧ s.capturedGeneration = live.generation ∧ s.capturedBinding = some live.binding

structure Sound (s : DecodeGraphPool gen) (config : Config gen) : Prop where
  config_eq : s.config = config
  bound : s.state = resourcesBound ->
    Running s.log ∧ forall recorded live, .captured recorded live ∉ s.log
  ready : s.state = .ready -> s.invalidated = false ->
    Running s.log ∧ s.Published
  planned : forall stepId, (s.steps stepId).graph.mode = .replay ->
    padToBucket (s.steps stepId).paddedNumTokens s.config.buckets
      = .ok (s.steps stepId).graph.bucket
  justified : Entries (Justified s.config) s.log

variable {config : Config gen} {s s' : DecodeGraphPool gen}

theorem sound_new (config : Config gen) (live : Live gen) (steps : Nat -> BatchStepPlan) :
    (new config live steps).Sound config where
  config_eq := rfl
  bound := fun _ => ⟨trivial, fun _ _ h => nomatch h⟩
  ready := fun h => nomatch h
  planned := fun _ h => nomatch h
  justified := trivial

/-- Every step may be planned anew, and the environment may move. -/
theorem Sound.lastReason (h : s.Sound config) (label : String) :
    ({ s with lastReason := label } : DecodeGraphPool gen).Sound config :=
  ⟨h.config_eq, h.bound, h.ready, h.planned, h.justified⟩

theorem Sound.move (h : s.Sound config) (live : Live gen) :
    ({ s with live } : DecodeGraphPool gen).Sound config :=
  ⟨h.config_eq, h.bound, h.ready, h.planned, h.justified⟩

/-- States in which nothing is captured or replayed. -/
structure Stopped (s : DecodeGraphPool gen) : Prop where
  notBound : s.state ≠ resourcesBound
  notReady : s.state ≠ .ready

/-- The steps and the log are those of the other state. -/
structure Framed (s s' : DecodeGraphPool gen) : Prop where
  config : s'.config = s.config
  steps : s'.steps = s.steps
  log : s'.log = s.log

theorem Sound.stopped (h : s.Sound config) (hframe : Framed s s') (hstopped : s'.Stopped) :
    s'.Sound config where
  config_eq := hframe.config.trans h.config_eq
  bound := fun hstate => absurd hstate hstopped.notBound
  ready := fun hstate => absurd hstate hstopped.notReady
  planned := by
    rw [hframe.steps, hframe.config]
    exact h.planned
  justified := by
    rw [hframe.log, hframe.config]
    exact h.justified

theorem Sound.stopped_note (h : s.Sound config) (hstopped : s.Stopped) (event : GraphEvent gen)
    (hevent : Justified s.config event s.log) : (note event s).Sound config where
  __ := h
  bound := fun hstate => absurd hstate hstopped.notBound
  ready := fun hstate => absurd hstate hstopped.notReady
  justified := ⟨hevent, h.justified⟩

section

variable (reason : Reason) (s : DecodeGraphPool gen)

theorem invalidate_state : (s.invalidate reason).state = s.state := by
  unfold invalidate note
  split <;> rfl

theorem invalidate_invalidated : (s.invalidate reason).invalidated = true := by
  unfold invalidate note
  split
  next hsame => exact hsame.1
  next => rfl

theorem framed_invalidate : Framed (note (.invalidated reason.label) s) (s.invalidate reason) := by
  unfold invalidate note
  split <;> exact ⟨rfl, rfl, rfl⟩

end

section

variable (h : s.Sound config)
include h

theorem Sound.invalidate (reason : Reason) : (s.invalidate reason).Sound config := by
  have hframe := framed_invalidate reason s
  constructor
  · exact hframe.config.trans h.config_eq
  · intro hbound
    rw [invalidate_state] at hbound
    rcases h.bound hbound with ⟨hrunning, hnone⟩
    rw [hframe.log]
    refine ⟨⟨fun hends => ?_, hrunning⟩, fun recorded live hmem => ?_⟩
    · rcases hends with ⟨recorded, live, hmem⟩
      exact hnone recorded live hmem
    · cases hmem with
      | tail _ hmem => exact hnone recorded live hmem
  · intro _ hfalse
    rw [invalidate_invalidated] at hfalse
    cases hfalse
  · rw [hframe.steps, hframe.config]
    exact h.planned
  · rw [hframe.log, hframe.config]
    exact ⟨trivial, h.justified⟩

theorem Sound.raised : (note .mismatchRaised s).Sound config where
  __ := h
  bound := fun hstate => by
    rcases h.bound hstate with ⟨hrunning, hnone⟩
    refine ⟨⟨fun hends => hends, hrunning⟩, fun recorded live hmem => ?_⟩
    cases hmem with
    | tail _ hmem => exact hnone recorded live hmem
  ready := fun hstate hvalid => by
    rcases h.ready hstate hvalid with ⟨hrunning, recorded, live, hmem, hrest⟩
    exact ⟨⟨fun hends => hends, hrunning⟩, recorded, live, List.mem_cons_of_mem _ hmem, hrest⟩
  justified := ⟨trivial, h.justified⟩

theorem Sound.poolInvalidate (reason : Reason) : (s.poolInvalidate reason).Sound config := by
  let stopping : DecodeGraphPool gen := { s with state := invalidating }
  have hstopped : stopping.Stopped := ⟨nofun, nofun⟩
  have hstopping : stopping.Sound config := h.stopped ⟨rfl, rfl, rfl⟩ hstopped
  have hinvalid : (stopping.invalidate reason).Stopped :=
    ⟨invalidate_state reason stopping ▸ hstopped.notBound,
      invalidate_state reason stopping ▸ hstopped.notReady⟩
  exact (hstopping.invalidate reason).stopped_note hinvalid .poolInvalidated trivial

end

/-! ## Cleaning up -/

variable {slot bucket : Nat} {slots : List Nat}

theorem wp_raiseIf {post : Unit -> DecodeGraphPool gen -> Prop}
    {fail : Failure -> DecodeGraphPool gen -> Prop} (hpost : post () s)
    (hfail : forall exc, fail exc s) : Wp (raiseIf fault) post fail s := by
  cases fault with
  | none => exact hpost
  | some exc => exact hfail exc

/-- Dropping the runners changes nothing a replay depends on. -/
theorem wp_cleanupRunners (h : s.Sound config) (fault : Nat -> Option Failure) (slots : List Nat) :
    Wp (slots.forM (cleanupRunner fault)) (fun _ s' => s'.Sound config)
      (fun _ s' => s'.Sound config) s := by
  refine wp_forM (fun slot _ s hs => ?_) h
  unfold cleanupRunner
  rw [wp_bind]
  refine wp_raiseIf ?_ (fun _ => hs)
  exact ⟨hs.config_eq, hs.bound, hs.ready, hs.planned, hs.justified⟩

theorem wp_cleanup (h : s.Sound config) (fault : Nat -> Option Failure) :
    Wp (cleanup fault) (fun _ s' => s'.Sound config) (fun _ s' => s'.Sound config) s := by
  unfold cleanup
  refine wp_if (fun _ => h) fun _ => ?_
  rw [wp_bind, wp_modify, wp_bind]
  let draining : DecodeGraphPool gen := { s with state := .draining }
  have hstopped : draining.Stopped := ⟨nofun, nofun⟩
  have hdraining : draining.Sound config := h.stopped ⟨rfl, rfl, rfl⟩ hstopped
  have hnoted : (note .cleanedUp draining).Sound config :=
    hdraining.stopped_note hstopped .cleanedUp trivial
  refine wp_mono (wp_cleanupRunners hnoted fault s.runners.keys) (fun _ s' hs' => ?_)
    (fun _ _ hs' => hs')
  exact hs'.stopped ⟨rfl, rfl, rfl⟩ ⟨nofun, nofun⟩

/-! ## Capturing -/

def Recorded (s : DecodeGraphPool gen) (slot bucket : Nat) : Prop :=
  exists runner, s.runners.get? slot = some runner ∧ bucket ∈ runner.graphs

/-- A pool that captures: stopped, with steps and log as they were. -/
structure Capturing (s s' : DecodeGraphPool gen) : Prop where
  framed : Framed s s'
  stopped : s'.Stopped

/-- While the slot is captured: what is done of it, and of the slots before it. -/
structure SlotProgress (s : DecodeGraphPool gen) (slot : Nat) (slots buckets : List Nat)
    (s' : DecodeGraphPool gen) : Prop where
  capturing : Capturing s s'
  runner : exists runner, s'.runners.get? slot = some runner
  done : forall bucket, bucket ∈ buckets -> s'.Recorded slot bucket
  others : forall other, other ∈ slots -> other ≠ slot ->
    forall bucket, bucket ∈ s.config.buckets -> s'.Recorded other bucket

/-- Between two slots. -/
structure Progress (s : DecodeGraphPool gen) (slots : List Nat) (s' : DecodeGraphPool gen) :
    Prop where
  capturing : Capturing s s'
  done : forall slot, slot ∈ slots -> forall bucket, bucket ∈ s.config.buckets ->
    s'.Recorded slot bucket

/-- Changing one runner keeps the recorded buckets when the change does. -/
theorem Recorded.modify (h : s.Recorded slot bucket) (other : Nat)
    (f : DecodeGraphRunner gen -> DecodeGraphRunner gen)
    (hf : forall runner, bucket ∈ runner.graphs -> bucket ∈ (f runner).graphs) :
    ({ s with runners := s.runners.modify other f } : DecodeGraphPool gen).Recorded slot
      bucket := by
  rcases h with ⟨runner, hget, hmem⟩
  unfold Recorded
  rw [Dict.get?_modify]
  split
  next heq =>
    rw [<- heq, hget]
    exact ⟨f runner, rfl, hf runner hmem⟩
  next => exact ⟨runner, hget, hmem⟩

theorem Capturing.runners (h : Capturing s s') (runners : Dict Nat (DecodeGraphRunner gen)) :
    Capturing s { s' with runners } :=
  ⟨⟨h.framed.config, h.framed.steps, h.framed.log⟩, ⟨h.stopped.notBound, h.stopped.notReady⟩⟩

theorem wp_captureOne (fault : Nat -> Nat -> Option Failure)
    (h : SlotProgress s slot slots buckets s') :
    Wp (captureOne fault slot bucket)
      (fun _ s'' => SlotProgress s slot slots (bucket :: buckets) s'')
      (fun _ s'' => Capturing s s'') s' := by
  unfold captureOne
  rw [wp_bind]
  refine wp_raiseIf ?_ (fun _ => h.capturing)
  rcases h.runner with ⟨runner, hget⟩
  have hnew : (s'.runners.modify slot fun runner =>
      { runner with graphs := bucket :: runner.graphs }).get? slot
        = some { runner with graphs := bucket :: runner.graphs } := by
    rw [Dict.get?_modify, if_pos rfl, hget]
    rfl
  refine ⟨h.capturing.runners _, ⟨_, hnew⟩, fun other hother => ?_,
    fun other hmem hne bucket' hbucket' => ?_⟩
  · cases hother with
    | head => exact ⟨_, hnew, List.mem_cons_self⟩
    | tail _ hother =>
      exact (h.done other hother).modify slot _ fun _ hmem => List.mem_cons_of_mem _ hmem
  · exact (h.others other hmem hne bucket' hbucket').modify slot _
      fun _ hmem => List.mem_cons_of_mem _ hmem

theorem wp_captureSlot (fault : Nat -> Nat -> Option Failure) (h : Progress s slots s') :
    Wp (captureSlot fault slot) (fun _ s'' => Progress s (slot :: slots) s'')
      (fun _ s'' => Capturing s s'') s' := by
  unfold captureSlot
  rw [wp_bind, wp_modify, wp_bind, wp_get, wp_bind]
  have hframed := h.capturing.framed
  -- a new runner hides what the slot had recorded before, never another slot's
  have hstart : SlotProgress s slot slots []
      { s' with runners := s'.runners.set slot {}, state := .capturing } := by
    refine ⟨⟨⟨hframed.config, hframed.steps, hframed.log⟩, ⟨nofun, nofun⟩⟩,
      ⟨_, Dict.get?_set_self _ _ _⟩, (fun _ hmem => nomatch hmem),
      fun other hmem hne bucket hbucket => ?_⟩
    rcases h.done other hmem bucket hbucket with ⟨runner, hget, hgraph⟩
    refine ⟨runner, ?_, hgraph⟩
    rw [Dict.get?_set, if_neg hne]
    exact hget
  refine wp_mono (wp_forM_done (fun _ _ _ hprogress => wp_captureOne fault hprogress) hstart)
    (fun _ s'' hdone => ?_) (fun _ _ hfail => hfail)
  refine ⟨hdone.capturing.runners _, fun other hother bucket hbucket => ?_⟩
  have hrecorded : s''.Recorded other bucket := by
    by_cases heq : other = slot
    · rw [heq]
      apply hdone.done
      rw [List.reverse_reverse, List.append_nil]
      exact hframed.config.symm ▸ hbucket
    · cases hother with
      | head => exact absurd rfl heq
      | tail _ hother => exact hdone.others other hother heq bucket hbucket
  exact hrecorded.modify slot _ fun _ hgraph => hgraph

theorem mem_recorded (h : s.Recorded slot bucket) : (slot, bucket) ∈ s.recorded := by
  rcases h with ⟨runner, hget, hgraph⟩
  unfold recorded
  rw [List.mem_flatMap]
  exact ⟨(slot, runner), Dict.get?_eq_some_iff.mp hget, List.mem_map_of_mem hgraph⟩

theorem Recorded.bind (h : s.Recorded slot bucket) (generation : Option gen) :
    ({ s with runners := s.runners.mapValues fun _ runner => { runner with generation } } :
      DecodeGraphPool gen).Recorded slot bucket := by
  rcases h with ⟨runner, hget, hgraph⟩
  refine ⟨{ runner with generation }, ?_, hgraph⟩
  have hfind := Dict.find_map_values (fun _ runner => { runner with generation }) slot
    s.runners.entries
  have hget : Dict.find slot s.runners.entries = some runner := hget
  rw [hget] at hfind
  exact hfind

/-- Publishing the full set, in a pool that has not captured before. -/
theorem wp_publish (h : s.Sound config) (hbound : s.state = resourcesBound)
    (hdone : Progress s s.config.slots s') :
    Wp publish (fun _ s'' => s''.Sound config) (fun _ s'' => Capturing s s'') s' := by
  unfold publish noteCapture
  rw [wp_bind, wp_modify, wp_bind, wp_bind, wp_get]
  refine wp_if (fun _ => hdone.capturing.runners _) fun _ => ?_
  rw [wp_modify, wp_modify]
  have hframed := hdone.capturing.framed
  constructor
  · exact hframed.config.trans h.config_eq
  · exact nofun
  · intro _ _
    rw [note, hframed.log]
    refine ⟨⟨fun hends => hends, (h.bound hbound).1⟩, ?_⟩
    refine ⟨_, s'.live, List.mem_cons_self, fun slot hslot bucket hbucket => ?_, rfl, rfl⟩
    rw [hframed.config] at hslot hbucket
    exact mem_recorded ((hdone.done slot hslot bucket hbucket).bind s'.live.generation)
  · show forall stepId, (s'.steps stepId).graph.mode = .replay -> _
    rw [note, hframed.steps, hframed.config]
    exact h.planned
  · show Entries (Justified s'.config) (_ :: s'.log)
    rw [hframed.log, hframed.config]
    exact ⟨trivial, h.justified⟩

theorem wp_abandonCapture (h : s.Sound config) (faults : CaptureFaults) (exc : Failure) :
    Wp (abandonCapture faults exc) (fun _ s' => s'.Sound config)
      (fun _ s' => s'.Sound config) s := by
  unfold abandonCapture
  rw [wp_bind, wp_modify, wp_bind]
  let failed : DecodeGraphPool gen := { s with state := .failed }
  have hfailed : failed.Sound config := h.stopped ⟨rfl, rfl, rfl⟩ ⟨nofun, nofun⟩
  refine wp_raiseIf ?_ (fun _ => hfailed)
  refine wp_seq (wp_cleanup hfailed faults.cleaning) fun _ s' hs' => ?_
  exact hs'.stopped ⟨rfl, rfl, rfl⟩ ⟨nofun, nofun⟩

section Generation

variable [DecidableEq gen]

theorem wp_captureAll (h : s.Sound config) (hbound : s.state = resourcesBound)
    (faults : CaptureFaults) (during : Live gen) :
    Wp (captureAll faults during) (fun _ s' => s'.Sound config)
      (fun _ s' => s' = s ∨ Capturing s s') s := by
  unfold captureAll
  refine wp_if (fun _ => .inl rfl) fun _ => ?_
  rw [wp_bind, wp_modify, wp_bind]
  have hstart : Progress s [] { s with state := warming, live := during } :=
    ⟨⟨⟨rfl, rfl, rfl⟩, ⟨nofun, nofun⟩⟩, fun _ hmem => nomatch hmem⟩
  refine wp_mono
    (wp_forM_done (fun _ _ _ hprogress => wp_captureSlot faults.recording hprogress) hstart)
    (fun _ s' hdone => ?_) (fun _ _ hfail => .inr hfail)
  rw [wp_bind, wp_modify, wp_bind]
  have hframed := hdone.capturing.framed
  have hvalidating : Progress s s.config.slots { s' with state := validating } := by
    refine ⟨⟨⟨hframed.config, hframed.steps, hframed.log⟩, ⟨nofun, nofun⟩⟩,
      fun slot hslot => hdone.done slot ?_⟩
    rw [List.append_nil, List.mem_reverse]
    exact hslot
  refine wp_raiseIf ?_ (fun _ => .inr hvalidating.capturing)
  refine wp_if (fun _ => .inr hvalidating.capturing) fun _ => ?_
  exact wp_mono (wp_publish h hbound hvalidating) (fun _ _ hs => hs) (fun _ _ hs => .inr hs)

theorem wp_capture (h : s.Sound config) (faults : CaptureFaults) (during : Live gen) :
    Wp (capture faults during) (fun _ s' => s'.Sound config) (fun _ s' => s'.Sound config) s := by
  unfold capture
  refine wp_if (fun _ => h) fun hstate => ?_
  rw [wp_tryCatch]
  refine wp_mono (wp_captureAll h (Decidable.not_not.mp hstate) faults during)
    (fun _ _ hs' => hs') (fun exc s' hs' => ?_)
  cases hs' with
  | inl heq => exact heq ▸ wp_abandonCapture h faults exc
  | inr hcapturing =>
    exact wp_abandonCapture (h.stopped hcapturing.framed hcapturing.stopped) faults exc

/-! ## Planning and checking -/

/-- A state that may differ in the planner's latch and texts, never in the steps. -/
structure Consulted (config : Config gen) (s s' : DecodeGraphPool gen) : Prop where
  sound : s'.Sound config
  config_eq : s'.config = s.config
  steps : s'.steps = s.steps

omit [DecidableEq gen] in
theorem Sound.consulted (h : s.Sound config) : Consulted config s s :=
  ⟨h, rfl, rfl⟩

omit [DecidableEq gen] in
theorem wp_invalidateFor (h : s.Sound config) (reason : GraphFallbackReason)
    {post : Unit -> DecodeGraphPool gen -> Prop} {fail : Failure -> DecodeGraphPool gen -> Prop}
    (hpost : forall s', Consulted config s s' -> post () s') :
    Wp (invalidateFor reason) post fail s := by
  have hframe := framed_invalidate (.fallback reason) s
  exact hpost _ ⟨h.invalidate _, hframe.config, hframe.steps⟩

/-- What `plan` puts into a step: nothing, or the bucket of its padded tokens. -/
def Plans (s : DecodeGraphPool gen) (step : BatchStepPlan) (graph : GraphPlan) : Prop :=
  graph.mode = .replay ->
    padToBucket step.paddedNumTokens s.config.buckets = .ok graph.bucket

omit [DecidableEq gen] in
theorem wp_fallback (h : Consulted config s s') (reason : GraphFallbackReason)
    (step : BatchStepPlan) :
    Wp (fallback reason) (fun graph s'' => Consulted config s s'' ∧ s.Plans step graph)
      (fun _ s'' => Consulted config s s'') s' :=
  ⟨⟨h.sound.lastReason _, h.config_eq, h.steps⟩, fun hmode => nomatch hmode⟩

section

variable (h : s.Sound config)
include h

omit [DecidableEq gen] in
theorem wp_planBucket (step : BatchStepPlan) :
    Wp (planBucket step) (fun graph s' => Consulted config s s' ∧ s.Plans step graph)
      (fun _ s' => Consulted config s s') s := by
  unfold planBucket
  refine wp_if (fun _ => wp_fallback h.consulted _ step) fun _ => ?_
  refine wp_if (fun _ => wp_fallback h.consulted _ step) fun _ => ?_
  refine wp_query_bind (fun bucket hbucket => ?_) fun _ _ => h.consulted
  refine wp_if (fun _ => wp_fallback h.consulted _ step) fun _ => ?_
  rw [wp_bind, wp_query]
  exact ⟨fun _ _ => ⟨h.consulted, fun _ => hbucket⟩, fun _ _ => h.consulted⟩

theorem wp_plan (step : BatchStepPlan) :
    Wp (plan step) (fun graph s' => Consulted config s s' ∧ s.Plans step graph)
      (fun _ s' => Consulted config s s') s := by
  have hfallback : forall reason, Wp (fallback reason)
      (fun graph s' => Consulted config s s' ∧ s.Plans step graph)
      (fun _ s' => Consulted config s s') s :=
    fun reason => wp_fallback h.consulted reason step
  have hmismatch : forall reason, Wp (invalidateFor reason >>= fun _ => fallback reason)
      (fun graph s' => Consulted config s s' ∧ s.Plans step graph)
      (fun _ s' => Consulted config s s') s := by
    intro reason
    rw [wp_bind]
    exact wp_invalidateFor h reason fun s' hs' => wp_fallback hs' reason step
  unfold plan
  rw [wp_bind, wp_get]
  refine wp_if (fun _ => h.consulted) fun _ => ?_
  -- What the step and the configuration speak against.
  refine wp_if (fun _ => hfallback _) fun _ => ?_
  refine wp_if (fun _ => hfallback _) fun _ => ?_
  refine wp_if (fun _ => hfallback _) fun _ => ?_
  refine wp_if (fun _ => hfallback _) fun _ => ?_
  refine wp_if (fun _ => hfallback _) fun _ => ?_
  refine wp_if (fun _ => hfallback _) fun _ => ?_
  refine wp_if (fun _ => hfallback _) fun _ => ?_
  -- The planner is invalid, or finds now that it has become so.
  refine wp_if (fun _ => hfallback _) fun _ => ?_
  refine wp_if (fun _ => hmismatch _) fun _ => ?_
  refine wp_if (fun _ => hmismatch _) fun _ => ?_
  exact wp_planBucket h step

theorem wp_planStep (stepId : Nat) :
    Wp (planStep stepId) (fun _ s' => s'.Sound config) (fun _ s' => s'.Sound config) s := by
  unfold planStep
  rw [wp_bind, wp_get]
  refine wp_then (wp_plan h (s.steps stepId)) (fun graph s' hs' => ?_) (fun _ _ hs' => hs'.sound)
  rcases hs' with ⟨hs', hplans⟩
  refine ⟨hs'.sound.config_eq, hs'.sound.bound, hs'.sound.ready, fun other hmode => ?_,
    hs'.sound.justified⟩
  dsimp only at hmode ⊢
  by_cases heq : other = stepId
  · rw [heq, Function.update_self] at hmode ⊢
    rw [hs'.config_eq, hs'.steps]
    exact hplans hmode
  · rw [Function.update_of_ne heq] at hmode ⊢
    exact hs'.sound.planned other hmode

theorem wp_validate (step : BatchStepPlan) :
    Wp (validate step) (fun _ s' => s'.Sound config) (fun _ s' => s'.Sound config) s := by
  unfold validate raiseMismatch
  rw [wp_bind, wp_get]
  refine wp_if (fun _ => h) fun _ => ?_
  refine wp_if (fun _ => h) fun _ => ?_
  refine wp_if (fun _ => h) fun _ => ?_
  refine wp_if (fun _ => h.raised) fun _ => ?_
  refine wp_if (fun _ => h.raised) fun _ => ?_
  rw [wp_query]
  exact ⟨fun _ _ => h, fun _ _ => h⟩

/-- What the last check before a launch has established. -/
structure Launchable (s : DecodeGraphPool gen) (step : BatchStepPlan) : Prop where
  mode : step.graph.mode = .replay
  valid : s.invalidated = false
  generation : s.generationCurrent
  binding : s.bindingCurrent
  ready : s.state = .ready

theorem wp_shouldReplay (step : BatchStepPlan) :
    Wp (shouldReplay step)
      (fun replay s' => s'.Sound config ∧ (replay = true -> s' = s ∧ s.Launchable step))
      (fun _ s' => s'.Sound config) s := by
  have hrefuse : forall (s' : DecodeGraphPool gen) reason, s'.Sound config ->
      Wp (refuseExecution reason)
      (fun replay s' => s'.Sound config ∧ (replay = true -> s' = s ∧ s.Launchable step))
      (fun _ s' => s'.Sound config) s' :=
    fun _ reason hs' => ⟨hs'.lastReason reason.label, fun htrue => nomatch htrue⟩
  have hmismatch : forall reason, Wp (invalidateFor reason >>= fun _ => refuseExecution reason)
      (fun replay s' => s'.Sound config ∧ (replay = true -> s' = s ∧ s.Launchable step))
      (fun _ s' => s'.Sound config) s := by
    intro reason
    rw [wp_bind]
    exact wp_invalidateFor h reason fun s' hs' => hrefuse s' reason hs'.sound
  unfold shouldReplay
  rw [wp_bind, wp_get]
  refine wp_if (fun _ => ⟨h, fun htrue => nomatch htrue⟩) fun hmode => ?_
  refine wp_if (fun _ => hrefuse s _ h) fun _ => ?_
  refine wp_if (fun _ => hrefuse s _ h) fun hvalid => ?_
  refine wp_if (fun _ => hmismatch _) fun hgeneration => ?_
  refine wp_if (fun _ => hmismatch _) fun hbinding => ?_
  refine wp_if (fun _ => hrefuse s _ h) fun hbucket => ?_
  -- No check is left: the plan is replayed.
  refine ⟨h, fun _ => ⟨rfl, Decidable.not_not.mp hmode, Bool.eq_false_of_not_eq_true hvalid,
    Decidable.not_not.mp hgeneration, Decidable.not_not.mp hbinding, ?_⟩⟩
  by_contra hstate
  apply hbucket
  rw [capturedBuckets, if_neg fun hready => hstate hready.1]
  exact List.not_mem_nil

theorem wp_poolShouldReplay (step : BatchStepPlan) (slot : Nat) :
    Wp (poolShouldReplay step slot) (fun _ s' => s'.Sound config)
      (fun _ s' => s'.Sound config) s := by
  refine wp_seq (wp_shouldReplay h step) fun replay s' hs' => ?_
  rw [wp_ite, wp_query]
  exact ⟨fun _ => ⟨fun _ _ => hs'.1, fun _ _ => hs'.1⟩, fun _ => hs'.1⟩

/-! ## Launching -/

omit [DecidableEq gen] in
/-- A launch the checks let through is justified by the log. -/
theorem Sound.replayed {step} (hlaunch : s.Launchable step)
    (hplans : s.Plans step step.graph) (slot : Nat) :
    (note (.replayed slot step.paddedNumTokens step.graph.bucket s.live) s).Sound config := by
  rcases h.ready hlaunch.ready hlaunch.valid with
    ⟨hrunning, recorded, live, hmem, hcomplete, hgeneration, hbinding⟩
  have hlive : s.live = live := by
    have hgen : s.live.generation = live.generation := hlaunch.generation.2.trans hgeneration
    have hbind : s.live.binding = live.binding :=
      Option.some.inj (hlaunch.binding.symm.trans hbinding)
    cases hs : s.live
    cases live
    rw [hs] at hgen hbind
    cases hgen
    cases hbind
    rfl
  have hjustified : Justified s.config
      (.replayed slot step.paddedNumTokens step.graph.bucket s.live) s.log :=
    ⟨hlive ▸ hrunning.fresh hmem hcomplete, hlaunch.generation.1,
      padToBucket_smallest s.config.ascending (hplans hlaunch.mode), hrunning⟩
  constructor
  · exact h.config_eq
  · intro hbound
    have hready : s.state = resourcesBound := hbound
    rw [hlaunch.ready] at hready
    cases hready
  · intro _ _
    exact ⟨⟨fun hends => hends, hrunning⟩, recorded, live, List.mem_cons_of_mem _ hmem, hcomplete,
      hgeneration, hbinding⟩
  · exact h.planned
  · exact ⟨hjustified, h.justified⟩

theorem wp_executeRunner {step} (hlaunch : s.Launchable step) (hplans : s.Plans step step.graph)
    (slot rows : Nat) (runner : DecodeGraphRunner gen) (faults : ReplayFaults) :
    Wp (executeRunner step slot rows runner faults) (fun _ s' => s'.Sound config)
      (fun _ s' => s'.Sound config) s := by
  refine wp_query_bind (fun _ _ => ?_) fun _ _ => h
  rw [wp_bind, wp_get, wp_bind]
  refine wp_raiseIf ?_ (fun _ => h)
  have hreplayed := h.replayed hlaunch hplans slot
  exact wp_raiseIf hreplayed fun _ => hreplayed

theorem wp_executeOn {step} (hplans : s.Plans step step.graph)
    (slot rows : Nat) (runner : DecodeGraphRunner gen) (faults : ReplayFaults) :
    Wp (executeOn step slot rows runner faults) (fun _ s' => s'.Sound config)
      (fun _ s' => s'.Sound config) s := by
  refine wp_seq (wp_shouldReplay h step) fun replay s' hs' => ?_
  refine wp_if (fun _ => hs'.1) fun hreplay => ?_
  rcases hs'.2 (Bool.eq_true_of_not_eq_false hreplay) with ⟨heq, hlaunch⟩
  rw [heq]
  refine wp_if (fun _ => h) fun _ => ?_
  rw [wp_bind, wp_get, wp_bind]
  refine wp_raiseIf ?_ (fun _ => h)
  exact wp_executeRunner h hlaunch hplans slot rows runner faults

theorem wp_execute (stepId slot rows : Nat) (faults : ReplayFaults) :
    Wp (execute (s.steps stepId) slot rows faults) (fun _ s' => s'.Sound config)
      (fun _ s' => s'.Sound config) s := by
  unfold execute
  rw [wp_bind, wp_get]
  cases s.runners.get? slot with
  | none => exact h
  | some runner => exact wp_executeOn h (h.planned stepId) slot rows runner faults

/-! ## Runs -/

theorem Sound.step (call : Call gen) : (s.step call).Sound config := by
  cases call with
  | capture faults during => exact wp_inv_iff.mp (wp_capture h faults during)
  | plan stepId => exact wp_inv_iff.mp (wp_planStep h stepId)
  | validate stepId => exact wp_inv_iff.mp (wp_validate h (s.steps stepId))
  | plannerShouldReplay stepId =>
    have hreplay := wp_mono (wp_shouldReplay h (s.steps stepId)) (fun _ _ hs' => hs'.1)
      (fun _ _ hs' => hs')
    exact wp_inv_iff.mp hreplay
  | shouldReplay stepId slot => exact wp_inv_iff.mp (wp_poolShouldReplay h (s.steps stepId) slot)
  | execute stepId slot rows faults => exact wp_inv_iff.mp (wp_execute h stepId slot rows faults)
  | plannerInvalidate reason => exact h.invalidate reason
  | plannerNoteWorkspaceGrowth => exact h.invalidate _
  | invalidate reason => exact h.poolInvalidate reason
  | noteWorkspaceGrowth => exact h.poolInvalidate _
  | cleanup fault => exact wp_inv_iff.mp (wp_cleanup h fault)
  | move live => exact h.move live

theorem Sound.run (calls : List (Call gen)) : (s.run calls).Sound config := by
  have hstep : forall (s : DecodeGraphPool gen) (call : Call gen), s.Sound config ->
      (s.step call).Sound config := fun _ call hs => hs.step call
  exact foldl_invariant hstep h calls

end

/-- In every run, every launched replay is of a complete capture under the generation and
the binding at launch, undisturbed since, in the smallest bucket that holds the step's
padded tokens; and none is launched after the pool has been ended. -/
theorem run_justified (config : Config gen) (live : Live gen) (steps : Nat -> BatchStepPlan)
    (calls : List (Call gen)) :
    Entries (Justified config) ((new config live steps).run calls).log := by
  have hsound := (sound_new config live steps).run calls
  have hjustified := hsound.justified
  rw [hsound.config_eq] at hjustified
  exact hjustified

end Generation

/-! ## What is not latched -/

def smallConfig : Config Nat where
  buckets := [1]
  nonempty := by decide
  positive := by decide
  ascending := by decide
  slots := [0]
  slotsNonempty := by decide
  slotsAscending := by decide
  graphIdentityKey := fun _ _ _ => .ok "decode"

def smallLive : Live Nat where
  generation := some 1
  binding := "kernels"

def smallPool : DecodeGraphPool Nat :=
  new smallConfig smallLive fun _ => { isPureDecode := true, paddedNumTokens := 1 }

/-- A mismatch that `validate` has seen and raised does not keep the plan from being
replayed once the generation is back, and a mismatch the planner saw before the capture
is forgotten by the capture. -/
theorem replayed_after_mismatch :
    (smallPool.run [Call.capture {} smallLive, Call.plan 0,
        Call.move { smallLive with generation := some 2 }, Call.validate 0,
        Call.move smallLive, Call.execute 0 0 1 {}]).log
      = [GraphEvent.replayed 0 1 1 smallLive, GraphEvent.mismatchRaised,
          GraphEvent.captured [(0, 1)] smallLive]
    ∧ (smallPool.run [Call.plan 0, Call.capture {} smallLive, Call.plan 0,
        Call.execute 0 0 1 {}]).log
      = [GraphEvent.replayed 0 1 1 smallLive, GraphEvent.captured [(0, 1)] smallLive,
          GraphEvent.invalidated "generation_mismatch"] := by
  decide +kernel

end DecodeGraphPool
end DecodeGraph
end Ayaka
