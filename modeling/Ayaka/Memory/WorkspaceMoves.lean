import Ayaka.Foundation.Guarded
import Ayaka.Memory.Workspace

/-!
# Moves of the workspace buffer

A call that moves the buffer and then raises reports nothing, and the next call
finds enough room and reports nothing either.  The generation of the buffer starts
anew with every move, so that two buffers report the same numbers, and the buffer
of the constructor is not held to the ceiling.  A manager whose first buffer fits
under the ceiling, and whose buffer does not move after a successful call but to
its first region in a call that goes through, reports every move.
-/

namespace Ayaka
namespace Workspace

open Foundation
open Executor (Failure)
open Ledger (MemoryOwner)
open MathUtils (alignUp)

/-! ## One buffer -/

namespace OwnedBuffer

variable {b : OwnedBuffer} {b' : OwnedBuffer} {arena arena' : Arena} {request : WorkspaceRequest}
  {slice : Slice}

structure Same (b b' : OwnedBuffer) : Prop where
  basePtr : b'.basePtr = b.basePtr
  capacity : b'.capacity = b.capacity
  growths : b'.numGrowths = b.numGrowths
  ceiling : b'.ceiling = b.ceiling
  mayGrow : b'.mayGrow = b.mayGrow
  generation : b.generation ≤ b'.generation

structure Moved (b b' : OwnedBuffer) : Prop where
  buffered : b'.basePtr ≠ none
  growths : b'.numGrowths = b.numGrowths + 1
  ceiling : b'.ceiling = b.ceiling
  bounded : forall ceiling, b.ceiling = some ceiling -> b'.capacity ≤ ceiling
  mayGrow : b.mayGrow = true
  generation : 1 ≤ b'.generation

theorem Same.refl (b : OwnedBuffer) : Same b b :=
  ⟨rfl, rfl, rfl, rfl, rfl, Nat.le_refl _⟩

theorem Same.trans (h : Same b b') (h' : Same b' b'') : Same b b'' :=
  ⟨h'.basePtr.trans h.basePtr, h'.capacity.trans h.capacity, h'.growths.trans h.growths,
    h'.ceiling.trans h.ceiling, h'.mayGrow.trans h.mayGrow,
    Nat.le_trans h.generation h'.generation⟩

theorem Moved.same (h : Moved b b') (h' : Same b' b'') : Moved b b'' where
  __ := h
  buffered := h'.basePtr ▸ h.buffered
  growths := h'.growths.trans h.growths
  ceiling := h'.ceiling.trans h.ceiling
  bounded := fun ceiling hceiling => h'.capacity ▸ h.bounded ceiling hceiling
  generation := Nat.le_trans h.generation h'.generation

theorem same_reset (b : OwnedBuffer) : Same b b.reset := by
  cases harena : b.arena with
  | none => exact ⟨by simp [basePtr, reset, harena], rfl, rfl, rfl, rfl,
      by simp [generation, reset, harena]⟩
  | some arena => exact ⟨by simp [basePtr, reset, harena, Arena.reset], rfl, rfl, rfl, rfl,
      by simp [generation, reset, harena, Arena.reset]⟩

theorem arena_allocate_eq_ok {owner} (h : arena.allocate owner request = .ok (arena', slice)) :
    arena'.basePtr = arena.basePtr ∧ arena'.generation = arena.generation := by
  unfold Arena.allocate at h
  rw [Executor.check_bind_eq_ok_iff, Executor.check_bind_eq_ok_iff] at h
  have hpair := (Prod.mk.inj (Except.ok.inj h.2.2)).1
  rw [<- hpair]
  exact ⟨rfl, rfl⟩

def Carves (owner : MemoryOwner) : Arena -> List WorkspaceRequest -> Prop
  | _, [] => True
  | arena, request :: rest =>
    exists arena' slice, arena.allocate owner request = .ok (arena', slice)
      ∧ Carves owner arena' rest

def Serves (b : OwnedBuffer) (requests : List WorkspaceRequest) : Prop :=
  requests = [] ∨ exists arena, b.arena = some arena ∧ Carves b.owner arena.reset requests

theorem wp_allocate (request : WorkspaceRequest) (b : OwnedBuffer) :
    Wp (allocate request) (fun _ b' => Same b b') (fun _ b' => b' = b) b := by
  unfold allocate
  rw [wp_bind, wp_get]
  cases harena : b.arena with
  | none => rfl
  | some arena =>
    refine wp_query_bind (fun carved hcarved => ?_) fun _ _ => rfl
    have hsame := arena_allocate_eq_ok hcarved
    refine ⟨?_, rfl, rfl, rfl, rfl, ?_⟩
    · simp [basePtr, harena, hsame.1]
    · simp [generation, harena, hsame.2]

/-- A request the arena serves does not fail. -/
theorem wp_allocate_of_eq_ok (harena : b.arena = some arena)
    (h : arena.allocate b.owner request = .ok (arena', slice)) :
    Wp (allocate request) (fun _ b' => b'.arena = some arena' ∧ b'.owner = b.owner ∧ Same b b')
      (fun _ _ => False) b := by
  have hsame := wp_allocate request b
  unfold allocate at hsame ⊢
  rw [wp_bind, wp_get, harena] at hsame ⊢
  rw [wp_bind, wp_query] at hsame ⊢
  refine ⟨fun carved hcarved => ?_, fun exc hexc => ?_⟩
  · rw [h] at hcarved
    have hsame := hsame.1 (arena', slice) h
    rw [<- Except.ok.inj hcarved]
    exact ⟨rfl, rfl, hsame⟩
  · rw [h] at hexc
    cases hexc

/-- Growing moves the buffer to the target, or fails before it does. -/
theorem wp_growTo (required floor : Nat) (cap : Option Nat) (growth : Growth) (b : OwnedBuffer) :
    Wp (growTo required floor cap growth)
      (fun _ b' => exists basePtr, growth.allocated = .ok basePtr
        ∧ b' = b.onto basePtr (target required floor cap))
      (fun _ b' => b' = b ∨ b.arena ≠ none
        ∧ exists basePtr, b' = b.onto basePtr (target required floor cap)) b := by
  refine wp_query_bind (fun basePtr hbase => ?_) fun _ _ => .inl rfl
  rw [wp_bind, wp_get, wp_bind, wp_modify]
  cases harena : b.arena with
  | none => exact ⟨basePtr, hbase, rfl⟩
  | some arena =>
    cases growth.freed with
    | none => exact ⟨basePtr, hbase, rfl⟩
    | some exc => exact .inr ⟨Option.some_ne_none arena, basePtr, rfl⟩

theorem target_le_cap {ceiling : Nat} (h : required ≤ ceiling) :
    target required 0 (some ceiling) ≤ ceiling := by
  show max required (min _ ceiling) ≤ ceiling
  exact max_le h (min_le_right _ _)

theorem moved_onto (hgrow : b.mayReserve required = .ok ()) (basePtr : Nat) :
    Moved b (b.onto basePtr (target required 0 b.ceiling)) := by
  unfold mayReserve at hgrow
  rw [Executor.check_bind_eq_ok_iff, Executor.reject_eq_ok_iff, Executor.reject_eq_ok_iff] at hgrow
  refine ⟨Option.some_ne_none basePtr, rfl, rfl, fun ceiling hceiling => ?_,
    Bool.eq_true_of_not_eq_false hgrow.1, Nat.le_refl _⟩
  rw [hceiling] at hgrow ⊢
  apply target_le_cap
  have hfits := hgrow.2
  rw [Option.any_some, decide_eq_true_eq] at hfits
  exact Nat.le_of_not_lt hfits

/-- Reserving leaves the buffer alone or moves it, and says which; a failure after the
move comes from giving an old region back. -/
theorem wp_reserve (required : Nat) (growth : Growth) (b : OwnedBuffer) :
    Wp (reserve required growth) (fun grew b' => grew = false ∧ b' = b
        ∨ grew = true ∧ b.capacity < required ∧ Moved b b'
          ∧ exists basePtr, growth.allocated = .ok basePtr
            ∧ b' = b.onto basePtr (target required 0 b.ceiling))
      (fun _ b' => b' = b ∨ b.capacity < required ∧ b.arena ≠ none ∧ Moved b b') b := by
  unfold reserve
  refine wp_if (fun _ => .inl ⟨rfl, rfl⟩) fun hsmall => ?_
  have hsmall := Nat.lt_of_not_le hsmall
  refine wp_query_bind (fun _ hgrow => ?_) fun _ _ => .inl rfl
  refine wp_then (wp_growTo required 0 b.ceiling growth b) (fun _ b' hb' => ?_) (fun _ b' hb' => ?_)
  · rcases hb' with ⟨basePtr, hbase, heq⟩
    exact .inr ⟨rfl, hsmall, heq ▸ moved_onto hgrow basePtr, basePtr, hbase, heq⟩
  · cases hb' with
    | inl heq => exact .inl heq
    | inr hmoved =>
      rcases hmoved with ⟨hold, basePtr, heq⟩
      exact .inr ⟨hsmall, hold, heq ▸ moved_onto hgrow basePtr⟩

end OwnedBuffer

namespace WorkspaceManager

open OwnedBuffer (Same Moved Carves Serves)

theorem wp_allocateAll (requests : List WorkspaceRequest) (b : OwnedBuffer) :
    Wp (allocateAll requests) (fun _ b' => Same b b') (fun _ b' => Same b b') b := by
  induction requests generalizing b with
  | nil => exact Same.refl b
  | cons request rest ih =>
    refine wp_then (OwnedBuffer.wp_allocate request b) (fun _ b' hb' => ?_)
      (fun _ b' hb' => hb' ▸ Same.refl b)
    exact wp_then (ih b') (fun _ b'' h => hb'.trans h) (fun _ b'' h => hb'.trans h)

variable {requests : List WorkspaceRequest} {b : OwnedBuffer}

/-- Requests the arena serves do not fail. -/
theorem wp_allocateAll_of_carves (harena : b.arena = some arena)
    (h : Carves b.owner arena requests) :
    Wp (allocateAll requests) (fun _ b' => Same b b') (fun _ _ => False) b := by
  induction requests generalizing b arena with
  | nil => exact Same.refl b
  | cons request rest ih =>
    rcases h with ⟨_, _, hcarved, hrest⟩
    refine wp_seq (OwnedBuffer.wp_allocate_of_eq_ok harena hcarved) fun _ b' hb' => ?_
    rcases hb' with ⟨harena', howner, hsame⟩
    exact wp_seq (ih harena' (howner.symm ▸ hrest)) fun _ _ h => hsame.trans h

theorem wp_allocateAll_of_serves (h : Serves b requests) :
    Wp (allocateAll requests) (fun _ b' => Same b.reset b') (fun _ _ => False) b.reset := by
  cases h with
  | inl hnil =>
    rw [hnil]
    exact Same.refl _
  | inr hserved =>
    rcases hserved with ⟨arena, harena, hcarves⟩
    have hreset : b.reset.arena = some arena.reset := by
      unfold OwnedBuffer.reset
      rw [harena]
      rfl
    exact wp_allocateAll_of_carves hreset hcarves

/-- What carving does to a buffer, returned or raised. -/
theorem wp_carve (requests : List WorkspaceRequest) (growth : Growth) (b : OwnedBuffer) :
    Wp (carve requests growth) (fun out b' => out.1 = false ∧ Same b b'
        ∨ out.1 = true ∧ b.capacity < requiredBytes requests ∧ Moved b b')
      (fun _ b' => Same b b' ∨ b.capacity < requiredBytes requests ∧ Moved b b') b := by
  refine wp_then (OwnedBuffer.wp_reserve (requiredBytes requests) growth b) (fun grew b' hb' => ?_)
    (fun _ b' hb' => ?_)
  · rw [wp_bind, wp_modify, wp_bind]
    have hall := wp_allocateAll requests b'.reset
    cases hb' with
    | inl hsame =>
      rw [hsame.2] at hall ⊢
      refine wp_mono hall (fun _ b'' h => ?_) (fun _ b'' h => ?_)
      · exact .inl ⟨hsame.1, (OwnedBuffer.same_reset b).trans h⟩
      · exact .inl ((OwnedBuffer.same_reset b).trans h)
    | inr hmoved =>
      rcases hmoved with ⟨hgrew, hsmall, hmoved, _⟩
      refine wp_mono hall (fun _ b'' h => ?_) (fun _ b'' h => ?_)
      · exact .inr ⟨hgrew, hsmall, hmoved.same ((OwnedBuffer.same_reset b').trans h)⟩
      · exact .inr ⟨hsmall, hmoved.same ((OwnedBuffer.same_reset b').trans h)⟩
  · cases hb' with
    | inl heq => exact .inl (heq ▸ Same.refl b)
    | inr hmoved => exact .inr ⟨hmoved.1, hmoved.2.2⟩

/-- A buffer that is large enough and serves the requests does not fail. -/
theorem wp_carve_of_serves (hroom : requiredBytes requests ≤ b.capacity)
    (hserves : Serves b requests) (growth : Growth) :
    Wp (carve requests growth) (fun out b' => out.1 = false ∧ Same b b') (fun _ _ => False) b := by
  have hreserve : OwnedBuffer.reserve (requiredBytes requests) growth b = .ok false b := by
    show (if requiredBytes requests ≤ b.capacity then _ else _ : OwnedBuffer.BufferM Bool) b = _
    rw [if_pos hroom]
    rfl
  unfold carve
  rw [wp_bind]
  apply wp_of_run_ok hreserve
  rw [wp_bind, wp_modify]
  exact wp_seq (wp_allocateAll_of_serves hserves)
    fun _ _ h => ⟨rfl, (OwnedBuffer.same_reset b).trans h⟩

variable {growth : Growth}

/-- The first region, if it serves the requests: the call goes through or the buffer is
not moved. -/
theorem wp_carve_first (hfirst : b.arena = none)
    (hserves : forall basePtr, growth.allocated = .ok basePtr ->
      Serves (b.onto basePtr (OwnedBuffer.target (requiredBytes requests) 0 b.ceiling)) requests) :
    Wp (carve requests growth) (fun out b' => out.1 = false ∧ Same b b' ∨ out.1 = true ∧ Moved b b')
      (fun _ b' => Same b b') b := by
  refine wp_then (OwnedBuffer.wp_reserve (requiredBytes requests) growth b) (fun grew b' hb' => ?_)
    (fun _ b' hb' => ?_)
  · rw [wp_bind, wp_modify, wp_bind]
    have hreset := OwnedBuffer.same_reset b'
    cases hb' with
    | inl hsame =>
      rw [hsame.2] at hreset ⊢
      exact wp_mono (wp_allocateAll requests b.reset)
        (fun _ _ h => .inl ⟨hsame.1, hreset.trans h⟩) (fun _ _ h => hreset.trans h)
    | inr hmoved =>
      rcases hmoved with ⟨hgrew, _, hmoved, basePtr, hbase, heq⟩
      have hb' := heq ▸ hserves basePtr hbase
      exact wp_mono (wp_allocateAll_of_serves hb')
        (fun _ _ h => .inr ⟨hgrew, hmoved.same (hreset.trans h)⟩) (fun _ _ h => h.elim)
  · cases hb' with
    | inl heq => exact heq ▸ Same.refl b
    | inr hmoved => exact absurd hfirst hmoved.2.1

/-! ## The manager -/

variable {s : WorkspaceManager}

def withBuffers (workspace activation : OwnedBuffer) (s : WorkspaceManager) : WorkspaceManager :=
  { s with workspace, activation }

/-- A call carves both buffers and books the success; what may have happened to the
workspace buffer when it fails is up to the two carvings. -/
theorem wp_prepare (done : Bool -> OwnedBuffer -> Prop) (failed : OwnedBuffer -> Prop)
    (hstart : failed s.workspace) (hfixed : s.activation.mayGrow = false)
    (hworkspace : Wp (carve (requestsOf .workspace requests) growth)
      (fun out b => done out.1 b) (fun _ b => failed b) s.workspace)
    (hactivation : Wp (carve (requestsOf .activation requests) growth)
      (fun out b => out.1 = false ∧ b.mayGrow = false)
      (fun _ b => b.mayGrow = false ∧ forall grew b', done grew b' -> failed b') s.activation) :
    Wp (prepare requests growth) (fun out t => exists w a, done out.2 w ∧ a.mayGrow = false
        ∧ t = record w.generation out.2 (withBuffers w a s))
      (fun _ t => exists w a, failed w ∧ a.mayGrow = false ∧ t = withBuffers w a s) s := by
  have hunchanged : exists w a, failed w ∧ a.mayGrow = false ∧ s = withBuffers w a s :=
    ⟨s.workspace, s.activation, hstart, hfixed, rfl⟩
  refine wp_query_bind (fun _ _ => ?_) fun _ _ => hunchanged
  refine wp_query_bind (fun _ _ => ?_) fun _ _ => hunchanged
  unfold onWorkspace onActivation
  rw [wp_bind, wp_zoom]
  refine wp_mono hworkspace (fun workspace w hw => ?_)
    (fun _ w hw => ⟨w, s.activation, hw, hfixed, rfl⟩)
  rw [wp_bind, wp_get, wp_bind, wp_zoom]
  refine wp_mono hactivation (fun activation a ha => ?_)
    (fun _ a ha => ⟨w, a, ha.2 workspace.1 w hw, ha.1, rfl⟩)
  have hgrew : (workspace.1 || activation.1) = workspace.1 := by
    rw [ha.1, Bool.or_false]
  rw [hgrew]
  exact ⟨w, a, hw, ha.2, rfl⟩

/-- A record of the time before the buffer, or of the buffer in use. -/
def Known (b : OwnedBuffer) (p : Prepared) : Prop :=
  p.growths = 0 ∧ p.basePtr = none ∧ p.generation = 0
    ∨ p.growths ≠ 0 ∧ p.growths = b.numGrowths ∧ p.basePtr = b.basePtr ∧ p.generation ≠ 0

structure Counted (b : OwnedBuffer) : Prop where
  buffered : b.basePtr = none <-> b.numGrowths = 0
  generation : b.basePtr ≠ none -> b.generation ≠ 0
  bounded : forall ceiling, b.ceiling = some ceiling -> b.capacity ≤ ceiling

/-- Of two successful calls in a row with a move between them the later reports it. -/
def Announced (prepared : List Prepared) : Prop :=
  forall newer q p older, prepared = newer ++ q :: p :: older ->
    p.growths ≠ q.growths -> q.grew = true

structure Honest (s : WorkspaceManager) : Prop where
  fixed : s.activation.mayGrow = false
  steps : s.numSteps = s.prepared.length
  counted : Counted s.workspace
  known : forall p, p ∈ s.prepared -> Known s.workspace p
  current : forall p older, s.prepared = p :: older -> p.growths = s.workspace.numGrowths
  announced : Announced s.prepared

theorem Counted.same (h : Counted b) (hsame : Same b b') : Counted b' where
  buffered := by
    rw [hsame.basePtr, hsame.growths]
    exact h.buffered
  generation := by
    intro hbase
    rw [hsame.basePtr] at hbase
    have hpos := Nat.pos_of_ne_zero (h.generation hbase)
    exact Nat.ne_of_gt (Nat.lt_of_lt_of_le hpos hsame.generation)
  bounded := by
    intro ceiling hceiling
    rw [hsame.ceiling] at hceiling
    rw [hsame.capacity]
    exact h.bounded ceiling hceiling

theorem Counted.moved (hmoved : Moved b b') : Counted b' where
  buffered := by
    rw [hmoved.growths]
    exact ⟨fun hnone => absurd hnone hmoved.buffered, fun hzero => nomatch hzero⟩
  generation := fun _ => Nat.ne_of_gt hmoved.generation
  bounded := by
    intro ceiling hceiling
    rw [hmoved.ceiling] at hceiling
    exact hmoved.bounded ceiling hceiling

theorem Known.same (h : Known b p) (hsame : Same b b') : Known b' p := by
  unfold Known
  rw [hsame.growths, hsame.basePtr]
  exact h

theorem generation_of_unbuffered (h : b.basePtr = none) : b.generation = 0 := by
  unfold OwnedBuffer.generation
  rw [Option.map_eq_none_iff.mp h]
  rfl

theorem Counted.known (h : Counted b) (grew : Bool) :
    Known b { basePtr := b.basePtr, growths := b.numGrowths,
              generation := b.generation, grew } := by
  cases hbase : b.basePtr with
  | none => exact .inl ⟨h.buffered.mp hbase, rfl, generation_of_unbuffered hbase⟩
  | some basePtr =>
    have hne : b.basePtr ≠ none := by
      rw [hbase]
      exact Option.some_ne_none basePtr
    exact .inr ⟨fun hzero => hne (h.buffered.mpr hzero), rfl, hbase.symm, h.generation hne⟩

theorem Announced.cons {prepared} (h : Announced prepared) {q}
    (hq : forall p older, prepared = p :: older -> p.growths ≠ q.growths -> q.grew = true) :
    Announced (q :: prepared) := by
  intro newer q' p older hsplit
  cases newer with
  | nil =>
    rcases List.cons.inj hsplit with ⟨heq, hrest⟩
    rw [<- heq]
    exact hq p older hrest
  | cons first rest => exact h rest q' p older (List.cons.inj hsplit).2

namespace Honest

section

variable (h : Honest s)
include h

theorem same (hsame : Same s.workspace w) (hfixed : a.mayGrow = false) :
    Honest (withBuffers w a s) where
  __ := h
  fixed := hfixed
  counted := h.counted.same hsame
  known := fun p hp => (h.known p hp).same hsame
  current := fun p older hp => (h.current p older hp).trans hsame.growths.symm

/-- Before the first success the buffer may move as it likes. -/
theorem moved (hnone : s.numSteps = 0) (hmoved : Moved s.workspace w) (hfixed : a.mayGrow = false) :
    Honest (withBuffers w a s) := by
  have hnil : s.prepared = [] := List.length_eq_zero_iff.mp (h.steps.symm.trans hnone)
  exact
    { h with
      fixed := hfixed
      counted := Counted.moved hmoved
      known := fun p hp => by
        have hp : p ∈ s.prepared := hp
        rw [hnil] at hp
        cases hp
      current := fun p older hp => absurd (hnil.symm.trans hp) (List.cons_ne_nil p older).symm }

theorem record {grew : Bool}
    (hgrew : forall p older, s.prepared = p :: older -> p.growths ≠ s.workspace.numGrowths ->
      grew = true) : Honest (record s.workspace.generation grew s) where
  __ := h
  steps := congrArg Nat.succ h.steps
  known := by
    intro p hp
    cases List.mem_cons.mp hp with
    | inl heq =>
      rw [heq]
      exact h.counted.known grew
    | inr hold => exact h.known p hold
  current := by
    intro p older hp
    rw [<- (List.cons.inj hp).1]
    rfl
  announced := h.announced.cons hgrew

/-- The first region, taken after calls that needed none. -/
theorem first (hnone : s.workspace.basePtr = none) (hmoved : Moved s.workspace w)
    (hfixed : a.mayGrow = false) :
    Honest (WorkspaceManager.record w.generation true (withBuffers w a s)) := by
  have hzero := h.counted.buffered.mp hnone
  have hcounted := Counted.moved hmoved
  have hold : forall p, p ∈ s.prepared -> Known w p := by
    intro p hp
    cases h.known p hp with
    | inl hbefore => exact .inl hbefore
    | inr hcurrent => exact absurd (hcurrent.2.1.trans hzero) hcurrent.1
  exact
    { fixed := hfixed
      steps := congrArg Nat.succ h.steps
      counted := hcounted
      known := by
        intro p hp
        cases List.mem_cons.mp hp with
        | inl heq =>
          rw [heq]
          exact hcounted.known true
        | inr hearlier => exact hold p hearlier
      current := by
        intro p _ hp
        rw [<- (List.cons.inj hp).1]
        rfl
      announced := h.announced.cons fun _ _ _ _ => rfl }

end

end Honest

/-! ## Runs -/

/-- The workspace buffer has room, or no call succeeded yet, or the buffer gets its first
region in a call that neither carving can stop after the move. -/
def Meets (s : WorkspaceManager) : WorkspaceStep -> Prop
  | .prepare requests growth =>
    let workspace := requestsOf .workspace requests
    let activation := requestsOf .activation requests
    requiredBytes workspace ≤ s.workspace.capacity
      ∨ s.numSteps = 0
      ∨ s.workspace.basePtr = none
        ∧ (forall basePtr, growth.allocated = .ok basePtr ->
            Serves (s.workspace.onto basePtr
              (OwnedBuffer.target (requiredBytes workspace) 0 s.workspace.ceiling)) workspace)
        ∧ requiredBytes activation ≤ s.activation.capacity
        ∧ Serves s.activation activation
  | _ => True

/-- The activation buffer never moves in a step. -/
theorem wp_carve_fixed (hfixed : b.mayGrow = false) (requests : List WorkspaceRequest)
    (growth : Growth) :
    Wp (carve requests growth) (fun out b' => out.1 = false ∧ b'.mayGrow = false)
      (fun _ b' => b'.mayGrow = false) b := by
  refine wp_mono (wp_carve requests growth b) (fun out b' h => ?_) (fun _ b' h => ?_)
  · cases h with
    | inl hsame => exact ⟨hsame.1, hsame.2.mayGrow.trans hfixed⟩
    | inr hmoved =>
      exact absurd (hfixed.symm.trans hmoved.2.2.mayGrow) Bool.false_ne_true
  · cases h with
    | inl hsame => exact hsame.mayGrow.trans hfixed
    | inr hmoved => exact absurd (hfixed.symm.trans hmoved.2.mayGrow) Bool.false_ne_true

/-- A call that may move the buffer only before the first success. -/
theorem honest_prepare (h : Honest s)
    (hroom : requiredBytes (requestsOf .workspace requests) ≤ s.workspace.capacity
      ∨ s.numSteps = 0) :
    Wp (prepare requests growth) (fun _ t => Honest t) (fun _ t => Honest t) s := by
  have hactivation := wp_carve_fixed h.fixed (requestsOf .activation requests) growth
  have hprepare := wp_prepare (fun grew w => grew = false ∧ Same s.workspace w
      ∨ grew = true ∧ s.numSteps = 0 ∧ Moved s.workspace w)
    (fun w => Same s.workspace w ∨ s.numSteps = 0 ∧ Moved s.workspace w)
    (.inl (Same.refl _)) h.fixed ?_
    (wp_mono hactivation (fun _ _ ha => ha) (fun _ _ ha => ⟨ha, fun grew w hw => ?_⟩))
  · refine wp_mono hprepare (fun out t ht => ?_) (fun _ t ht => ?_)
    · rcases ht with ⟨w, a, hw, ha, heq⟩
      rw [heq]
      cases hw with
      | inl hsame =>
        apply (h.same hsame.2 ha).record
        intro p older hp hne
        exact absurd ((h.same hsame.2 ha).current p older hp) hne
      | inr hmoved =>
        apply (h.moved hmoved.2.1 hmoved.2.2 ha).record
        exact fun _ _ _ _ => hmoved.1
    · rcases ht with ⟨w, a, hw, ha, heq⟩
      rw [heq]
      cases hw with
      | inl hsame => exact h.same hsame ha
      | inr hmoved => exact h.moved hmoved.1 hmoved.2 ha
  · have hnone : forall {b : OwnedBuffer},
        s.workspace.capacity < requiredBytes (requestsOf .workspace requests)
          ∧ Moved s.workspace b -> s.numSteps = 0 ∧ Moved s.workspace b := by
      intro b hmoved
      exact ⟨hroom.resolve_left (Nat.not_le_of_lt hmoved.1), hmoved.2⟩
    refine wp_mono (wp_carve _ growth s.workspace) (fun out b hb => ?_) (fun _ b hb => ?_)
    · exact hb.imp id fun hmoved => ⟨hmoved.1, hnone hmoved.2⟩
    · exact hb.imp id hnone
  · exact hw.imp (fun hsame => hsame.2) (fun hmoved => hmoved.2)

/-- A call that takes the first region and cannot fail after it did. -/
theorem honest_prepare_first (h : Honest s) (hnone : s.workspace.basePtr = none)
    (hworkspace : forall basePtr, growth.allocated = .ok basePtr -> Serves (s.workspace.onto basePtr
        (OwnedBuffer.target (requiredBytes (requestsOf .workspace requests)) 0
          s.workspace.ceiling)) (requestsOf .workspace requests))
    (hroom : requiredBytes (requestsOf .activation requests) ≤ s.activation.capacity)
    (hactivation : Serves s.activation (requestsOf .activation requests)) :
    Wp (prepare requests growth) (fun _ t => Honest t) (fun _ t => Honest t) s := by
  have harena : s.workspace.arena = none := Option.map_eq_none_iff.mp hnone
  have hprepare := wp_prepare
    (fun grew w => grew = false ∧ Same s.workspace w ∨ grew = true ∧ Moved s.workspace w)
    (fun w => Same s.workspace w) (Same.refl _) h.fixed
    (wp_carve_first harena hworkspace)
    (wp_mono (wp_carve_of_serves hroom hactivation growth)
      (fun _ _ ha => ⟨ha.1, ha.2.mayGrow.trans h.fixed⟩) (fun _ _ ha => ha.elim))
  refine wp_mono hprepare (fun out t ht => ?_) (fun _ t ht => ?_)
  · rcases ht with ⟨w, a, hw, ha, heq⟩
    rw [heq]
    cases hw with
    | inl hsame =>
      apply (h.same hsame.2 ha).record
      intro p older hp hne
      exact absurd ((h.same hsame.2 ha).current p older hp) hne
    | inr hmoved =>
      rw [hmoved.1]
      exact h.first hnone hmoved.2 ha
  · rcases ht with ⟨w, a, hw, ha, heq⟩
    rw [heq]
    exact h.same hw ha

theorem honest_initialize (h : Honest s) (activationBytes : Nat) (growth : Growth) :
    Wp (initializeActivation activationBytes growth) (fun _ t => Honest t)
      (fun _ t => Honest t) s := by
  have hsame : forall a : OwnedBuffer, a.mayGrow = false -> Honest (withBuffers s.workspace a s) :=
    fun a ha => h.same (Same.refl _) ha
  refine wp_query_bind (fun _ _ => ?_) fun _ _ => h
  refine wp_if (fun _ => h) fun _ => ?_
  unfold onActivation
  rw [wp_zoom]
  refine wp_mono (OwnedBuffer.wp_growTo activationBytes activationBytes none growth s.activation)
    (fun _ a ha => ?_) (fun _ a ha => ?_)
  · rcases ha with ⟨basePtr, _, heq⟩
    apply hsame
    rw [heq]
    exact h.fixed
  · apply hsame
    cases ha with
    | inl heq =>
      rw [heq]
      exact h.fixed
    | inr hmoved =>
      rcases hmoved.2 with ⟨basePtr, heq⟩
      rw [heq]
      exact h.fixed

theorem honest_step (s : WorkspaceManager) (call : WorkspaceStep) (h : Honest s)
    (hmeets : s.Meets call) : Honest (s.step call) := by
  apply wp_inv_iff.mp
  cases call with
  | initializeActivation activationBytes growth => exact honest_initialize h activationBytes growth
  | prepare requests growth =>
    unfold perform
    rw [wp_bind]
    have hprepare : Wp (prepare requests growth) (fun _ t => Honest t) (fun _ t => Honest t) s := by
      rcases hmeets with hroom | hnone | ⟨hnone, hworkspace, hroom, hactivation⟩
      · exact honest_prepare h (.inl hroom)
      · exact honest_prepare h (.inr hnone)
      · exact honest_prepare_first h hnone hworkspace hroom hactivation
    exact wp_mono hprepare (fun _ _ ht => ht) (fun _ _ ht => ht)
  | closeLease leaseId =>
    show Honest (closeLease leaseId s)
    unfold closeLease
    split
    · exact { h with }
    · exact h

/-- Every move shows: a success after a move reports it, two buffers report different
generations, and no buffer is larger than the ceiling.  `numGrowths` counts the moves. -/
structure NeverSilent (s : WorkspaceManager) : Prop where
  announced : forall newer q p older, s.prepared = newer ++ q :: p :: older ->
    p.growths ≠ q.growths -> q.grew = true
  moves : forall p q, p ∈ s.prepared -> q ∈ s.prepared -> p.basePtr ≠ q.basePtr ->
    p.growths ≠ q.growths
  generations : forall p q, p ∈ s.prepared -> q ∈ s.prepared -> p.growths ≠ q.growths ->
    p.generation ≠ q.generation
  bounded : forall ceiling, s.workspace.ceiling = some ceiling ->
    s.workspace.capacity ≤ ceiling

theorem Honest.neverSilent (h : Honest s) : NeverSilent s where
  __ := h
  moves := by
    intro p q hp hq hbase hgrowths
    apply hbase
    rcases h.known p hp with ⟨hpzero, hpnone, _⟩ | ⟨hppos, _, hpbase, _⟩
    · rcases h.known q hq with ⟨_, hqnone, _⟩ | ⟨hqpos, _, _, _⟩
      · rw [hpnone, hqnone]
      · exact absurd (hgrowths.symm.trans hpzero) hqpos
    · rcases h.known q hq with ⟨hqzero, _, _⟩ | ⟨_, _, hqbase, _⟩
      · exact absurd (hgrowths.trans hqzero) hppos
      · rw [hpbase, hqbase]
  generations := by
    intro p q hp hq hgrowths hgeneration
    apply hgrowths
    rcases h.known p hp with ⟨hpzero, _, hpgen⟩ | ⟨_, hpcount, _, hpgen⟩
    · rcases h.known q hq with ⟨hqzero, _, _⟩ | ⟨_, _, _, hqgen⟩
      · rw [hpzero, hqzero]
      · exact absurd (hgeneration.symm.trans hpgen) hqgen
    · rcases h.known q hq with ⟨_, _, hqgen⟩ | ⟨_, hqcount, _, _⟩
      · exact absurd (hgeneration.trans hqgen) hpgen
      · rw [hpcount, hqcount]
  bounded := h.counted.bounded

def FitsCeiling (initialBytes : Nat) (ceiling : Option Nat) : Prop :=
  initialBytes = 0 ∨ forall limit, ceiling = some limit ->
    alignUp (max initialBytes OwnedBuffer.unit) OwnedBuffer.unit ≤ limit

theorem target_uncapped (h : initialBytes ≠ 0) :
    OwnedBuffer.target initialBytes initialBytes none
      = alignUp (max initialBytes OwnedBuffer.unit) OwnedBuffer.unit := by
  unfold OwnedBuffer.target
  dsimp only
  rw [if_neg h, Nat.max_self, Option.elim_none]

theorem honest_init (hfits : FitsCeiling initialBytes ceiling)
    (hinit : init initialBytes growth (blank ceiling) = .ok () s) : Honest s := by
  have hblank : Honest (blank ceiling) :=
    { fixed := rfl
      steps := rfl
      counted := ⟨⟨fun _ => rfl, fun _ => rfl⟩, fun hne => absurd rfl hne, fun _ _ => Nat.zero_le _⟩
      known := fun _ hp => nomatch hp
      current := fun _ _ hp => nomatch hp
      announced := fun newer q p older hp =>
        absurd hp.symm (List.append_ne_nil_of_right_ne_nil _ (List.cons_ne_nil _ _)) }
  have hwp : Wp (init initialBytes growth) (fun _ t => Honest t) (fun _ _ => True)
      (blank ceiling) := by
    refine wp_if (fun _ => hblank) fun hbytes => ?_
    unfold onWorkspace
    rw [wp_zoom]
    refine wp_mono (OwnedBuffer.wp_growTo _ _ _ _ _) (fun _ w hw => ?_) (fun _ _ _ => trivial)
    rcases hw with ⟨basePtr, _, heq⟩
    rw [heq]
    refine hblank.moved rfl ⟨Option.some_ne_none basePtr, rfl, rfl, fun limit hlimit => ?_, rfl,
      Nat.le_refl _⟩ rfl
    have hlimit := hfits.resolve_left hbytes limit hlimit
    rw [<- target_uncapped hbytes] at hlimit
    exact hlimit
  exact wp_run_ok hinit hwp

theorem run_neverSilent (initialBytes : Nat) (ceiling : Option Nat) (growth : Growth)
    (hfits : FitsCeiling initialBytes ceiling)
    (hinit : init initialBytes growth (blank ceiling) = EStateM.Result.ok () s)
    (calls : List WorkspaceStep) (hmeets : Guarded step Meets s calls) :
    NeverSilent (s.run calls) :=
  (hmeets.final honest_step (honest_init hfits hinit)).neverSilent

/-! ## A silent move -/

def request (name : String) (nbytes : Nat) (owner : MemoryOwner) : WorkspaceRequest :=
  { name, nbytes, owner, alignment := 256, power_of_two := ⟨8, rfl⟩ }

def atAddress (basePtr : Nat) : Growth :=
  { allocated := .ok basePtr }

/-- The workspace buffer gets its region when the activation buffer has served a step. -/
def lateRegion : List WorkspaceStep :=
  [.initializeActivation 512 (atAddress 256),
    .prepare [request "hidden" 256 .activation] (atAddress 0), .closeLease 0,
    .prepare [request "scratch" 1024 .workspace] (atAddress 8388608)]

theorem run_neverSilent_late_region :
    NeverSilent ((blank (some 4194304)).run lateRegion)
      ∧ ((blank (some 4194304)).run lateRegion).prepared
        = [{ basePtr := some 8388608, growths := 1, generation := 2, grew := true },
          { basePtr := none, growths := 0, generation := 0, grew := false }] := by
  refine ⟨run_neverSilent 0 (some 4194304) (atAddress 0) (Or.inl rfl) rfl lateRegion ?_, ?_⟩
  · refine ⟨trivial, Or.inl (Nat.zero_le _), trivial, Or.inr (Or.inr ⟨?_, ?_, ?_, Or.inl rfl⟩),
      trivial⟩
    · decide +kernel
    · intro basePtr hallocated
      cases hallocated
      exact Or.inr ⟨_, rfl, _, _, rfl, trivial⟩
    · decide +kernel
  · decide +kernel

/-- The first run moves the buffer in a call that then raises, because no activation
buffer was sized, and the next call reports no move.  In the second run the buffer moves
between two successes that report the same generation.  The constructor of the third
allocates two mebibytes under a ceiling of one hundred bytes. -/
theorem silent_moves :
    ((blank none).run
        [WorkspaceStep.prepare [request "scratch" 1024 MemoryOwner.workspace] (atAddress 256),
          WorkspaceStep.closeLease 0,
          WorkspaceStep.prepare
            [request "scratch" 4194304 MemoryOwner.workspace,
              request "hidden" 1 MemoryOwner.activation] (atAddress 8388608),
          WorkspaceStep.prepare [request "scratch" 1024 MemoryOwner.workspace]
            (atAddress 0)]).prepared
      = [{ basePtr := some 8388608, growths := 2, generation := 3, grew := false },
        { basePtr := some 256, growths := 1, generation := 2, grew := true }]
    ∧ ((blank none).run
        [WorkspaceStep.prepare [request "scratch" 1024 MemoryOwner.workspace] (atAddress 256),
          WorkspaceStep.closeLease 0,
          WorkspaceStep.prepare [request "scratch" 4194304 MemoryOwner.workspace]
            (atAddress 8388608)]).prepared
      = [{ basePtr := some 8388608, growths := 2, generation := 2, grew := true },
        { basePtr := some 256, growths := 1, generation := 2, grew := true }]
    ∧ (finalState (init 1 (atAddress 256) (blank (some 100)))).workspace.capacity = 2097152 := by
  decide +kernel

end WorkspaceManager

end Workspace
end Ayaka
