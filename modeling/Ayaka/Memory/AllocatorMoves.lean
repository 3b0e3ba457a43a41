import Ayaka.Memory.AllocatorView

/-!
# Stretches of allocator events

An operation of an owner performs a stretch of events.  What the other owners need
to know of it is which kinds of events it may have performed and which references
it moved; both facts compose over the parts of an operation.
-/

namespace Ayaka
namespace Memory

open Foundation
open PageAllocationState
open PageEvent (Legal applyAll legal_single)
open PageEvent (acquire drop kinds setValid)

namespace PageEvent

variable {a : PageAllocator}

/-- What no page event changes; `advance` moves the epoch alone. -/
def Frame (a b : PageAllocator) : Prop :=
  b.pageSize = a.pageSize ∧ b.totalPages = a.totalPages ∧ b.currentEpoch = a.currentEpoch

theorem startHead_frame (f : PageMetadata -> PageMetadata) : Frame a (startHead a f) := by
  unfold startHead
  cases a.readyFree with
  | nil => exact ⟨rfl, rfl, rfl⟩
  | cons index rest => exact ⟨rfl, rfl, rfl⟩

theorem popHeap_frame : Frame a (popHeap a) := by
  unfold popHeap
  cases a.reclaimHeap with
  | nil => exact ⟨rfl, rfl, rfl⟩
  | cons entry rest =>
    by_cases h : a.entryCurrent entry
    · simp only [h, if_true]
      exact ⟨rfl, rfl, rfl⟩
    · simp only [h, Bool.false_eq_true, if_false]
      exact ⟨rfl, rfl, rfl⟩

theorem settle_frame {f : PageMetadata -> PageMetadata} : Frame a (a.settle index epoch f) :=
  ⟨a.settle_pageSize .., a.settle_totalPages .., a.settle_currentEpoch ..⟩

theorem apply_frame (event : PageEvent) (a : PageAllocator) :
    (event.apply a).pageSize = a.pageSize ∧ (event.apply a).totalPages = a.totalPages ∧
      ((forall epoch, event ≠ advance epoch) -> (event.apply a).currentEpoch = a.currentEpoch) := by
  have hframe : forall {b}, Frame a b -> b.pageSize = a.pageSize ∧ b.totalPages = a.totalPages ∧
      ((forall epoch, event ≠ advance epoch) -> b.currentEpoch = a.currentEpoch) :=
    fun h => ⟨h.1, h.2.1, fun _ => h.2.2⟩
  cases event with
  | reserve | permanent => exact hframe (startHead_frame _)
  | abandon | leave | drop => exact hframe settle_frame
  | reclaim => exact hframe popHeap_frame
  | advance epoch => exact ⟨rfl, rfl, fun h => absurd rfl (h epoch)⟩
  | _ => exact ⟨rfl, rfl, fun _ => rfl⟩

end PageEvent

namespace PageAllocator

variable {a b c : PageAllocator} {handle : KVPageHandle} {page : PageMetadata}

/-!
## Allowed events
-/

def Follows (allowed : PageEvent -> Prop) (a b : PageAllocator) : Prop :=
  exists events, Legal False a events ∧ b = applyAll a events ∧
    forall event, event ∈ events -> allowed event

namespace Follows

variable {allowed : PageEvent -> Prop}

theorem refl (allowed : PageEvent -> Prop) (a : PageAllocator) : Follows allowed a a :=
  ⟨[], trivial, rfl, fun _ h => by cases h⟩

theorem single (henabled : event.Enabled False a) (hallowed : allowed event) :
    Follows allowed a (event.apply a) := by
  refine ⟨[event], legal_single henabled, rfl, ?_⟩
  intro _ h
  rw [List.mem_singleton.mp h]
  exact hallowed

section

variable (h : Follows allowed a b)
include h

theorem trans (h' : Follows allowed b c) : Follows allowed a c := by
  rcases h with ⟨events, hlegal, rfl, hall⟩
  rcases h' with ⟨later, hlegal', rfl, hall'⟩
  refine ⟨events ++ later, hlegal.append hlegal', (PageEvent.applyAll_append ..).symm, ?_⟩
  intro event hevent
  rcases List.mem_append.mp hevent with h | h
  · exact hall event h
  · exact hall' event h

/-- What every allowed event preserves is preserved. -/
theorem preserves (inv : PageAllocator -> Prop)
    (hstep : forall a event, allowed event -> event.Enabled False a -> inv a ->
      inv (event.apply a)) (ha : inv a) : inv b := by
  rcases h with ⟨_, hlegal, rfl, hall⟩
  exact hlegal.preserves inv (fun a event hevent => hstep a event (hall event hevent)) ha

theorem sound (hsound : Sound a) : Sound b :=
  h.preserves Sound (fun _ _ _ henabled hs => hs.event henabled) hsound

theorem pageSize : b.pageSize = a.pageSize :=
  h.preserves (fun c => c.pageSize = a.pageSize)
    (fun _ event _ _ hc => (event.apply_frame _).1.trans hc) rfl

theorem currentEpoch
    (hstill : forall event, allowed event -> forall epoch, event ≠ .advance epoch) :
    b.currentEpoch = a.currentEpoch :=
  h.preserves (fun c => c.currentEpoch = a.currentEpoch)
    (fun _ event hallowed _ hc => ((event.apply_frame _).2.2 (hstill event hallowed)).trans hc)
    rfl

/-- A page that stays in view keeps its valid tokens. -/
theorem validTokens (hsound : Sound a) (hset : forall event, allowed event -> forall index tokens,
      event ≠ setValid index tokens) (hbefore : a.look handle ≠ {})
    (hafter : b.look handle ≠ {}) : (b.look handle).validTokens = (a.look handle).validTokens := by
  rcases h with ⟨_, hlegal, rfl, hall⟩
  refine validTokens_applyAll hsound hlegal hbefore hafter ?_
  intro tokens hmem
  exact hset _ (hall _ hmem) _ _ rfl

end

end Follows

theorem follows_drop {allowed : PageEvent -> Prop} (h : a.Live handle) (field : RefField)
    (hcount : 0 < (a.look handle).refs field.kind) (epoch : Nat)
    (hallowed : allowed (drop field handle.index epoch)) :
    Follows allowed a ((drop field handle.index epoch).apply a) := by
  have henabled : (drop field handle.index epoch).Enabled False a := by
    refine ⟨h.1.1, h.2, ?_⟩
    rw [RefField.count_eq, <- h.look]
    exact hcount
  exact Follows.single henabled hallowed

/-!
## Moving references

The change of all counters over a stretch of events is told by two lists: the
references gained and the references given up.
-/

/-- From `a` to `b` exactly the listed references were gained and lost. -/
def Moved (a b : PageAllocator) (gained lost : List (RefKind × KVPageHandle)) : Prop :=
  forall kind h, (b.look h).refs kind + lost.count (kind, h) =
    (a.look h).refs kind + gained.count (kind, h)

theorem Moved.refl (a : PageAllocator) : Moved a a [] [] := by
  intro _ _
  rfl

theorem Moved.trans (h : Moved a b gained lost) (h' : Moved b c gained' lost') :
    Moved a c (gained ++ gained') (lost ++ lost') := by
  intro kind page
  have _ := h kind page
  have h2 := h' kind page
  rw [List.count_append, List.count_append]
  omega

theorem count_single (kind kind' : RefKind) (h h' : KVPageHandle) :
    [(kind', h')].count (kind, h) = if kind = kind' ∧ h = h' then 1 else 0 := by
  rw [List.count_singleton]
  by_cases heq : kind = kind' ∧ h = h'
  · rw [if_pos heq, heq.1, heq.2]
    simp
  · rw [if_neg heq, if_neg]
    intro hbeq
    apply heq
    have hpair : (kind', h') = (kind, h) := by simpa using hbeq
    cases hpair
    exact ⟨rfl, rfl⟩

section

variable (hview : b.look = Function.update a.look handle page)
include hview

theorem moved_of_gain (hrefs : forall other, page.refs other =
    (a.look handle).refs other + if other = kind then 1 else 0) :
    Moved a b [(kind, handle)] [] := by
  intro other h
  rw [hview, count_single, List.count_nil]
  by_cases heq : h = handle
  · subst heq
    rw [Function.update_self, hrefs other]
    simp
  · simp [heq]

theorem moved_of_loss (hrefs : forall other, page.refs other + (if other = kind then 1 else 0) =
    (a.look handle).refs other) : Moved a b [] [(kind, handle)] := by
  intro other h
  rw [hview, count_single, List.count_nil]
  by_cases heq : h = handle
  · subst heq
    rw [Function.update_self, <- hrefs other]
    simp
  · simp [heq]

end

def held (kind : RefKind) (pages : List KVPageHandle) : List (RefKind × KVPageHandle) :=
  pages.map (Prod.mk kind)

@[simp] theorem held_nil (kind : RefKind) : held kind [] = [] := rfl

@[simp] theorem held_cons (kind : RefKind) (h : KVPageHandle) (pages : List KVPageHandle) :
    held kind (h :: pages) = [(kind, h)] ++ held kind pages := rfl

theorem count_held (kind kind' : RefKind) (h : KVPageHandle) (pages : List KVPageHandle) :
    (held kind' pages).count (kind, h) = if kind = kind' then pages.count h else 0 := by
  induction pages with
  | nil => simp
  | cons page pages ih =>
    rw [held_cons, List.count_append, count_single, ih, List.count_cons]
    by_cases hkind : kind = kind'
    · by_cases hpage : h = page
      · simp [hkind, hpage, Nat.add_comm]
      · simp [hkind, hpage, Ne.symm hpage]
    · simp [hkind]

section

variable (h : a.Live handle) (field : RefField)
include h

theorem moved_acquire :
    Moved a ((acquire field handle.index).apply a) [(field.kind, handle)] [] := by
  apply moved_of_gain (look_acquire h field)
  intro other
  cases field <;> cases other <;> rfl

theorem Live.sub_active : (field.sub (a.look handle)).Active := by
  unfold PageMetadata.Active
  rw [RefField.sub_allocationState]
  exact steppable_iff.mp h.steppable

theorem moved_drop (hcount : 0 < (a.look handle).refs field.kind) (epoch : Nat) :
    Moved a ((drop field handle.index epoch).apply a) [] [(field.kind, handle)] := by
  apply moved_of_loss (look_drop h field epoch)
  intro other
  rw [PageMetadata.settled_refs (h.sub_active field)]
  by_cases heq : other = field.kind
  · rw [if_pos heq, heq]
    cases field <;> exact Nat.sub_add_cancel hcount
  · rw [if_neg heq, field.sub_refs _ heq, Nat.add_zero]

end

/-!
## Batches
-/

/-- The rule for a batch: one event per page, each gaining and losing one
reference of fixed kinds, under a condition on the pages still to come. -/
theorem batch_moved {repeated : Prop} {event : KVPageHandle -> PageEvent}
    {gain loss : KVPageHandle -> List (RefKind × KVPageHandle)}
    (ready : PageAllocator -> List KVPageHandle -> Prop)
    (hstep : forall a h rest, Sound a -> ready a (h :: rest) ->
      (event h).Enabled repeated a ∧ Moved a ((event h).apply a) (gain h) (loss h) ∧
        ready ((event h).apply a) rest)
    {pages} (hsound : Sound a) (hready : ready a pages) :
    Legal repeated a (pages.map event) ∧
      Moved a (applyAll a (pages.map event)) (pages.flatMap gain) (pages.flatMap loss) := by
  induction pages generalizing a with
  | nil => exact ⟨trivial, Moved.refl a⟩
  | cons h rest ih =>
    rcases hstep a h rest hsound hready with ⟨henabled, hmoved, hnext⟩
    rcases ih (hsound.event henabled) hnext with ⟨hlegal, hrest⟩
    exact ⟨⟨henabled, hlegal⟩, hmoved.trans hrest⟩

theorem flatMap_single (kind : RefKind) (pages : List KVPageHandle) :
    pages.flatMap (fun h => [(kind, h)]) = held kind pages := by
  unfold held
  rw [List.map_eq_flatMap]

theorem flatMap_none (pages : List KVPageHandle) :
    pages.flatMap (fun _ => ([] : List (RefKind × KVPageHandle))) = [] := by
  simp

/-- A reference changes neither the state nor the tokens of any page. -/
theorem look_acquire_kept (h : a.Live handle) (field : RefField) (other : KVPageHandle) :
    (((acquire field handle.index).apply a).look other).allocationState =
        (a.look other).allocationState ∧
      (((acquire field handle.index).apply a).look other).validTokens =
        (a.look other).validTokens := by
  rw [look_acquire h]
  by_cases heq : other = handle
  · rw [heq, Function.update_self]
    cases field with
    | request => exact ⟨rfl, rfl⟩
    | cache => exact ⟨rfl, rfl⟩
    | pin => exact ⟨rfl, rfl⟩
  · rw [Function.update_of_ne heq]
    exact ⟨rfl, rfl⟩

theorem live_acquire (h : a.Live handle) (field : RefField)
    (hother : a.Live other) : ((acquire field handle.index).apply a).Live other := by
  rw [live_iff, (look_acquire_kept h field other).1]
  exact live_iff.mp hother

theorem acquires_moved (repeated : Prop) (field : RefField) {pages}
    (hsound : Sound a) (hlive : forall h, h ∈ pages -> a.Live h) :
    Legal repeated a (pages.map fun h => acquire field h.index) ∧
      Moved a (applyAll a (pages.map fun h => acquire field h.index))
        (held field.kind pages) [] := by
  have hbatch : Legal repeated a (pages.map fun h => acquire field h.index) ∧
      Moved a (applyAll a (pages.map fun h => acquire field h.index))
        (pages.flatMap fun h => [(field.kind, h)]) (pages.flatMap fun _ => []) := by
    refine batch_moved (fun a pages => forall h, h ∈ pages -> a.Live h) ?_ hsound hlive
    intro a h _ _ hready
    have hhead := hready h List.mem_cons_self
    refine ⟨⟨hhead.1.1, hhead.2⟩, moved_acquire hhead field, ?_⟩
    intro page hpage
    exact live_acquire hhead field (hready page (List.mem_cons_of_mem _ hpage))
  rwa [flatMap_single, flatMap_none] at hbatch

/-!
## Beside the prefix cache
-/

/-- What the prefix cache relies on while others use the allocator. -/
structure Undisturbed (a b : PageAllocator) : Prop where
  sound : Sound b
  pageSize : b.pageSize = a.pageSize
  refs : forall h, (b.look h).refs .cache = (a.look h).refs .cache
  tokens : forall h, 0 < (a.look h).refs .cache ->
    (b.look h).validTokens = (a.look h).validTokens

theorem Undisturbed.refl (hsound : Sound a) : Undisturbed a a :=
  ⟨hsound, rfl, fun _ => rfl, fun _ _ => rfl⟩

theorem cache_notMem_kinds {event : PageEvent} (h : event.SparesCache) : .cache ∉ event.kinds := by
  cases event with
  | acquire field | drop field =>
    cases field with
    | cache => exact absurd rfl h
    | request | pin => simp [kinds, RefField.kind]
  | _ => simp [kinds]

theorem undisturbed_applyAll {repeated : Prop} {events : List PageEvent} (hsound : Sound a)
    (hlegal : Legal repeated a events)
    (hspares : forall event, event ∈ events -> event.SparesCache) :
    Undisturbed a (applyAll a events) := by
  have hrefs := fun h => refs_applyAll hsound hlegal
    (fun event hevent => cache_notMem_kinds (hspares event hevent)) h
  constructor
  case sound => exact hlegal.preserves Sound (fun _ _ _ henabled hs => hs.event henabled) hsound
  case pageSize =>
    exact hlegal.preserves (fun b => b.pageSize = a.pageSize)
      (fun _ event _ _ hb => (event.apply_frame _).1.trans hb) rfl
  case refs => exact hrefs
  case tokens =>
    intro h hpos
    refine validTokens_applyAll hsound hlegal (look_ne_of_refs .cache hpos)
      (look_ne_of_refs .cache (by rw [hrefs]; exact hpos)) ?_
    intro tokens hmem
    exact hspares _ hmem

end PageAllocator

/-- A call of another owner: it takes no cache reference, drops none, and sets the
token count of a page only while the cache does not hold it or to the count it has. -/
def AllocatorCall.Beside (call : AllocatorCall) (a : PageAllocator) : Prop :=
  match call with
  | .setValidTokens page tokens =>
    (a.look page).refs .cache = 0 ∨ tokens = (a.look page).validTokens
  | call => call.SparesCache

namespace PageAllocator

variable {a : PageAllocator}

theorem setValidTokens_undisturbed (hsound : Sound a) {page}
    {validTokens : Int} (hpage : (a.look page).refs .cache = 0 ∨
      validTokens = (a.look page).validTokens) :
    Undisturbed a ((AllocatorCall.setValidTokens page validTokens).step a) := by
  have hstep : (AllocatorCall.setValidTokens page validTokens).step a =
      finalState (setValidTokens page validTokens a) := finalState_bind_pure _ _ _
  rw [hstep]
  by_cases h : (0 ≤ validTokens ∧ validTokens ≤ a.pageSize) ∧ a.Steppable page
  · rw [setValidTokens_run h.1 h.2, finalState_ok]
    have henabled : (setValid page.index validTokens.toNat).Enabled False a :=
      ⟨h.2.1.1, h.2.2, by omega⟩
    constructor
    case sound => exact hsound.event henabled
    case pageSize => rfl
    case refs => exact refs_apply hsound henabled (by simp [kinds])
    case tokens =>
      intro other hpos
      rw [look_setValid h.2]
      by_cases heq : other = page
      · rw [heq, Function.update_self]
        rcases hpage with hnone | hsame
        · rw [heq, hnone] at hpos
          cases hpos
        · rw [hsame]
          exact Int.toNat_natCast _
      · rw [Function.update_of_ne heq]
  · rcases setValidTokens_error h with ⟨_, herror⟩
    rw [herror]
    exact Undisturbed.refl hsound

theorem beside_undisturbed (hsound : Sound a) {call : AllocatorCall}
    (h : call.Beside a) : Undisturbed a (call.step a) := by
  by_cases hspares : call.SparesCache
  · rcases AllocatorCall.exists_performed True hsound call (fun hnot => absurd trivial hnot) with
      ⟨_, hperformed⟩
    rw [hperformed.final]
    exact undisturbed_applyAll hsound hperformed.legal (hperformed.spares hspares)
  · cases call with
    | setValidTokens page validTokens => exact setValidTokens_undisturbed hsound h
    | _ => exact absurd h hspares

end PageAllocator

end Memory
end Ayaka
