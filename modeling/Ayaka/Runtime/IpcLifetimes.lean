import Ayaka.Foundation.Guarded
import Ayaka.Runtime.IpcRegions

/-!
# Lifetimes of exported regions

Acknowledgements are kept for an allocation and not for an export.  An export that
names a peer whose close was confirmed earlier does not wait for it again, and an
export of an allocation that is being released hands out a descriptor no release
takes back.  Without such exports a reference is dropped only after everything its
exports waited for.
-/

namespace Ayaka
namespace Runtime

open Foundation
open Executor (Failure)
open RegionEvent

/-! ## Histories -/

def RegionEvent.isExportOf (d : IpcRegionDescriptor) : RegionEvent -> Bool
  | exported descriptor _ => decide (descriptor = d)
  | _ => false

/-- Everything that was exported is released, no hold is left, and every peer an export
named confirmed its close after that export.  The latest event comes first. -/
structure Quiet (history : List RegionEvent) : Prop where
  released : forall d, history.countP (RegionEvent.isExportOf d)
    = history.count (.released d)
  unheld : history.count .held = history.count .unheld
  confirmed : forall later d peers earlier,
    history = later ++ exported d peers :: earlier ->
      forall rank, rank ∈ peers -> .confirmed rank ∈ later

/-- A peer an export named is waited for, and an acknowledgement that counts came after
the export. -/
def Waits (pending acked : List Int) (history : List RegionEvent) : Prop :=
  forall later d peers earlier,
    history = later ++ exported d peers :: earlier ->
      forall rank, rank ∈ peers ->
        rank ∈ pending ∧ (rank ∈ acked -> .confirmed rank ∈ later)

theorem Waits.cons (h : Waits pending acked history)
    (hpending : forall rank, rank ∈ pending -> rank ∈ pending')
    (hacked : forall rank, rank ∈ acked' -> rank ∈ acked ∨ event = .confirmed rank)
    (hexport : forall d peers, event = exported d peers ->
    forall rank, rank ∈ peers -> rank ∈ pending' ∧ rank ∉ acked') :
    Waits pending' acked' (event :: history) := by
  intro later d peers earlier hsplit rank hrank
  cases later with
  | nil =>
    have hnew := hexport d peers (List.cons.inj hsplit).1 rank hrank
    exact ⟨hnew.1, fun hack => absurd hack hnew.2⟩
  | cons first rest =>
    rcases List.cons.inj hsplit with ⟨hfirst, hrest⟩
    have hold := h rest d peers earlier hrest rank hrank
    refine ⟨hpending rank hold.1, fun hack => ?_⟩
    cases hacked rank hack with
    | inl hbefore => exact List.mem_cons_of_mem _ (hold.2 hbefore)
    | inr hnow => exact List.mem_cons.mpr (.inl (hnow.symm.trans hfirst))

/-- What an entry knows of its history. -/
structure Kept (key : List UInt8) (entry : ExportedRegion) : Prop where
  handle : entry.handle = key
  descriptors : forall d, d ∈ entry.descriptors -> d.handle = key
  closing : entry.closing = true -> entry.descriptors = []
  counts : forall d, entry.history.countP (RegionEvent.isExportOf d)
    = entry.history.count (.released d) + entry.descriptors.count d
  holds : entry.history.count .held
    = entry.history.count .unheld + entry.holds
  waits : Waits entry.pendingPeers entry.ackedPeers entry.history

namespace Kept

variable {key : List UInt8} {entry : ExportedRegion}

theorem quiet (h : Kept key entry) (hdescriptors : entry.descriptors = [])
    (hblockers : entry.blockers = []) : Quiet entry.history := by
  unfold ExportedRegion.blockers at hblockers
  rw [List.append_eq_nil_iff, List.append_eq_nil_iff] at hblockers
  rcases hblockers with ⟨⟨hholds, _⟩, hpeers⟩
  have hholds : entry.holds = 0 := by
    by_contra hne
    rw [if_pos hne] at hholds
    cases hholds
  have hpeers : entry.outstandingPeers = [] := by
    by_contra hne
    rw [if_pos hne] at hpeers
    cases hpeers
  refine ⟨fun d => ?_, ?_, fun later d peers earlier hsplit rank hrank => ?_⟩
  · rw [h.counts d, hdescriptors, List.count_nil, Nat.add_zero]
  · rw [h.holds, hholds, Nat.add_zero]
  · rcases h.waits later d peers earlier hsplit rank hrank with ⟨hpending, hconfirmed⟩
    apply hconfirmed
    by_contra hnot
    have hmem : rank ∈ entry.outstandingPeers :=
      List.mem_filter.mpr ⟨hpending, decide_eq_true hnot⟩
    rw [hpeers] at hmem
    cases hmem

theorem new (tensor : Tensor) (native : NativeExport) (peers : List Int) :
    Kept native.handle
      { handle := native.handle
        allocationNbytes := native.allocationNbytes
        device := native.device
        owner := tensor
        pendingPeers := peers } where
  handle := rfl
  descriptors := fun _ h => nomatch h
  closing := fun h => nomatch h
  counts := fun _ => rfl
  holds := rfl
  waits := by
    intro _ _ peers _ hsplit
    exact absurd hsplit.symm (List.append_ne_nil_of_right_ne_nil _ (List.cons_ne_nil _ _))

theorem morePeers (h : Kept key entry) (peers : List Int) :
    Kept key { entry with pendingPeers := entry.pendingPeers ∪ peers } :=
  { h with
    waits := by
      intro later d named earlier hsplit rank hrank
      have hold := h.waits later d named earlier hsplit rank hrank
      exact ⟨List.mem_union_left hold.1 peers, hold.2⟩ }

variable {descriptor : IpcRegionDescriptor}

section

variable (h : Kept key entry)
include h

theorem issued (hkey : descriptor.handle = key) (hopen : entry.closing = false)
    (hpeers : forall rank, rank ∈ peers -> rank ∈ entry.pendingPeers ∧ rank ∉ entry.ackedPeers) :
    Kept key { entry with
        descriptors := entry.descriptors ++ [descriptor]
        history := exported descriptor peers :: entry.history } where
  __ := h
  descriptors := by
    intro d hd
    cases List.mem_append.mp hd with
    | inl hold => exact h.descriptors d hold
    | inr hnew => rw [List.mem_singleton.mp hnew]; exact hkey
  closing := fun hclosing => absurd (hopen.symm.trans hclosing) Bool.false_ne_true
  counts := by
    intro d
    have hold := h.counts d
    simp only [List.countP_cons, List.count_cons, List.count_append, RegionEvent.isExportOf,
      List.count_nil, beq_iff_eq, decide_eq_true_eq, reduceCtorEq, if_false] at hold ⊢
    omega
  holds := by
    simp only [List.count_cons, beq_iff_eq, reduceCtorEq, if_false]
    exact h.holds
  waits := by
    apply h.waits.cons (fun _ hrank => hrank) (fun _ hrank => .inl hrank)
    intro d _ heq rank hrank
    rw [(exported.inj heq).2] at hpeers
    exact hpeers rank hrank

theorem released (hmem : descriptor ∈ entry.descriptors) : Kept key { entry with
        descriptors := entry.descriptors.erase descriptor
        closing := (entry.descriptors.erase descriptor).isEmpty
        history := .released descriptor :: entry.history } where
  __ := h
  descriptors := fun d hd => h.descriptors d (List.mem_of_mem_erase hd)
  closing := List.isEmpty_iff.mp
  counts := by
    intro d
    have hold := h.counts d
    have hone := List.count_pos_iff.mpr hmem
    simp only [List.countP_cons, List.count_cons, RegionEvent.isExportOf, List.count_erase,
      beq_iff_eq, RegionEvent.released.injEq, reduceCtorEq, if_false] at hold ⊢
    by_cases heq : descriptor = d
    · subst heq
      simp only [if_true]
      omega
    · simp only [if_neg heq]
      omega
  holds := by
    simp only [List.count_cons, beq_iff_eq, reduceCtorEq, if_false]
    exact h.holds
  waits := h.waits.cons (fun _ hrank => hrank) (fun _ hrank => .inl hrank)
    (fun _ _ heq => nomatch heq)

theorem confirmed (rank : Int) : Kept key { entry with
        ackedPeers := entry.ackedPeers.insert rank
        history := .confirmed rank :: entry.history } where
  __ := h
  counts := by
    intro d
    simp only [List.countP_cons, List.count_cons, RegionEvent.isExportOf, beq_iff_eq,
      reduceCtorEq, if_false]
    exact h.counts d
  holds := by
    simp only [List.count_cons, beq_iff_eq, reduceCtorEq, if_false]
    exact h.holds
  waits := by
    refine h.waits.cons (fun _ hrank => hrank) (fun other hother => ?_) (fun _ _ heq => nomatch heq)
    cases List.mem_insert_iff.mp hother with
    | inl heq => exact Or.inr (congrArg RegionEvent.confirmed heq.symm)
    | inr hold => exact .inl hold

theorem holding (hevent : event = .held ∨ event = .unheld)
    (hholds : (event :: entry.history).count .held = (event :: entry.history).count .unheld + n) :
    Kept key { entry with holds := n, history := event :: entry.history } where
  __ := h
  counts := by
    intro d
    rcases hevent with rfl | rfl <;> simpa [RegionEvent.isExportOf] using h.counts d
  holds := hholds
  waits := h.waits.cons (fun _ hrank => hrank) (fun _ hrank => .inl hrank)
    (fun _ _ heq => by simp [heq] at hevent)

theorem held : Kept key { entry with
        holds := entry.holds + 1
        history := .held :: entry.history } := by
  refine h.holding (.inl rfl) ?_
  simp [h.holds, Nat.add_assoc]

theorem unheld (hholds : entry.holds ≠ 0) : Kept key { entry with
        holds := entry.holds - 1
        history := .unheld :: entry.history } := by
  refine h.holding (.inr rfl) ?_
  simp [h.holds]
  omega

end

end Kept

/-! ## The registry -/

namespace IpcRegionRegistry

def outstanding (s : IpcRegionRegistry) (d : IpcRegionDescriptor) : Nat :=
  (s.exports.get? d.handle).elim 0 fun entry => entry.descriptors.count d

structure Sound (s : IpcRegionRegistry) : Prop where
  kept : forall key entry, s.exports.get? key = some entry -> Kept key entry
  dropped : forall history, history ∈ s.dropped -> Quiet history
  counts : forall d, s.issued.count d = s.returned.count d + s.outstanding d

variable {s : IpcRegionRegistry} {key : List UInt8} {entry : ExportedRegion}

theorem sound_new (sessionGeneration : Option (Int × Int)) : Sound (new sessionGeneration) where
  kept := fun _ _ h => nomatch h
  dropped := fun _ h => nomatch h
  counts := fun _ => rfl

/-- One entry replaced, and with it what was handed out and taken back. -/
theorem Sound.withEntry (h : Sound s) (hkept : Kept key entry)
    (hexports : t.exports = s.exports.set key entry) (hdropped : t.dropped = s.dropped)
    (hother : forall d, d.handle ≠ key ->
    t.issued.count d = s.issued.count d ∧ t.returned.count d = s.returned.count d)
    (hcounts : forall d, d.handle = key ->
    t.issued.count d = t.returned.count d + entry.descriptors.count d) : Sound t where
  kept := by
    intro other found hfound
    rw [hexports, Dict.get?_set] at hfound
    split at hfound
    · next heq =>
      rw [<- Option.some.inj hfound, heq]
      exact hkept
    · exact h.kept other found hfound
  dropped := by
    rw [hdropped]
    exact h.dropped
  counts := by
    intro d
    unfold outstanding
    rw [hexports, Dict.get?_set]
    by_cases heq : d.handle = key
    · rw [if_pos heq]
      exact hcounts d heq
    · rw [if_neg heq, (hother d heq).1, (hother d heq).2]
      exact h.counts d

theorem exports_withEntry (hkept : Kept key entry) :
    (withEntry entry s).exports = s.exports.set key entry := by
  rw [<- hkept.handle]
  rfl

variable {d : IpcRegionDescriptor}

theorem Sound.count_of_get (h : Sound s) (hget : s.exports.get? key = some entry)
    (hd : d.handle = key) : s.issued.count d = s.returned.count d + entry.descriptors.count d := by
  have hcounts := h.counts d
  unfold outstanding at hcounts
  rw [hd, hget] at hcounts
  exact hcounts

/-- An entry that keeps its descriptors. -/
theorem Sound.replace (h : Sound s)
    (hget : s.exports.get? key = some found) (hkept : Kept key entry)
    (hdescriptors : entry.descriptors = found.descriptors) : Sound (s.withEntry entry) := by
  apply h.withEntry hkept (exports_withEntry hkept) rfl (fun _ _ => ⟨rfl, rfl⟩)
  intro _ hd
  rw [hdescriptors]
  exact h.count_of_get hget hd

/-! ### Exporting -/

/-- An export finds no entry, or one that is not being released and that has none of the
peers acknowledged yet. -/
def Admits (s : IpcRegionRegistry) (handle : List UInt8) (peers : List Int) : Prop :=
  forall entry, s.exports.get? handle = some entry ->
    entry.closing = false ∧ forall rank, rank ∈ peers -> rank ∉ entry.ackedPeers

/-- An entry an export may add a descriptor to. -/
structure Ready (s : IpcRegionRegistry) (key : List UInt8) (peers : List Int)
    (entry : ExportedRegion) : Prop where
  sound : Sound s
  found : s.exports.get? key = some entry
  unclosed : entry.closing = false
  waits : forall rank, rank ∈ peers -> rank ∈ entry.pendingPeers ∧ rank ∉ entry.ackedPeers

theorem wp_enter (h : Sound s) (tensor : Tensor) (hadmits : s.Admits native.handle peers) :
    Wp (enter tensor native peers) (fun entry t => t.Ready native.handle peers entry)
      (fun _ t => t = s) s := by
  unfold enter
  rw [wp_bind, wp_get]
  cases hget : s.exports.get? native.handle with
  | none =>
    have hnone : forall d : IpcRegionDescriptor, d.handle = native.handle ->
        s.issued.count d = s.returned.count d + 0 := by
      intro d hd
      have hcounts := h.counts d
      unfold outstanding at hcounts
      rw [hd, hget] at hcounts
      exact hcounts
    have hkept := Kept.new tensor native peers
    exact
      { sound := h.withEntry hkept rfl rfl (fun _ _ => ⟨rfl, rfl⟩) hnone
        found := Dict.get?_set_self _ _ _
        unclosed := rfl
        waits := fun rank hrank => ⟨hrank, List.not_mem_nil⟩ }
  | some found =>
    have hkept := (h.kept _ _ hget).morePeers peers
    have hopen := hadmits found hget
    dsimp only
    refine wp_query_bind (fun _ _ => ?_) fun _ _ => rfl
    rw [wp_bind, wp_modify, wp_pure]
    exact
      { sound := h.replace hget hkept rfl
        found := by
          rw [exports_withEntry hkept]
          exact Dict.get?_set_self _ _ _
        unclosed := hopen.1
        waits := fun rank hrank =>
          ⟨List.mem_union_iff.mpr (.inr hrank), hopen.2 rank hrank⟩ }

theorem Ready.issue (h : Ready s key peers entry) (hkey : descriptor.handle = key) :
    Sound (issue entry descriptor peers s) := by
  have hkept := (h.sound.kept _ _ h.found).issued hkey h.unclosed h.waits
  have hexports := exports_withEntry hkept (s := s)
  refine h.sound.withEntry hkept hexports rfl (fun d hd => ?_) (fun d hd => ?_)
  · refine ⟨List.count_cons_of_ne ?_, rfl⟩
    intro heq
    exact hd (heq ▸ hkey)
  · have hcount := h.sound.count_of_get h.found hd
    show (descriptor :: s.issued).count d = s.returned.count d
      + (entry.descriptors ++ [descriptor]).count d
    rw [List.count_append, List.count_cons, hcount, List.count_cons, List.count_nil]
    omega

theorem sound_exportRegion (h : Sound s)
    (hadmits : forall nbytes native peers, inspect call = .ok (nbytes, native, peers) ->
    s.Admits native.handle peers) :
    Wp (exportRegion call) (fun _ t => Sound t) (fun _ t => Sound t) s := by
  unfold exportRegion
  refine wp_query_bind (fun found hfound => ?_) fun _ _ => h
  rcases found with ⟨nbytes, native, peers⟩
  dsimp only
  refine wp_then (wp_enter h call.tensor (hadmits nbytes native peers hfound))
    (fun entry t ht => ?_) (fun _ t ht => ht ▸ h)
  rw [wp_bind, wp_get]
  refine wp_query_bind (fun _ _ => ?_) fun _ _ => ht.sound
  rw [wp_bind, wp_modify, wp_pure]
  exact ht.issue rfl

/-! ### Releasing -/

theorem findExportEntry_eq_ok (h : s.findExportEntry d = .ok entry) :
    s.exports.get? d.handle = some entry := by
  unfold findExportEntry at h
  cases hget : s.exports.get? d.handle with
  | none =>
    rw [hget] at h
    cases h
  | some found =>
    rw [hget] at h
    rw [Except.ok.inj h]

theorem findExport_eq_ok_iff :
    s.findExport d = .ok entry <-> s.findExportEntry d = .ok entry ∧ d ∈ entry.descriptors := by
  unfold findExport
  rw [except_bind_eq_ok_iff]
  constructor
  · intro h
    rcases h with ⟨_, hfound, hcheck⟩
    rw [Executor.check_bind_eq_ok_iff, Executor.reject_eq_ok_iff, not_not] at hcheck
    rw [<- Except.ok.inj hcheck.2]
    exact ⟨hfound, hcheck.1⟩
  · intro h
    refine ⟨entry, h.1, ?_⟩
    rw [Executor.check_bind_eq_ok_iff, Executor.reject_eq_ok_iff, not_not]
    exact ⟨h.2, rfl⟩

theorem Sound.drop (h : Sound s) (hget : s.exports.get? key = some entry)
    (hdescriptors : entry.descriptors = []) (hblockers : entry.blockers = []) :
    Sound (drop entry s) := by
  have hkept := h.kept _ _ hget
  refine ⟨fun other found hfound => ?_, fun history hhistory => ?_, fun d => ?_⟩
  · have hfound : (s.exports.erase entry.handle).get? other = some found := hfound
    rw [Dict.get?_erase] at hfound
    split at hfound
    · cases hfound
    · exact h.kept other found hfound
  · cases List.mem_cons.mp hhistory with
    | inl heq =>
      rw [heq]
      exact hkept.quiet hdescriptors hblockers
    | inr hold => exact h.dropped history hold
  · show s.issued.count d = s.returned.count d
      + ((s.exports.erase entry.handle).get? d.handle).elim 0 fun e => e.descriptors.count d
    rw [Dict.get?_erase, hkept.handle]
    by_cases heq : d.handle = key
    · rw [if_pos heq, h.count_of_get hget heq, hdescriptors, List.count_nil]
      rfl
    · rw [if_neg heq]
      exact h.counts d

/-- Settling keeps the registry sound, dropped or not, and takes back nothing. -/
theorem wp_settle (hkept : Kept key entry) (h : Sound (s.withEntry entry)) :
    Wp (settle entry) (fun _ t => Sound t ∧ t.returned = s.returned)
      (fun _ t => Sound t ∧ t.returned = s.returned) s := by
  have hget : (s.withEntry entry).exports.get? key = some entry := by
    rw [exports_withEntry hkept]
    exact Dict.get?_set_self _ _ _
  unfold settle
  rw [wp_bind, wp_modify]
  unfold tryFinalizeExport
  refine wp_if (fun _ => ⟨h, rfl⟩) fun hclosing => ?_
  refine wp_if (fun _ => ⟨h, rfl⟩) fun hblockers => ?_
  rw [not_or, not_not] at hclosing
  exact ⟨h.drop hget hclosing.2 (not_not.mp hblockers), rfl⟩

def withoutDescriptor (d : IpcRegionDescriptor) (entry : ExportedRegion) : ExportedRegion :=
  { entry with
    descriptors := entry.descriptors.erase d
    closing := (entry.descriptors.erase d).isEmpty
    history := .released d :: entry.history }

section

variable (h : Sound s)
include h

theorem Sound.withoutDescriptor (hget : s.exports.get? d.handle = some entry)
    (hmem : d ∈ entry.descriptors) :
    Sound (({ s with returned := d :: s.returned } : IpcRegionRegistry).withEntry
      (withoutDescriptor d entry)) := by
  have hkept : Kept d.handle (IpcRegionRegistry.withoutDescriptor d entry) :=
    (h.kept _ _ hget).released hmem
  have hexports := exports_withEntry hkept (s := { s with returned := d :: s.returned })
  refine h.withEntry hkept hexports rfl (fun other hother => ?_) (fun other hother => ?_)
  · refine ⟨rfl, List.count_cons_of_ne ?_⟩
    intro heq
    exact hother (heq ▸ rfl)
  · have hcount := h.count_of_get hget hother
    have hone := List.count_pos_iff.mpr hmem
    show s.issued.count other = (d :: s.returned).count other
      + (entry.descriptors.erase d).count other
    rw [List.count_cons, List.count_erase, hcount]
    by_cases heq : d = other
    · subst heq
      simp only [beq_self_eq_true, if_true]
      omega
    · simp only [beq_iff_eq, if_neg heq]
      omega

/-- A release is refused without effect, or it takes the descriptor back, whether the
call then returns or raises. -/
theorem wp_release (d : IpcRegionDescriptor) : Wp (release d)
      (fun _ t => Sound t ∧ t.returned = d :: s.returned)
      (fun _ t => Sound t ∧ (t.returned = d :: s.returned ∨ s.outstanding d = 0)) s := by
  unfold release
  refine wp_query_bind (fun entry hfound => ?_) fun exc hfail => ⟨h, .inr ?_⟩
  · rcases findExport_eq_ok_iff.mp hfound with ⟨hentry, hmem⟩
    have hget := findExportEntry_eq_ok hentry
    have hkept := h.kept _ _ hget
    refine wp_if (fun hclosing => ?_) fun _ => ?_
    · rw [hkept.closing hclosing] at hmem
      cases hmem
    · rw [wp_bind, wp_modify]
      exact wp_mono (wp_settle (hkept.released hmem) (h.withoutDescriptor hget hmem))
        (fun _ t ht => ht) (fun _ t ht => ⟨ht.1, .inl ht.2⟩)
  · unfold outstanding
    cases hget : s.exports.get? d.handle with
    | none => rfl
    | some entry =>
      apply List.count_eq_zero.mpr
      intro hmem
      have hentry : s.findExportEntry d = .ok entry := by
        unfold findExportEntry
        rw [hget]
        rfl
      rw [findExport_eq_ok_iff.mpr ⟨hentry, hmem⟩] at hfail
      cases hfail

theorem sound_settled (hget : s.exports.get? key = some found)
    (hkept : Kept key entry) (hdescriptors : entry.descriptors = found.descriptors) :
    Wp (settle entry) (fun _ t => Sound t) (fun _ t => Sound t) s :=
  wp_mono (wp_settle hkept (h.replace hget hkept hdescriptors))
    (fun _ _ ht => ht.1) (fun _ _ ht => ht.1)

section

variable (d : IpcRegionDescriptor)

theorem sound_confirmClose (rank : Int) :
    Wp (confirmClose d rank) (fun _ t => Sound t) (fun _ t => Sound t) s := by
  unfold confirmClose
  refine wp_query_bind (fun _ _ => ?_) fun _ _ => h
  refine wp_query_bind (fun found hfound => ?_) fun _ _ => h
  have hget := findExportEntry_eq_ok hfound
  exact sound_settled h hget ((h.kept _ _ hget).confirmed rank) rfl

theorem sound_hold : Wp (hold d) (fun _ t => Sound t) (fun _ t => Sound t) s := by
  unfold hold
  refine wp_query_bind (fun found hfound => ?_) fun _ _ => h
  have hget := findExportEntry_eq_ok (findExport_eq_ok_iff.mp hfound).1
  rw [wp_modify]
  exact h.replace hget (h.kept _ _ hget).held rfl

theorem sound_unhold : Wp (unhold d) (fun _ t => Sound t) (fun _ t => Sound t) s := by
  unfold unhold
  refine wp_query_bind (fun found hfound => ?_) fun _ _ => h
  refine wp_query_bind (fun _ hheld => ?_) fun _ _ => h
  have hget := findExportEntry_eq_ok hfound
  exact sound_settled h hget ((h.kept _ _ hget).unheld (Executor.reject_eq_ok_iff.mp hheld)) rfl

end

end

/-! ## Runs -/

/-- Every export finds no entry, or one it may add to. -/
def Meets (s : IpcRegionRegistry) : RegistryStep -> Prop
  | .exportRegion call =>
    forall nbytes native peers, inspect call = .ok (nbytes, native, peers) ->
      s.Admits native.handle peers
  | _ => True

theorem sound_step (s : IpcRegionRegistry) (call : RegistryStep) (h : Sound s)
    (hmeets : s.Meets call) : Sound (s.step call) := by
  apply wp_inv_iff.mp
  cases call with
  | exportRegion call =>
    unfold perform
    exact wp_seq (sound_exportRegion h hmeets) fun _ _ ht => ht
  | release d => exact wp_mono (wp_release h d) (fun _ _ ht => ht.1) (fun _ _ ht => ht.1)
  | confirmClose d rank => exact sound_confirmClose h d rank
  | hold d => exact sound_hold h d
  | unhold d => exact sound_unhold h d

/-- A dropped allocation was quiet, and a descriptor that is out can be released: the
call takes it back, whether it returns or is refused for what is still awaited. -/
structure Outlives (s : IpcRegionRegistry) : Prop where
  quiet : forall history, history ∈ s.dropped -> Quiet history
  releasable : forall d, s.returned.count d < s.issued.count d ->
    (finalState (release d s)).returned = d :: s.returned

theorem Sound.outlives (h : Sound s) : Outlives s where
  quiet := h.dropped
  releasable := by
    intro d _
    have hcounts := h.counts d
    have htaken : Wp (release d) (fun _ t => t.returned = d :: s.returned)
        (fun _ t => t.returned = d :: s.returned) s := by
      refine wp_mono (wp_release h d) (fun _ _ ht => ht.2) (fun _ _ ht => ?_)
      cases ht.2 with
      | inl htaken => exact htaken
      | inr hzero =>
        rw [hzero] at hcounts
        omega
    exact wp_inv_iff.mp htaken

theorem run_outlives (sessionGeneration : Option (Int × Int)) (calls : List RegistryStep)
    (hmeets : Guarded step Meets (new sessionGeneration) calls) :
    Outlives ((new sessionGeneration).run calls) :=
  (hmeets.final sound_step (sound_new sessionGeneration)).outlives

/-! ## One allocation -/

def sixteenBytes (closeAcks : List Int) : ExportCall where
  tensor := { numel := 16, elementSize := 1, contiguous := true, storageOffset := 0 }
  closeAcks
  native := .ok { handle := [1], offset := 0, allocationNbytes := 16, device := 0 }

def sixteenBytesRegion : IpcRegionDescriptor where
  handle := [1]
  offset := 0
  nbytes := 16
  allocationNbytes := 16

def twoExports : List RegistryStep :=
  [.exportRegion (sixteenBytes [1]), .exportRegion (sixteenBytes [1]),
    .confirmClose sixteenBytesRegion 1, .release sixteenBytesRegion,
    .release sixteenBytesRegion]

/-- The reference is dropped with the second release. -/
theorem run_outlives_two_exports : Outlives ((new none).run twoExports)
    ∧ ((new none).run (twoExports.take 4)).dropped = []
    ∧ ((new none).run twoExports).dropped.length = 1 := by
  refine ⟨run_outlives none twoExports ⟨?_, ?_, trivial, trivial, trivial, trivial⟩, ?_⟩
  · intro _ _ _ _ _ hentry
    cases hentry
  · intro _ _ _ hinspect entry hentry
    have hpeer : inspect (sixteenBytes [1]) = .ok (16,
        { handle := [1], offset := 0, allocationNbytes := 16, device := 0 }, [1]) := rfl
    cases hpeer.symm.trans hinspect
    have hopen : (((new none).run (twoExports.take 1)).exports.get? [1]).map
        (fun entry => (entry.closing, entry.ackedPeers)) = some (false, []) := by
      decide +kernel
    have hfound : ((new none).run (twoExports.take 1)).exports.get? [1] = some entry := hentry
    rw [hfound] at hopen
    rcases Prod.mk.inj (Option.some.inj hopen) with ⟨hclosing, hacked⟩
    rw [hacked]
    exact ⟨hclosing, fun _ _ => List.not_mem_nil⟩
  · decide +kernel

/-- The peer confirmed its close before the second export named it: the reference is
dropped with no confirmation after that export.  And an export of an allocation that is
being released hands out a descriptor that is never taken back. -/
theorem reexport_escapes :
    ((new none).run
        [RegistryStep.exportRegion (sixteenBytes [1]),
          RegistryStep.confirmClose sixteenBytesRegion 1,
          RegistryStep.exportRegion (sixteenBytes [1]),
          RegistryStep.release sixteenBytesRegion,
          RegistryStep.release sixteenBytesRegion]).dropped
      = [[RegionEvent.released sixteenBytesRegion, RegionEvent.released sixteenBytesRegion,
          exported sixteenBytesRegion [1], RegionEvent.confirmed 1,
          exported sixteenBytesRegion [1]]]
    ∧ (let s := (new none).run
        [RegistryStep.exportRegion (sixteenBytes [1]),
          RegistryStep.release sixteenBytesRegion,
          RegistryStep.exportRegion (sixteenBytes [1])]
      s.issued = [sixteenBytesRegion, sixteenBytesRegion]
        ∧ s.returned = [sixteenBytesRegion]
        ∧ (finalState (release sixteenBytesRegion s)).returned = [sixteenBytesRegion]) := by
  decide +kernel

end IpcRegionRegistry

end Runtime
end Ayaka
