import Ayaka.Foundation.Guarded
import Ayaka.Foundation.Invariant
import Ayaka.Sampling.Coordinator
import Ayaka.Sampling.MetadataInvariant

/-!
# Draws and their offsets

A flush copies a dirty column for the active rows only and then forgets that it was
dirty.  The offset of a row that was sampled is therefore lost to the device when
the next plan leaves the row out, and the row draws with its old offset again.  As
long as every plan takes in the rows that are behind, the draws of a request use the
offsets 0, 1, 2 and so on.
-/

namespace Ayaka
namespace Sampling
namespace SamplingCoordinator

open Foundation
open Executor (Failure)
open Column (offset seed)
open Cell (int)

variable {real : Type} {s : SamplingCoordinator real}

def Live (s : SamplingCoordinator real) (slot : Nat) : Prop :=
  exists requestId, s.requestToSlot.get? requestId = some slot

def drawsOf (s : SamplingCoordinator real) (serial : Nat) : List (Draw real) :=
  s.draws.filter fun draw => draw.serial = serial

/-- The first `count` draws of a request whose offsets go up by one. -/
def ladder (serial : Nat) (seed : Cell real) (count : Nat) : List (Draw real) :=
  (List.range count).map fun i : Nat => { serial, seed, offset := .int i }

def Keyed (s : SamplingCoordinator real) (row serial : Nat) : Prop :=
  (s.Live row -> s.serials row = serial ->
    s.md.dev row .seed = s.md.stg row .seed)
  ∧ exists count : Nat,
    s.drawsOf serial = ladder serial (s.md.dev row .seed) count
      ∧ s.md.dev row .offset = .int count

structure Sound (s : SamplingCoordinator real) : Prop where
  size : s.md.maxBatchSize = s.maxBatchSize
  bound : s.nextSlot ≤ s.maxBatchSize
  taken : forall requestId slot, s.requestToSlot.get? requestId = some slot -> slot < s.nextSlot
  apart : forall requestId other slot, s.requestToSlot.get? requestId = some slot ->
    s.requestToSlot.get? other = some slot -> requestId = other
  free : forall slot, slot ∈ s.freeSlots -> slot < s.nextSlot ∧ ¬ s.Live slot
  free_once : s.freeSlots.Nodup
  told : s.md.Told
  mirrored : s.md.Mirrored
  /-- A request is known by the serial number of its slot. -/
  issued : forall slot, s.Live slot -> s.serials slot < s.nextSerial
  known : forall slot other, s.Live slot -> s.Live other -> s.serials slot = s.serials other ->
    slot = other
  planned_length : s.planned.length = s.md.stagedRows.length
  planned_once : s.planned.Nodup
  planned_issued : forall serial, serial ∈ s.planned -> serial < s.nextSerial
  /-- A planned request that still has a slot has the slot of its row. -/
  planned_slot : forall row serial, (row, serial) ∈ s.md.stagedRows.zip s.planned ->
    forall slot, s.Live slot -> s.serials slot = serial -> slot = row
  /-- The device is keyed for the next draw of every planned request. -/
  keyed : s.unsampled = true ->
    forall row serial, (row, serial) ∈ s.md.stagedRows.zip s.planned -> s.Keyed row serial
  drawn : forall draw, draw ∈ s.draws -> draw.serial < s.nextSerial
  climbs : forall serial, exists seed count, s.drawsOf serial = ladder serial seed count
  /-- The staged offset of a request counts its draws. -/
  counts : forall slot, s.Live slot -> exists count : Nat,
    s.drawsOf (s.serials slot) = ladder (s.serials slot) (s.md.stg slot .seed) count
      ∧ s.md.stg slot .offset = .int count

theorem sound_new [Zero real] [One real] (maxBatchSize : Nat) :
    Sound (new maxBatchSize : SamplingCoordinator real) where
  size := rfl
  bound := Nat.zero_le _
  taken := fun _ _ h => nomatch h
  apart := fun _ _ _ h => nomatch h
  free := fun _ h => nomatch h
  free_once := List.nodup_nil
  told := ⟨rfl, fun _ => rfl, fun _ h => nomatch h⟩
  mirrored := ⟨fun _ _ _ _ => rfl, fun _ _ hne => absurd rfl hne⟩
  issued := fun _ h => nomatch h.choose_spec
  known := fun _ _ h => nomatch h.choose_spec
  planned_length := rfl
  planned_once := List.nodup_nil
  planned_issued := fun _ h => nomatch h
  planned_slot := fun _ _ h => nomatch h
  keyed := fun _ _ _ h => nomatch h
  drawn := fun _ h => nomatch h
  climbs := fun _ => ⟨int 0, 0, rfl⟩
  counts := fun _ h => nomatch h.choose_spec

/-! ## Adding and releasing -/

/-- A slot that was taken from the free ones and is nobody's yet. -/
structure Vacant (s : SamplingCoordinator real) (slot : Nat) : Prop where
  sound : Sound s
  below : slot < s.nextSlot
  nobody : ¬ s.Live slot
  unfree : slot ∉ s.freeSlots

theorem wp_allocate (h : Sound s) :
    Wp allocate (fun slot s' => Vacant s' slot ∧ s'.requestToSlot = s.requestToSlot)
      (fun _ s' => s' = s) s := by
  unfold allocate
  rw [wp_bind, wp_get]
  cases hfree : s.freeSlots with
  | cons slot rest =>
    have hslot := h.free slot (by rw [hfree]; exact List.mem_cons_self)
    have hnodup := h.free_once
    rw [hfree] at hnodup
    have hrest : forall other, other ∈ rest -> other < s.nextSlot ∧ ¬ s.Live other := by
      intro other hother
      apply h.free
      rw [hfree]
      exact List.mem_cons_of_mem _ hother
    refine ⟨⟨?_, hslot.1, hslot.2, (List.nodup_cons.mp hnodup).1⟩, rfl⟩
    exact { h with free := hrest, free_once := (List.nodup_cons.mp hnodup).2 }
  | nil =>
    refine wp_if (fun _ => rfl) fun hroom => ⟨⟨?_, Nat.lt_succ_self _, ?_, ?_⟩, rfl⟩
    · exact
        { h with
          bound := Nat.lt_of_not_le hroom
          taken := fun requestId slot hslot => Nat.lt_succ_of_lt (h.taken requestId slot hslot)
          free := fun slot hslot => by
            rw [hfree] at hslot
            cases hslot }
    · intro hlive
      rcases hlive with ⟨requestId, hslot⟩
      exact Nat.lt_irrefl _ (h.taken requestId s.nextSlot hslot)
    · show s.nextSlot ∉ s.freeSlots
      rw [hfree]
      exact List.not_mem_nil

/-- The coordinator once a request has taken a slot and its columns are written. -/
def entered (requestId : String) (slot : Nat) (values : ColumnValues real)
    (s : SamplingCoordinator real) : SamplingCoordinator real :=
  withMetadata (s.md.write slot values) (enter requestId slot s)

variable {values : ColumnValues real} {requestId : String} {slot other : Nat}

theorem live_entered (hnew : s.requestToSlot.get? requestId = none) :
    (entered requestId slot values s).Live other <-> other = slot ∨ s.Live other := by
  unfold Live
  have hget : forall id, (entered requestId slot values s).requestToSlot.get? id
      = if id = requestId then some slot else s.requestToSlot.get? id := by
    intro id
    exact Dict.get?_set ..
  simp only [hget]
  constructor
  · intro hlive
    rcases hlive with ⟨id, hid⟩
    by_cases heq : id = requestId
    · rw [if_pos heq] at hid
      exact .inl (Option.some.inj hid).symm
    · rw [if_neg heq] at hid
      exact .inr ⟨id, hid⟩
  · intro hlive
    cases hlive with
    | inl heq => exact ⟨requestId, by rw [if_pos rfl, heq]⟩
    | inr hold =>
      rcases hold with ⟨id, hid⟩
      refine ⟨id, ?_⟩
      rw [if_neg]
      · exact hid
      · intro heq
        rw [heq, hnew] at hid
        cases hid

theorem serials_entered :
    (entered requestId slot values s).serials other
      = if other = slot then s.nextSerial else s.serials other :=
  rfl

theorem drawsOf_fresh (h : Sound s) : s.drawsOf s.nextSerial = [] := by
  apply List.filter_eq_nil_iff.mpr
  intro draw hdraw hserial
  have hlt := h.drawn draw hdraw
  rw [of_decide_eq_true hserial] at hlt
  exact Nat.lt_irrefl _ hlt

/-- A serial issued before the request came belongs to another request than the new one. -/
theorem Vacant.issued_before (h : Vacant s slot) (hnew : s.requestToSlot.get? requestId = none)
    (hlive : (entered requestId slot values s).Live other)
    (hissued : (entered requestId slot values s).serials other < s.nextSerial) :
    other ≠ slot ∧ s.Live other ∧
      (entered requestId slot values s).serials other = s.serials other := by
  rw [serials_entered] at hissued ⊢
  cases (live_entered hnew).mp hlive with
  | inl heq =>
    rw [if_pos heq] at hissued
    exact absurd hissued (Nat.lt_irrefl _)
  | inr hold =>
    have hother : other ≠ slot := fun heq => h.nobody (heq ▸ hold)
    rw [if_neg hother]
    exact ⟨hother, hold, rfl⟩

theorem Vacant.entered (h : Vacant s slot) (hnew : s.requestToSlot.get? requestId = none)
    (hvalues : values offset = int 0) : Sound (entered requestId slot values s) := by
  have hsound := h.sound
  have hget : forall id, (SamplingCoordinator.entered requestId slot values s).requestToSlot.get? id
      = if id = requestId then some slot else s.requestToSlot.get? id := fun id => Dict.get?_set ..
  have hother : forall other, s.Live other -> other ≠ slot := fun other hlive heq =>
    h.nobody (heq ▸ hlive)
  exact
    { hsound with
      taken := by
        intro id other hid
        rw [hget] at hid
        split at hid
        · rw [<- Option.some.inj hid]
          exact h.below
        · exact hsound.taken id other hid
      apart := by
        intro id id' other hid hid'
        rw [hget] at hid hid'
        split at hid <;> split at hid'
        · next heq heq' => rw [heq, heq']
        · exact absurd (Option.some.inj hid).symm (hother other ⟨id', hid'⟩)
        · exact absurd (Option.some.inj hid').symm (hother other ⟨id, hid⟩)
        · exact hsound.apart id id' other hid hid'
      free := by
        intro other hother
        refine ⟨(hsound.free other hother).1, fun hlive => ?_⟩
        cases (live_entered hnew).mp hlive with
        | inl heq => exact h.unfree (heq ▸ hother)
        | inr hold => exact (hsound.free other hother).2 hold
      told := hsound.told.write slot values
      mirrored := hsound.mirrored.write slot values
      issued := by
        intro other hlive
        rw [serials_entered]
        cases (live_entered hnew).mp hlive with
        | inl heq =>
          rw [if_pos heq]
          exact Nat.lt_succ_self _
        | inr hold =>
          rw [if_neg (hother other hold)]
          exact Nat.lt_succ_of_lt (hsound.issued other hold)
      known := by
        intro a b ha hb
        rw [serials_entered, serials_entered]
        cases (live_entered hnew).mp ha with
        | inl heqa =>
          cases (live_entered hnew).mp hb with
          | inl heqb => exact fun _ => heqa.trans heqb.symm
          | inr holdb =>
            rw [if_pos heqa, if_neg (hother b holdb)]
            intro heq
            exact absurd heq (Nat.ne_of_gt (hsound.issued b holdb))
        | inr holda =>
          rw [if_neg (hother a holda)]
          cases (live_entered hnew).mp hb with
          | inl heqb =>
            rw [if_pos heqb]
            intro heq
            exact absurd heq (Nat.ne_of_lt (hsound.issued a holda))
          | inr holdb =>
            rw [if_neg (hother b holdb)]
            exact hsound.known a b holda holdb
      planned_issued := fun serial hserial =>
        Nat.lt_succ_of_lt (hsound.planned_issued serial hserial)
      planned_slot := by
        intro row serial hrow other hlive hserial
        have hissued := hsound.planned_issued serial (List.of_mem_zip hrow).2
        rcases h.issued_before hnew hlive (hserial ▸ hissued) with ⟨_, hold, hsame⟩
        exact hsound.planned_slot row serial hrow other hold (hsame.symm.trans hserial)
      keyed := by
        intro hunsampled row serial hrow
        have hkeyed := hsound.keyed hunsampled row serial hrow
        have hissued := hsound.planned_issued serial (List.of_mem_zip hrow).2
        refine ⟨fun hlive hserial => ?_, hkeyed.2⟩
        rcases h.issued_before hnew hlive (hserial ▸ hissued) with ⟨hne, hold, hsame⟩
        show s.md.dev row seed = (if row = slot then values else s.md.stg row) seed
        rw [if_neg hne]
        exact hkeyed.1 hold (hsame.symm.trans hserial)
      drawn := fun draw hdraw => Nat.lt_succ_of_lt (hsound.drawn draw hdraw)
      counts := by
        intro other hlive
        rw [serials_entered]
        show exists count : Nat, s.drawsOf _ = ladder _
            ((if other = slot then values else s.md.stg other) seed) count
          ∧ (if other = slot then values else s.md.stg other) offset = int count
        cases (live_entered hnew).mp hlive with
        | inl heq =>
          rw [if_pos heq, if_pos heq]
          exact ⟨0, drawsOf_fresh hsound, hvalues⟩
        | inr hold =>
          rw [if_neg (hother other hold), if_neg (hother other hold)]
          exact hsound.counts other hold }

theorem checkSlot_of_below (h : Sound s) (hbelow : slot < s.nextSlot) :
    s.md.checkSlot slot = .ok () := by
  apply Executor.reject_eq_ok_iff.mpr
  rw [not_not, h.size]
  exact Nat.lt_of_lt_of_le hbelow h.bound

theorem writeSlot_of_below (h : Sound s) (hbelow : slot < s.nextSlot) (params : SamplingParams real)
    (requestIndex : Nat) :
    s.md.writeSlot slot params requestIndex
      = .ok (s.md.write slot (columnsOf params requestIndex)) := by
  unfold SamplingMetadata.writeSlot
  rw [checkSlot_of_below h hbelow]
  rfl

theorem sound_add (requestId : String) (params : SamplingParams real) (requestIndex : Nat) :
    Keeps Sound (add requestId params requestIndex) := by
  intro s h
  unfold add
  rw [wp_bind, wp_get]
  cases hget : s.requestToSlot.get? requestId with
  | some slot => exact ⟨h, trivial⟩
  | none =>
    refine wp_then (wp_allocate h) (fun slot t ht => ?_) (fun _ t ht => ⟨ht ▸ h, trivial⟩)
    rcases ht with ⟨hvacant, hsame⟩
    have hwrite : (enter requestId slot t).md.writeSlot slot params requestIndex
        = .ok (t.md.write slot (columnsOf params requestIndex)) :=
      writeSlot_of_below hvacant.sound hvacant.below params requestIndex
    have hentered : Sound (entered requestId slot (columnsOf params requestIndex) t) :=
      hvacant.entered (hsame ▸ hget) rfl
    rw [wp_bind, wp_modify, wp_bind]
    exact wp_of_run_ok (query_run_ok hwrite) hentered

def released (requestId : String) (slot : Nat) (values : ColumnValues real)
    (s : SamplingCoordinator real) : SamplingCoordinator real :=
  { s with
    requestToSlot := s.requestToSlot.erase requestId
    md := s.md.write slot values
    freeSlots := slot :: s.freeSlots }

section

variable (h : Sound s) {slot : Nat} (hget : s.requestToSlot.get? requestId = some slot)
include h hget

theorem live_released :
    (released requestId slot values s).Live other <-> other ≠ slot ∧ s.Live other := by
  unfold Live
  have herase : forall id, (released requestId slot values s).requestToSlot.get? id
      = if id = requestId then none else s.requestToSlot.get? id := fun id => Dict.get?_erase ..
  simp only [herase]
  constructor
  · intro hlive
    rcases hlive with ⟨id, hid⟩
    split at hid
    · cases hid
    · next hne =>
      refine ⟨fun heq => ?_, id, hid⟩
      rw [heq] at hid
      exact hne (h.apart id requestId slot hid hget)
  · intro hlive
    rcases hlive with ⟨hne, id, hid⟩
    refine ⟨id, ?_⟩
    rw [if_neg]
    · exact hid
    · intro heq
      rw [heq, hget] at hid
      exact hne (Option.some.inj hid).symm

theorem Sound.released (values : ColumnValues real) : Sound (released requestId slot values s) := by
  have hlive : forall other, (SamplingCoordinator.released requestId slot values s).Live other
      <-> other ≠ slot ∧ s.Live other := fun other => live_released h hget
  have hsub : forall id other,
      (SamplingCoordinator.released requestId slot values s).requestToSlot.get? id = some other ->
        s.requestToSlot.get? id = some other := by
    intro id other hid
    have hid : (s.requestToSlot.erase requestId).get? id = some other := hid
    rw [Dict.get?_erase] at hid
    split at hid
    · cases hid
    · exact hid
  exact
    { h with
      taken := fun id other hid => h.taken id other (hsub id other hid)
      apart := fun id id' other hid hid' => h.apart id id' other (hsub _ _ hid) (hsub _ _ hid')
      free := by
        intro other hother
        cases List.mem_cons.mp hother with
        | inl heq =>
          rw [heq]
          exact ⟨h.taken requestId slot hget, fun hl => ((hlive slot).mp hl).1 rfl⟩
        | inr hold =>
          exact ⟨(h.free other hold).1, fun hl => (h.free other hold).2 ((hlive other).mp hl).2⟩
      free_once := List.nodup_cons.mpr
        ⟨fun hmem => (h.free slot hmem).2 ⟨requestId, hget⟩, h.free_once⟩
      told := h.told.write slot values
      mirrored := h.mirrored.write slot values
      issued := fun other hl => h.issued other ((hlive other).mp hl).2
      known := fun a b ha hb => h.known a b ((hlive a).mp ha).2 ((hlive b).mp hb).2
      planned_slot := fun row serial hrow other hl =>
        h.planned_slot row serial hrow other ((hlive other).mp hl).2
      keyed := by
        intro hunsampled row serial hrow
        have hkeyed := h.keyed hunsampled row serial hrow
        refine ⟨fun hl hserial => ?_, hkeyed.2⟩
        show s.md.dev row seed = (if row = slot then values else s.md.stg row) seed
        rw [if_neg ((hlive row).mp hl).1]
        exact hkeyed.1 ((hlive row).mp hl).2 hserial
      counts := by
        intro other hl
        show exists count : Nat, s.drawsOf _ = ladder _
            ((if other = slot then values else s.md.stg other) seed) count
          ∧ (if other = slot then values else s.md.stg other) offset = int count
        rw [if_neg ((hlive other).mp hl).1]
        exact h.counts other ((hlive other).mp hl).2 }

end

variable {slices : List SamplingSlice} {rows serials : List Nat} {serial row : Nat}

theorem sound_release [Zero real] [One real] (requestId : String) :
    Keeps Sound (release requestId : SamplingM real (Option Nat)) := by
  intro s h
  unfold release
  rw [wp_bind, wp_get]
  cases hget : s.requestToSlot.get? requestId with
  | none => exact h
  | some slot =>
    have hwrite : s.md.resetSlot slot
        = .ok (s.md.write slot (columnsOf SamplingParams.default 0)) :=
      writeSlot_of_below h (h.taken requestId slot hget) SamplingParams.default 0
    have hreleased := h.released hget (columnsOf SamplingParams.default 0)
    rw [wp_bind, wp_modify, wp_bind]
    exact wp_of_run_ok (query_run_ok hwrite) hreleased

/-! ## Planning -/

theorem rowsFor_live (h : s.rowsFor slices = .ok rows) (row : Nat) (hrow : row ∈ rows) :
    s.Live row := by
  rcases mapM_mem h hrow with ⟨scheduled, _, hslot⟩
  refine ⟨scheduled.requestId, ?_⟩
  unfold slotFor at hslot
  cases hget : s.requestToSlot.get? scheduled.requestId with
  | none =>
    rw [hget] at hslot
    cases hslot
  | some slot =>
    rw [hget] at hslot
    rw [Except.ok.inj hslot]

def UpToDate (s : SamplingCoordinator real) : Prop :=
  forall row, row ∈ s.md.activeRows -> forall c, s.md.dev row c = s.md.stg row c

def plannedWith (md : SamplingMetadata real) (rows : List Nat) (s : SamplingCoordinator real) :
    SamplingCoordinator real :=
  { s with md, planned := rows.map s.serials, unsampled := true }

theorem Sound.plannedWith (h : Sound s) (hnodup : rows.Nodup)
    (hlive : forall row, row ∈ rows -> s.Live row) {md}
    (hsize : md.maxBatchSize = s.md.maxBatchSize) (hfresh : md.Fresh s.md.stg rows) :
    Sound (plannedWith md rows s) := by
  have hserial : forall row serial, (row, serial) ∈ md.stagedRows.zip (rows.map s.serials) ->
      row ∈ rows ∧ s.serials row = serial := by
    intro row serial hrow
    have hzip := List.zip_map' (f := id) (g := s.serials) (l := rows)
    rw [List.map_id] at hzip
    rw [hfresh.rows, hzip] at hrow
    rcases List.mem_map.mp hrow with ⟨_, hmem, heq⟩
    rcases Prod.mk.inj heq with ⟨hrow', hserial⟩
    rw [<- hrow']
    exact ⟨hmem, hserial⟩
  have hcounts : forall slot, s.Live slot -> exists count : Nat,
      s.drawsOf (s.serials slot) = ladder (s.serials slot) (md.stg slot seed) count
        ∧ md.stg slot offset = int count := by
    rw [hfresh.staged]
    exact h.counts
  exact
    { h with
      size := hsize.trans h.size
      told := hfresh.told
      mirrored := hfresh.mirrored
      planned_length := by
        show (rows.map s.serials).length = md.stagedRows.length
        rw [List.length_map, hfresh.rows]
      planned_once := by
        apply List.Nodup.map_on _ hnodup
        intro row hrow other hother
        exact h.known row other (hlive row hrow) (hlive other hother)
      planned_issued := by
        intro serial hserial
        rcases List.mem_map.mp hserial with ⟨row, hrow, heq⟩
        rw [<- heq]
        exact h.issued row (hlive row hrow)
      planned_slot := by
        intro row serial hrow slot hslot heq
        rcases hserial row serial hrow with ⟨hmem, hserial⟩
        exact h.known slot row hslot (hlive row hmem) (heq.trans hserial.symm)
      keyed := by
        intro _ row serial hrow
        rcases hserial row serial hrow with ⟨hmem, hserial⟩
        have hmirror : forall c, md.dev row c = md.stg row c := fun c => by
          rw [hfresh.mirror, hfresh.staged]
        refine ⟨fun _ _ => hmirror seed, ?_⟩
        show exists count : Nat, s.drawsOf serial = ladder serial (md.dev row seed) count
          ∧ md.dev row offset = int count
        rw [<- hserial, hmirror, hmirror]
        exact hcounts row (hlive row hmem)
      counts := hcounts }

theorem wp_planFor (h : Sound s)
    (hcovers : forall rows, s.rowsFor slices = .ok rows -> s.md.Covers rows)
    (fault : Option Failure) :
    Wp (planFor slices fault) (fun _ t => Sound t ∧ UpToDate t) (fun _ t => Sound t) s := by
  refine wp_query_bind (fun rows hrows => ?_) fun _ _ => h
  refine wp_query_bind (fun md hmd => ?_) fun _ _ => h
  rcases SamplingMetadata.setActiveRows_eq_ok hmd with ⟨hnodup, _, heq⟩
  have hfresh : md.flush.1.Fresh s.md.stg rows := by
    rw [heq]
    exact SamplingMetadata.flush_fresh h.mirrored hnodup (hcovers rows hrows)
  have hsize : md.flush.1.maxBatchSize = s.md.maxBatchSize := by
    rw [SamplingMetadata.flush_maxBatchSize, heq]
  have hsound : Sound (plannedWith md.flush.1 rows s) :=
    h.plannedWith hnodup (rowsFor_live hrows) hsize hfresh
  have hupToDate : UpToDate (plannedWith md.flush.1 rows s) := by
    intro row _ c
    show md.flush.1.dev row c = md.flush.1.stg row c
    rw [hfresh.mirror, hfresh.staged]
  cases fault with
  | none => exact ⟨hsound, hupToDate⟩
  | some exc => exact hsound

/-! ## Sampling -/

theorem ladder_succ (serial : Nat) (seed : Cell real) (count : Nat) :
    ladder serial seed (count + 1)
      = ladder serial seed count ++ [{ serial, seed, offset := int count }] := by
  unfold ladder
  rw [List.range_succ, List.map_append]
  rfl

theorem ladder_nodup (serial : Nat) (seed : Cell real) (count : Nat) :
    (ladder serial seed count).Nodup := by
  apply List.Nodup.map _ List.nodup_range
  intro i j heq
  have hoffset : int (i : Int) = (int (j : Int) : Cell real) := congrArg Draw.offset heq
  exact Int.ofNat.inj (int.inj hoffset)

def sampled (s : SamplingCoordinator real) : SamplingCoordinator real :=
  { s with draws := s.draws ++ s.drawRows, md := s.md.stepRng, unsampled := false }

theorem drawsOf_sampled (serial : Nat) :
    s.sampled.drawsOf serial = s.drawsOf serial
      ++ ((s.md.activeRows.zip s.planned).filter fun pair => pair.2 = serial).map
        fun pair => s.drawRow pair.1 pair.2 := by
  show (s.draws ++ s.drawRows).filter _ = _
  rw [List.filter_append]
  unfold drawRows
  rw [List.filter_map]
  rfl

theorem filter_zip_of_not_mem (h : serial ∉ serials) :
    (rows.zip serials).filter (fun pair => pair.2 = serial) = [] := by
  apply List.filter_eq_nil_iff.mpr
  intro pair hpair heq
  apply h
  rw [<- of_decide_eq_true heq]
  exact (List.of_mem_zip hpair).2

theorem filter_zip_of_mem (hnodup : serials.Nodup) (hmem : (row, serial) ∈ rows.zip serials) :
    (rows.zip serials).filter (fun pair => pair.2 = serial) = [(row, serial)] := by
  induction rows generalizing serials with
  | nil => cases hmem
  | cons first rest ih =>
    cases serials with
    | nil => cases hmem
    | cons firstSerial others =>
      have hothers := List.nodup_cons.mp hnodup
      rw [List.zip_cons_cons, List.filter_cons]
      cases List.mem_cons.mp hmem with
      | inl heq =>
        rcases Prod.mk.inj heq with ⟨hrow, hserial⟩
        rw [if_pos (decide_eq_true hserial.symm),
          filter_zip_of_not_mem (hserial ▸ hothers.1), hrow, hserial]
      | inr hrest =>
        have hne : firstSerial ≠ serial := fun heq =>
          hothers.1 (heq ▸ (List.of_mem_zip hrest).2)
        rw [if_neg fun heq => hne (of_decide_eq_true heq)]
        exact ih hothers.2 hrest

theorem drawsOf_sampled_of_not_mem (hserial : serial ∉ s.planned) :
    s.sampled.drawsOf serial = s.drawsOf serial := by
  rw [drawsOf_sampled, filter_zip_of_not_mem hserial]
  exact List.append_nil _

theorem drawsOf_sampled_of_mem (h : Sound s)
    (hmem : (row, serial) ∈ s.md.stagedRows.zip s.planned) :
    s.sampled.drawsOf serial = s.drawsOf serial ++ [s.drawRow row serial] := by
  rw [drawsOf_sampled, h.told.activeRows, filter_zip_of_mem h.planned_once hmem]
  rfl

theorem planned_row (h : Sound s) (hserial : serial ∈ s.planned) :
    exists row, (row, serial) ∈ s.md.stagedRows.zip s.planned := by
  have hall := List.map_snd_zip (Nat.le_of_eq h.planned_length)
  rw [<- hall] at hserial
  rcases List.mem_map.mp hserial with ⟨pair, hpair, heq⟩
  exact ⟨pair.1, heq ▸ hpair⟩

theorem planned_serial (h : Sound s) (hrow : row ∈ s.md.stagedRows) :
    exists serial, (row, serial) ∈ s.md.stagedRows.zip s.planned := by
  have hall := List.map_fst_zip (Nat.le_of_eq h.planned_length.symm)
  rw [<- hall] at hrow
  rcases List.mem_map.mp hrow with ⟨pair, hpair, heq⟩
  exact ⟨pair.2, heq ▸ hpair⟩

/-- No row of the plan was given to another request since. -/
def SameHolders (s : SamplingCoordinator real) : Prop :=
  forall row serial, (row, serial) ∈ s.md.stagedRows.zip s.planned -> s.Live row ->
    s.serials row = serial

theorem drawsOf_sampled_eq (h : Sound s) (hunsampled : s.unsampled = true)
    (hmem : (row, serial) ∈ s.md.stagedRows.zip s.planned) :
    exists count : Nat, s.drawsOf serial = ladder serial (s.md.dev row seed) count
      ∧ s.sampled.drawsOf serial = ladder serial (s.md.dev row seed) (count + 1) := by
  rcases (h.keyed hunsampled row serial hmem).2 with ⟨count, hdraws, hoffset⟩
  refine ⟨count, hdraws, ?_⟩
  rw [drawsOf_sampled_of_mem h hmem, hdraws, ladder_succ]
  unfold drawRow
  rw [hoffset]

theorem length_ladder (serial : Nat) (seed : Cell real) (count : Nat) :
    (ladder serial seed count).length = count := by
  unfold ladder
  rw [List.length_map, List.length_range]

theorem Sound.sampled (h : Sound s) (hunsampled : s.unsampled = true) (hsame : SameHolders s) :
    Sound s.sampled := by
  have hstg := SamplingMetadata.stg_stepRng h.told.stagedRows_nil
  have hrows : s.md.stepRng.stagedRows = s.md.stagedRows := SamplingMetadata.stagedRows_stepRng
  exact
    { h with
      size := SamplingMetadata.stepRng_maxBatchSize.trans h.size
      told := h.told.stepRng
      mirrored := h.mirrored.stepRng
      planned_length := h.planned_length.trans (congrArg List.length hrows.symm)
      planned_slot := by
        intro row serial hrow
        have hrow : (row, serial) ∈ s.md.stepRng.stagedRows.zip s.planned := hrow
        rw [hrows] at hrow
        exact h.planned_slot row serial hrow
      keyed := fun hfalse => nomatch hfalse
      drawn := by
        intro draw hdraw
        cases List.mem_append.mp hdraw with
        | inl hold => exact h.drawn draw hold
        | inr hnew =>
          rcases List.mem_map.mp hnew with ⟨pair, hpair, heq⟩
          rw [<- heq]
          exact h.planned_issued pair.2 (List.of_mem_zip hpair).2
      climbs := by
        intro serial
        by_cases hserial : serial ∈ s.planned
        · rcases planned_row h hserial with ⟨row, hrow⟩
          rcases drawsOf_sampled_eq h hunsampled hrow with ⟨count, _, hdraws⟩
          exact ⟨s.md.dev row seed, count + 1, hdraws⟩
        · rw [drawsOf_sampled_of_not_mem hserial]
          exact h.climbs serial
      counts := by
        intro slot hlive
        show exists count : Nat, s.sampled.drawsOf (s.serials slot)
            = ladder (s.serials slot) (s.md.stepRng.stg slot seed) count
          ∧ s.md.stepRng.stg slot offset = int count
        rcases h.counts slot hlive with ⟨count, hdraws, hoffset⟩
        rw [hstg, if_neg (fun hboth => nomatch hboth.2), hstg]
        by_cases hserial : s.serials slot ∈ s.planned
        · rcases planned_row h hserial with ⟨row, hrow⟩
          have heq : slot = row := h.planned_slot row _ hrow slot hlive rfl
          rw [<- heq] at hrow
          have hseed := (h.keyed hunsampled slot _ hrow).1 hlive rfl
          rcases drawsOf_sampled_eq h hunsampled hrow with ⟨count', hbefore, hafter⟩
          have hcount : count' = count := by
            rw [<- length_ladder (s.serials slot) (s.md.dev slot seed) count', <- hbefore,
              hdraws, length_ladder]
          rw [hcount, hseed] at hafter
          refine ⟨count + 1, hafter, ?_⟩
          rw [if_pos ⟨(List.of_mem_zip hrow).1, rfl⟩, hoffset]
          rfl
        · have hrow : slot ∉ s.md.stagedRows := by
            intro hrow
            rcases planned_serial h hrow with ⟨serial, hmem⟩
            apply hserial
            rw [hsame slot serial hmem hlive]
            exact (List.of_mem_zip hmem).2
          rw [drawsOf_sampled_of_not_mem hserial, if_neg fun hboth => hrow hboth.1]
          exact ⟨count, hdraws, hoffset⟩ }

def Samples (s : SamplingCoordinator real) : Prop :=
  s.unsampled = true ∧ SameHolders s

theorem sound_sample (h : Sound s)
    (hsamples : logitsRows = plan.numRows -> fault = none -> s.Samples) :
    Sound (finalState (sample logitsRows plan fault s)) := by
  apply wp_inv_iff.mp
  refine wp_if (fun _ => h) fun hrows => ?_
  have hsync : withMetadata s.md.syncRows s = s := by
    unfold withMetadata
    rw [h.told.syncRows]
  rw [wp_bind, wp_modify, hsync]
  cases fault with
  | some exc => exact h
  | none =>
    rcases hsamples (not_not.mp hrows) rfl with ⟨hunsampled, hsame⟩
    exact h.sampled hunsampled hsame

/-! ## Runs -/

section Runs

variable [Zero real] [One real]

/-- A plan takes in the rows whose offsets are behind on the device; a plan is sampled
once, while none of its rows belongs to a later request. -/
def Meets (s : SamplingCoordinator real) : SamplingStep real -> Prop
  | .planFor slices _ =>
    forall rows, s.rowsFor slices = .ok rows -> s.md.Covers rows
  | .sample logitsRows plan fault =>
    logitsRows = plan.numRows -> fault = none -> s.Samples
  | _ => True

theorem sound_step (s : SamplingCoordinator real) (call : SamplingStep real) (h : Sound s)
    (hmeets : s.Meets call) : Sound (s.step call) := by
  cases call with
  | add requestId params requestIndex =>
    apply wp_inv_iff.mp
    exact wp_then (sound_add requestId params requestIndex s h) (fun _ _ ht => ht)
      (fun _ _ ht => ht.1)
  | release requestId =>
    apply wp_inv_iff.mp
    exact wp_then (sound_release requestId s h) (fun _ _ ht => ht) (fun _ _ ht => ht.1)
  | planFor slices fault =>
    apply wp_inv_iff.mp
    exact wp_seq (wp_planFor h hmeets fault) fun _ _ ht => ht.1
  | sample logitsRows plan fault => exact sound_sample h hmeets

/-- The draws of every request count its offsets up from zero, and after every plan the
device has the columns of the active rows. -/
structure NeverRepeats (start : SamplingCoordinator real) (calls : List (SamplingStep real)) :
    Prop where
  offsets : forall before after, calls = before ++ after -> forall serial,
    exists seed count, (start.run before).drawsOf serial = ladder serial seed count
  once : forall before after, calls = before ++ after -> forall serial,
    ((start.run before).drawsOf serial).Nodup
  columns : forall before slices fault after plan t,
    calls = before ++ .planFor slices fault :: after ->
      planFor slices fault (start.run before) = .ok plan t -> UpToDate t

theorem run_neverRepeats (maxBatchSize : Nat) (calls : List (SamplingStep real))
    (hmeets : Guarded step Meets (new maxBatchSize) calls) :
    NeverRepeats (new maxBatchSize) calls where
  offsets := by
    intro before after hcalls serial
    rw [hcalls] at hmeets
    exact (hmeets.invariant sound_step (sound_new maxBatchSize)).1.climbs serial
  once := by
    intro before after hcalls serial
    rw [hcalls] at hmeets
    have hsound : Sound ((new maxBatchSize).run before) :=
      (hmeets.invariant sound_step (sound_new maxBatchSize)).1
    rcases hsound.climbs serial with ⟨seed, count, hdraws⟩
    rw [hdraws]
    exact ladder_nodup serial seed count
  columns := by
    intro before _ fault after _ _ hcalls hplan
    rw [hcalls] at hmeets
    rcases hmeets.invariant sound_step (sound_new maxBatchSize) with ⟨hsound, hcall⟩
    exact (wp_run_ok hplan (wp_planFor hsound hcall.1 fault)).2

end Runs

def onlySlice : SamplingSlice := { requestId := "a", sampleLastQuery := true }

/-- One request with a fixed seed, sampled by two steps in a row. -/
def twoSampleCalls : List (SamplingStep Int) :=
  [.add "a" { SamplingParams.default with seed := some 7 } 0,
    .planFor [onlySlice] none, .sample 1 { numRows := 1 } none,
    .planFor [onlySlice] none, .sample 1 { numRows := 1 } none]

theorem sameHolders_of_zip (h : forall pair, pair ∈ s.md.stagedRows.zip s.planned ->
    s.serials pair.1 = pair.2) : SameHolders s :=
  fun row serial hmem _ => h (row, serial) hmem

theorem covers_twoSampleCalls (n : Nat) (rows : List Nat)
    (hrow : ((new 1).run (twoSampleCalls.take n)).rowsFor [onlySlice] = .ok [0])
    (hstaged : forall row, row ∈ ((new 1).run (twoSampleCalls.take n)).md.stagedRows -> row = 0)
    (hrows : ((new 1).run (twoSampleCalls.take n)).rowsFor [onlySlice] = .ok rows) :
    ((new 1).run (twoSampleCalls.take n)).md.Covers rows := by
  cases hrow.symm.trans hrows
  exact fun row hmem _ => .inl (List.mem_singleton.mpr (hstaged row hmem))

/-- The second plan takes in the row that is behind, and the second draw goes on. -/
theorem run_neverRepeats_two_samples : NeverRepeats (new 1) twoSampleCalls ∧
    ((new 1).run twoSampleCalls).drawsOf 0
      = [{ serial := 0, seed := Cell.int 7, offset := Cell.int 0 },
        { serial := 0, seed := Cell.int 7, offset := Cell.int 1 }] := by
  refine ⟨run_neverRepeats 1 twoSampleCalls ⟨trivial, ?_, ?_, ?_, ?_, trivial⟩, by decide +kernel⟩
  · exact fun rows => covers_twoSampleCalls 1 rows (by decide +kernel) (by decide +kernel)
  · have hholders : forall pair, pair ∈ ((new 1).run (twoSampleCalls.take 2)).md.stagedRows.zip
        ((new 1).run (twoSampleCalls.take 2)).planned ->
          ((new 1).run (twoSampleCalls.take 2)).serials pair.1 = pair.2 := by
      decide +kernel
    exact fun _ _ => ⟨by decide +kernel, sameHolders_of_zip hholders⟩
  · exact fun rows => covers_twoSampleCalls 3 rows (by decide +kernel) (by decide +kernel)
  · have hholders : forall pair, pair ∈ ((new 1).run (twoSampleCalls.take 4)).md.stagedRows.zip
        ((new 1).run (twoSampleCalls.take 4)).planned ->
          ((new 1).run (twoSampleCalls.take 4)).serials pair.1 = pair.2 := by
      decide +kernel
    exact fun _ _ => ⟨by decide +kernel, sameHolders_of_zip hholders⟩

/-- The same with a step between that samples no row. -/
def idleStepCalls : List (SamplingStep Int) :=
  [.add "a" { SamplingParams.default with seed := some 7 } 0,
    .planFor [onlySlice] none, .sample 1 { numRows := 1 } none, .planFor [] none,
    .planFor [onlySlice] none, .sample 1 { numRows := 1 } none]

theorem idle_step_repeats_draw :
    ((new 1).run idleStepCalls).drawsOf 0
      = [{ serial := 0, seed := Cell.int 7, offset := Cell.int 0 },
        { serial := 0, seed := Cell.int 7, offset := Cell.int 0 }] := by
  decide +kernel

end SamplingCoordinator
end Sampling
end Ayaka
