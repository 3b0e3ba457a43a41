import Ayaka.Sampling.Metadata

/-!
# What a flush mirrors

Only one column can be behind on the device without its slot being pending: the
offset of an active row that was sampled.  A flush brings it up to date for the
rows of the new plan, and for no other.
-/

namespace Ayaka
namespace Sampling
namespace SamplingMetadata

variable {real : Type} {md : SamplingMetadata real}

/-- The device agrees with the host, but for written slots and for the offsets of the
active rows; an offset that is behind is known to be. -/
structure Mirrored (md : SamplingMetadata real) : Prop where
  agrees : forall slot c, slot ∉ md.pendingSlots -> c ≠ .offset ∨ slot ∉ md.stagedRows ->
    md.dev slot c = md.stg slot c
  behind : forall slot, slot ∉ md.pendingSlots ->
    md.dev slot .offset ≠ md.stg slot .offset -> md.dirty .offset = true

/-- The rows the device was told are the active rows. -/
structure Told (md : SamplingMetadata real) : Prop where
  clean : md.rowsDirty = false
  none : md.rowsList = none -> md.nActive = 0
  some : forall rows, md.rowsList = some rows ->
    rows.Nodup ∧ md.nActive = rows.length ∧ md.rowsDev.take rows.length = rows

theorem Told.activeRows (h : Told md) : md.activeRows = md.stagedRows := by
  unfold SamplingMetadata.activeRows stagedRows
  cases hrows : md.rowsList with
  | none => rfl
  | some rows =>
    have htold := h.some rows hrows
    show md.rowsDev.take md.nActive = rows
    rw [htold.2.1]
    exact htold.2.2

theorem Told.syncRows (h : Told md) : md.syncRows = md := by
  unfold SamplingMetadata.syncRows
  cases md.rowsList with
  | none => rfl
  | some rows => rw [h.clean]; rfl

/-! ## Writing a slot -/

theorem Mirrored.write (h : Mirrored md) (slot : Nat) (values : ColumnValues real) :
    Mirrored (md.write slot values) where
  agrees := by
    intro s c hs hc
    have hne : s ≠ slot := fun heq => hs (heq ▸ List.mem_cons_self)
    have hold : s ∉ md.pendingSlots := fun hmem => hs (List.mem_cons_of_mem _ hmem)
    show md.dev s c = (if s = slot then values else md.stg s) c
    rw [if_neg hne]
    exact h.agrees s c hold hc
  behind := fun _ _ _ => rfl

theorem Told.write (h : Told md) (slot : Nat) (values : ColumnValues real) :
    Told (md.write slot values) :=
  ⟨h.clean, h.none, h.some⟩

/-! ## Counting up -/

theorem Mirrored.stepRng (h : Mirrored md) : Mirrored md.stepRng := by
  unfold SamplingMetadata.stepRng
  split
  · exact h
  · refine ⟨fun slot c hslot hc => ?_, fun _ _ _ => rfl⟩
    show md.dev slot c = if _ then _ else md.stg slot c
    rw [if_neg]
    · exact h.agrees slot c hslot hc
    · intro hboth
      cases hc with
      | inl hne => exact hne hboth.2
      | inr hnot => exact hnot hboth.1

theorem Told.stepRng (h : Told md) : Told md.stepRng := by
  unfold SamplingMetadata.stepRng
  split
  · exact h
  · exact ⟨h.clean, h.none, h.some⟩

theorem stagedRows_stepRng : md.stepRng.stagedRows = md.stagedRows := by
  unfold SamplingMetadata.stepRng
  split <;> rfl

theorem stepRng_maxBatchSize : md.stepRng.maxBatchSize = md.maxBatchSize := by
  unfold SamplingMetadata.stepRng
  split <;> rfl

/-- The staged columns after a step, row by row. -/
theorem stg_stepRng (hnone : md.nActive = 0 -> md.stagedRows = []) (slot : Nat) (c : Column) :
    md.stepRng.stg slot c
      = if slot ∈ md.stagedRows ∧ c = .offset then (md.stg slot c).succ else md.stg slot c := by
  unfold SamplingMetadata.stepRng
  split
  · next hzero =>
    rw [hnone hzero, if_neg (fun h => nomatch h.1)]
  · rfl

theorem Told.stagedRows_nil (h : Told md) (hzero : md.nActive = 0) : md.stagedRows = [] := by
  unfold stagedRows
  cases hrows : md.rowsList with
  | none =>
    show List.range md.nActive = []
    rw [hzero]
    rfl
  | some rows =>
    have htold := h.some rows hrows
    rw [hzero] at htold
    exact List.length_eq_zero_iff.mp htold.2.1.symm

/-! ## A new plan -/

theorem foldl_copy (stg dev : Nat -> ColumnValues real) (dirty : Column -> Bool) (rows : List Nat)
    (slot : Nat) (c : Column) :
    ((rows.zip rows).foldl
        (fun dev pair slot c => if slot = pair.1 ∧ dirty c then stg pair.2 c else dev slot c)
        dev) slot c
      = if slot ∈ rows ∧ dirty c then stg slot c else dev slot c := by
  induction rows generalizing dev with
  | nil => exact (if_neg fun h => nomatch h.1).symm
  | cons row rest ih =>
    rw [List.zip_cons_cons, List.foldl_cons, ih]
    by_cases hdirty : dirty c = true
    · by_cases hrest : slot ∈ rest
      · rw [if_pos ⟨hrest, hdirty⟩, if_pos ⟨List.mem_cons_of_mem _ hrest, hdirty⟩]
      · rw [if_neg fun h => hrest h.1]
        by_cases hrow : slot = row
        · rw [if_pos ⟨hrow, hdirty⟩, if_pos ⟨hrow ▸ List.mem_cons_self, hdirty⟩, hrow]
        · rw [if_neg fun h => hrow h.1, if_neg]
          intro h
          exact (List.mem_cons.mp h.1).elim hrow hrest
    · rw [if_neg fun h => hdirty h.2, if_neg fun h => hdirty h.2, if_neg fun h => hdirty h.2]

variable {rows : List Nat}

theorem setActiveRows_eq_ok (h : md.setActiveRows rows = .ok md') :
    rows.Nodup ∧ (forall row, row ∈ rows -> row < md.maxBatchSize)
      ∧ md' = { md with rowsList := some rows, rowsDirty := true, nActive := rows.length } := by
  unfold setActiveRows at h
  rw [Executor.check_bind_eq_ok_iff, Executor.check_bind_eq_ok_iff,
    Executor.reject_eq_ok_iff, not_not] at h
  refine ⟨h.1, fun row hrow => ?_, (Except.ok.inj h.2.2).symm⟩
  have hrange := Foundation.forM_eq_ok_iff.mp h.2.1 row hrow
  exact not_not.mp (Executor.reject_eq_ok_iff.mp hrange)

/-- Every row whose offset is behind is in the new plan, or was written since. -/
def Covers (md : SamplingMetadata real) (rows : List Nat) : Prop :=
  forall row, row ∈ md.stagedRows -> md.dev row .offset ≠ md.stg row .offset ->
    row ∈ rows ∨ row ∈ md.pendingSlots

structure Fresh (md : SamplingMetadata real) (stg : Nat -> ColumnValues real) (rows : List Nat) :
    Prop where
  staged : md.stg = stg
  mirror : forall slot c, md.dev slot c = stg slot c
  pending : md.pendingSlots = []
  rows : md.stagedRows = rows
  told : Told md

theorem Fresh.mirrored {stg : Nat -> ColumnValues real} (h : Fresh md stg rows) : Mirrored md where
  agrees := fun slot c _ _ => by rw [h.mirror, h.staged]
  behind := fun slot _ hne => absurd (by rw [h.mirror, h.staged]) hne

/-- What pending slots leave behind: the offsets of active rows. -/
theorem dev_mirrorPending (h : Mirrored md) (hcovers : Covers md rows) (slot : Nat) (c : Column)
    (hc : ¬ (slot ∈ rows ∧ md.dirty c = true)) :
    (if slot ∈ md.pendingSlots then md.stg slot else md.dev slot) c = md.stg slot c := by
  by_cases hslot : slot ∈ md.pendingSlots
  · rw [if_pos hslot]
  · rw [if_neg hslot]
    by_cases hoffset : c = .offset
    · by_contra hne
      rw [hoffset] at hne hc
      have hdirty := h.behind slot hslot hne
      by_cases hrow : slot ∈ md.stagedRows
      · exact (hcovers slot hrow hne).elim (fun hin => hc ⟨hin, hdirty⟩) hslot
      · exact hne (h.agrees slot .offset hslot (.inr hrow))
    · exact h.agrees slot c hslot (.inl hoffset)

theorem flush_maxBatchSize : md.flush.1.maxBatchSize = md.maxBatchSize := by
  show md.mirrorPending.flushActive.1.maxBatchSize = md.mirrorPending.maxBatchSize
  unfold flushActive
  split
  · rfl
  · split
    · rfl
    · show md.mirrorPending.syncRows.maxBatchSize = md.mirrorPending.maxBatchSize
      unfold syncRows
      split
      · rfl
      · split <;> rfl

/-- A plan that covers what is behind brings the whole device up to date. -/
theorem flush_fresh (h : Mirrored md) (hnodup : rows.Nodup) (hcovers : Covers md rows) :
    Fresh ({ md with
      rowsList := some rows
      rowsDirty := true
      nActive := rows.length } : SamplingMetadata real).flush.1 md.stg rows := by
  unfold flush flushActive mirrorPending
  by_cases hzero : rows.length = 0
  · -- nothing is active: what is behind must be pending
    rw [if_pos hzero]
    have hnil := List.length_eq_zero_iff.mp hzero
    refine ⟨rfl, fun slot c => ?_, rfl, rfl, rfl, (fun hnone => nomatch hnone),
      fun rows' hrows' => ?_⟩
    · exact dev_mirrorPending h hcovers slot c (by rw [hnil]; exact fun hin => nomatch hin.1)
    · rw [<- Option.some.inj hrows', hnil]
      exact ⟨List.nodup_nil, rfl, rfl⟩
  · have hmirror : (Column.all.all (fun c => !md.dirty c)
        && !((some rows).isSome && true)) = false := by
      rw [Option.isSome_some, Bool.and_true, Bool.not_true, Bool.and_false]
    rw [if_neg hzero, hmirror, if_neg Bool.false_ne_true]
    have hactive : (rows ++ md.rowsDev.drop rows.length).take rows.length = rows :=
      List.take_left ..
    refine ⟨rfl, fun slot c => ?_, rfl, rfl, rfl, (fun hnone => nomatch hnone),
      fun rows' hrows' => ?_⟩
    · show ((((rows ++ md.rowsDev.drop rows.length).take rows.length).zip rows).foldl
        (fun dev pair slot c =>
          if slot = pair.1 ∧ md.dirty c then md.stg pair.2 c else dev slot c)
        (fun slot => if slot ∈ md.pendingSlots then md.stg slot else md.dev slot)) slot c = _
      rw [hactive, foldl_copy]
      by_cases hcopied : slot ∈ rows ∧ md.dirty c = true
      · rw [if_pos hcopied]
      · rw [if_neg hcopied]
        exact dev_mirrorPending h hcovers slot c hcopied
    · rw [<- Option.some.inj hrows']
      exact ⟨hnodup, rfl, hactive⟩

end SamplingMetadata
end Sampling
end Ayaka
