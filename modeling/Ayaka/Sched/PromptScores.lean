import Ayaka.Request.Manager

/-!
# Planned prompt scores

A prompt that asks for log-probabilities is scored while it is prefilled: position
`p` of the prompt is scored through the hidden row of `p - 1`.  For each slice of a
step the scheduler plans the positions of the slice that lie behind the cached
part of the prompt.  Over the chunks of one incarnation these are all positions
behind the cached part, each once.  The first position of a later chunk has its row
in the chunk before.
-/

namespace Ayaka
namespace Sched

open Executor Request

/-! ## The plan of one step -/

variable {requests : LifecycleManager} {index : Nat} {scheduled : ScheduledSlice}
  {value : RequestStepInput} {entry : PromptLogprobSlicePlan}
  {pairs : List (ScheduledSlice × RequestStepInput)}

def scoredPositions (scheduled : ScheduledSlice) (value : RequestStepInput) (cached : Nat) :
    List Nat :=
  let lo := max scheduled.queryStart (max (cached + 1) 1)
  let hi := min scheduled.queryEnd value.promptTokens
  List.range' lo (hi - lo)

/-- The body of the loop of `_prompt_logprob_plan`. -/
def promptEntry (requests : LifecycleManager) (index : Nat) (scheduled : ScheduledSlice)
    (value : RequestStepInput) : Option PromptLogprobSlicePlan := do
  let lc <- requests.lookup scheduled.requestId
  let k <- lc.request.promptLogprobs
  let positions := scoredPositions scheduled value lc.machine.numCachedTokens
  if positions = [] then none else some { sliceIndex := index, k, positions }

def promptEntries (requests : LifecycleManager) (index : Nat) :
    List (ScheduledSlice × RequestStepInput) -> List PromptLogprobSlicePlan
  | [] => []
  | (scheduled, value) :: rest =>
    (promptEntry requests index scheduled value).toList
      ++ promptEntries requests (index + 1) rest

/-- `_prompt_logprob_plan`; `sampling` says whether a sampling coordinator is wired. -/
def promptLogprobPlan (sampling : Bool) (requests : LifecycleManager)
    (slices : List ScheduledSlice) (inputs : List RequestStepInput) :
    Except Failure (List PromptLogprobSlicePlan) :=
  if sampling = false then
    pure []
  else if inputs.length < slices.length then
    throw (.valueError "zip() argument 2 is shorter than argument 1")
  else if slices.length < inputs.length then
    throw (.valueError "zip() argument 2 is longer than argument 1")
  else
    pure (promptEntries requests 0 (slices.zip inputs))

theorem promptEntry_sliceIndex (h : promptEntry requests index scheduled value = some entry) :
    entry.sliceIndex = index := by
  rcases Option.bind_eq_some_iff.mp h with ⟨_, _, hlc⟩
  rcases Option.bind_eq_some_iff.mp hlc with ⟨k, _, hk⟩
  rw [Option.ite_none_left_eq_some] at hk
  rw [<- Option.some.inj hk.2]

theorem le_sliceIndex_of_mem (h : entry ∈ promptEntries requests index pairs) :
    index ≤ entry.sliceIndex := by
  induction pairs generalizing index with
  | nil => exact absurd h List.not_mem_nil
  | cons pair rest ih =>
    rcases List.mem_append.mp h with hhead | hrest
    · exact (promptEntry_sliceIndex (Option.mem_toList.mp hhead)).ge
    · exact Nat.le_of_succ_le (ih hrest)

/-- The entries of one slice are those its own pass of the loop appended. -/
theorem promptEntries_filter (h : pairs[i]? = some (scheduled, value)) :
    (promptEntries requests index pairs).filter (fun entry => entry.sliceIndex = index + i)
      = (promptEntry requests (index + i) scheduled value).toList := by
  induction pairs generalizing index i with
  | nil => exact absurd h (by rw [List.getElem?_nil]; exact nofun)
  | cons pair rest ih =>
    rw [promptEntries, List.filter_append]
    cases i with
    | zero =>
      cases Option.some.inj h
      have hrest : (promptEntries requests (index + 1) rest).filter
          (fun entry => entry.sliceIndex = index + 0) = [] := by
        refine List.filter_eq_nil_iff.mpr fun entry hentry hsame => ?_
        have := le_sliceIndex_of_mem hentry
        have := of_decide_eq_true hsame
        omega
      rw [hrest, List.append_nil]
      refine List.filter_eq_self.mpr fun entry hentry => decide_eq_true ?_
      exact promptEntry_sliceIndex (Option.mem_toList.mp hentry)
    | succ i =>
      have hhead : (promptEntry requests index pair.1 pair.2).toList.filter
          (fun entry => entry.sliceIndex = index + (i + 1)) = [] := by
        refine List.filter_eq_nil_iff.mpr fun entry hentry hsame => ?_
        have := promptEntry_sliceIndex (Option.mem_toList.mp hentry)
        have := of_decide_eq_true hsame
        omega
      have hshift : index + (i + 1) = index + 1 + i := by omega
      rw [hhead, List.nil_append, hshift]
      exact ih h

/-! ## Chunked prefill -/

/-- One step of a prefill: the batch, and the slice of the request in it. -/
structure PrefillStep where
  requests : LifecycleManager
  slices : List ScheduledSlice
  inputs : List RequestStepInput
  index : Nat
  scheduled : ScheduledSlice
  value : RequestStepInput
  aligned : slices.length = inputs.length
  slice_at : slices[index]? = some scheduled
  input_at : inputs[index]? = some value

namespace PrefillStep

variable {step : PrefillStep} {request : Request} {cached start : Nat}

/-- The positions the step plans for the request's slice. -/
def planned (step : PrefillStep) : Except Failure (List Nat) := do
  let entries <- promptLogprobPlan true step.requests step.slices step.inputs
  pure ((entries.filter fun entry => entry.sliceIndex = step.index).flatMap
    PromptLogprobSlicePlan.positions)

/-- The step prefills the request from `start` on, in the incarnation that was bound
with `cached` tokens. -/
structure Runs (step : PrefillStep) (request : Request) (cached start : Nat) : Prop where
  phase : step.scheduled.phase = .prefill
  fits : step.value.Fits step.scheduled
  queryStart : step.scheduled.queryStart = start
  found : exists lc, step.requests.lookup step.scheduled.requestId = some lc
    ∧ lc.request = request ∧ lc.machine.numCachedTokens = cached ∧ lc.Snapshot step.value

theorem Runs.promptTokens (h : step.Runs request cached start) :
    step.value.promptTokens = request.promptLen := by
  rcases h.found with ⟨_, _, hrequest, _, hsnapshot⟩
  rcases hsnapshot.bound with ⟨sequence, _, hvalue⟩
  rw [hvalue, <- hrequest]
  rfl

theorem Runs.planned_eq (h : step.Runs request cached start)
    (hk : request.promptLogprobs = some k) :
    step.planned = .ok (scoredPositions step.scheduled step.value cached) := by
  rcases h.found with ⟨_, hfound, hrequest, hcached, _⟩
  have hentry : promptEntry step.requests (0 + step.index) step.scheduled step.value
      = if scoredPositions step.scheduled step.value cached = [] then none else
        some { sliceIndex := 0 + step.index, k
               positions := scoredPositions step.scheduled step.value cached } := by
    unfold promptEntry
    rw [hfound, Option.bind_eq_bind, Option.bind_some, hrequest, hk, hcached]
    rfl
  have hpair : (step.slices.zip step.inputs)[step.index]? = some (step.scheduled, step.value) :=
    List.getElem?_zip_eq_some.mpr ⟨step.slice_at, step.input_at⟩
  have hfilter := @promptEntries_filter step.requests 0 _ _ _ _ hpair
  rw [hentry, Nat.zero_add] at hfilter
  unfold planned promptLogprobPlan
  rw [if_neg Bool.true_eq_false_eq_False, if_neg step.aligned.not_gt, if_neg step.aligned.not_lt]
  show Except.ok (List.flatMap _ (List.filter _ _)) = _
  rw [hfilter]
  split
  · rename_i hnil
    rw [hnil]
    rfl
  · exact congrArg Except.ok (List.append_nil _)

end PrefillStep

/-- Steps that prefill the rest of a prompt from `start` on, chunk after chunk. -/
inductive Chunked (request : Request) (cached : Nat) : Nat -> List PrefillStep -> Prop
  | done : Chunked request cached request.promptLen []
  | chunk {start : Nat} {step : PrefillStep} {rest : List PrefillStep} :
      step.Runs request cached start -> Chunked request cached step.scheduled.queryEnd rest ->
        Chunked request cached start (step :: rest)

def ScheduledSlice.queryRows (scheduled : ScheduledSlice) : List Nat :=
  List.range' scheduled.queryStart scheduled.queryCount

section

variable {request : Request} {cached start k : Nat} {steps : List PrefillStep}

theorem Chunked.runs (h : Chunked request cached start steps) :
    forall step, step ∈ steps -> exists start, step.Runs request cached start := by
  induction h with
  | done => exact fun step hstep => absurd hstep List.not_mem_nil
  | chunk hruns _ ih =>
    intro step hstep
    rcases List.mem_cons.mp hstep with hhead | hrest
    · exact ⟨_, hhead ▸ hruns⟩
    · exact ih step hrest

/-- A chunk starts where the one before it ends, and the first at `start`. -/
theorem Chunked.queryStart {step} (h : Chunked request cached start steps)
    (hstep : steps[i]? = some step) :
    (i = 0 ∧ step.scheduled.queryStart = start)
      ∨ exists j previous, i = j + 1 ∧ steps[j]? = some previous
        ∧ previous.scheduled.queryEnd = step.scheduled.queryStart := by
  induction h generalizing i with
  | done => exact absurd hstep (by rw [List.getElem?_nil]; exact nofun)
  | @chunk _ first rest hruns _ ih =>
    cases i with
    | zero =>
      cases Option.some.inj hstep
      exact .inl ⟨rfl, hruns.queryStart⟩
    | succ i =>
      rcases ih hstep with ⟨hzero, hstart⟩ | ⟨j, previous, hj, hprevious, hend⟩
      · exact .inr ⟨0, first, congrArg _ hzero, rfl, hstart.symm⟩
      · exact .inr ⟨j + 1, previous, congrArg _ hj, hprevious, hend⟩

theorem scoredPositions_of_runs {step : PrefillStep} (h : step.Runs request cached start) :
    scoredPositions step.scheduled step.value cached = List.range' (max start (cached + 1))
        (step.scheduled.queryEnd - max start (cached + 1)) := by
  have hend := (h.fits.prefill h.phase).2
  unfold scoredPositions
  rw [Nat.min_eq_left hend, h.queryStart, Nat.max_eq_left (Nat.le_add_left 1 cached)]

/-- The positions of all chunks follow one another up to the end of the prompt. -/
theorem Chunked.flatten_positions (h : Chunked request cached start steps)
    (hcached : cached ≤ start) :
    (steps.map fun step => scoredPositions step.scheduled step.value cached).flatten
      = List.range' (max start (cached + 1)) (request.promptLen - max start (cached + 1)) := by
  induction h with
  | done => rw [Nat.sub_eq_zero_of_le (Nat.le_max_left _ _)]; rfl
  | @chunk start step rest hruns _ ih =>
    have hcount := step.scheduled.count_pos
    have hend : step.scheduled.queryEnd = start + step.scheduled.queryCount := by
      rw [<- hruns.queryStart]
      rfl
    have hlast : step.scheduled.queryEnd ≤ request.promptLen :=
      hruns.promptTokens ▸ (hruns.fits.prefill hruns.phase).2
    have hnext : max step.scheduled.queryEnd (cached + 1) = step.scheduled.queryEnd := by omega
    have hjoin : max start (cached + 1) + (step.scheduled.queryEnd - max start (cached + 1))
        = step.scheduled.queryEnd := by omega
    have hlength : step.scheduled.queryEnd - max start (cached + 1)
          + (request.promptLen - step.scheduled.queryEnd)
        = request.promptLen - max start (cached + 1) := by omega
    have hglue := @List.range'_append_1 (max start (cached + 1))
      (step.scheduled.queryEnd - max start (cached + 1))
      (request.promptLen - step.scheduled.queryEnd)
    rw [hjoin, hlength] at hglue
    rw [List.map_cons, List.flatten_cons, ih (by omega), hnext, scoredPositions_of_runs hruns]
    exact hglue

/-- Over the chunks of one incarnation the positions behind the cached part are planned,
each once.  The row before a planned position is a query row of its own step, or the
position opens a later chunk and the row is the last of the chunk before. -/
theorem prompt_positions_planned (hk : request.promptLogprobs = some k)
    (hsteps : Chunked request cached cached steps) :
    exists rows : List (List Nat),
      List.Forall₂ (fun step row => step.planned = Except.ok row) steps rows
      ∧ rows.flatten = List.range' (cached + 1) (request.promptLen - (cached + 1))
      ∧ forall (i position : Nat) (step : PrefillStep) (row : List Nat), steps[i]? = some step ->
        rows[i]? = some row -> position ∈ row -> position - 1 ∈ step.scheduled.queryRows
          ∨ exists (j : Nat) (previous : PrefillStep), i = j + 1
            ∧ position = step.scheduled.queryStart
            ∧ steps[j]? = some previous
            ∧ previous.scheduled.queryRows.getLast? = some (position - 1) := by
  refine ⟨steps.map fun step => scoredPositions step.scheduled step.value cached, ?_, ?_, ?_⟩
  · refine List.forall₂_map_right_iff.mpr (List.forall₂_same.mpr fun step hstep => ?_)
    rcases hsteps.runs step hstep with ⟨start, hruns⟩
    exact hruns.planned_eq hk
  · rw [hsteps.flatten_positions (Nat.le_refl cached), Nat.max_eq_right (Nat.le_succ cached)]
  · intro i position step row hstep hrow hposition
    rw [List.getElem?_map, hstep] at hrow
    rw [<- Option.some.inj hrow] at hposition
    dsimp only at hposition
    rcases hsteps.runs step (List.mem_of_getElem? hstep) with ⟨start, hruns⟩
    rw [scoredPositions_of_runs hruns, <- hruns.queryStart, List.mem_range'_1] at hposition
    have hend : step.scheduled.queryEnd
        = step.scheduled.queryStart + step.scheduled.queryCount := rfl
    rcases Nat.lt_or_ge step.scheduled.queryStart position with _ | _
    · exact Or.inl (List.mem_range'_1.mpr (by omega))
    · rcases hsteps.queryStart hstep with ⟨_, _⟩ | ⟨j, previous, hj, hprevious, _⟩
      · omega
      · have hsame : position = step.scheduled.queryStart := by omega
        have hcount := previous.scheduled.count_pos
        have hlast : previous.scheduled.queryEnd
            = previous.scheduled.queryStart + previous.scheduled.queryCount := rfl
        refine Or.inr ⟨j, previous, hj, hsame, hprevious, ?_⟩
        unfold ScheduledSlice.queryRows
        rw [List.getLast?_range', if_neg (by omega)]
        exact congrArg some (by omega)

end

/-! ## A prompt in two chunks -/

theorem scored_text : isBlank "r" = false := by decide

theorem scored_min : 0 ≤ 1 := by decide

def scoredRequest : Request where
  requestId := "r"
  promptTokenIds := [3, 1, 4, 1]
  stop := { maxTokens := 1, maxTokens_pos := Nat.one_pos, minTokens_le := scored_min }
  promptLogprobs := some 0
  id_text := scored_text
  prompt_nonempty := by decide

def scoredLifecycle (computed : Nat) : RequestLifecycle :=
  { RequestLifecycle.new scoredRequest 1 with
    machine :=
      { state := .prefill, numPromptTokens := 4, sequenceEpoch := 1
        numComputedTokens := computed }
    sequence := some (Handle.first .sequence 0)
    bindingEpoch := 1 }

def scoredValue (computed : Nat) : RequestStepInput :=
  (scoredLifecycle computed).inputWith (Handle.first .sequence 0) 0 computed

def scoredSlice (start : Nat) : ScheduledSlice where
  requestId := "r"
  sequenceEpoch := 1
  expectedStateVersion := 0
  queryStart := start
  queryCount := 2
  phase := .prefill
  id_text := scored_text
  epoch_pos := Nat.one_pos
  count_pos := Nat.two_pos

def scoredStep (start : Nat) : PrefillStep where
  requests := (LifecycleManager.new.register scoredRequest).store 0
    { lifecycle := scoredLifecycle start, nextEpoch := 2 }
  slices := [scoredSlice start]
  inputs := [scoredValue start]
  index := 0
  scheduled := scoredSlice start
  value := scoredValue start
  aligned := rfl
  slice_at := rfl
  input_at := rfl

theorem scoredStep_runs (hstart : start ≤ 2) :
    (scoredStep start).Runs scoredRequest 0 start where
  phase := rfl
  fits := ⟨rfl, rfl, rfl, rfl, Nat.add_le_add_right hstart 2,
    fun _ => ⟨Nat.lt_of_le_of_lt hstart (by decide : 2 < 4), Nat.add_le_add_right hstart 2⟩,
    nofun, nofun, nofun⟩
  queryStart := rfl
  found := ⟨scoredLifecycle start, rfl, rfl, rfl, ⟨_, rfl, rfl⟩, rfl, rfl, scoredRequest.id_text,
    Nat.le_refl 1, (by decide : 1 ≤ 4), Nat.le_refl 1, Nat.le_refl 4, Nat.le_succ 4,
    Nat.le_trans hstart (by decide : 2 ≤ 4)⟩

theorem scored_chunked : Chunked scoredRequest 0 0 [scoredStep 0, scoredStep 2] :=
  .chunk (scoredStep_runs (Nat.zero_le 2)) (.chunk (scoredStep_runs (Nat.le_refl 2)) .done)

theorem two_chunk_positions_planned :
    scoredRequest.promptLogprobs = some 0 ∧ exists rows : List (List Nat),
      List.Forall₂ (fun step row => step.planned = Except.ok row)
        [scoredStep 0, scoredStep 2] rows ∧ rows.flatten = [1, 2, 3] := by
  rcases prompt_positions_planned rfl scored_chunked with ⟨rows, hplanned, hflat, _⟩
  exact ⟨rfl, rows, hplanned, hflat⟩

/-- The second chunk plans position 2, and row 1 is not among its rows. -/
theorem boundary_row_in_earlier_step :
    Chunked scoredRequest 0 0 [scoredStep 0, scoredStep 2]
      ∧ scoredRequest.promptLogprobs = some 0
      ∧ (scoredStep 2).planned = Except.ok [2, 3]
      ∧ 2 - 1 ∉ (scoredStep 2).scheduled.queryRows :=
  ⟨scored_chunked, rfl, by decide +kernel, by decide⟩

end Sched
end Ayaka
