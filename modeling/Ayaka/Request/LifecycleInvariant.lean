import Ayaka.Request.Manager

/-!
# Tokens of one request

A request's known tokens are its prompt and its published output, its counters
agree with them, and it never publishes past its budget.  Every method keeps this,
raised or returned, and only the two publishing methods change the output: they
append exactly the tokens they were given, or nothing.
-/

namespace Ayaka
namespace Request

open Foundation Sched Executor
open RequestLifecycle (attach cancelToken new settleForward)
open Cell (withLifecycle withMachine)

/-- The token buffers and the counters of a request agree. -/
structure Coherent (lc : RequestLifecycle) : Prop where
  known : lc.knownTokens = lc.request.promptTokenIds ++ lc.outputTokenIds
  generated : lc.machine.numGeneratedTokens = lc.outputTokenIds.length
  tokenized : lc.machine.numPromptTokens = 0 ∨ lc.machine.numPromptTokens = lc.request.promptLen
  bound : lc.sequence.isSome = true -> lc.machine.numPromptTokens = lc.request.promptLen
  computed : lc.machine.numComputedTokens ≤ lc.knownTokens.length
  budget : lc.outputTokenIds.length ≤ lc.request.stop.maxTokens

def tokenView (lc : RequestLifecycle) :
    Request × List Nat × List Nat × Option SequenceHandle × Nat × Nat × Nat :=
  (lc.request, lc.knownTokens, lc.outputTokenIds, lc.sequence, lc.machine.numGeneratedTokens,
    lc.machine.numPromptTokens, lc.machine.numComputedTokens)

namespace Coherent

variable {lc : RequestLifecycle}

section

variable (h : Coherent lc)
include h

theorem of_view (hview : tokenView lc' = tokenView lc) : Coherent lc' := by
  unfold tokenView at hview
  simp only [Prod.mk.injEq] at hview
  rcases hview with ⟨hrequest, hknown, houtput, hsequence, hgenerated, hprompt, hcomputed⟩
  exact
    { known := by rw [hrequest, hknown, houtput]; exact h.known
      generated := by rw [hgenerated, houtput]; exact h.generated
      tokenized := by rw [hprompt, hrequest]; exact h.tokenized
      bound := by rw [hsequence, hprompt, hrequest]; exact h.bound
      computed := by rw [hcomputed, hknown]; exact h.computed
      budget := by rw [houtput, hrequest]; exact h.budget }

theorem length_known : lc.knownTokens.length = lc.request.promptLen + lc.outputTokenIds.length := by
  rw [h.known, List.length_append]
  rfl

/-- Counted tokens never exceed the known ones. -/
theorem counted_le :
    lc.machine.numPromptTokens + lc.machine.numGeneratedTokens ≤ lc.knownTokens.length := by
  rw [h.length_known, h.generated]
  rcases h.tokenized with _ | _
  · omega
  · omega

theorem withComputed (computed : Nat) (hle : computed ≤ lc.knownTokens.length) :
    Coherent { lc with machine := { lc.machine with numComputedTokens := computed } } :=
  { h with computed := hle }

end

end Coherent

theorem new_coherent (request : Request) (epoch : Nat) : Coherent (new request epoch) where
  known := (List.append_nil _).symm
  generated := rfl
  tokenized := .inl rfl
  bound := fun h => nomatch h
  computed := Nat.zero_le _
  budget := Nat.zero_le _

/-! ## Methods that publish nothing -/

/-- The request is coherent and still the one with this output. -/
structure Steady (request : Request) (output : List Nat) (c : Cell) : Prop where
  coherent : Coherent c.lifecycle
  request : c.lifecycle.request = request
  output : c.lifecycle.outputTokenIds = output

section Quiet

variable {request : Request} {output : List Nat}

section

variable (h : Steady request output c)
include h

theorem Steady.of_view (hview : tokenView c'.lifecycle = tokenView c.lifecycle) :
    Steady request output c' where
  coherent := h.coherent.of_view hview
  request := (congrArg Prod.fst hview).trans h.request
  output := (congrArg (fun view => view.2.2.1) hview).trans h.output

theorem Steady.renew : Steady request output c.renew :=
  h.of_view rfl

theorem Steady.enter (dst : RequestState) :
    Steady request output (withMachine (Request.enter dst) c) := by
  unfold Request.enter
  by_cases hdst : dst = .preempted
  · have hback : Steady request output
        { c with lifecycle := { c.lifecycle with
            machine := { c.lifecycle.machine with numComputedTokens := 0 } } } :=
      ⟨h.coherent.withComputed 0 (Nat.zero_le _), h.request, h.output⟩
    refine hback.of_view ?_
    simp only [withMachine, hdst, if_true]
    rfl
  · refine h.of_view ?_
    simp only [withMachine, hdst, if_false]
    rfl

end

theorem transition_keeps (dst : RequestState) : Keeps (Steady request output) (transition dst) := by
  refine Maintains.bind maintains_get fun c => ?_
  refine Maintains.ite (maintains_throw trivial) ?_
  refine Maintains.bind (maintains_modify fun c h => h.enter dst) fun _ => ?_
  exact Maintains.ite (maintains_modify fun c h => h.renew) (maintains_pure _)

/-- A change of fields the tokens do not depend on. -/
theorem modify_keeps {f : Cell -> Cell}
    (hf : forall c, tokenView (f c).lifecycle = tokenView c.lifecycle) :
    Keeps (Steady request output) (modify f : LifecycleM Unit) :=
  maintains_modify fun c h => h.of_view (hf c)

theorem cancelToken_view (reason : String) (c : Cell) :
    tokenView (withLifecycle (cancelToken reason) c).lifecycle = tokenView c.lifecycle := by
  simp only [withLifecycle, cancelToken]
  split <;> rfl

theorem onTokenized_keeps :
    Keeps (Steady request output) (do onTokenized (<- get).lifecycle.request.promptLen) := by
  refine maintains_get_bind fun c h => ?_
  have hlen : c.lifecycle.request.promptLen = request.promptLen := by rw [h.request]
  rw [hlen]
  refine Maintains.wp_bind (keeps_query _) h fun _ c' h' => ?_
  refine Maintains.wp_bind (transition_keeps _) h' fun _ c'' h'' => ?_
  have hlen'' : request.promptLen = c''.lifecycle.request.promptLen := by rw [h''.request]
  exact
    { coherent := { h''.coherent with
        tokenized := .inr hlen''
        bound := fun _ => hlen'' }
      request := h''.request
      output := h''.output }

theorem onCacheLookedUp_keeps (cached : Nat) :
    Keeps (Steady request output) (onCacheLookedUp cached) := by
  refine maintains_get_bind fun c h => ?_
  refine wp_if (fun _ => ⟨h, trivial⟩) fun hcached => ?_
  -- the bound read before the transition still holds after it
  have hle : cached ≤ c.lifecycle.knownTokens.length :=
    Nat.le_trans (Nat.le_of_not_gt hcached) h.coherent.counted_le
  have hlength : forall c', Steady request output c' ->
      c'.lifecycle.knownTokens.length = c.lifecycle.knownTokens.length := by
    intro c' h'
    rw [h'.coherent.length_known, h.coherent.length_known, h'.request, h'.output, h.request,
      h.output]
  refine Maintains.wp_bind (transition_keeps _) h fun _ c' h' => ?_
  have hprogress := h'.coherent.withComputed cached (by rw [hlength c' h']; exact hle)
  exact ⟨hprogress.of_view rfl, h'.request, h'.output⟩

theorem advanceToQueue_keeps (deferToRemoteKV : Bool) :
    Keeps (Steady request output) (advanceToQueue deferToRemoteKV) := by
  refine Maintains.bind (transition_keeps _) fun _ => ?_
  refine Maintains.bind (transition_keeps _) fun _ => ?_
  intro c h
  have htokenized := (onTokenized_keeps : Keeps (Steady request output) _) c h
  rw [wp_bind, wp_get] at htokenized ⊢
  refine wp_seq htokenized fun _ c' h' => ?_
  exact Maintains.ite (transition_keeps _) (onCacheLookedUp_keeps 0) c' h'

theorem onFinished_keeps : Keeps (Steady request output) onFinished :=
  transition_keeps _

theorem onCancelled_keeps : Keeps (Steady request output) onCancelled := by
  refine Maintains.bind (modify_keeps fun _ => rfl) fun _ => ?_
  refine Maintains.bind maintains_get fun _ => ?_
  exact Maintains.ite (maintains_pure _) (transition_keeps _)

theorem onFailed_keeps (reason : String) : Keeps (Steady request output) (onFailed reason) := by
  refine Maintains.bind (modify_keeps fun _ => rfl) fun _ => ?_
  refine Maintains.bind maintains_get fun _ => ?_
  exact Maintains.ite (maintains_pure _) (transition_keeps _)

theorem bindSequence_keeps (sequence : SequenceHandle) (stateVersion computedTokens : Nat) :
    Keeps (Steady request output) (bindSequence sequence stateVersion computedTokens) := by
  refine maintains_get_bind fun c h => ?_
  refine wp_if (fun _ => ⟨h, trivial⟩) fun _ => ?_
  refine wp_if (fun _ => ⟨h, trivial⟩) fun _ => ?_
  refine wp_if (fun _ => ⟨h, trivial⟩) fun htokenized => ?_
  refine wp_query_bind (fun _ hvalid => ?_) fun _ _ => ⟨h, trivial⟩
  have hcomputed : computedTokens ≤ c.lifecycle.knownTokens.length :=
    (RequestStepInput.validate_eq_ok_iff.mp hvalid).computed_le
  have hbound : forall c', Steady request output c' ->
      tokenView c'.lifecycle = tokenView c.lifecycle -> Steady request output (withLifecycle
        (attach sequence stateVersion computedTokens) c') := by
    intro c' h' hview
    have hknown : c'.lifecycle.knownTokens = c.lifecycle.knownTokens :=
      congrArg (fun view => view.2.1) hview
    have hprompt : c'.lifecycle.machine.numPromptTokens = c.lifecycle.machine.numPromptTokens :=
      congrArg (fun view => view.2.2.2.2.2.1) hview
    have hrequest : c'.lifecycle.request = c.lifecycle.request := congrArg Prod.fst hview
    refine ⟨{ h'.coherent with bound := fun _ => ?_, computed := ?_ }, h'.request, h'.output⟩
    · show c'.lifecycle.machine.numPromptTokens = c'.lifecycle.request.promptLen
      rw [hprompt, hrequest]
      exact not_not.mp htokenized
    · show computedTokens ≤ c'.lifecycle.knownTokens.length
      rw [hknown]
      exact hcomputed
  rw [wp_bind, wp_modify]
  split
  · exact hbound _ h.renew rfl
  · exact hbound c h rfl

theorem enterPhase_keeps (phase : Phase) : Keeps (Steady request output) (enterPhase phase) := by
  refine Maintains.bind maintains_get fun _ => ?_
  exact Maintains.ite (transition_keeps _) (maintains_pure _)

theorem beginSlice_keeps (stepId : Nat) (scheduled : ScheduledSlice) :
    Keeps (Steady request output) (beginSlice stepId scheduled) := by
  refine Maintains.bind (keeps_query _) fun value => ?_
  refine Maintains.bind (enterPhase_keeps _) fun _ => ?_
  exact Maintains.bind (modify_keeps fun _ => rfl) fun _ => maintains_pure _

theorem creditRange_keeps (queryStart queryCount : Nat) :
    Keeps (Steady request output) (creditRange queryStart queryCount) := by
  refine Maintains.bind (keeps_query _) fun _ => maintains_get_bind fun c h => ?_
  refine wp_if (fun _ => ⟨h, trivial⟩) fun _ => ?_
  refine wp_if (fun _ => ⟨h, trivial⟩) fun _ => ?_
  refine wp_if (fun _ => ⟨h, trivial⟩) fun hrange => ?_
  exact ⟨h.coherent.withComputed _ (Nat.le_trans (Nat.le_of_not_gt hrange) h.coherent.counted_le),
    h.request, h.output⟩

theorem settleForward_view (scheduled : ScheduledSlice) (c : Cell) :
    tokenView (withLifecycle (settleForward scheduled) c).lifecycle = tokenView c.lifecycle := by
  simp only [withLifecycle, settleForward]
  split <;> rfl

theorem commitComputedRange_keeps (stepId : Nat) (scheduled : ScheduledSlice) (version : Nat) :
    Keeps (Steady request output) (commitComputedRange stepId scheduled version) := by
  refine Maintains.bind (keeps_query _) fun _ => ?_
  refine Maintains.bind (enterPhase_keeps _) fun _ => ?_
  refine Maintains.bind (creditRange_keeps _ _) fun _ => ?_
  refine Maintains.bind (modify_keeps fun _ => rfl) fun _ => ?_
  refine Maintains.bind ?_ fun _ => modify_keeps fun c => settleForward_view scheduled c
  refine Maintains.bind maintains_get fun c => ?_
  exact Maintains.ite (transition_keeps _) (maintains_pure _)

theorem discardSlice_keeps (stepId : Nat) (scheduled : ScheduledSlice) :
    Keeps (Steady request output) (discardSlice stepId scheduled) := by
  refine Maintains.bind maintains_get fun _ => ?_
  refine Maintains.ite (maintains_throw trivial) ?_
  refine Maintains.bind (modify_keeps fun _ => rfl) fun _ => ?_
  exact maintains_modify fun c h => h.renew

theorem applyState_keeps (entry : RequestReport) :
    Keeps (Steady request output) (LifecycleManager.applyState entry) := by
  refine Maintains.bind maintains_get fun c => ?_
  split
  next => exact maintains_pure _
  next =>
    refine Maintains.ite (maintains_throw trivial) ?_
    exact Maintains.bind (modify_keeps fun _ => rfl) fun _ => onFinished_keeps
  next =>
    refine Maintains.bind (modify_keeps fun c => cancelToken_view _ c) fun _ => ?_
    split
    · exact Maintains.bind (modify_keeps fun _ => rfl) fun _ => onCancelled_keeps
    · exact onCancelled_keeps
  next => exact onFailed_keeps _
  next => exact Maintains.ite (maintains_pure _) (transition_keeps _)
  next => exact Maintains.ite (maintains_pure _) (transition_keeps _)
  next => exact transition_keeps _

end Quiet

/-! ## Publication -/

section Publication

variable {request : Request} {output : List Nat} {c : Cell}

/-- The machine counts one more token and the buffers receive it. -/
theorem Steady.publish (h : Steady request output c) (token : Nat)
    (hbudget : output.length < request.stop.maxTokens) :
    Steady request (output ++ [token]) (withLifecycle (appendToken token) (withMachine
        (fun m => { m with numGeneratedTokens := m.numGeneratedTokens + 1 }) c)) := by
  have hknown := h.coherent.known
  have hgenerated := h.coherent.generated
  have hcomputed := h.coherent.computed
  refine ⟨⟨?_, ?_, h.coherent.tokenized, h.coherent.bound, ?_, ?_⟩, h.request, ?_⟩
  · show c.lifecycle.knownTokens ++ [token] = c.lifecycle.request.promptTokenIds
      ++ (c.lifecycle.outputTokenIds ++ [token])
    rw [hknown, h.output, List.append_assoc]
  · show c.lifecycle.machine.numGeneratedTokens + 1 = (c.lifecycle.outputTokenIds ++ [token]).length
    rw [hgenerated, h.output, List.length_append]
    rfl
  · show c.lifecycle.machine.numComputedTokens ≤ (c.lifecycle.knownTokens ++ [token]).length
    rw [List.length_append]
    exact Nat.le_add_right_of_le hcomputed
  · show (c.lifecycle.outputTokenIds ++ [token]).length ≤ c.lifecycle.request.stop.maxTokens
    rw [h.output, h.request, List.length_append]
    exact hbudget
  · show c.lifecycle.outputTokenIds ++ [token] = output ++ [token]
    rw [h.output]

/-- One sample is appended, or nothing is. -/
theorem wp_publishSample (stepId : Nat) (scheduled : ScheduledSlice) (token : Int)
    (h : Steady request output c) :
    Wp (publishSample stepId scheduled token)
      (fun _ c' => 0 ≤ token ∧ Steady request (output ++ [token.toNat]) c')
      (fun _ c' => Steady request output c') c := by
  unfold publishSample onTokenGenerated
  refine wp_query_bind (fun _ _ => ?_) fun _ _ => h
  refine wp_query_bind (fun _ htoken => ?_) fun _ _ => h
  refine wp_if (fun _ => h) fun _ => ?_
  refine wp_if (fun _ => h) fun hbudget => ?_
  rw [wp_bind, wp_bind, wp_get]
  refine wp_if (fun _ => h) fun _ => ?_
  refine wp_if (fun _ => h) fun _ => ?_
  rw [h.output, h.request] at hbudget
  refine ⟨requireInt_eq_ok_iff.mp htoken, ?_⟩
  exact (h.publish token.toNat (Nat.lt_of_not_ge hbudget)).of_view rfl

/-- Every known token but the last is computed, and the machine may publish. -/
structure AtBoundary (position : Nat) (lc : RequestLifecycle) : Prop where
  state : lc.machine.state ∈ [.decoding, .streaming]
  computed : lc.machine.numComputedTokens = position
  known : lc.knownTokens.length = position + 1
  prompt : lc.machine.numPromptTokens = lc.request.promptLen

theorem wp_publishEach (tokens : List Int) (position : Nat) (h : Steady request output c)
    (hready : AtBoundary position c.lifecycle)
    (hbudget : output.length + tokens.length ≤ request.stop.maxTokens) :
    Wp (publishEach position tokens)
      (fun _ c' => Steady request (output ++ tokens.map Int.toNat) c')
      (fun _ _ => False) c := by
  induction tokens generalizing position output c with
  | nil =>
    rw [List.map_nil, List.append_nil]
    exact h
  | cons token rest ih =>
    have hlength := h.coherent.length_known
    rw [hready.known] at hlength
    have hcount : c.lifecycle.machine.numPromptTokens + c.lifecycle.machine.numGeneratedTokens
        = position + 1 := by
      rw [hready.prompt, h.coherent.generated]
      exact hlength.symm
    rw [List.length_cons] at hbudget
    unfold publishEach creditRange onTokenGenerated
    rw [wp_bind]
    refine wp_query_bind (fun _ _ => ?_) fun _ hone => ?_
    · refine wp_if (fun hstate => absurd (List.mem_cons_of_mem _ hready.state) hstate) fun _ => ?_
      refine wp_if (fun hstart => absurd hready.computed.symm hstart) fun _ => ?_
      refine wp_if (fun hrange => absurd hrange (by rw [hcount]; exact Nat.lt_irrefl _)) fun _ => ?_
      rw [wp_modify, wp_bind, wp_bind, wp_get]
      refine wp_if (fun hstate => absurd hready.state hstate) fun _ => ?_
      refine wp_if (fun hne => absurd hcount.symm hne) fun _ => ?_
      have hstep : Steady request (output ++ [token.toNat])
          (withLifecycle (appendToken token.toNat) (withMachine
            (fun m => { m with numGeneratedTokens := m.numGeneratedTokens + 1 })
            (withMachine (fun m => { m with numComputedTokens := position + 1 }) c))) := by
        refine Steady.publish (c := withMachine
          (fun m => { m with numComputedTokens := position + 1 }) c)
          ⟨h.coherent.withComputed (position + 1) (Nat.le_of_eq hready.known.symm), h.request,
            h.output⟩ token.toNat (by omega)
      have hnext := ih (position + 1) hstep
        { hready with
          computed := rfl
          known := by
            show (c.lifecycle.knownTokens ++ [token.toNat]).length = position + 1 + 1
            rw [List.length_append, hready.known]
            rfl }
        (by rw [List.length_append, List.length_singleton]; omega)
      rw [List.map_cons, List.append_cons]
      exact hnext
    · cases hone

/-- An admitted request is decoding after its first decode slice. -/
theorem wp_enterDecode (h : Steady request output c)
    (hstate : c.lifecycle.state ∈ RequestLifecycle.allowedStates .decode)
    (hcomputed : c.lifecycle.machine.numComputedTokens = position)
    (hknown : c.lifecycle.knownTokens.length = position + 1)
    (hprompt : c.lifecycle.machine.numPromptTokens = c.lifecycle.request.promptLen) :
    Wp (enterPhase .decode)
      (fun _ c' => Steady request output c' ∧ AtBoundary position c'.lifecycle)
      (fun _ _ => False) c := by
  unfold enterPhase transition
  rw [wp_bind, wp_get, wp_ite]
  constructor
  · intro hadmitted
    refine wp_if (fun hillegal => ?_) fun _ => ?_
    · rw [hadmitted] at hillegal
      exact absurd hillegal (by decide)
    · exact ⟨h.enter .decoding, ⟨List.mem_cons_self, hcomputed, hknown, hprompt⟩⟩
  · intro hadmitted
    refine ⟨h, ?_, hcomputed, hknown, hprompt⟩
    rcases List.mem_cons.mp hstate with heq | hrest
    · exact absurd heq hadmitted
    · exact hrest

/-- A speculative settlement appends all its tokens or none. -/
theorem wp_commitSpeculativeRange (stepId : Nat) (scheduled : ScheduledSlice)
    (tokens : List Int) (version : Nat) (h : Steady request output c) :
    Wp (commitSpeculativeRange stepId scheduled tokens version)
      (fun _ c' => (forall token, token ∈ tokens -> 0 ≤ token)
        ∧ Steady request (output ++ tokens.map Int.toNat) c')
      (fun _ c' => Steady request output c') c := by
  refine wp_query_bind (fun _ hvalid => ?_) fun _ _ => h
  rcases RequestLifecycle.validateForwardCommit_eq_ok_iff.mp hvalid with ⟨_, hcommit⟩
  refine wp_if (fun _ => h) fun hphase => ?_
  rw [not_or, not_not, Bool.not_eq_false] at hphase
  refine wp_if (fun _ => h) fun _ => ?_
  refine wp_query_bind (fun _ htokens => ?_) fun _ _ => h
  refine wp_if (fun _ => h) fun hbudget => ?_
  rw [h.output, h.request] at hbudget
  rcases hcommit.snapshot.bound with ⟨_, hsequence, hvalue⟩
  have hstart := hcommit.fits.queryStart
  have hboundary := hcommit.fits.boundary hphase.2
  have hone := scheduled.decode_one hphase.1
  rw [hvalue] at hstart hboundary
  have hprompt := h.coherent.bound (by rw [hsequence]; rfl)
  have hknown : c.lifecycle.knownTokens.length = scheduled.queryStart + 1 := by
    rw [ScheduledSlice.queryEnd, hone] at hboundary
    exact hboundary.symm
  have hstate := hcommit.state
  rw [hphase.1] at hstate
  refine wp_then (wp_enterDecode h hstate hstart.symm hknown hprompt) (fun _ c' h' => ?_)
    fun _ _ hfalse => hfalse.elim
  refine wp_then (wp_publishEach tokens scheduled.queryStart h'.1 h'.2 (Nat.le_of_not_gt hbudget))
    (fun _ c'' h'' => ?_) fun _ _ hfalse => hfalse.elim
  refine ⟨fun token htoken => ?_, h''.of_view rfl⟩
  exact requireInt_eq_ok_iff.mp (forM_eq_ok_iff.mp htokens token htoken)

end Publication

end Request
end Ayaka
