import Ayaka.DeviceComm.CollectiveSetup

/-!
# When the setup agrees

After a refusal only the ranks that have built a communicator exchange acknowledgements
of its closing, while the others go on to the exchange of reasons.  So the setup runs in
lockstep exactly when all ranks have built one or none has.  It then ends alike, but for
reasons that have no place in the table of priorities.
-/

namespace Ayaka
namespace CollectiveBackend

open Foundation
open Executor (Failure)

variable {n : Nat}

/-! ## Rounds of the channel -/

/-- A broadcast that all ranks issue, and whose source has a text. -/
theorem answer_broadcast (purpose : Purpose) (source : Fin (n + 2))
    (texts : Fin (n + 2) -> Option Text) (h : texts source = some text) :
    answer (fun r => .broadcast purpose source (texts r)) = some (.text text) := by
  have hshape : forall r : Fin (n + 2), (ChannelOp.broadcast purpose source (texts r)).shape
      = (ChannelOp.broadcast purpose source (texts 0)).shape := fun _ => rfl
  unfold answer
  simp [ChannelOp.shape, ChannelOp.text?, h]

theorem answer_allGrant (purpose : Purpose) (votes : Fin (n + 2) -> Bool) :
    answer (fun r => .allGrant purpose (votes r))
      = some (.grant (decide (forall r, votes r = true))) := by
  have hshape : forall r : Fin (n + 2), (ChannelOp.allGrant purpose (votes r)).shape
      = (ChannelOp.allGrant purpose (votes 0)).shape := fun _ => rfl
  unfold answer
  rw [if_pos hshape]
  rfl

/-- Ranks that issue different operations get no answer. -/
theorem shape_eq_of_answer {ops : Fin (n + 2) -> ChannelOp}
    (h : answer ops = some reply) (r q : Fin (n + 2)) : (ops r).shape = (ops q).shape := by
  unfold answer at h
  split at h
  next hshape => exact (hshape r).trans (hshape q).symm
  next => cases h

/-- An exchange over sources that are ranks: every rank receives the text of each. -/
theorem lockstep_orderedExchange (purpose : Purpose) (own : Fin (n + 2) -> Text)
    (sources : List (Fin (n + 2))) :
    Lockstep answer (fun r : Fin (n + 2) => orderedExchange purpose r (own r) (sources.map Fin.val))
      (fun _ => sources.map own) := by
  induction sources with
  | nil => exact .done _
  | cons source rest ih =>
    have htext : (if (source : Nat) = source then some (own source) else none)
        = some (own source) := if_pos rfl
    have hanswer := answer_broadcast purpose source
      (fun r => if (source : Nat) = r then some (own r) else none) htext
    exact .call _ _ _ _ hanswer (ih.bind (.done _))

theorem lockstep_closeCustom :
    Lockstep answer (fun r : Fin (n + 2) => closeCustom r) (fun _ => ()) := by
  have hexchange := lockstep_orderedExchange .closeAck (fun r : Fin (n + 2) => .closeAck r) [0, 1]
  exact hexchange.bind (.done _)

namespace Participant

theorem lockstep_broadcastReasons (own : Fin (n + 2) -> CollectiveReason)
    (sources : List (Fin (n + 2))) (reasons : List CollectiveReason) :
    Lockstep answer
      (fun r : Fin (n + 2) => broadcastReasons r (own r) (sources.map Fin.val) reasons)
      (fun _ => .ok (reasons ++ sources.map own)) := by
  induction sources generalizing reasons with
  | nil =>
    rw [List.map_nil, List.map_nil, List.append_nil]
    exact .done _
  | cons source rest ih =>
    have htext : (if (source : Nat) = source then some (Text.reason (own source)) else none)
        = some (Text.reason (own source)) := if_pos rfl
    have hanswer := answer_broadcast .groupReason source
      (fun r => if (source : Nat) = r then some (.reason (own r)) else none) htext
    have hrest := ih (reasons ++ [own source])
    rw [List.append_assoc] at hrest
    exact .call _ _ _ _ hanswer hrest

variable {p : Participant}

theorem localReason_eq_ok_iff : p.localReason = .ok <-> p.built = true := by
  unfold localReason built
  by_cases hreason : p.capability.reason = .ok
  · cases hfactory : p.factory with
    | missing => simp [hreason]
    | fails => simp [hreason]
    | returns => simp [hreason]
  · simp [hreason]

theorem refuse_eq_call (hworld : 0 < p.worldSize) (admitted : CollectiveReason) :
    exists o next, p.refuse admitted = .call o next
      ∧ o.shape = (if p.built then .closeAck else .groupReason, some 0) := by
  unfold refuse closeIfBuilt
  cases p.built with
  | true => exact ⟨_, _, rfl, rfl⟩
  | false =>
    cases hsize : p.worldSize with
    | zero =>
      rw [hsize] at hworld
      exact absurd hworld (Nat.lt_irrefl 0)
    | succ size =>
      rw [List.range_succ_eq_map]
      exact ⟨_, _, rfl, rfl⟩

end Participant

/-! ## Reasons with a place in the table -/

namespace CollectiveReason

def Ranked (reason : CollectiveReason) : Prop :=
  reason.priority? ≠ none

instance (reason : CollectiveReason) : Decidable reason.Ranked :=
  inferInstanceAs (Decidable (_ ≠ _))

theorem priority_eq_ok_iff {reason : CollectiveReason} :
    (exists place, reason.priority = .ok place) <-> reason.Ranked := by
  unfold priority Ranked
  cases reason.priority? with
  | none => simp
  | some place => simp

end CollectiveReason

variable {reasons : List CollectiveReason}

theorem leastReason_eq_ok_iff {best : CollectiveReason} {rank : Nat} :
    (exists reason, leastReason best rank reasons = .ok reason)
      <-> forall reason, reason ∈ reasons -> reason.Ranked := by
  induction reasons generalizing best rank with
  | nil => simp [leastReason]
  | cons reason rest ih =>
    rw [List.forall_mem_cons, <- CollectiveReason.priority_eq_ok_iff, leastReason]
    cases reason.priority with
    | error exc => simp [Bind.bind, Except.bind]
    | ok place =>
      simp only [Bind.bind, Except.bind]
      split
      · simp [ih]
      · simp [ih]

/-- The reasons of a group collapse unless one has no place in the table. -/
theorem groupReason_eq_ok_iff (hne : reasons ≠ []) :
    (exists reason, groupReason reasons = .ok reason)
      <-> forall reason, reason ∈ reasons -> reason.Ranked := by
  cases reasons with
  | nil => exact absurd rfl hne
  | cons reason rest =>
    rw [List.forall_mem_cons, <- CollectiveReason.priority_eq_ok_iff, groupReason]
    cases reason.priority with
    | error exc => simp [Bind.bind, Except.bind]
    | ok place => simp [Bind.bind, Except.bind, leastReason_eq_ok_iff]

/-- Admission makes up reasons that have one. -/
theorem admissionReason_ranked {own proposed : CollectiveCapability} (hown : own.reason.Ranked)
    (hproposed : proposed.reason.Ranked) : (own.admissionReason proposed).Ranked := by
  unfold CollectiveCapability.admissionReason
  repeat' split
  all_goals first
    | exact hown
    | exact hproposed
    | decide

/-! ## The group -/

namespace SetupGroup

local instance (priority := 2000) ranks_ne (n : Nat) : NeZero (n + 2) :=
  ⟨Nat.succ_ne_zero _⟩

variable (g : SetupGroup n)

/-- The reason with which a rank admits the profile of the source rank. -/
def admitted (r : Fin (n + 2)) : CollectiveReason :=
  if (g.participant r).localReason ≠ .ok then (g.participant r).localReason
  else (g.capability r).admissionReason (g.capability 0)

def refusals : List CollectiveReason :=
  (List.finRange (n + 2)).map fun r => (g.participant r).refusal (g.admitted r)

def outcome (r : Fin (n + 2)) : Outcome :=
  if forall q, g.admitted q = .ok then (g.participant r).agreed
  else (g.participant r).disagreed (groupReason g.refusals)

def Built (r : Fin (n + 2)) : Prop :=
  (g.participant r).built = true

instance (r : Fin (n + 2)) : Decidable (g.Built r) :=
  inferInstanceAs (Decidable (_ = _))

variable {g} {r : Fin (n + 2)}

theorem built_of_admitted (h : g.admitted r = .ok) : g.Built r := by
  apply Participant.localReason_eq_ok_iff.mp
  by_contra hlocal
  unfold admitted at h
  rw [if_pos hlocal] at h
  exact hlocal h

theorem admittedReason_profile (r : Fin (n + 2)) :
    (g.participant r).admittedReason (.plan (g.participant 0).proposal) = .ok (g.admitted r) := by
  unfold Participant.admittedReason
  have hsame : ¬ ((g.participant r).rank = 0
      ∧ (g.participant 0).proposal ≠ (g.participant r).proposal) := by
    rintro ⟨hzero, hne⟩
    have hr : r = 0 := Fin.ext hzero
    rw [hr] at hne
    exact hne rfl
  dsimp only
  rw [if_neg hsame]
  rfl

/-- The exchange after a refusal, once every rank has closed what it has to. -/
theorem lockstep_reasons :
    Lockstep answer (fun r : Fin (n + 2) => Participant.broadcastReasons (g.participant r).rank
        ((g.participant r).refusal (g.admitted r)) (List.range (g.participant r).worldSize) [])
      (fun _ => .ok g.refusals) := by
  have hreasons := Participant.lockstep_broadcastReasons
    (fun r => (g.participant r).refusal (g.admitted r)) (List.finRange (n + 2)) []
  rw [List.map_coe_finRange_eq_range] at hreasons
  exact hreasons

theorem lockstep_refuse (h : (forall r, g.Built r) ∨ forall r, ¬ g.Built r) :
    Lockstep answer (fun r : Fin (n + 2) => (g.participant r).refuse (g.admitted r))
      (fun r => (g.participant r).disagreed (groupReason g.refusals)) := by
  have hclose : Lockstep answer (fun r : Fin (n + 2) => (g.participant r).closeIfBuilt)
      (fun _ => ()) := by
    rcases h with hall | hnone
    · have hsame : (fun r : Fin (n + 2) => (g.participant r).closeIfBuilt)
          = fun r : Fin (n + 2) => closeCustom r := by
        funext r
        exact if_pos (hall r)
      rw [hsame]
      exact lockstep_closeCustom
    · have hsame : (fun r : Fin (n + 2) => (g.participant r).closeIfBuilt) = fun _ => .done () := by
        funext r
        exact if_neg (hnone r)
      rw [hsame]
      exact .done _
  exact hclose.bind (lockstep_reasons.bind (.done _))

theorem lockstep_vote (hrefuse : (¬ forall r, g.admitted r = .ok) ->
      Lockstep answer (fun r : Fin (n + 2) => (g.participant r).refuse (g.admitted r))
        (fun r => (g.participant r).disagreed (groupReason g.refusals))) :
    Lockstep answer (fun r : Fin (n + 2) => (g.participant r).vote (g.admitted r)) g.outcome := by
  have hanswer := answer_allGrant .profile (fun r => decide (g.admitted r = .ok))
  simp only [decide_eq_true_eq] at hanswer
  by_cases hall : forall r, g.admitted r = .ok
  · have hgranted : g.outcome = fun r => (g.participant r).agreed := by
      funext r
      exact if_pos hall
    rw [decide_eq_true hall] at hanswer
    rw [hgranted]
    exact .call _ _ _ _ hanswer (.done _)
  · have hrefused : g.outcome = fun r => (g.participant r).disagreed (groupReason g.refusals) := by
      funext r
      exact if_neg hall
    rw [decide_eq_false hall] at hanswer
    rw [hrefused]
    exact .call _ _ _ _ hanswer (hrefuse hall)

variable {outcomes : Fin (n + 2) -> Outcome}

theorem runs_iff_vote :
    g.Runs outcomes <->
      Lockstep answer (fun r => (g.participant r).vote (g.admitted r)) outcomes := by
  have htext : (if ((0 : Fin (n + 2)) : Nat) = 0
      then some (Text.plan (g.participant 0).proposal) else none)
        = some (Text.plan (g.participant 0).proposal) := if_pos rfl
  have hanswer := answer_broadcast .profile (0 : Fin (n + 2))
    (fun r => if (r : Nat) = 0 then some (.plan (g.participant r).proposal) else none) htext
  constructor
  · intro h
    rcases h.call_inv with ⟨given, hgiven, hrest⟩
    have hsame := hanswer.symm.trans hgiven
    cases hsame
    simpa only [Proc.bind, admittedReason_profile] using hrest
  · intro h
    refine .call _ _ _ _ hanswer ?_
    simpa only [Proc.bind, admittedReason_profile] using h

theorem runs_of_uniform (h : (forall r, g.Built r) ∨ forall r, ¬ g.Built r) : g.Runs g.outcome :=
  runs_iff_vote.mpr (lockstep_vote fun _ => lockstep_refuse h)

/-- With a communicator on some ranks only, a refusal takes the ranks to different
operations. -/
theorem uniform_of_runs (h : g.Runs outcomes) : (forall r, g.Built r) ∨ forall r, ¬ g.Built r := by
  by_contra hmixed
  rw [not_or] at hmixed
  rcases not_forall.mp hmixed.1 with ⟨r, hr⟩
  rcases not_forall.mp hmixed.2 with ⟨q, hq⟩
  have hq := not_not.mp hq
  have hrefused : ¬ forall r, g.admitted r = .ok :=
    fun hall => hr (built_of_admitted (hall r))
  rcases (runs_iff_vote.mp h).call_inv with ⟨_, hgiven, hrest⟩
  have hanswer := answer_allGrant .profile (fun r => decide (g.admitted r = .ok))
  simp only [decide_eq_true_eq] at hanswer
  rw [decide_eq_false hrefused] at hanswer
  have hsame := hanswer.symm.trans hgiven
  cases hsame
  have hcalls := fun r => (g.participant r).refuse_eq_call (Nat.succ_pos (n + 1)) (g.admitted r)
  choose ops next hcall hshape using hcalls
  have hprocs : (fun r => (g.participant r).refuse (g.admitted r))
      = fun r => .call (ops r) (next r) := funext hcall
  have hrest : Lockstep answer (fun r => (g.participant r).refuse (g.admitted r)) outcomes := hrest
  rw [hprocs] at hrest
  rcases hrest.call_inv with ⟨_, hgiven, _⟩
  have hpurpose := shape_eq_of_answer hgiven r q
  have hr : ¬ (g.participant r).built = true := hr
  have hq : (g.participant q).built = true := hq
  rw [hshape r, hshape q, if_neg hr, if_pos hq] at hpurpose
  cases hpurpose

/-! ## Ending alike -/

/-- All with an enabled plan, all with a disabled plan of one reason, or all with an
agreement error of one reason. -/
def Alike (outcomes : Fin (n + 2) -> Outcome) : Prop :=
  (forall r, exists plan, outcomes r = .backend plan ∧ plan.enabled = true)
  ∨ exists reason,
    (forall r, exists plan, outcomes r = .backend plan ∧ plan.enabled = false
      ∧ plan.reason = reason)
    ∨ forall r, outcomes r = .agreementError reason

variable (g) in
/-- The ranks stay in lockstep and end alike, enabled only if every rank admitted the
profile of the source rank. -/
def Agrees : Prop :=
  exists outcomes, g.Runs outcomes ∧ Alike outcomes
    ∧ ((exists r plan, outcomes r = .backend plan ∧ plan.enabled = true) ->
      forall q, (g.capability q).admissionReason (g.capability 0) = .ok)

variable (g) in
/-- Every rank builds a communicator, or none does and every capability has a reason of
the table of priorities. -/
def Uniform : Prop :=
  (forall r, g.Built r) ∨ forall r, ¬ g.Built r ∧ (g.capability r).reason.Ranked

theorem refusals_ne_nil : g.refusals ≠ [] := by
  unfold refusals
  rw [List.finRange_succ]
  exact List.cons_ne_nil _ _

theorem mem_refusals :
    reason ∈ g.refusals <-> exists r, (g.participant r).refusal (g.admitted r) = reason := by
  simp [refusals]

/-- A rank without a communicator puts its own reason into the exchange. -/
theorem refusal_of_not_built (h : ¬ g.Built r) :
    (g.participant r).refusal (g.admitted r) = (g.participant r).localReason := by
  have hlocal : (g.participant r).localReason ≠ .ok :=
    fun hok => h (Participant.localReason_eq_ok_iff.mp hok)
  exact if_pos hlocal

theorem reason_of_built (h : g.Built r) : (g.capability r).reason = .ok :=
  (of_decide_eq_true h).1

theorem refusal_ranked (h : g.Uniform) (r : Fin (n + 2)) :
    ((g.participant r).refusal (g.admitted r)).Ranked := by
  rcases h with hall | hnone
  · have hranked : forall q, (g.capability q).reason.Ranked := by
      intro q
      rw [reason_of_built (hall q)]
      decide
    have hlocal := Participant.localReason_eq_ok_iff.mpr (hall r)
    unfold Participant.refusal admitted
    rw [if_neg (not_not.mpr hlocal), if_neg (not_not.mpr hlocal)]
    split
    · exact admissionReason_ranked (hranked r) (hranked 0)
    · decide
  · rw [refusal_of_not_built (hnone r).1]
    unfold Participant.localReason
    split
    · cases (g.participant r).factory <;> decide
    · exact (hnone r).2

theorem alike_disagreed (reason : CollectiveReason) :
    Alike fun r => (g.participant r).disagreed (.ok reason) := by
  refine .inr ⟨reason, ?_⟩
  cases hpolicy : g.policy with
  | auto =>
    left
    intro r
    have hr : (g.participant r).policy = .auto := hpolicy
    unfold Participant.disagreed
    dsimp only
    rw [hr]
    exact ⟨_, rfl, rfl, rfl⟩
  | customRequired =>
    right
    intro r
    have hr : (g.participant r).policy = .customRequired := hpolicy
    unfold Participant.disagreed
    dsimp only
    rw [hr]

theorem agreed_of_built (h : g.Built r) :
    exists plan, (g.participant r).agreed = .backend plan ∧ plan.enabled = true := by
  have h : (g.participant r).built = true := h
  unfold Participant.agreed
  rw [if_pos h]
  exact ⟨_, rfl, rfl⟩

theorem agrees_of_uniform (h : g.Uniform) : g.Agrees := by
  have hruns := runs_of_uniform (g := g) (h.imp id fun hnone r => (hnone r).1)
  refine ⟨g.outcome, hruns, ?_⟩
  by_cases hall : forall q, g.admitted q = .ok
  · have houtcome : g.outcome = fun r => (g.participant r).agreed := by
      funext r
      exact if_pos hall
    rw [houtcome]
    refine ⟨.inl fun r => agreed_of_built (built_of_admitted (hall r)), fun _ q => ?_⟩
    have hlocal := Participant.localReason_eq_ok_iff.mpr (built_of_admitted (hall q))
    have hadmitted := hall q
    unfold admitted at hadmitted
    rw [if_neg (not_not.mpr hlocal)] at hadmitted
    exact hadmitted
  · have hranked : forall reason, reason ∈ g.refusals -> reason.Ranked := by
      intro reason hmem
      rcases mem_refusals.mp hmem with ⟨r, hr⟩
      exact hr ▸ refusal_ranked h r
    rcases (groupReason_eq_ok_iff refusals_ne_nil).mpr hranked with ⟨reason, hreason⟩
    have houtcome : g.outcome = fun r => (g.participant r).disagreed (.ok reason) := by
      funext r
      rw [<- hreason]
      exact if_neg hall
    rw [houtcome]
    refine ⟨alike_disagreed reason, ?_⟩
    rintro ⟨r, _, hplan, henabled⟩
    unfold Participant.disagreed at hplan
    dsimp only at hplan
    split at hplan
    · cases hplan
    · cases hplan
      cases henabled

theorem uniform_of_agrees (h : g.Agrees) : g.Uniform := by
  rcases h with ⟨outcomes, hruns, halike, _⟩
  rcases uniform_of_runs hruns with hall | hnone
  · exact .inl hall
  refine .inr fun r => ⟨hnone r, ?_⟩
  by_contra hunranked
  -- the rank's own reason has no place in the table, and every rank raises
  have hlocal : (g.participant r).localReason = (g.capability r).reason := by
    have hne : (g.participant r).capability.reason ≠ .ok := by
      intro hok
      apply hunranked
      show (g.participant r).capability.reason.Ranked
      rw [hok]
      decide
    exact if_neg hne
  have herror : ¬ exists reason, groupReason g.refusals = .ok reason := by
    rw [groupReason_eq_ok_iff refusals_ne_nil]
    intro hranked
    apply hunranked
    rw [<- hlocal, <- refusal_of_not_built (hnone r)]
    exact hranked _ (mem_refusals.mpr ⟨r, rfl⟩)
  have hraised : exists exc, outcomes r = .raised exc := by
    rw [(runs_of_uniform (.inr hnone)).unique hruns]
    unfold outcome
    rw [if_neg fun hall => hnone r (built_of_admitted (hall r))]
    cases hgroup : groupReason g.refusals with
    | ok reason => exact absurd ⟨reason, hgroup⟩ herror
    | error exc => exact ⟨exc, rfl⟩
  rcases hraised with ⟨exc, hexc⟩
  rcases halike with henabled | ⟨reason, hdisabled | hagreement⟩
  · rcases henabled r with ⟨plan, hplan, _⟩
    rw [hexc] at hplan
    cases hplan
  · rcases hdisabled r with ⟨plan, hplan, _⟩
    rw [hexc] at hplan
    cases hplan
  · have hr := hagreement r
    rw [hexc] at hr
    cases hr

/-- The setup agrees exactly when every rank has a communicator to close, or none has and
every reason has a place in the table. -/
theorem agrees_iff_uniform (g : SetupGroup n) : g.Agrees <-> g.Uniform :=
  ⟨uniform_of_agrees, agrees_of_uniform⟩

/-! ## One rank with a communicator -/

/-- Two ranks with good capabilities; the factory of the second one fails. -/
def splitGroup : SetupGroup 0 where
  policy := .auto
  name := "tp"
  ranks := [0, 1]
  capability := fun r =>
    { groupName := "tp"
      ranks := [0, 1]
      worldSize := 2
      localRank := r
      sessionGeneration := (1, 1)
      custom := some ⟨"profile"⟩
      reason := .ok }
  factory := fun r => if r = 0 then .returns else .fails
  describes := fun _ => ⟨rfl, rfl, rfl, rfl⟩

/-- The first rank broadcasts the acknowledgement of its closing while the second one
expects a reason: there is no run in lockstep. -/
theorem splitGroup_not_runs : ¬ exists outcomes, splitGroup.Runs outcomes := by
  rintro ⟨outcomes, hruns⟩
  rcases uniform_of_runs hruns with hall | hnone
  · exact absurd (hall 1) (by decide)
  · exact absurd (show splitGroup.Built 0 by decide) (hnone 0)

end SetupGroup
end CollectiveBackend
end Ayaka
