import Ayaka.Executor.Completion
import Ayaka.Request.Stop
import Ayaka.Speculative.Verify

/-!
# Greedy speculation loses nothing

A request decodes round by round.  In a plain round it publishes the token of its
base row.  In a speculative round the drafts of its slice are verified together
with those of its peers, and the accepted drafts and one token of the target are
published, up to the first stop and the output budget.  Whatever is drafted, and
whoever the peers are, the request publishes what it would have published one token
at a time.
-/

namespace Ayaka
namespace Speculative

open Foundation Sched Request
open Executor (Failure)

/-! ## A decoding request -/

/-- A request that decodes greedily: the target model as a function of the tokens
before, and what each row is masked, banned and scaled with. -/
structure Decoding (logit : Type) where
  ops : LogitOps logit
  validMask : Option (List Bool)
  target : List Int -> List logit
  prompt : List Int
  temperature : logit
  /-- The bans of the row that decides the token after so many. -/
  bans : Nat -> List Nat
  policy : ResolvedStopPolicy
  requestId : RequestId

structure Generation where
  outputs : List Int := []
  finish : Option FinishReason := none
  deriving DecidableEq, Repr

/-- One step of the request: its drafts, and the slices verified with them. -/
structure Round (logit : Type) where
  drafts : List Nat
  before : List (VerifySlice logit) := []
  after : List (VerifySlice logit) := []

namespace Decoding

variable {logit : Type} (d : Decoding logit)

/-- The target's token after these outputs. -/
def choice (outputs : List Int) : Nat :=
  d.ops.choose d.validMask d.temperature (d.bans outputs.length) (d.target (d.prompt ++ outputs))

/-- The engine's loop over published samples: the policy is evaluated for each until
one ends the request. -/
def firstReason : Nat -> List Int -> Except Failure (Option FinishReason)
  | _, [] => pure none
  | generated, token :: rest => do
    match <- d.policy.evaluate token (generated + 1) with
    | some reason => pure (some reason)
    | none => firstReason (generated + 1) rest

def publish (g : Generation) (tokens : List Int) : Except Failure Generation := do
  let finish <- d.firstReason g.outputs.length tokens
  pure { outputs := g.outputs ++ tokens, finish }

/-- The slice of the request: draft row `i` sees the first `i` drafts. -/
def slice (outputs : List Int) (drafts : List Nat) : VerifySlice logit where
  drafts
  baseToken := d.choice outputs
  temperature := d.temperature
  rows := (List.range drafts.length).map fun i =>
    d.target (d.prompt ++ (outputs ++ staged (drafts.take (i + 1))))
  bans := (List.range drafts.length).map fun i => d.bans (outputs.length + (i + 1))
  rows_length := by rw [List.length_map, List.length_range]
  bans_length := by rw [List.length_map, List.length_range]

def decode (g : Generation) : Except Failure Generation :=
  match g.finish with
  | some _ => pure g
  | none => d.publish g [(d.choice g.outputs : Int)]

/-- The settlement of the slice: the accepted drafts and the token after them, as
many of them as may be published. -/
def settle (g : Generation) (drafts : List Nat) (final : Option Int) (accepted : Option Nat) :
    Except Failure Generation :=
  match final, accepted with
  | some token, some count => do
    let candidate := staged (drafts.take count) ++ [token]
    let keep <- Completion.publishable (some fun _ => d.policy.tokenStopLimit) d.requestId
      candidate d.policy.maxTokens g.outputs.length
    d.publish g (candidate.take keep)
  | _, _ => throw (.indexError "tuple index out of range")

def speculate (g : Generation) (round : Round logit) : Except Failure Generation := do
  let slices := round.before ++ d.slice g.outputs round.drafts :: round.after
  let result <- greedyVerify d.ops (slices.flatMap VerifySlice.rows)
    (slices.map fun slice => (slice.baseToken : Int)) (VerifySlice.layout slices)
    (slices.map VerifySlice.temperature) d.validMask (slices.flatMap VerifySlice.bans)
  d.settle g round.drafts result.1[round.before.length]? result.2[round.before.length]?

def advance (g : Generation) (round : Round logit) : Except Failure Generation :=
  match g.finish with
  | some _ => pure g
  | none => if round.drafts = [] then d.decode g else d.speculate g round

def run : List (Round logit) -> Generation -> Except Failure Generation
  | [], g => pure g
  | round :: rest, g => do
    let next <- d.advance g round
    run rest next

/-! ### Target-only decoding -/

def decodeMany : Nat -> Generation -> Except Failure Generation
  | 0, g => pure g
  | n + 1, g => do
    let next <- d.decode g
    decodeMany n next

def targetOnly : Except Failure Generation :=
  d.decodeMany d.policy.maxTokens {}

/-! ## The chain of greedy tokens -/

/-- Tokens the target chooses one after another. -/
def Chain : List Int -> List Int -> Prop
  | _, [] => True
  | outputs, token :: rest => token = (d.choice outputs : Int) ∧ Chain (outputs ++ [token]) rest

def targetsAlong : List Int -> List Nat -> List Nat
  | outputs, [] => [d.choice outputs]
  | outputs, draft :: rest => d.choice outputs :: targetsAlong (outputs ++ [(draft : Int)]) rest

section

variable (outputs : List Int) (drafts : List Nat)

theorem choices_slice : (d.slice outputs drafts).choices d.ops d.validMask
      = (List.range drafts.length).map fun i =>
          d.choice (outputs ++ staged (drafts.take (i + 1))) := by
  unfold VerifySlice.choices slice
  rw [List.zipWith_map, List.zipWith_self]
  refine List.map_congr_left fun i hi => ?_
  have hlength : (outputs ++ staged (drafts.take (i + 1))).length = outputs.length + (i + 1) := by
    rw [List.length_append, length_staged, List.length_take]
    exact congrArg _ (Nat.min_eq_left (List.mem_range.mp hi))
  unfold choice
  rw [hlength]

theorem targetsAlong_eq : d.choice outputs :: (List.range drafts.length).map
        (fun i => d.choice (outputs ++ staged (drafts.take (i + 1))))
      = d.targetsAlong outputs drafts := by
  induction drafts generalizing outputs with
  | nil => rfl
  | cons draft rest ih =>
    rw [targetsAlong, <- ih, List.length_cons, List.range_succ_eq_map, List.map_cons, List.map_map]
    refine congrArg _ (congrArg₂ _ rfl ?_)
    refine List.map_congr_left fun i _ => ?_
    show d.choice (outputs ++ staged (draft :: rest.take (i + 1))) = _
    rw [List.append_assoc]
    rfl

theorem verified_slice : ((d.slice outputs drafts).verified d.ops d.validMask).targets
      = staged (d.targetsAlong outputs drafts) := by
  show staged (d.choice outputs :: (d.slice outputs drafts).choices d.ops d.validMask) = _
  rw [choices_slice, targetsAlong_eq]

/-- What a draft is settled to is what the target would have chosen. -/
theorem chain_accepted : d.Chain outputs
      (staged (drafts.take (countAccepted (staged drafts) (staged (d.targetsAlong outputs drafts))))
        ++ [gather (staged (d.targetsAlong outputs drafts))
          (countAccepted (staged drafts) (staged (d.targetsAlong outputs drafts)))]) := by
  induction drafts generalizing outputs with
  | nil => exact ⟨rfl, trivial⟩
  | cons draft rest ih =>
    have hcount : countAccepted (staged (draft :: rest))
          (staged (d.targetsAlong outputs (draft :: rest)))
        = if (draft : Int) ≠ d.choice outputs then 0 else countAccepted (staged rest)
            (staged (d.targetsAlong (outputs ++ [(draft : Int)]) rest)) + 1 := rfl
    rw [hcount]
    by_cases heq : (draft : Int) = d.choice outputs
    · rw [if_neg (not_not.mpr heq)]
      exact ⟨heq, ih (outputs ++ [(draft : Int)])⟩
    · rw [if_pos heq]
      exact ⟨rfl, trivial⟩

end

theorem chain_take (h : d.Chain outputs tokens) (n : Nat) : d.Chain outputs (tokens.take n) := by
  induction tokens generalizing outputs n with
  | nil =>
    rw [List.take_nil]
    exact h
  | cons token rest ih =>
    cases n with
    | zero => exact trivial
    | succ n => exact ⟨h.1, ih h.2 n⟩

/-! ## Publishing -/

theorem decode_eq (outputs : List Int) (hroom : outputs.length < d.policy.maxTokens) :
    d.decode { outputs } = .ok
      { outputs := outputs ++ [(d.choice outputs : Int)]
        finish := d.policy.reasonAt (d.choice outputs) (outputs.length + 1) } := by
  have hevaluate := d.policy.evaluate_eq (Int.natCast_nonneg (d.choice outputs))
    (Nat.succ_le_succ (Nat.zero_le outputs.length)) hroom
  unfold decode publish
  unfold firstReason
  rw [hevaluate]
  cases d.policy.reasonAt (d.choice outputs) (outputs.length + 1) with
  | none => rfl
  | some reason => rfl

/-- A chain within the budget: the stop limit keeps a part of it, and that part is
decoded and published alike. -/
theorem decode_chain (hindex : outputs.length = generated + index) (hsome : tokens ≠ [])
    (hchain : d.Chain outputs tokens)
    (hroom : outputs.length + tokens.length ≤ d.policy.maxTokens) :
    exists n reason, 1 ≤ n ∧ n ≤ tokens.length
      ∧ d.policy.limitFrom generated (index + tokens.length) (index + 1) tokens
        = .ok ((index + n : Nat) : Int)
      ∧ d.firstReason outputs.length (tokens.take n) = .ok reason
      ∧ d.decodeMany n { outputs }
        = .ok { outputs := outputs ++ tokens.take n, finish := reason } := by
  induction tokens generalizing outputs index with
  | nil => exact absurd rfl hsome
  | cons token rest ih =>
    rw [List.length_cons] at hroom
    have hdecode := d.decode_eq outputs (by omega)
    rw [<- hchain.1] at hdecode
    have hevaluate : d.policy.evaluate token (outputs.length + 1)
        = .ok (d.policy.reasonAt token (outputs.length + 1)) := by
      apply d.policy.evaluate_eq
      · rw [hchain.1]
        exact Int.natCast_nonneg _
      · exact Nat.succ_le_succ (Nat.zero_le _)
      · omega
    have hlimit : d.policy.limitFrom generated (index + (rest.length + 1)) (index + 1)
          (token :: rest)
        = match d.policy.reasonAt token (outputs.length + 1) with
          | some _ => .ok ((index + 1 : Nat) : Int)
          | none =>
              d.policy.limitFrom generated (index + (rest.length + 1)) (index + 1 + 1) rest := by
      rw [ResolvedStopPolicy.limitFrom, <- Nat.add_assoc generated, <- hindex, hevaluate]
      cases d.policy.reasonAt token (outputs.length + 1) with
      | none => rfl
      | some reason => rfl
    -- one token alone, which is all there is where a reason is found or the chain ends
    have hfirstOne : d.firstReason outputs.length [token]
        = .ok (d.policy.reasonAt token (outputs.length + 1)) := by
      rw [firstReason, hevaluate]
      cases d.policy.reasonAt token (outputs.length + 1) with
      | none => rfl
      | some reason => rfl
    have hdecodeOne : d.decodeMany 1 { outputs } = .ok
        { outputs := outputs ++ [token]
          finish := d.policy.reasonAt token (outputs.length + 1) } := by
      rw [decodeMany, hdecode]
      rfl
    have hone : 1 ≤ rest.length + 1 := Nat.succ_le_succ (Nat.zero_le _)
    rw [List.length_cons, hlimit]
    cases hreason : d.policy.reasonAt token (outputs.length + 1) with
    | some reason =>
      rw [hreason] at hfirstOne hdecodeOne
      exact ⟨1, some reason, Nat.le_refl 1, hone, rfl, hfirstOne, hdecodeOne⟩
    | none =>
      by_cases hrest : rest = []
      · rw [hreason] at hfirstOne hdecodeOne
        rw [hrest]
        exact ⟨1, none, Nat.le_refl 1, Nat.le_refl 1, rfl, hfirstOne, hdecodeOne⟩
      · have hnext : (outputs ++ [token]).length = outputs.length + 1 := by
          rw [List.length_append, List.length_singleton]
        have hindex' : (outputs ++ [token]).length = generated + (index + 1) := by omega
        rcases ih hindex' hrest hchain.2 (by omega) with ⟨n, reason, _, hle, hlimit', hfirst, hmany⟩
        refine ⟨n + 1, reason, Nat.succ_le_succ (Nat.zero_le _), Nat.succ_le_succ hle, ?_, ?_, ?_⟩
        · rw [Nat.add_assoc, Nat.add_comm 1] at hlimit'
          rw [hlimit', Nat.add_assoc, Nat.add_comm 1]
        · rw [hnext] at hfirst
          rw [List.take_succ_cons, firstReason, hevaluate, hreason]
          exact hfirst
        · rw [decodeMany, hdecode, hreason, List.take_succ_cons,
            List.append_cons outputs token (rest.take n)]
          exact hmany

/-- Within the budget, the stop limit says how much is published. -/
theorem publishable_eq {limit : RequestId -> List Int -> Nat -> Except Failure Int}
    {requestId candidate} {maxTokens generated n : Nat}
    (hroom : generated < maxTokens) (hn : 1 ≤ n)
    (hlimit : limit requestId
      (candidate.take (min candidate.length (maxTokens - generated))) generated
      = .ok (n : Int)) (hle : n ≤ min candidate.length (maxTokens - generated)) :
    Completion.publishable (some limit) requestId candidate maxTokens generated = .ok n := by
  have hbudget : min (candidate.length : Int) ((maxTokens : Int) - generated)
      = ((min candidate.length (maxTokens - generated) : Nat) : Int) := by
    omega
  have hpos : ((min candidate.length (maxTokens - generated) : Nat) : Int) ≥ 1 := by omega
  unfold Completion.publishable
  rw [hbudget]
  dsimp only
  rw [if_pos hpos, Int.toNat_natCast, hlimit]
  show (if min ((min candidate.length (maxTokens - generated) : Nat) : Int) (n : Int) < 1 then _
    else Except.ok
      (min ((min candidate.length (maxTokens - generated) : Nat) : Int) (n : Int)).toNat) = _
  have hmin : min ((min candidate.length (maxTokens - generated) : Nat) : Int) (n : Int) = n := by
    omega
  rw [hmin, if_neg (by omega), Int.toNat_natCast]

/-- A chain of candidates is settled as it is decoded, one token after another. -/
theorem settle_eq {outputs drafts} {token : Int} {count : Nat}
    (hroom : outputs.length < d.policy.maxTokens)
    (hchain : d.Chain outputs (staged (drafts.take count) ++ [token])) :
    exists n g, 1 ≤ n ∧ d.settle { outputs } drafts (some token) (some count) = .ok g
      ∧ d.decodeMany n { outputs } = .ok g := by
  have hcandidate : (staged (drafts.take count) ++ [token]).length ≠ 0 := by
    rw [List.length_append, List.length_singleton]
    exact Nat.succ_ne_zero _
  unfold settle
  dsimp only
  generalize hsame : staged (drafts.take count) ++ [token] = candidate at hchain hcandidate ⊢
  have hlength :
      (candidate.take (min candidate.length (d.policy.maxTokens - outputs.length))).length
      = min candidate.length (d.policy.maxTokens - outputs.length) := by
    rw [List.length_take]
    omega
  have hsome :
      candidate.take (min candidate.length (d.policy.maxTokens - outputs.length)) ≠ [] := by
    intro hnil
    rw [hnil] at hlength
    have : min candidate.length (d.policy.maxTokens - outputs.length) = 0 := hlength.symm
    omega
  rcases d.decode_chain (Nat.add_zero outputs.length).symm hsome (d.chain_take hchain _)
    (by rw [hlength]; omega) with ⟨n, reason, hn, hle, hlimit, hfirst, hmany⟩
  rw [Nat.zero_add, Nat.zero_add, Nat.zero_add] at hlimit
  rw [hlength] at hle
  have hkeep : Completion.publishable (some fun _ => d.policy.tokenStopLimit) d.requestId candidate
      d.policy.maxTokens outputs.length = .ok n :=
    publishable_eq hroom hn hlimit hle
  rw [List.take_take, Nat.min_eq_left hle] at hfirst hmany
  refine ⟨n, { outputs := outputs ++ candidate.take n, finish := reason }, hn, ?_, hmany⟩
  rw [hkeep]
  show d.publish { outputs } (candidate.take n) = _
  unfold publish
  rw [hfirst]
  rfl

/-! ## Rounds -/

theorem speculate_eq (hroom : outputs.length < d.policy.maxTokens) (round : Round logit) :
    exists n g, 1 ≤ n ∧ d.speculate { outputs } round = .ok g
      ∧ d.decodeMany n { outputs } = .ok g := by
  have hslices : round.before ++ d.slice outputs round.drafts :: round.after ≠ [] := by
    simp
  have hverify := greedyVerify_slices d.ops d.validMask hslices
  have hpick : forall {alpha : Type} (f : VerifySlice logit -> alpha),
      ((round.before ++ d.slice outputs round.drafts :: round.after).map f)[round.before.length]?
        = some (f (d.slice outputs round.drafts)) := by
    intro alpha f
    rw [List.getElem?_map, List.getElem?_append_right (Nat.le_refl _), Nat.sub_self]
    rfl
  have hchain := d.chain_accepted outputs round.drafts
  rw [<- verified_slice] at hchain
  have hsettle := d.settle_eq hroom hchain
  unfold speculate
  dsimp only
  rw [hverify]
  show exists n g, 1 ≤ n ∧ d.settle _ _ (List.map _ _)[_]? (List.map _ _)[_]? = _ ∧ _
  rw [hpick, hpick]
  exact hsettle

/-- Generation that goes on has room for a token. -/
def Healthy (g : Generation) : Prop :=
  g.finish = none -> g.outputs.length < d.policy.maxTokens

variable {g : Generation}

theorem decode_healthy (h : d.Healthy g) :
    exists g', d.decode g = .ok g' ∧ d.Healthy g'
      ∧ (g.finish = none -> g'.outputs.length = g.outputs.length + 1) := by
  cases g with
  | mk outputs finish =>
    cases finish with
    | some reason => exact ⟨_, rfl, h, fun hnone => nomatch hnone⟩
    | none =>
      have hroom := h rfl
      have hlength : (outputs ++ [(d.choice outputs : Int)]).length = outputs.length + 1 := by
        rw [List.length_append, List.length_singleton]
      refine ⟨_, d.decode_eq outputs hroom, ?_, fun _ => hlength⟩
      intro hgoes
      show (outputs ++ [(d.choice outputs : Int)]).length < _
      rw [hlength]
      apply Nat.lt_of_le_of_ne hroom
      intro hfull
      have hreason := d.policy.reasonAt_maxTokens (d.choice outputs)
      rw [<- hfull] at hreason
      have hgoes : d.policy.reasonAt (d.choice outputs) (outputs.length + 1) = none := hgoes
      rw [Nat.succ_eq_add_one, hgoes] at hreason
      cases hreason

theorem decodeMany_finished (h : g.finish ≠ none) (n : Nat) : d.decodeMany n g = .ok g := by
  have hstays : d.decode g = .ok g := by
    unfold decode
    cases hfinish : g.finish with
    | none => exact absurd hfinish h
    | some reason => rfl
  induction n with
  | zero => rfl
  | succ n ih =>
    rw [decodeMany, hstays]
    exact ih

theorem decodeMany_add (m n : Nat) (g : Generation) :
    d.decodeMany (m + n) g = d.decodeMany m g >>= d.decodeMany n := by
  induction m generalizing g with
  | zero =>
    rw [Nat.zero_add]
    rfl
  | succ m ih =>
    rw [Nat.succ_add, decodeMany, decodeMany, bind_assoc]
    exact congrArg (d.decode g >>= ·) (funext ih)

/-- Plain decoding goes on or has grown by a token a step. -/
theorem decodeMany_healthy (h : d.Healthy g) (n : Nat) :
    exists g', d.decodeMany n g = .ok g' ∧ d.Healthy g'
      ∧ (g'.finish = none -> g'.outputs.length = g.outputs.length + n) := by
  induction n generalizing g with
  | zero => exact ⟨g, rfl, h, fun _ => rfl⟩
  | succ n ih =>
    rcases d.decode_healthy h with ⟨next, hdecode, hnext, hgrown⟩
    rcases ih hnext with ⟨g', hmany, hg', hlength⟩
    refine ⟨g', ?_, hg', fun hgoes => ?_⟩
    · rw [decodeMany, hdecode]
      exact hmany
    · have hopen : g.finish = none := by
        by_contra hdone
        have hstays := d.decodeMany_finished hdone (n + 1)
        rw [decodeMany, hdecode] at hstays
        have hsame : g' = g := Except.ok.inj (hmany.symm.trans hstays)
        rw [hsame] at hgoes
        exact hdone hgoes
      rw [hlength hgoes, hgrown hopen]
      omega

theorem advance_eq (h : d.Healthy g) (round : Round logit) :
    exists n g', (g.finish = none -> 1 ≤ n) ∧ d.advance g round = .ok g'
      ∧ d.decodeMany n g = .ok g' := by
  cases g with
  | mk outputs finish =>
    cases finish with
    | some reason => exact ⟨0, _, (fun hnone => nomatch hnone), rfl, rfl⟩
    | none =>
      unfold advance
      by_cases hdrafts : round.drafts = []
      · rcases d.decode_healthy h with ⟨g', hdecode, _⟩
        refine ⟨1, g', fun _ => Nat.le_refl 1, ?_, ?_⟩
        · rw [if_pos hdrafts]
          exact hdecode
        · rw [decodeMany, hdecode]
          rfl
      · rcases d.speculate_eq (h rfl) round with ⟨n, g', hn, hrun, hmany⟩
        refine ⟨n, g', fun _ => hn, ?_, hmany⟩
        rw [if_neg hdrafts]
        exact hrun

/-- After any rounds the request has published what plain decoding publishes in at
least as many steps, or to its end. -/
theorem run_eq (h : d.Healthy g) (rounds : List (Round logit)) :
    exists n g', d.run rounds g = .ok g' ∧ d.decodeMany n g = .ok g'
      ∧ (g'.finish = none -> rounds.length ≤ n) := by
  induction rounds generalizing g with
  | nil => exact ⟨0, g, rfl, rfl, fun _ => Nat.le_refl 0⟩
  | cons round rest ih =>
    rcases d.advance_eq h round with ⟨m, next, hm, hadvance, hfirst⟩
    rcases d.decodeMany_healthy h m with ⟨next', hsame, hnext, _⟩
    rw [Except.ok.inj (hsame.symm.trans hfirst)] at hnext
    rcases ih hnext with ⟨n, g', hrun, hmany, hlength⟩
    refine ⟨m + n, g', ?_, ?_, fun hgoes => ?_⟩
    · rw [run, hadvance]
      exact hrun
    · rw [decodeMany_add, hfirst]
      exact hmany
    · have hopen : g.finish = none := by
        by_contra hdone
        have hstays := d.decodeMany_finished hdone (m + n)
        rw [decodeMany_add, hfirst] at hstays
        have heq : g' = g := Except.ok.inj (hmany.symm.trans hstays)
        rw [heq] at hgoes
        exact hdone hgoes
      have := hm hopen
      have := hlength hgoes
      rw [List.length_cons]
      omega

theorem healthy_start : d.Healthy {} :=
  fun _ => d.policy.max_pos

theorem targetOnly_finished : exists g, d.targetOnly = .ok g ∧ g.finish ≠ none := by
  rcases d.decodeMany_healthy d.healthy_start d.policy.maxTokens with ⟨g, hmany, hg, hlength⟩
  refine ⟨g, hmany, fun hgoes => ?_⟩
  have hroom := hg hgoes
  rw [hlength hgoes] at hroom
  exact absurd hroom (by simp)

/-- Plain decoding has one end, in however many steps it is reached. -/
theorem targetOnly_eq {n : Nat} (hmany : d.decodeMany n {} = .ok g)
    (hdone : g.finish ≠ none) : d.targetOnly = .ok g := by
  rcases d.targetOnly_finished with ⟨_, hlast, hfinished⟩
  rcases Nat.le_total n d.policy.maxTokens with hle | hle
  · rw [targetOnly, <- Nat.add_sub_cancel' hle, decodeMany_add, hmany]
    exact d.decodeMany_finished hdone _
  · rw [<- Nat.add_sub_cancel' hle, decodeMany_add, <- targetOnly, hlast] at hmany
    rw [hlast, <- hmany]
    exact (d.decodeMany_finished hfinished _).symm

/-- Whatever is drafted in each round, and whoever is verified with it, a greedy
request publishes what plain decoding publishes, and stops where and why it stops;
and a padded batch accepts of each draft what the scalar acceptance accepts. -/
theorem speculation_lossless (rounds : List (Round logit)) (b : PaddedBatch) :
    (exists n g, d.run rounds {} = Except.ok g ∧ d.decodeMany n {} = Except.ok g
        ∧ (g.finish = none -> rounds.length ≤ n))
      ∧ (d.policy.maxTokens ≤ rounds.length -> d.run rounds {} = d.targetOnly)
      ∧ (exists g, d.targetOnly = Except.ok g ∧ g.finish ≠ none)
      ∧ greedyAccept b.drafts b.targets
          = Except.ok (b.batch.map Verified.accepted, b.batch.map Verified.final)
      ∧ (forall v, v ∈ b.batch -> acceptGreedy v.candidates v.targets = Except.ok
          { tokens := v.candidates.take v.accepted ++ [v.final], accepted := v.accepted }) := by
  rcases d.run_eq d.healthy_start rounds with ⟨n, g, hrun, hmany, hlength⟩
  refine ⟨⟨n, g, hrun, hmany, hlength⟩, fun _ => ?_, d.targetOnly_finished,
    greedyAccept_padded b.batch rfl rfl rfl, fun v _ => v.acceptGreedy⟩
  rw [hrun]
  refine (d.targetOnly_eq hmany fun hgoes => ?_).symm
  rcases d.decodeMany_healthy d.healthy_start n with ⟨_, hmany', hg', hgrown⟩
  rw [Except.ok.inj (hmany'.symm.trans hmany)] at hg' hgrown
  have hroom := hg' hgoes
  rw [hgrown hgoes] at hroom
  have hrounds := hlength hgoes
  omega

/-! ### A target that counts -/

def firstMax (row : List Int) : Nat :=
  row.findIdx fun value => row.all fun other => other ≤ value

/-- A target that prefers the number of tokens before, up to four. -/
def counting : Decoding Int where
  ops := { negInf := -1, scale := fun _ value => value, argmax := firstMax }
  validMask := none
  target := fun context => (List.range 5).map fun token => if token = context.length then 1 else 0
  prompt := [0]
  temperature := 0
  bans := fun _ => []
  policy := { maxTokens := 3, stopTokenIds := [4], max_pos := by decide, min_le := by decide }
  requestId := "counting"

/-- The second draft of the first round is wrong; the second round is plain. -/
def countingRounds : List (Round Int) :=
  [{ drafts := [1, 3] }, { drafts := [] }, { drafts := [2] }]

theorem speculation_lossless_counting : counting.run countingRounds {} = counting.targetOnly :=
  (counting.speculation_lossless countingRounds { batch := [], width := 0, fits := nofun }).2.1
    (by decide)

example : counting.targetOnly = .ok { outputs := [1, 2, 3], finish := some .length } := by
  decide +kernel

end Decoding

end Speculative
end Ayaka
