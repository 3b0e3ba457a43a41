import Ayaka.Foundation.Law
import Ayaka.Speculative.Acceptance

/-!
# Stochastic acceptance

A draft is kept with the ratio of its target and draft probabilities, the first
rejected one is replaced by a token of the residual distribution, and after a
full acceptance the target gives one more token.  Probabilities are exact and
draws ideal.  Drafts come from any model of the context, one after the other.
-/

namespace Ayaka
namespace Speculative

open Foundation Executor
open Finset (range sum_add_distrib sum_congr sum_div sum_mul)

/-- The probabilities of one row, by token id. -/
abbrev Row := Nat -> Rat

section Model

variable (vocab : Nat) (tiny : Rat)

/-- `residual_distribution`, one row; `tiny` is the smallest normal number of the type. -/
def residualDistribution (target proposal : Row) : Row :=
  let residual token := max (target token - proposal token) 0
  let mass := ∑ token ∈ Finset.range vocab, residual token
  fun token => if 0 < mass then residual token / max mass tiny else target token

/-- The two loops over the candidates: `target[-1]` is the row of the bonus. -/
def acceptLoop (kept : List Int) : List Int -> List Row -> List Row -> Law Acceptance
  | token :: rest, q :: proposal, p :: target => do
    if <- Law.coin (min 1 (p token.toNat / q token.toNat)) then
      acceptLoop (kept ++ [token]) rest proposal target
    else
      let sampled <- Law.weighted vocab (residualDistribution vocab tiny p q)
      pure { tokens := kept ++ [(sampled : Int)], accepted := kept.length }
  | _, _, target => do
    let bonus <- Law.weighted vocab (target.getLastD fun _ => 0)
    pure { tokens := kept ++ [(bonus : Int)], accepted := kept.length }

/-- `torch.allclose(probabilities.sum(-1), 1, atol=1e-6, rtol=1e-6)` and the sign check. -/
def Normalized (row : Row) : Prop :=
  (forall token, token < vocab -> 0 ≤ row token) ∧
    |∑ token ∈ Finset.range vocab, row token - 1| ≤ 2 / 1000000

instance (row : Row) : Decidable (Normalized vocab row) :=
  inferInstanceAs (Decidable (_ ∧ _))

def checkCandidate (pair : Int × Row) : Except Failure Unit := do
  requireInt pair.1 "candidate" 0
  reject (vocab ≤ pair.1.toNat ∨ pair.2 pair.1.toNat ≤ 0)
    (.valueError "candidate must have positive proposal probability")

def acceptStochastic (candidates : List Int) (proposal target : List Row) :
    Except Failure (Law Acceptance) := do
  reject (target.length ≠ candidates.length + 1 ∨ proposal.length ≠ candidates.length ∨ vocab < 1)
    (.valueError "expected CPU q[K,V], p[K+1,V]")
  reject (exists row, row ∈ proposal ++ target ∧ ¬ Normalized vocab row)
    (.valueError "acceptance requires normalized finite probabilities")
  (candidates.zip proposal).forM (checkCandidate vocab)
  pure (acceptLoop vocab tiny [] candidates proposal target)

end Model

/-! ## The experiment -/

structure Distribution (vocab : Nat) where
  prob : Row
  nonneg : forall token, token < vocab -> 0 ≤ prob token
  total : ∑ token ∈ Finset.range vocab, prob token = 1

abbrev TokenModel (vocab : Nat) := List Int -> Distribution vocab

variable {vocab : Nat}

/-- Tokens drawn from a model one at a time, each after all before it. -/
def TokenModel.draw (model : TokenModel vocab) : Nat -> List Int -> Law (List Int)
  | 0, _ => pure []
  | n + 1, context => do
    let token <- Law.weighted vocab (model context).prob
    let rest <- model.draw n (context ++ [(token : Int)])
    pure ((token : Int) :: rest)

/-- The rows of a model before each token and after the last. -/
def TokenModel.rows (model : TokenModel vocab) : List Int -> List Int -> List Row
  | context, [] => [(model context).prob]
  | context, token :: rest => (model context).prob :: model.rows (context ++ [token]) rest

/-- Draw `k` drafts, verify them, and let the target go on from the emitted tokens
until there are `k + 1` in all; nothing when the verification raises. -/
def verified (tiny : Rat) (target proposal : TokenModel vocab) (k : Nat) (context : List Int) :
    Law (Option (List Int)) := do
  let drafts <- proposal.draw k context
  match acceptStochastic vocab tiny drafts ((proposal.rows context drafts).take k)
      (target.rows context drafts) with
  | .error _ => pure none
  | .ok law => do
    let emitted <- law
    let rest <- target.draw (k + 1 - emitted.tokens.length) (context ++ emitted.tokens)
    pure (some (emitted.tokens ++ rest))

/-! ## One rejection -/

namespace Distribution

/-- What is kept of a draft, with its probability. -/
theorem kept (p q : Distribution vocab) (h : token < vocab) :
    q.prob token * min 1 (p.prob token / q.prob token) = min (p.prob token) (q.prob token) := by
  rcases (q.nonneg token h).eq_or_lt with hzero | hpos
  · rw [<- hzero, zero_mul, min_eq_right (p.nonneg token h)]
  · rw [mul_min_of_nonneg _ _ hpos.le, mul_one, mul_div_cancel₀ _ hpos.ne', min_comm]

end Distribution

/-! ## Drafts -/

namespace TokenModel

variable {context drafts : List Int}

section

variable (model : TokenModel vocab)

end

end TokenModel

/-- The drafts accepted so far, and one token after them. -/
def Emits (drafts : List Int) (emitted : Acceptance) : Prop :=
  emitted.accepted ≤ drafts.length ∧ emitted.tokens.length = emitted.accepted + 1 ∧
    emitted.tokens.take emitted.accepted = drafts.take emitted.accepted

end Speculative
end Ayaka
