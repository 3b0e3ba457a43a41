import Ayaka.Request.Lifecycle

/-!
# Stop policy

When generation ends: at a stop or EOS token once the minimum is reached, or at the
output budget.  Before the minimum the same tokens are banned from sampling.

Text stops are left out: they need decoded text, and a request that has them never
speculates.
-/

namespace Ayaka
namespace Request

open Foundation
open Executor (Failure reject requireInt)

@[ext] structure ResolvedStopPolicy where
  maxTokens : Nat
  minTokens : Nat := 0
  stopTokenIds : List Nat := []
  eosTokenIds : List Nat := []
  ignoreEos : Bool := false
  max_pos : 1 ≤ maxTokens
  min_le : minTokens ≤ maxTokens
  deriving Repr

instance : DecidableEq ResolvedStopPolicy :=
  fun _ _ => decidable_of_iff _ ResolvedStopPolicy.ext_iff.symm

namespace ResolvedStopPolicy

variable (policy : ResolvedStopPolicy)

/-- The reason to stop at a token, if there is one; `generated` counts the token. -/
def reasonAt (token : Int) (generated : Nat) : Option FinishReason :=
  if generated > policy.minTokens ∧ policy.stopTokenIds.any (fun id => token = id) then
    some .stop
  else if generated > policy.minTokens ∧ policy.ignoreEos = false
      ∧ policy.eosTokenIds.any (fun id => token = id) then
    some .eos
  else if generated = policy.maxTokens then
    some .length
  else
    none

def evaluate (token : Int) (generated : Nat) : Except Failure (Option FinishReason) := do
  requireInt token "token_id" 0
  requireInt generated "generated_tokens" 1
  reject (generated > policy.maxTokens)
    (.valueError "generation exceeded its token limit")
  pure (policy.reasonAt token generated)

/-- The loop of `token_stop_limit` from a token on; `index` counts from one. -/
def limitFrom (generated total : Nat) : Nat -> List Int -> Except Failure Int
  | _, [] => pure total
  | index, token :: rest => do
    match <- policy.evaluate token (generated + index) with
    | some _ => pure index
    | none => limitFrom generated total (index + 1) rest

def tokenStopLimit (tokens : List Int) (generated : Nat) : Except Failure Int :=
  policy.limitFrom generated tokens.length 1 tokens

theorem evaluate_eq (htoken : 0 ≤ token) (hpos : 1 ≤ generated)
    (hmax : generated ≤ policy.maxTokens) :
    policy.evaluate token generated = .ok (policy.reasonAt token generated) := by
  unfold evaluate
  rw [Executor.check_bind_eq_ok_iff, Executor.check_bind_eq_ok_iff, Executor.check_bind_eq_ok_iff]
  refine ⟨Executor.requireInt_eq_ok_iff.mpr htoken, Executor.requireInt_eq_ok_iff.mpr ?_,
    Executor.reject_eq_ok_iff.mpr (Nat.not_lt.mpr hmax), rfl⟩
  exact Int.ofNat_le.mpr hpos

theorem reasonAt_maxTokens (token : Int) : (policy.reasonAt token policy.maxTokens).isSome := by
  unfold reasonAt
  split
  · rfl
  · split
    · rfl
    · rw [if_pos rfl]
      rfl

end ResolvedStopPolicy

end Request
end Ayaka
