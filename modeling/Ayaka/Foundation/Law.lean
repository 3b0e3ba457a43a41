import Mathlib

/-!
# Laws of finite experiments

An experiment is given by the mean of every function of its outcome.  Two
experiments with the same law give every function the same mean, so an equation
between laws is an equation between functions, and running one experiment after
another is composition.
-/

namespace Ayaka
namespace Foundation

def Law (alpha : Type) : Type :=
  (alpha -> Rat) -> Rat

namespace Law

instance : Monad Law where
  pure a := fun f => f a
  bind law next := fun f => law fun a => next a f

variable {alpha beta : Type}

/-- Whether a number drawn evenly from the unit interval lies below `chance`. -/
def coin (chance : Rat) : Law Bool :=
  fun f => chance * f true + (1 - chance) * f false

/-- One of the first `n` numbers, in proportion to its weight. -/
def weighted (n : Nat) (weight : Nat -> Rat) : Law Nat :=
  fun f => (∑ i ∈ Finset.range n, weight i * f i) / ∑ i ∈ Finset.range n, weight i

variable {good : alpha -> Prop}

end Law

end Foundation
end Ayaka
