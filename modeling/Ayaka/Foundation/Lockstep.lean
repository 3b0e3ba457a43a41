import Mathlib

/-!
# Programs in lockstep

A program is a finite tree: it is done, or makes a call and goes on with the reply.
Several ranks run in lockstep when they make their calls together, a channel answers
the calls of each round with one reply, and all are done at the same time.  A round
whose calls do not fit together has no answer, and then there is no run.
-/

namespace Ayaka
namespace Foundation

inductive Proc (op reply alpha : Type) where
  | done (a : alpha)
  | call (o : op) (next : reply -> Proc op reply alpha)

namespace Proc

variable {op reply alpha beta : Type}

def bind : Proc op reply alpha -> (alpha -> Proc op reply beta) -> Proc op reply beta
  | done a, f => f a
  | call o next, f => call o fun answer => (next answer).bind f

instance : Monad (Proc op reply) where
  pure := done
  bind := bind

end Proc

variable {rank op reply alpha beta : Type} {answer : (rank -> op) -> Option reply}

/-- The ranks run their programs in lockstep, with these results. -/
inductive Lockstep (answer : (rank -> op) -> Option reply) :
    (rank -> Proc op reply alpha) -> (rank -> alpha) -> Prop where
  | done (results : rank -> alpha) : Lockstep answer (fun r => .done (results r)) results
  | call (ops : rank -> op) (next : rank -> reply -> Proc op reply alpha) (given : reply)
      (results : rank -> alpha) (hanswer : answer ops = some given)
      (hrest : Lockstep answer (fun r => next r given) results) :
      Lockstep answer (fun r => .call (ops r) (next r)) results

namespace Lockstep

variable {procs : rank -> Proc op reply alpha} {results : rank -> alpha}

theorem bind (h : Lockstep answer procs results) {rest : rank -> alpha -> Proc op reply beta}
    {final : rank -> beta} (hrest : Lockstep answer (fun r => rest r (results r)) final) :
    Lockstep answer (fun r => procs r >>= rest r) final := by
  induction h with
  | done results => exact hrest
  | call ops next given results hanswer _ ih =>
    exact .call ops (fun r reply => next r reply >>= rest r) given final hanswer (ih hrest)

/-- When all ranks make a call, it was answered and the run goes on from the reply. -/
theorem call_inv [Nonempty rank] {ops : rank -> op} {next : rank -> reply -> Proc op reply alpha}
    (h : Lockstep answer (fun r => .call (ops r) (next r)) results) :
    exists given, answer ops = some given ∧ Lockstep answer (fun r => next r given) results := by
  generalize hprocs : (fun r => Proc.call (ops r) (next r)) = procs at h
  cases h with
  | done results =>
    have hfirst := congrFun hprocs (Classical.arbitrary rank)
    cases hfirst
  | call ops' next' given results hanswer hrest =>
    have hops : ops = ops' := by
      funext r
      exact (Proc.call.inj (congrFun hprocs r)).1
    have hnext : next = next' := by
      funext r
      exact (Proc.call.inj (congrFun hprocs r)).2
    rw [hops, hnext]
    exact ⟨given, hanswer, hrest⟩

theorem done_inv [Nonempty rank] {final : rank -> alpha}
    (h : Lockstep answer (fun r => .done (final r)) results) : results = final := by
  generalize hprocs : (fun r => Proc.done (final r)) = procs at h
  cases h with
  | done results =>
    funext r
    exact (Proc.done.inj (congrFun hprocs r)).symm
  | call ops next given results _ _ =>
    have hfirst := congrFun hprocs (Classical.arbitrary rank)
    cases hfirst

theorem unique [Nonempty rank] {results' : rank -> alpha} (h : Lockstep answer procs results)
    (h' : Lockstep answer procs results') : results' = results := by
  induction h with
  | done results => exact h'.done_inv
  | call ops next given results hanswer _ ih =>
    rcases h'.call_inv with ⟨_, hanswer', hrest'⟩
    rw [hanswer] at hanswer'
    cases hanswer'
    exact ih hrest'

end Lockstep
end Foundation
end Ayaka
