import Ayaka.Foundation.Effect

/-!
# One computation mirroring another

Two computations run from two states.  The second mirrors the first when, wherever
the first returns, it returns the same value, and the states they leave are
related.  Nothing is asked where the first raises.
-/

namespace Ayaka
namespace Foundation

variable {error state alpha beta : Type}

/-- Where `x` returns from `s`, `y` returns the same from `t`, into related states. -/
def Mirrors (post : alpha -> state -> state -> Prop) (x y : EStateM error state alpha)
    (s t : state) : Prop :=
  forall a s', x s = .ok a s' ->
    exists t', y t = .ok a t' ∧ post a s' t'

variable {post : beta -> state -> state -> Prop} {s t : state}

theorem mirrors_pure {b : beta} (h : post b s t) :
    Mirrors post (pure b : EStateM error state beta) (pure b) s t := by
  intro _ _ hrun
  cases hrun
  exact ⟨t, rfl, h⟩

theorem mirrors_throw (e : error) (y : EStateM error state beta) :
    Mirrors post (throw e) y s t := by
  intro _ _ hrun
  cases hrun

variable {f g : alpha -> EStateM error state beta}

theorem mirrors_bind {middle : alpha -> state -> state -> Prop} {x y} (hx : Mirrors middle x y s t)
    (hf : forall a s' t', middle a s' t' -> Mirrors post (f a) (g a) s' t') :
    Mirrors post (x >>= f) (y >>= g) s t := by
  intro b s' hrun
  rw [bind_run] at hrun
  cases hfirst : x s with
  | error e s1 =>
    rw [hfirst] at hrun
    cases hrun
  | ok a s1 =>
    rw [hfirst] at hrun
    rcases hx a s1 hfirst with ⟨t1, hsecond, hmiddle⟩
    rw [bind_run_ok g hsecond]
    exact hf a s1 t1 hmiddle b s' hrun

theorem mirrors_get_bind {f g : state -> EStateM error state beta}
    (h : Mirrors post (f s) (g t) s t) : Mirrors post (get >>= f) (get >>= g) s t :=
  h

theorem mirrors_modify_bind {change : state -> state} {f g : PUnit -> EStateM error state beta}
    (h : Mirrors post (f PUnit.unit) (g PUnit.unit) (change s) (change t)) :
    Mirrors post (modify change >>= f) (modify change >>= g) s t :=
  h

theorem mirrors_modify {post : PUnit -> state -> state -> Prop} {change : state -> state}
    (h : post PUnit.unit (change s) (change t)) :
    Mirrors post (modify change : EStateM error state PUnit) (modify change) s t :=
  mirrors_pure h

/-- A check that passes in the first state has to pass in the second. -/
theorem mirrors_query_bind {q q' : state -> Except error alpha} (h : forall a, q s = .ok a ->
      q' t = .ok a ∧ Mirrors post (f a) (g a) s t) :
    Mirrors post (query q >>= f) (query q' >>= g) s t := by
  intro b s' hrun
  rw [query_bind_run] at hrun
  cases hq : q s with
  | error e =>
    rw [hq] at hrun
    cases hrun
  | ok a =>
    rw [hq] at hrun
    rw [query_bind_run, (h a hq).1]
    exact (h a hq).2 b s' hrun

/-- A handler that always raises is out of the picture. -/
theorem mirrors_tryCatch {x y} {f g : error -> EStateM error state beta}
    (hx : Mirrors post x y s t) (hf : forall e s' b s'', f e s' ≠ .ok b s'') :
    Mirrors post (tryCatch x f) (tryCatch y g) s t := by
  intro b s' hrun
  cases hfirst : x s with
  | error e s1 =>
    rw [tryCatch_run_error f hfirst] at hrun
    exact absurd hrun (hf e s1 b s')
  | ok a s1 =>
    rw [tryCatch_run_ok f hfirst] at hrun
    rcases hx a s1 hfirst with ⟨t1, hsecond, hpost⟩
    cases hrun
    exact ⟨t1, tryCatch_run_ok g hsecond, hpost⟩

end Foundation
end Ayaka
