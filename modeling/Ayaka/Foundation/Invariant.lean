import Ayaka.Foundation.Effect

/-!
# Invariants of effectful code

A piece of code maintains an invariant when it leaves every state that has it with
another that has it, whether it returns or raises; what it raises may be bounded
besides.
-/

namespace Ayaka
namespace Foundation

variable {error state part alpha beta : Type} {inv : state -> Prop} {fail : error -> Prop}

/-- `x` keeps `inv` and raises only what `fail` allows. -/
def Maintains (inv : state -> Prop) (fail : error -> Prop) (x : EStateM error state alpha) : Prop :=
  forall s, inv s -> Wp x (fun _ s' => inv s') (fun e s' => inv s' ∧ fail e) s

/-- `x` keeps `inv`, whatever it raises. -/
abbrev Keeps (inv : state -> Prop) (x : EStateM error state alpha) : Prop :=
  Maintains inv (fun _ => True) x

variable {x : EStateM error state alpha}

theorem Maintains.final (hx : Maintains inv fail x) {s : state} (hs : inv s) :
    inv (finalState (x s)) :=
  wp_inv_iff.mp (wp_mono (hx s hs) (fun _ _ h => h) fun _ _ h => h.1)

theorem maintains_pure (a : alpha) : Maintains inv fail (pure a : EStateM error state alpha) :=
  fun _ h => h

theorem maintains_throw {e : error} (he : fail e) :
    Maintains inv fail (throw e : EStateM error state alpha) :=
  fun _ h => ⟨h, he⟩

theorem maintains_get : Maintains inv fail (get : EStateM error state state) :=
  fun _ h => h

theorem maintains_query {f : state -> Except error alpha}
    (hf : forall s e, f s = .error e -> fail e) : Maintains inv fail (query f) := by
  intro s h
  rw [wp_query]
  exact ⟨fun _ _ => h, fun e he => ⟨h, hf s e he⟩⟩

theorem keeps_query (f : state -> Except error alpha) : Keeps inv (query f) :=
  maintains_query fun _ _ _ => trivial

theorem maintains_modify {f : state -> state} (hf : forall s, inv s -> inv (f s)) :
    Maintains inv fail (modify f : EStateM error state PUnit) :=
  hf

variable {f : alpha -> EStateM error state beta}

theorem Maintains.bind (hx : Maintains inv fail x) (hf : forall a, Maintains inv fail (f a)) :
    Maintains inv fail (x >>= f) := by
  intro s h
  rw [wp_bind]
  exact wp_mono (hx s h) (fun a s' h' => hf a s' h') fun _ _ h' => h'

/-- The invariant holds where the rest of a computation starts. -/
theorem Maintains.wp_bind {post : beta -> state -> Prop} {s : state} (hx : Maintains inv fail x)
    (hs : inv s) (hf : forall a s', inv s' -> Wp (f a) post (fun e s' => inv s' ∧ fail e) s') :
    Wp (x >>= f) post (fun e s' => inv s' ∧ fail e) s := by
  rw [Foundation.wp_bind]
  exact wp_mono (hx s hs) (fun a s' h => hf a s' h) fun _ _ h => h

/-- The invariant holds where the rest starts and where the code raises. -/
theorem keeps_wp_bind {post : beta -> state -> Prop} {raised : error -> state -> Prop} {s : state}
    (hx : Keeps inv x) (hs : inv s) (hf : forall a s', inv s' -> Wp (f a) post raised s')
    (hraised : forall e s', inv s' -> raised e s') : Wp (x >>= f) post raised s := by
  rw [wp_bind]
  exact wp_mono (hx s hs) (fun a s' h => hf a s' h) fun e s' h => hraised e s' h.1

/-- What follows a look at the state may use what it saw. -/
theorem maintains_get_bind {f : state -> EStateM error state alpha}
    (h : forall s, inv s -> Wp (f s) (fun _ s' => inv s') (fun e s' => inv s' ∧ fail e) s) :
    Maintains inv fail (get >>= f) :=
  h

variable {handler : error -> EStateM error state alpha}

theorem Maintains.tryCatch {caught : error -> Prop} (hx : Maintains inv caught x)
    (hhandler : forall e, caught e -> Maintains inv fail (handler e)) :
    Maintains inv fail (tryCatch x handler : EStateM error state alpha) := by
  intro s h
  have hafter := hx s h
  unfold Wp at hafter ⊢
  cases hrun : x s with
  | ok a s' =>
    rw [hrun] at hafter
    rw [tryCatch_run_ok _ hrun]
    exact hafter
  | error e s' =>
    rw [hrun] at hafter
    rw [tryCatch_run_error _ hrun]
    exact hhandler e hafter.2 s' hafter.1

theorem keeps_tryCatch (hx : Keeps inv x) (hhandler : forall e, Maintains inv fail (handler e)) :
    Maintains inv fail (tryCatch x handler : EStateM error state alpha) :=
  hx.tryCatch fun e _ => hhandler e

theorem Maintains.forM {item : Type} {body : item -> EStateM error state PUnit}
    {items : List item} (hbody : forall x, x ∈ items -> Maintains inv fail (body x)) :
    Maintains inv fail (items.forM body) := by
  induction items with
  | nil => exact maintains_pure PUnit.unit
  | cons x rest ih =>
    exact Maintains.bind (hbody x List.mem_cons_self) fun _ =>
      ih fun y hy => hbody y (List.mem_cons_of_mem x hy)

theorem Maintains.ite {c : Prop} [Decidable c] {x y : EStateM error state alpha}
    (hx : Maintains inv fail x) (hy : Maintains inv fail y) :
    Maintains inv fail (if c then x else y) := by
  split
  · exact hx
  · exact hy

end Foundation
end Ayaka
