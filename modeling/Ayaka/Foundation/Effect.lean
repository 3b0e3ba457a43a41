import Mathlib

/-!
# Stateful computations with exceptions

An imperative method reads and updates an object and may raise.  A raised
exception does not undo the updates made before it, so the model keeps the state
of both outcomes.  This module fixes the few commands the models are written
with, a weakest-precondition reading of a computation, and the rules by which
the proofs take a computation apart.
-/

namespace Ayaka
namespace Foundation

open EStateM (Result)

variable {error state part alpha beta : Type}

/-- Read the state through a fallible query; the state itself never changes. -/
def query (f : state -> Except error alpha) : EStateM error state alpha :=
  fun s =>
    match f s with
    | .ok a => .ok a s
    | .error e => .error e s

/-- Run a computation on one component of a larger state. -/
def zoom (view : state -> part) (put : part -> state -> state)
    (x : EStateM error part alpha) : EStateM error state alpha :=
  fun s =>
    match x (view s) with
    | .ok a p => .ok a (put p s)
    | .error e p => .error e (put p s)

/-- Take every item in turn; when taking or checking one raises, undo those
taken so far, latest first, and raise again. -/
def takeEach {item : Type} (take check undo : item -> EStateM error state PUnit) :
    List item -> List item -> EStateM error state PUnit
  | [], _ => pure PUnit.unit
  | x :: rest, taken => do
    tryCatch (take x) fun e => do
      taken.forM undo
      throw e
    tryCatch (check x) fun e => do
      (x :: taken).forM undo
      throw e
    takeEach take check undo rest (x :: taken)

def finalState : EStateM.Result error state alpha -> state
  | .ok _ s => s
  | .error _ s => s

/-- The value a call returned, if it did not raise. -/
def returned? : EStateM.Result error state alpha -> Option alpha
  | .ok a _ => some a
  | .error _ _ => none

/-- Running `x` from `s` returns into `post` or raises into
`fail`. -/
def Wp (x : EStateM error state alpha) (post : alpha -> state -> Prop)
    (fail : error -> state -> Prop) (s : state) : Prop :=
  match x s with
  | .ok a s' => post a s'
  | .error e s' => fail e s'

@[simp] theorem finalState_ok (a : alpha) (s : state) :
    finalState (.ok a s : EStateM.Result error state alpha) = s := rfl

@[simp] theorem finalState_error (e : error) (s : state) :
    finalState (.error e s : EStateM.Result error state alpha) = s := rfl

/-!
## Running the basic commands
-/

section Run

variable (s : state)

@[simp] theorem pure_run (a : alpha) :
    (pure a : EStateM error state alpha) s = .ok a s := rfl

@[simp] theorem get_run :
    (get : EStateM error state state) s = .ok s s := rfl

@[simp] theorem modify_run (f : state -> state) :
    (modify f : EStateM error state PUnit) s = .ok PUnit.unit (f s) := rfl

theorem bind_run (x : EStateM error state alpha) (f : alpha -> EStateM error state beta) :
    (x >>= f) s = match x s with
      | .ok a s' => f a s'
      | .error e s' => .error e s' := rfl

variable {x : EStateM error state alpha}

theorem get_bind_run (f : state -> EStateM error state beta) : (get >>= f) s = f s s := rfl

theorem bind_run_ok {s s' : state} {a : alpha} (f : alpha -> EStateM error state beta)
    (h : x s = .ok a s') : (x >>= f) s = f a s' := by
  rw [bind_run, h]

theorem bind_run_error {s s' : state} {e : error} (f : alpha -> EStateM error state beta)
    (h : x s = .error e s') : (x >>= f) s = .error e s' := by
  rw [bind_run, h]

theorem finalState_bind_pure (x : EStateM error state alpha) (f : alpha -> beta) :
    finalState ((x >>= fun a => pure (f a)) s) = finalState (x s) := by
  rw [bind_run]
  cases x s <;> rfl

theorem query_run_ok {f : state -> Except error alpha} {s : state} {a : alpha} (h : f s = .ok a) :
    query f s = .ok a s := by
  unfold query
  rw [h]

theorem query_run_error {f : state -> Except error alpha} {s : state} {e : error}
    (h : f s = .error e) : query f s = .error e s := by
  unfold query
  rw [h]

section

variable (f : state -> Except error alpha)

theorem query_bind_run (g : alpha -> EStateM error state beta) : (query f >>= g) s = match f s with
      | .ok a => g a s
      | .error e => .error e s := by
  rw [bind_run]
  unfold query
  cases f s <;> rfl

/-- A question leaves the state alone, answered or not. -/
theorem finalState_query_bind_pure (g : alpha -> beta) :
    finalState ((query f >>= fun a => pure (g a)) s) = s := by
  rw [finalState_bind_pure]
  unfold query
  cases f s <;> rfl

end

theorem finalState_bind_quiet (x : EStateM error state alpha)
    {f : alpha -> EStateM error state beta} (h : forall a s, finalState (f a s) = s) :
    finalState ((x >>= f) s) = finalState (x s) := by
  rw [bind_run]
  cases x s with
  | ok a s' => exact h a s'
  | error e s' => rfl

/-- A step that succeeds, before the others are undone for nothing. -/
theorem tryCatch_run_ok {s s' : state} {a : alpha} (handler : error -> EStateM error state alpha)
    (h : x s = .ok a s') : (tryCatch x handler : EStateM error state alpha) s = .ok a s' := by
  show EStateM.tryCatch x handler s = _
  unfold EStateM.tryCatch
  rw [h]

theorem tryCatch_run_error {s s' : state} {e : error} (handler : error -> EStateM error state alpha)
    (h : x s = .error e s') :
    (tryCatch x handler : EStateM error state alpha) s = handler e s' := by
  show EStateM.tryCatch x handler s = _
  unfold EStateM.tryCatch
  rw [h]
  rfl

theorem takeEach_run {item : Type} {take check undo : item -> EStateM error state PUnit}
    (next : item -> state -> state) (ready : List item -> state -> Prop)
    (hstep : forall x rest s, ready (x :: rest) s -> take x s = .ok PUnit.unit (next x s) ∧
        check x (next x s) = .ok PUnit.unit (next x s) ∧ ready rest (next x s))
    {items taken} {s : state} (h : ready items s) :
    takeEach take check undo items taken s =
      .ok PUnit.unit (items.foldl (fun s x => next x s) s) := by
  induction items generalizing s taken with
  | nil => rfl
  | cons x rest ih =>
    rcases hstep x rest s h with ⟨htake, hcheck, hrest⟩
    rw [takeEach, bind_run_ok _ (tryCatch_run_ok _ htake),
      bind_run_ok _ (tryCatch_run_ok _ hcheck), ih hrest]
    rfl

section

variable {view : state -> part} {put : part -> state -> state} {x : EStateM error part alpha}
  {s : state}

theorem zoom_run_ok {a : alpha} {p : part} (h : x (view s) = .ok a p) :
    zoom view put x s = .ok a (put p s) := by
  unfold zoom
  rw [h]

theorem zoom_run_error {e : error} {p : part} (h : x (view s) = .error e p) :
    zoom view put x s = .error e (put p s) := by
  unfold zoom
  rw [h]

end

end Run

/-!
## Weakest preconditions

Every rule is an equivalence, so a proof may peel a computation from the front
with `rw` or `simp only`.
-/

section WeakestPrecondition

variable {post : alpha -> state -> Prop} {fail : error -> state -> Prop}
variable {s : state}

@[simp] theorem wp_pure (a : alpha) :
    Wp (pure a : EStateM error state alpha) post fail s <-> post a s := Iff.rfl

@[simp] theorem wp_throw (e : error) :
    Wp (throw e : EStateM error state alpha) post fail s <-> fail e s := Iff.rfl

@[simp] theorem wp_get {post : state -> state -> Prop} :
    Wp (get : EStateM error state state) post fail s <-> post s s := Iff.rfl

@[simp] theorem wp_modify {post : PUnit -> state -> Prop} (f : state -> state) :
    Wp (modify f : EStateM error state PUnit) post fail s <-> post PUnit.unit (f s) := Iff.rfl

@[simp] theorem wp_bind {post : beta -> state -> Prop}
    (x : EStateM error state alpha) (f : alpha -> EStateM error state beta) :
    Wp (x >>= f) post fail s <-> Wp x (fun a s' => Wp (f a) post fail s') fail s := by
  unfold Wp
  rw [bind_run]
  cases x s <;> rfl

theorem wp_query (f : state -> Except error alpha) :
    Wp (query f) post fail s <-> (forall a, f s = .ok a -> post a s) ∧
        (forall e, f s = .error e -> fail e s) := by
  unfold Wp query
  cases h : f s with
  | error e => simp
  | ok a => simp

@[simp] theorem wp_zoom (view : state -> part) (put : part -> state -> state)
    (x : EStateM error part alpha) :
    Wp (zoom view put x) post fail s <->
      Wp x (fun a p => post a (put p s)) (fun e p => fail e (put p s)) (view s) := by
  unfold Wp zoom
  cases x (view s) <;> rfl

@[simp] theorem wp_ite (c : Prop) [Decidable c] (x y : EStateM error state alpha) :
    Wp (if c then x else y) post fail s <->
      (c -> Wp x post fail s) ∧ (¬ c -> Wp y post fail s) := by
  by_cases hc : c
  · simp [hc]
  · simp [hc]

@[simp] theorem wp_tryCatch (x : EStateM error state alpha)
    (handler : error -> EStateM error state alpha) :
    Wp (tryCatch x handler) post fail s <->
      Wp x post (fun e s' => Wp (handler e) post fail s') s := by
  unfold Wp
  cases hx : x s with
  | ok a s' => rw [tryCatch_run_ok _ hx]
  | error e s' => rw [tryCatch_run_error _ hx]

variable {x : EStateM error state alpha}

/-- Nothing is known of `x`, so both outcomes have to do in every state. -/
theorem wp_any (hpost : forall a s', post a s') (hfail : forall e s', fail e s') :
    Wp x post fail s := by
  unfold Wp
  cases x s with
  | ok a s' => exact hpost a s'
  | error e s' => exact hfail e s'

theorem wp_mono {post' : alpha -> state -> Prop} {fail' : error -> state -> Prop}
    (h : Wp x post fail s) (hpost : forall a s', post a s' -> post' a s')
    (hfail : forall e s', fail e s' -> fail' e s') : Wp x post' fail' s := by
  unfold Wp at h ⊢
  cases hx : x s with
  | ok a s' =>
    rw [hx] at h
    exact hpost a s' h
  | error e s' =>
    rw [hx] at h
    exact hfail e s' h

section

variable {f : alpha -> EStateM error state beta} {post' : beta -> state -> Prop}

/-- Sequencing: the second part starts where the first may end. -/
theorem wp_then {fail' : error -> state -> Prop} (h : Wp x post fail s)
    (hnext : forall a s', post a s' -> Wp (f a) post' fail' s')
    (hfail : forall e s', fail e s' -> fail' e s') : Wp (x >>= f) post' fail' s :=
  (wp_bind x f).mpr (wp_mono h hnext hfail)

theorem wp_seq (h : Wp x post fail s) (hnext : forall a s', post a s' -> Wp (f a) post' fail s') :
    Wp (x >>= f) post' fail s :=
  wp_then h hnext fun _ _ hfail => hfail

end

theorem wp_query_bind {q : state -> Except error beta} {f : beta -> EStateM error state alpha}
    (hok : forall b, q s = .ok b -> Wp (f b) post fail s)
    (herror : forall e, q s = .error e -> fail e s) : Wp (query q >>= f) post fail s :=
  (wp_bind _ f).mpr ((wp_query q).mpr ⟨hok, herror⟩)

theorem wp_if {c : Prop} [Decidable c] {y} (hthen : c -> Wp x post fail s)
    (helse : ¬ c -> Wp y post fail s) : Wp (if c then x else y) post fail s :=
  (wp_ite c x y).mpr ⟨hthen, helse⟩

theorem wp_of_run_ok {a : alpha} {s' : state} (hrun : x s = .ok a s')
    (h : post a s') : Wp x post fail s := by
  unfold Wp
  rw [hrun]
  exact h

theorem wp_run_ok {a : alpha} {s' : state} (hrun : x s = .ok a s')
    (h : Wp x post fail s) : post a s' := by
  unfold Wp at h
  rw [hrun] at h
  exact h

theorem wp_run_error {e : error} {s' : state} (hrun : x s = .error e s')
    (h : Wp x post fail s) : fail e s' := by
  unfold Wp at h
  rw [hrun] at h
  exact h

theorem wp_of_run_error {e : error} {s' : state} (hrun : x s = .error e s')
    (h : fail e s') : Wp x post fail s := by
  unfold Wp
  rw [hrun]
  exact h

/-- A property both outcomes establish is one of the state left behind. -/
theorem wp_inv_iff {inv : state -> Prop} :
    Wp x (fun _ s' => inv s') (fun _ s' => inv s') s <-> inv (finalState (x s)) := by
  unfold Wp
  cases x s <;> rfl

/-- The loop rule: an invariant of every iteration, returned or raised. -/
theorem wp_forM {item : Type} {inv : state -> Prop}
    {body : item -> EStateM error state PUnit} {items : List item}
    (hbody : forall x, x ∈ items -> forall s, inv s ->
      Wp (body x) (fun _ s' => inv s') (fun _ s' => inv s') s) (hs : inv s) :
    Wp (items.forM body) (fun _ s' => inv s') (fun _ s' => inv s') s := by
  induction items generalizing s with
  | nil =>
    exact hs
  | cons x rest ih =>
    have hunfold : (x :: rest).forM body = (body x >>= fun _ => rest.forM body) := rfl
    rw [hunfold, wp_bind]
    refine wp_mono (hbody x (by simp) s hs) ?_ ?_
    · intro _ s' hs'
      exact ih (fun y hy => hbody y (by simp [hy])) hs'
    · intro _ s' hs'
      exact hs'

/-- The loop rule with what the iterations so far, latest first, have achieved. -/
theorem wp_forM_done {item : Type} {inv : List item -> state -> Prop}
    {body : item -> EStateM error state PUnit} {items done : List item}
    (hbody : forall done x s, inv done s -> Wp (body x) (fun _ s' => inv (x :: done) s') fail s)
    (hs : inv done s) :
    Wp (items.forM body) (fun _ s' => inv (items.reverse ++ done) s') fail s := by
  induction items generalizing s done with
  | nil => exact hs
  | cons x rest ih =>
    have hunfold : (x :: rest).forM body = (body x >>= fun _ => rest.forM body) := rfl
    rw [hunfold, wp_bind, List.reverse_cons, List.append_assoc]
    exact wp_mono (hbody done x s hs) (fun _ _ hs' => ih hs') (fun _ _ hfail => hfail)

end WeakestPrecondition

/-!
## Fallible validation of lists
-/

variable {f : alpha -> Except error beta}

theorem except_bind_eq_ok_iff {x} {b : beta} :
    (x >>= f) = .ok b <-> exists a, x = .ok a ∧ f a = .ok b := by
  cases x with
  | error e => simp [bind, Except.bind]
  | ok a => simp [bind, Except.bind]

theorem exists_error_of_ne_ok {x : Except error PUnit} (h : x ≠ .ok PUnit.unit) :
    exists e, x = .error e := by
  cases x with
  | error e => exact ⟨e, rfl⟩
  | ok _ => exact absurd rfl h

variable {xs : List alpha} {ys : List beta}

theorem mapM_eq_ok_iff : xs.mapM f = .ok ys <-> List.Forall₂ (fun x y => f x = .ok y) xs ys := by
  induction xs generalizing ys with
  | nil =>
    cases ys with
    | nil => simp [pure, Except.pure]
    | cons y rest => simp [pure, Except.pure]
  | cons x rest ih =>
    rw [List.mapM_cons]
    cases hx : f x with
    | error e =>
      simp [bind, Except.bind, List.forall₂_cons_left_iff, hx]
    | ok y =>
      cases hrest : rest.mapM f with
      | error e =>
        simp only [bind, Except.bind, List.forall₂_cons_left_iff, reduceCtorEq, false_iff]
        rintro ⟨b, us, _, hus, _⟩
        rw [ih.mpr hus] at hrest
        cases hrest
      | ok zs =>
        simp only [bind, Except.bind, pure, Except.pure, Except.ok.injEq,
          List.forall₂_cons_left_iff]
        constructor
        · intro h
          exact ⟨y, zs, hx, ih.mp hrest, h.symm⟩
        · rintro ⟨b, us, hb, hus, hys⟩
          rw [ih.mpr hus] at hrest
          have hyb : y = b := by
            rw [hx] at hb
            exact Except.ok.inj hb
          rw [hys, hyb, Except.ok.inj hrest]

theorem mapM_eq_ok_map {g : alpha -> beta} (h : forall x, x ∈ xs -> f x = .ok (g x)) :
    xs.mapM f = .ok (xs.map g) := by
  rw [mapM_eq_ok_iff, List.forall₂_map_right_iff]
  exact List.forall₂_same.mpr h

section

variable (h : xs.mapM f = Except.ok ys)
include h

/-- Every result of a batch is that of the item in its place. -/
theorem mapM_getElem {i : Nat} {y : beta} (hy : ys[i]? = some y) :
    exists x, xs[i]? = some x ∧ f x = .ok y := by
  have hall := mapM_eq_ok_iff.mp h
  clear h
  induction hall generalizing i with
  | nil => cases hy
  | cons hfirst _ ih =>
    cases i with
    | zero =>
      cases hy
      exact ⟨_, rfl, hfirst⟩
    | succ i => exact ih hy

/-- Every result of a batch is the result of some item. -/
theorem mapM_mem {y : beta} (hy : y ∈ ys) : exists x, x ∈ xs ∧ f x = .ok y := by
  rcases List.mem_iff_getElem?.mp hy with ⟨i, hi⟩
  rcases mapM_getElem h hi with ⟨x, hx, hf⟩
  exact ⟨x, List.mem_of_getElem? hx, hf⟩

/-- The result of every item is among those of the batch. -/
theorem mem_of_mapM {x : alpha} (hx : x ∈ xs) {y : beta} (hy : f x = .ok y) : y ∈ ys := by
  have hall := mapM_eq_ok_iff.mp h
  clear h
  induction hall with
  | nil => cases hx
  | cons hfirst _ ih =>
    cases hx with
    | head =>
      cases hfirst.symm.trans hy
      exact List.mem_cons_self
    | tail _ hin => exact List.mem_cons_of_mem _ (ih hin)

end

/-- Validation stops at the first item that fails. -/
theorem mapM_eq_error_of_first {before after} {x : alpha} {e : error}
    (hbefore : forall y, y ∈ before -> exists b, f y = .ok b) (hx : f x = .error e) :
    (before ++ x :: after).mapM f = .error e := by
  induction before with
  | nil =>
    rw [List.nil_append, List.mapM_cons, hx]
    rfl
  | cons y rest ih =>
    rcases hbefore y (by simp) with ⟨b, hb⟩
    rw [List.cons_append, List.mapM_cons, hb]
    simp only [bind, Except.bind]
    rw [ih fun z hz => hbefore z (by simp [hz])]

theorem forM_eq_error_of_first {f : alpha -> Except error PUnit} {before after}
    {x : alpha} {e : error} (hbefore : forall y, y ∈ before -> f y = .ok PUnit.unit)
    (hx : f x = .error e) : (before ++ x :: after).forM f = .error e := by
  have hcons : forall y (rest : List alpha),
      (y :: rest).forM f = (f y >>= fun _ => rest.forM f) := fun _ _ => rfl
  induction before with
  | nil =>
    rw [List.nil_append, hcons, hx]
    rfl
  | cons y rest ih =>
    rw [List.cons_append, hcons, hbefore y (by simp)]
    exact ih fun z hz => hbefore z (by simp [hz])

theorem forM_eq_ok_iff {f : alpha -> Except error PUnit} :
    xs.forM f = .ok PUnit.unit <-> forall x, x ∈ xs -> f x = .ok PUnit.unit := by
  induction xs with
  | nil => simp [pure, Except.pure]
  | cons x rest ih =>
    have hunfold : (x :: rest).forM f = (f x >>= fun _ => rest.forM f) := rfl
    rw [hunfold]
    cases hx : f x with
    | error e => simp [bind, Except.bind, hx]
    | ok y =>
      change rest.forM f = _ <-> _
      rw [ih]
      simp [hx]

theorem mapM_isOk_iff :
    (exists ys, xs.mapM f = .ok ys) <-> forall x, x ∈ xs -> exists y, f x = .ok y := by
  simp only [mapM_eq_ok_iff]
  induction xs with
  | nil => simp
  | cons x rest ih =>
    simp only [List.forall₂_cons_left_iff, List.forall_mem_cons, <- ih]
    constructor
    · rintro ⟨_, y, ys, hy, hys, _⟩
      exact ⟨⟨y, hy⟩, ys, hys⟩
    · rintro ⟨⟨y, hy⟩, ys, hys⟩
      exact ⟨y :: ys, y, ys, hy, hys, rfl⟩

/-- Look every item up, then test every result. -/
theorem mapM_forM_eq_ok_iff {find : alpha -> Except error beta}
    {test : beta -> Except error PUnit} :
    (xs.mapM find >>= fun ys => ys.forM test) = .ok PUnit.unit <->
      forall x, x ∈ xs -> exists y, find x = .ok y ∧ test y = .ok PUnit.unit := by
  cases hfound : xs.mapM find with
  | error e =>
    simp only [bind, Except.bind, reduceCtorEq, false_iff]
    intro hall
    have hok := mapM_isOk_iff.mpr (fun x hx => (hall x hx).imp fun _ h => h.1)
    simp [hfound] at hok
  | ok ys =>
    simp only [bind, Except.bind, forM_eq_ok_iff]
    rw [mapM_eq_ok_iff] at hfound
    induction hfound with
    | nil => simp
    | cons hx _ ih => simp [hx, ih]

end Foundation
end Ayaka
