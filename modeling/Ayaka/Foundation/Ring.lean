import Mathlib

/-!
# Rings that are served in turn

A ring is a list read from a cursor on and around its end.  An entry leaves by giving
its place to the last entry.  When each round of service starts where the one before
stopped, the entries still waiting for their first turn stand before the served ones;
this is the order that a moved entry can break.
-/

namespace Ayaka
namespace Foundation

variable {alpha : Type}

/-- The list without its entry at `index`, the last entry in its place. -/
def swapRemove (xs : List alpha) (index : Nat) : List alpha :=
  match xs.getLast? with
  | none => []
  | some moved => (xs.set index moved).dropLast

theorem swapRemove_last (front : List alpha) (a : alpha) :
    swapRemove (front ++ [a]) front.length = front := by
  unfold swapRemove
  rw [List.getLast?_concat]
  simp

theorem swapRemove_inside (front back : List alpha) (a moved : alpha) :
    swapRemove (front ++ a :: (back ++ [moved])) front.length = front ++ moved :: back := by
  have hassoc : front ++ a :: (back ++ [moved]) = (front ++ a :: back) ++ [moved] := by simp
  have hset : (front ++ a :: (back ++ [moved])).set front.length moved =
      (front ++ moved :: back) ++ [moved] := by simp
  unfold swapRemove
  rw [hassoc, List.getLast?_concat, <- hassoc]
  simp only [hset, List.dropLast_concat]

variable {xs : List alpha}

section

variable [DecidableEq alpha] {a : alpha} {index : Nat} (hnodup : xs.Nodup)
  (h : xs.idxOf? a = some index)
include hnodup h

/-- Where an entry can stand in its ring. -/
theorem swapRemove_cases :
    (exists front, xs = front ++ [a] ∧ index = front.length) ∨
      exists front back moved, xs = front ++ a :: (back ++ [moved]) ∧ index = front.length := by
  rcases List.idxOf?_eq_some_iff.mp h with ⟨_, hget, _⟩
  rcases List.append_of_mem (List.mem_of_getElem hget) with ⟨front, back, rfl⟩
  have hfront : front.length < (front ++ a :: back).length := by simp
  have hplace : (front ++ a :: back)[front.length] = a := by simp
  have hindex : index = front.length := (hnodup.getElem_inj_iff).mp (hget.trans hplace.symm)
  rcases List.eq_nil_or_concat' back with rfl | ⟨rest, moved, rfl⟩
  · exact .inl ⟨front, rfl, hindex⟩
  · exact .inr ⟨front, rest, moved, rfl, hindex⟩

theorem perm_swapRemove : xs.Perm (a :: swapRemove xs index) := by
  rcases swapRemove_cases hnodup h with ⟨front, rfl, rfl⟩ | ⟨front, back, moved, rfl, rfl⟩
  · rw [swapRemove_last]
    exact List.perm_append_comm
  · rw [swapRemove_inside]
    refine List.perm_middle.trans (List.Perm.cons a (List.Perm.append_left front ?_))
    exact (List.perm_append_comm : (back ++ [moved]).Perm ([moved] ++ back))

end

/-- Reading on after the entry that was reached last. -/
theorem rotate_past {ring front back : List alpha} {y : alpha} {cursor index : Nat}
    (hnodup : ring.Nodup) (hwalk : ring.rotate cursor = front ++ y :: back)
    (hindex : ring[index]? = some y) : ring.rotate (index + 1) = back ++ (front ++ [y]) := by
  rcases List.getElem?_eq_some_iff.mp hindex with ⟨hlt, hget⟩
  have hplace : front.length < (ring.rotate cursor).length := by
    rw [hwalk]
    simp
  have hbound : (front.length + cursor) % ring.length < ring.length :=
    Nat.mod_lt _ (Nat.zero_lt_of_lt hlt)
  have hreached : ring[(front.length + cursor) % ring.length] = y := by
    rw [<- List.getElem_rotate ring cursor front.length hplace]
    simp [hwalk]
  have hsame : index = (front.length + cursor) % ring.length :=
    (hnodup.getElem_inj_iff).mp (hget.trans hreached.symm)
  have hturn : ring.rotate (index + 1) = (ring.rotate cursor).rotate (front ++ [y]).length := by
    rw [List.rotate_rotate, <- List.rotate_mod ring (index + 1),
      <- List.rotate_mod ring (cursor + _), hsame, Nat.mod_add_mod]
    congr 2
    simp
    omega
  have hsplit : front ++ y :: back = (front ++ [y]) ++ back := by simp
  rw [hturn, hwalk, hsplit, List.rotate_append_length_eq]

theorem split_at {n : Nat} (h : n ≤ xs.length) :
    exists near far, xs = near ++ far ∧ n = near.length :=
  ⟨xs.take n, xs.drop n, (List.take_append_drop n xs).symm, (List.length_take_of_le h).symm⟩

/-- Reading a ring from a place inside it. -/
theorem rotate_append {front back : List alpha} {cursor : Nat} (h : cursor = front.length) :
    (front ++ back).rotate cursor = back ++ front := by
  rw [h, List.rotate_append_length_eq]

theorem rotate_mod_max (ring : List alpha) (cursor : Nat) :
    ring.rotate (cursor % max 1 ring.length) = ring.rotate cursor := by
  cases ring with
  | nil => rfl
  | cons a rest =>
    rw [Nat.max_eq_right (by simp)]
    exact List.rotate_mod _ _

/-!
## Served in turn
-/

def ServedLast (served : alpha -> Prop) (xs : List alpha) : Prop :=
  xs.Pairwise fun x y => served x -> served y

namespace ServedLast

variable {served later : alpha -> Prop} {front back front' : List alpha} {a y : alpha}

/-- The entries just passed go to the end. -/
theorem pass (h : ServedLast served (front ++ back)) (hfront : forall x, x ∈ front -> later x)
    (hback : forall x, x ∈ back -> (later x <-> served x)) : ServedLast later (back ++ front) := by
  refine List.pairwise_append.mpr ⟨?_, ?_, ?_⟩
  · refine (List.pairwise_append.mp h).2.1.imp_of_mem ?_
    intro x z hx hz himp hlater
    exact (hback z hz).mpr (himp ((hback x hx).mp hlater))
  · exact List.pairwise_of_forall_mem_list fun x _ z hz _ => hfront z hz
  · intro x _ z hz _
    exact hfront z hz

/-- An entry leaves without another one moving. -/
theorem leave (h : ServedLast served (front ++ a :: back)) : ServedLast served (front ++ back) :=
  h.sublist ((List.sublist_cons_self a back).append_left front)

/-- The last entry moves forward into the place of `a`. -/
theorem forward (h : ServedLast served (front ++ a :: (back ++ y :: front')))
    (hback : served y -> forall z, z ∈ back -> served z) :
    ServedLast served (front ++ y :: (back ++ front')) := by
  have hkept := h.leave
  simp only [ServedLast, List.pairwise_append, List.pairwise_cons, List.mem_append,
    List.mem_cons] at hkept ⊢
  grind

/-- The last entry moves backward into the place of `a`. -/
theorem backward (h : ServedLast served (front' ++ y :: (front ++ a :: back)))
    (hfront : forall x, x ∈ front -> served x -> served y) :
    ServedLast served (front' ++ (front ++ y :: back)) := by
  simp only [ServedLast, List.pairwise_append, List.pairwise_cons, List.mem_append,
    List.mem_cons] at h ⊢
  grind

/-- The last entry is next and moves into the place of `a`; the entries that stood
before `a` now come after those that stood behind it. -/
theorem around (h : ServedLast served (y :: (front ++ a :: back)))
    (hback : forall z, z ∈ back -> served z -> forall x, x ∈ front -> served x) :
    ServedLast served (y :: (back ++ front)) := by
  simp only [ServedLast, List.pairwise_append, List.pairwise_cons, List.mem_append,
    List.mem_cons] at h ⊢
  grind

end ServedLast

/-- The first entries that satisfy a test, and how far the list was read for them. -/
theorem take_filter_split (p : alpha -> Bool) (xs : List alpha) (n : Nat) :
    (xs.filter p).take n = [] ∨ exists front y back, xs = front ++ y :: back ∧
      (xs.filter p).take n = front.filter p ++ [y] ∧ p y = true := by
  induction xs generalizing n with
  | nil => exact .inl (by simp)
  | cons x rest ih =>
    cases n with
    | zero => exact .inl rfl
    | succ n =>
      cases hx : p x with
      | false =>
        rcases ih (n + 1) with hnone | ⟨front, y, back, rfl, htake, hy⟩
        · exact .inl (by simpa [hx] using hnone)
        · exact .inr ⟨x :: front, y, back, rfl, by simpa [hx] using htake, hy⟩
      | true =>
        rcases ih n with hnone | ⟨front, y, back, rfl, htake, hy⟩
        · exact .inr ⟨[], x, rest, rfl, by simp [hx, hnone], hx⟩
        · refine .inr ⟨x :: front, y, back, rfl, ?_, hy⟩
          rw [List.filter_cons_of_pos hx, List.filter_cons_of_pos hx, List.take_succ_cons, htake]
          rfl

end Foundation
end Ayaka
