import Mathlib

/-!
# Insertion-ordered dictionaries

A dictionary keeps its entries in the order in which their keys were first set.
Setting a key that is present replaces its value in place, setting a new one
appends it, and erasing a key closes the gap.  No key occurs twice, so a lookup
and membership in the list of entries say the same thing.
-/

namespace Ayaka
namespace Foundation

/-- Entries in insertion order, with distinct keys. -/
structure Dict (key value : Type) where
  entries : List (key × value)
  nodup : (entries.map Prod.fst).Nodup

namespace Dict

variable {key value : Type}

def empty : Dict key value where
  entries := []
  nodup := List.nodup_nil

section

variable (d : Dict key value)

def keys : List key :=
  d.entries.map Prod.fst

def values : List value :=
  d.entries.map Prod.snd

def size : Nat :=
  d.entries.length

def sumBy (f : key -> value -> Nat) : Nat :=
  (d.entries.map (fun entry => f entry.1 entry.2)).sum

def mapValues (f : key -> value -> value) : Dict key value where
  entries := d.entries.map (fun entry => (entry.1, f entry.1 entry.2))
  nodup := by
    have hkeys : (d.entries.map (fun entry => (entry.1, f entry.1 entry.2))).map Prod.fst
        = d.entries.map Prod.fst := by
      simp [List.map_map, Function.comp_def]
    rw [hkeys]
    exact d.nodup

def filter (p : value -> Bool) : Dict key value where
  entries := d.entries.filter fun entry => p entry.2
  nodup := d.nodup.sublist (List.filter_sublist.map Prod.fst)

theorem size_eq_sumBy : d.size = d.sumBy fun _ _ => 1 := by
  simp [size, sumBy]

end

variable [DecidableEq key]

/-! ## Lists of entries -/

def find (k : key) : List (key × value) -> Option value
  | [] => none
  | entry :: rest => if entry.1 = k then some entry.2 else find k rest

def upsert (k : key) (v : value) : List (key × value) -> List (key × value)
  | [] => [(k, v)]
  | entry :: rest => if entry.1 = k then (k, v) :: rest else entry :: upsert k v rest

theorem map_fst_upsert (k : key) (v : value) (xs : List (key × value)) :
    (upsert k v xs).map Prod.fst =
      if k ∈ xs.map Prod.fst then xs.map Prod.fst else xs.map Prod.fst ++ [k] := by
  induction xs with
  | nil =>
    simp [upsert]
  | cons entry rest ih =>
    by_cases hk : entry.1 = k
    · simp [upsert, hk]
    · have hk' : ¬ k = entry.1 := fun h => hk h.symm
      by_cases hrest : k ∈ rest.map Prod.fst
      · simp only [upsert, hk, if_false, List.map_cons, ih, if_pos hrest]
        rw [if_pos (List.mem_cons_of_mem _ hrest)]
      · simp only [upsert, hk, if_false, List.map_cons, ih, if_neg hrest]
        rw [if_neg (by simp only [List.mem_cons, not_or]; exact ⟨hk', hrest⟩)]
        rfl

variable {xs : List (key × value)}

theorem nodup_upsert (k : key) (v : value) (h : (xs.map Prod.fst).Nodup) :
    ((upsert k v xs).map Prod.fst).Nodup := by
  rw [map_fst_upsert]
  split
  next => exact h
  next hk =>
    rw [List.nodup_append]
    refine ⟨h, List.nodup_singleton k, fun a ha b hb => ?_⟩
    rw [List.mem_singleton] at hb
    intro hab
    exact hk (by rw [<- hb, <- hab]; exact ha)

theorem find_upsert (k other : key) (v : value) (xs : List (key × value)) :
    find other (upsert k v xs) = if other = k then some v else find other xs := by
  induction xs with
  | nil =>
    by_cases h : other = k
    · simp [upsert, find, h]
    · have h' : ¬ k = other := fun heq => h heq.symm
      simp [upsert, find, h, h']
  | cons entry rest ih =>
    by_cases hk : entry.1 = k
    · by_cases h : other = k
      · simp [upsert, find, hk, h]
      · have h' : ¬ k = other := fun heq => h heq.symm
        simp [upsert, find, hk, h, h']
    · by_cases h : other = k
      · have hne : ¬ entry.1 = other := by rw [h]; exact hk
        simp only [upsert, hk, if_false, find, hne, ih]
      · simp only [upsert, hk, if_false, find, ih, h]

theorem find_filter_ne (k other : key) (xs : List (key × value)) :
    find other (xs.filter (fun entry => entry.1 ≠ k)) =
      if other = k then none else find other xs := by
  induction xs with
  | nil =>
    simp [find]
  | cons entry rest ih =>
    by_cases hk : entry.1 = k
    · have hfilter : (entry :: rest).filter (fun entry => entry.1 ≠ k)
          = rest.filter (fun entry => entry.1 ≠ k) := by
        simp [hk]
      rw [hfilter, ih]
      by_cases h : other = k
      · rw [if_pos h, if_pos h]
      · have hne : ¬ entry.1 = other := fun heq => h (by rw [<- heq]; exact hk)
        rw [if_neg h, if_neg h, find, if_neg hne]
    · have hfilter : (entry :: rest).filter (fun entry => entry.1 ≠ k)
          = entry :: rest.filter (fun entry => entry.1 ≠ k) := by
        simp [hk]
      rw [hfilter, find, ih]
      by_cases heq : entry.1 = other
      · have h : ¬ other = k := fun hok => hk (by rw [heq]; exact hok)
        rw [if_pos heq, if_neg h, find, if_pos heq]
      · rw [if_neg heq, find, if_neg heq]

theorem find_eq_some_iff (h : (xs.map Prod.fst).Nodup) {k : key} {v : value} :
    find k xs = some v <-> (k, v) ∈ xs := by
  induction xs with
  | nil =>
    simp [find]
  | cons entry rest ih =>
    rw [List.map_cons, List.nodup_cons] at h
    by_cases hk : entry.1 = k
    · rw [find, if_pos hk, List.mem_cons]
      constructor
      · intro hv
        left
        rw [<- Option.some.inj hv, <- hk]
      · intro hmem
        rcases hmem with heq | hrest
        · rw [<- heq]
        · exfalso
          apply h.1
          rw [hk]
          exact List.mem_map_of_mem (f := Prod.fst) hrest
    · rw [find, if_neg hk, ih h.2, List.mem_cons]
      constructor
      · exact .inr
      · intro hmem
        rcases hmem with heq | hrest
        · exact absurd (by rw [<- heq]) hk
        · exact hrest

theorem find_map_values (f : key -> value -> value) (k : key) (xs : List (key × value)) :
    find k (xs.map (fun entry => (entry.1, f entry.1 entry.2))) = (find k xs).map (f k) := by
  induction xs with
  | nil =>
    rfl
  | cons entry rest ih =>
    by_cases hk : entry.1 = k
    · rw [List.map_cons, find, if_pos hk, find, if_pos hk, hk]
      rfl
    · rw [List.map_cons, find, if_neg hk, find, if_neg hk, ih]

/-! ## Operations -/

section

variable (d : Dict key value) (k : key)

def get? : Option value :=
  find k d.entries

def contains : Bool :=
  (d.get? k).isSome

def set (v : value) : Dict key value where
  entries := upsert k v d.entries
  nodup := nodup_upsert k v d.nodup

def erase : Dict key value where
  entries := d.entries.filter (fun entry => entry.1 ≠ k)
  nodup := (d.nodup.sublist (List.filter_sublist.map Prod.fst))

/-- Change the value of one key in place; a missing key is left missing. -/
def modify (f : value -> value) : Dict key value :=
  d.mapValues (fun k' v => if k' = k then f v else v)

end

@[simp]
theorem get?_empty (k : key) : (empty : Dict key value).get? k = none :=
  rfl

section

variable (d : Dict key value)

theorem get?_set (k other : key) (v : value) :
    (d.set k v).get? other = if other = k then some v else d.get? other :=
  find_upsert k other v d.entries

@[simp]
theorem get?_set_self (k : key) (v : value) : (d.set k v).get? k = some v := by
  rw [get?_set, if_pos rfl]

theorem get?_erase (k other : key) :
    (d.erase k).get? other = if other = k then none else d.get? other :=
  find_filter_ne k other d.entries

@[simp]
theorem get?_erase_self (k : key) : (d.erase k).get? k = none := by
  rw [get?_erase, if_pos rfl]

theorem get?_modify (k other : key) (f : value -> value) :
    (d.modify k f).get? other = if other = k then (d.get? k).map f else d.get? other := by
  have hfind : (d.modify k f).get? other
      = (d.get? other).map (fun v => if other = k then f v else v) :=
    find_map_values (fun k' v => if k' = k then f v else v) other d.entries
  rw [hfind]
  by_cases h : other = k
  · simp [h]
  · simp [h]

end

variable {d : Dict key value}

theorem get?_eq_some_iff {k : key} {v : value} : d.get? k = some v <-> (k, v) ∈ d.entries :=
  find_eq_some_iff d.nodup

theorem mem_keys_iff {k : key} : k ∈ d.keys <-> exists v, d.get? k = some v := by
  unfold keys
  rw [List.mem_map]
  constructor
  · rintro ⟨entry, hentry, hk⟩
    exact ⟨entry.2, get?_eq_some_iff.mpr (by rw [<- hk]; exact hentry)⟩
  · rintro ⟨v, hv⟩
    exact ⟨(k, v), get?_eq_some_iff.mp hv, rfl⟩

theorem get?_filter (d : Dict key value) (p : value -> Bool) (k : key) :
    (d.filter p).get? k = (d.get? k).filter p := by
  apply Option.ext
  intro v
  rw [get?_eq_some_iff, Option.filter_eq_some_iff, get?_eq_some_iff]
  change (k, v) ∈ d.entries.filter _ <-> _
  rw [List.mem_filter]

/-! ## Setting and erasing -/

omit [DecidableEq key] in
theorem ext_entries {d d' : Dict key value} (h : d.entries = d'.entries) : d = d' := by
  cases d
  cases d'
  cases h
  rfl

theorem filter_upsert (k : key) (v : value) (xs : List (key × value)) :
    (upsert k v xs).filter (fun entry => entry.1 ≠ k) = xs.filter (fun entry => entry.1 ≠ k) := by
  induction xs with
  | nil =>
    simp [upsert]
  | cons entry rest ih =>
    by_cases hk : entry.1 = k
    · simp [upsert, hk]
    · rw [upsert, if_neg hk, List.filter_cons, List.filter_cons, ih]

theorem erase_set_self (d : Dict key value) (k : key) (v : value) :
    (d.set k v).erase k = d.erase k :=
  ext_entries (filter_upsert k v d.entries)

theorem filter_upsert_of_ne {k other : key} (hne : k ≠ other) (v : value)
    (xs : List (key × value)) :
    (upsert k v xs).filter (fun entry => entry.1 ≠ other)
      = upsert k v (xs.filter (fun entry => entry.1 ≠ other)) := by
  induction xs with
  | nil =>
    simp [upsert, hne]
  | cons entry rest ih =>
    by_cases hk : entry.1 = k
    · simp only [upsert, hk, if_true, List.filter_cons, hne, ne_eq, not_false_eq_true, decide_true]
    · rw [upsert, if_neg hk, List.filter_cons, List.filter_cons, ih]
      by_cases hother : entry.1 = other
      · simp only [hother, ne_eq, not_true_eq_false, decide_false, Bool.false_eq_true, if_false]
      · simp only [hother, ne_eq, not_false_eq_true, decide_true, if_true]
        rw [upsert, if_neg hk]

theorem erase_set_of_ne (d : Dict key value) {k other : key} (hne : k ≠ other) (v : value) :
    (d.set k v).erase other = (d.erase other).set k v :=
  ext_entries (filter_upsert_of_ne hne v d.entries)

theorem erase_comm (d : Dict key value) (k other : key) :
    (d.erase k).erase other = (d.erase other).erase k := by
  apply ext_entries
  show (d.entries.filter _).filter _ = (d.entries.filter _).filter _
  rw [List.filter_filter, List.filter_filter]
  simp only [Bool.and_comm]

theorem erase_of_none {k : key} (h : d.get? k = none) : d.erase k = d := by
  apply ext_entries
  apply List.filter_eq_self.mpr
  intro _ hentry
  apply decide_eq_true
  intro heq
  rw [<- heq, get?_eq_some_iff.mpr hentry] at h
  cases h

/-! ## Sums -/

theorem sum_filter_ne (k : key) (f : key -> value -> Nat) (xs : List (key × value)) :
    ((xs.filter (fun entry => entry.1 ≠ k)).map (fun entry => f entry.1 entry.2)).sum
      = (xs.map (fun entry => if entry.1 = k then 0 else f entry.1 entry.2)).sum := by
  induction xs with
  | nil =>
    rfl
  | cons entry rest ih =>
    by_cases hk : entry.1 = k
    · simp only [hk, ne_eq, not_true_eq_false, decide_false, List.filter_cons_of_neg,
        Bool.false_eq_true, not_false_eq_true, List.map_cons, if_true, List.sum_cons, Nat.zero_add]
      exact ih
    · simp only [hk, ne_eq, not_false_eq_true, decide_true, List.filter_cons_of_pos,
        List.map_cons, if_false, List.sum_cons]
      rw [<- ih]

/-- Leaving one key out of a sum is summing without it. -/
theorem sumBy_except (d : Dict key value) (k : key) (f : key -> value -> Nat) :
    d.sumBy (fun k' v => if k' = k then 0 else f k' v) = (d.erase k).sumBy f :=
  (sum_filter_ne k f d.entries).symm

theorem sumBy_erase_le (d : Dict key value) (k : key) (f : key -> value -> Nat) :
    (d.erase k).sumBy f ≤ d.sumBy f := by
  rw [<- sumBy_except]
  apply List.sum_le_sum
  intro entry _
  dsimp only
  split
  · exact Nat.zero_le _
  · exact Nat.le_refl _

theorem sum_upsert (k : key) (v : value) (f : key -> value -> Nat) (h : (xs.map Prod.fst).Nodup) :
    ((upsert k v xs).map (fun entry => f entry.1 entry.2)).sum
      = (xs.map (fun entry => if entry.1 = k then 0 else f entry.1 entry.2)).sum + f k v := by
  induction xs with
  | nil =>
    simp [upsert]
  | cons entry rest ih =>
    rw [List.map_cons, List.nodup_cons] at h
    by_cases hk : entry.1 = k
    · have hrest : forall other, other ∈ rest -> other.1 ≠ k := by
        intro other hother heq
        apply h.1
        rw [hk, <- heq]
        exact List.mem_map_of_mem hother
      have hsame : rest.map (fun entry => if entry.1 = k then 0 else f entry.1 entry.2)
          = rest.map (fun entry => f entry.1 entry.2) := by
        apply List.map_congr_left
        intro other hother
        rw [if_neg (hrest other hother)]
      rw [upsert, if_pos hk, List.map_cons, List.map_cons, if_pos hk, List.sum_cons,
        List.sum_cons, hsame, Nat.zero_add, Nat.add_comm]
    · rw [upsert, if_neg hk, List.map_cons, List.map_cons, if_neg hk, List.sum_cons,
        List.sum_cons, ih h.2, Nat.add_assoc]

theorem sumBy_set (d : Dict key value) (k : key) (v : value) (f : key -> value -> Nat) :
    (d.set k v).sumBy f = (d.erase k).sumBy f + f k v := by
  rw [<- sumBy_except]
  exact sum_upsert k v f d.nodup

theorem sumBy_of_get? {k : key} {v : value} (h : d.get? k = some v) (f : key -> value -> Nat) :
    d.sumBy f = (d.erase k).sumBy f + f k v := by
  have hset : upsert k v d.entries = d.entries := by
    have hfind : find k d.entries = some v := h
    generalize d.entries = xs at hfind
    induction xs with
    | nil => cases hfind
    | cons entry rest ih =>
      by_cases hk : entry.1 = k
      · rw [find, if_pos hk] at hfind
        rw [upsert, if_pos hk, <- Option.some.inj hfind, <- hk]
      · rw [find, if_neg hk] at hfind
        rw [upsert, if_neg hk, ih hfind]
  rw [<- sumBy_set]
  show _ = ((upsert k v d.entries).map _).sum
  rw [hset]
  rfl

theorem sumBy_erase_of_none {k : key} (h : d.get? k = none) (f : key -> value -> Nat) :
    (d.erase k).sumBy f = d.sumBy f := by
  rw [erase_of_none h]

theorem size_set (d : Dict key value) (k : key) (v : value) :
    (d.set k v).size = (d.erase k).size + 1 := by
  rw [size_eq_sumBy, sumBy_set, size_eq_sumBy]

theorem size_of_get? {k : key} {v : value} (h : d.get? k = some v) :
    d.size = (d.erase k).size + 1 := by
  rw [size_eq_sumBy, sumBy_of_get? h, size_eq_sumBy]

/-! ## Indices -/

section Indices

variable {mark : Type} [DecidableEq mark]

/-- `index` finds the key of the entry with a given mark; an entry may carry none. -/
def Indexes (index : Dict mark key) (d : Dict key value) (f : value -> Option mark) : Prop :=
  forall m k, index.get? m = some k <-> exists v, d.get? k = some v ∧ f v = some m

namespace Indexes

variable {index : Dict mark key} {d : Dict key value} {f : value -> Option mark} {k : key}
  {v : value}

theorem empty (f : value -> Option mark) :
    Indexes (Dict.empty : Dict mark key) (Dict.empty : Dict key value) f := by
  intro _ _
  constructor
  · intro h
    cases h
  · intro h
    rcases h with ⟨_, hv, _⟩
    cases hv

section

variable (h : Indexes index d f)
include h

/-- A new entry whose mark is free. -/
theorem set (hk : d.get? k = none) (hfree : forall m, f v = some m -> index.get? m = none) :
    Indexes ((f v).elim index fun m => index.set m k) (d.set k v) f := by
  intro m k'
  have hindex : ((f v).elim index fun m => index.set m k).get? m
      = if f v = some m then some k else index.get? m := by
    cases hmark : f v with
    | none => rfl
    | some own =>
      show (index.set own k).get? m = _
      rw [get?_set]
      simp only [Option.some.injEq, eq_comm]
  rw [hindex]
  simp only [get?_set]
  by_cases hk' : k' = k
  · rw [if_pos hk', hk']
    by_cases hmark : f v = some m
    · simp [hmark]
    · rw [if_neg hmark]
      constructor
      · intro hfound
        rcases (h m k).mp hfound with ⟨old, hold, _⟩
        rw [hk] at hold
        cases hold
      · rintro ⟨_, hnew, hm⟩
        rw [<- Option.some.inj hnew] at hm
        exact absurd hm hmark
  · rw [if_neg hk']
    by_cases hmark : f v = some m
    · rw [if_pos hmark]
      constructor
      · intro hsame
        exact absurd (Option.some.inj hsame).symm hk'
      · intro hold
        have hfound := (h m k').mpr hold
        rw [hfree m hmark] at hfound
        cases hfound
    · rw [if_neg hmark]
      exact h m k'

theorem erase (hk : d.get? k = some v) :
    Indexes ((f v).elim index fun m => index.erase m) (d.erase k) f := by
  intro m k'
  have hindex : ((f v).elim index fun m => index.erase m).get? m
      = if f v = some m then none else index.get? m := by
    cases hmark : f v with
    | none => rfl
    | some own =>
      show (index.erase own).get? m = _
      rw [get?_erase]
      simp only [Option.some.injEq, eq_comm]
  rw [hindex]
  simp only [get?_erase]
  by_cases hmark : f v = some m
  · have hown := (h m k).mpr ⟨v, hk, hmark⟩
    rw [if_pos hmark]
    constructor
    · intro hnone
      cases hnone
    · rintro ⟨other, hother, hm⟩
      split at hother
      next => cases hother
      next hne =>
        have hfound := (h m k').mpr ⟨other, hother, hm⟩
        rw [hown] at hfound
        exact absurd (Option.some.inj hfound).symm hne
  · rw [if_neg hmark, h m k']
    by_cases hk' : k' = k
    · rw [hk', if_pos rfl, hk]
      constructor
      · rintro ⟨_, hold, hm⟩
        rw [<- Option.some.inj hold] at hm
        exact absurd hm hmark
      · rintro ⟨_, hnone, _⟩
        cases hnone
    · rw [if_neg hk']

theorem replace {v' : value} (hk : d.get? k = some v) (hmark : f v' = f v) :
    Indexes index (d.set k v') f := by
  intro m k'
  rw [h m k']
  simp only [get?_set]
  by_cases hk' : k' = k
  · rw [if_pos hk', hk', hk]
    constructor
    · rintro ⟨_, hold, hm⟩
      rw [<- Option.some.inj hold] at hm
      exact ⟨v', rfl, hmark.trans hm⟩
    · rintro ⟨_, hnew, hm⟩
      rw [<- Option.some.inj hnew] at hm
      exact ⟨v, rfl, hmark.symm.trans hm⟩
  · rw [if_neg hk']

end

end Indexes

end Indices

end Dict

end Foundation
end Ayaka
