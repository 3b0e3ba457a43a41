import Mathlib

/-!
# Compressed radix forests

A radix tree over words of symbols in which every position of a stored word
carries a value.  An edge holds a whole span of positions; children are filed
under a key, the first symbol of their span.  A forest is kept in first-child,
next-sibling form.

The meaning of a forest is the set of its stored words, each a list of pairs of a
symbol and its value.  Insertion adds every beginning of a word, and matching
finds the longest stored word along a list of symbols.
-/

namespace Ayaka
namespace Foundation

inductive RadixForest (symbol value : Type) where
  | nil
  | node (key : symbol) (span : List (symbol × value)) (terminal : Bool)
      (children siblings : RadixForest symbol value)
  deriving DecidableEq, Repr

/-- Why a word cannot be inserted. -/
inductive RadixFault where
  | conflict
  | misfiled
  deriving DecidableEq, Repr

namespace RadixForest

variable {symbol value : Type}

/-- How many leading symbols of a span a word of symbols shares. -/
def commonLength [DecidableEq symbol] : List (symbol × value) -> List symbol -> Nat
  | (a, _) :: span, b :: word =>
    if a = b then commonLength span word + 1 else 0
  | _, _ => 0

/-- The same count for a word with values; a shared symbol with two different
values is a conflict. -/
def agreeLength [DecidableEq symbol] [DecidableEq value] :
    List (symbol × value) -> List (symbol × value) -> Option Nat
  | (a, x) :: span, (b, y) :: word =>
    if a = b then
      if x = y then (agreeLength span word).map (· + 1) else none
    else
      some 0
  | _, _ => some 0

/-- File a span under its first symbol, in front of some siblings. -/
def graft (span : List (symbol × value)) (terminal : Bool)
    (children siblings : RadixForest symbol value) : RadixForest symbol value :=
  match span with
  | [] => siblings
  | (a, _) :: _ => node a span terminal children siblings

/-- The values along the longest stored word that a word of symbols follows. -/
def matchWord [DecidableEq symbol] :
    RadixForest symbol value -> List symbol -> List value
  | _, [] => []
  | nil, _ :: _ => []
  | node key span _ children siblings, a :: word =>
    if key = a then
      let common := commonLength span (a :: word)
      (span.take common).map Prod.snd ++
        if common = span.length then matchWord children ((a :: word).drop common) else []
    else
      matchWord siblings (a :: word)

/-- Insert a word, splitting a span where the word leaves it. -/
def insertWord [DecidableEq symbol] [DecidableEq value] :
    RadixForest symbol value -> List (symbol × value) ->
    Except RadixFault (RadixForest symbol value)
  | nil, word => .ok (graft word true nil nil)
  | node key span terminal children siblings, word =>
    match word.head? with
    | none => .ok (node key span terminal children siblings)
    | some (a, _) =>
      if key = a then
        match agreeLength span word with
        | none => .error .conflict
        | some common =>
          if common = 0 then
            .error .misfiled
          else if common = span.length then
            if common = word.length then
              .ok (node key span true children siblings)
            else
              (insertWord children (word.drop common)).map fun grown =>
                node key span terminal grown siblings
          else
            .ok (node key (span.take common) (decide (common = word.length))
              (graft (span.drop common) terminal children
                (graft (word.drop common) true nil nil)) siblings)
      else
        (insertWord siblings word).map fun grown =>
          node key span terminal children grown

/-!
## Stored words
-/

def keys : RadixForest symbol value -> List symbol
  | nil => []
  | node key _ _ _ siblings => key :: siblings.keys

/-- Spans are filed under their first symbol and no two siblings share a key. -/
def WellFormed : RadixForest symbol value -> Prop
  | nil => True
  | node key span _ children siblings =>
    (exists x rest, span = (key, x) :: rest) ∧ key ∉ siblings.keys ∧
      children.WellFormed ∧ siblings.WellFormed

/-- The words a forest stores, every position of a span ending one. -/
def Stored : RadixForest symbol value -> List (symbol × value) -> Prop
  | nil, _ => False
  | node _ span _ children siblings, word =>
    (word ≠ [] ∧ word <+: span) ∨ (exists rest, children.Stored rest ∧ word = span ++ rest) ∨
      siblings.Stored word

def Ends : RadixForest symbol value -> List (symbol × value) -> Prop
  | nil, _ => False
  | node _ span terminal children siblings, word =>
    (terminal = true ∧ word = span) ∨ (exists rest, children.Ends rest ∧ word = span ++ rest) ∨
      siblings.Ends word

/-- A word may join a forest: wherever its symbols follow a stored word, its
values are the stored ones. -/
def Compatible (forest : RadixForest symbol value) (word : List (symbol × value)) : Prop :=
  forall stored, forest.Stored stored ->
    stored.map Prod.fst <+: word.map Prod.fst -> stored <+: word

/-!
## Comparing a span with a word
-/

/-- Two remainders leave a common beginning by different symbols. -/
def Apart (span word : List (symbol × value)) : Prop :=
  forall a x b y, span.head? = some (a, x) -> word.head? = some (b, y) -> a ≠ b

variable {span word : List (symbol × value)}

theorem agreeLength_some [DecidableEq symbol] [DecidableEq value] {count : Nat}
    (h : agreeLength span word = some count) :
    exists common s w, span = common ++ s ∧ word = common ++ w ∧
      common.length = count ∧ Apart s w := by
  induction span generalizing word count with
  | nil =>
    cases h
    exact ⟨[], [], word, rfl, rfl, rfl, by intro a x b y hs; cases hs⟩
  | cons pair span ih =>
    rcases pair with ⟨a, x⟩
    cases word with
    | nil =>
      cases h
      exact ⟨[], (a, x) :: span, [], rfl, rfl, rfl, by intro a x b y _ hw; cases hw⟩
    | cons other word =>
      rcases other with ⟨b, y⟩
      unfold agreeLength at h
      by_cases hab : a = b
      · by_cases hxy : x = y
        · rw [if_pos hab, if_pos hxy, Option.map_eq_some_iff] at h
          rcases h with ⟨_, hrest, hcount⟩
          rcases ih hrest with ⟨common, s, w, hspan, hword, hlength, hapart⟩
          refine ⟨(a, x) :: common, s, w, ?_, ?_, ?_, hapart⟩
          · rw [hspan, List.cons_append]
          · rw [hword, hab, hxy, List.cons_append]
          · rw [List.length_cons, hlength, hcount]
        · rw [if_pos hab, if_neg hxy] at h
          cases h
      · rw [if_neg hab] at h
        cases h
        refine ⟨[], (a, x) :: span, (b, y) :: word, rfl, rfl, rfl, ?_⟩
        intro _ _ _ _ hs hw
        cases hs
        cases hw
        exact hab

theorem agreeLength_none [DecidableEq symbol] [DecidableEq value]
    (h : agreeLength span word = none) :
    exists common a x y s w, span = common ++ (a, x) :: s ∧
      word = common ++ (a, y) :: w ∧ x ≠ y := by
  induction span generalizing word with
  | nil => cases h
  | cons pair span ih =>
    rcases pair with ⟨a, x⟩
    cases word with
    | nil => cases h
    | cons other word =>
      rcases other with ⟨b, y⟩
      unfold agreeLength at h
      by_cases hab : a = b
      · by_cases hxy : x = y
        · rw [if_pos hab, if_pos hxy, Option.map_eq_none_iff] at h
          rcases ih h with ⟨common, c, u, v, s, w, hspan, hword, huv⟩
          refine ⟨(a, x) :: common, c, u, v, s, w, ?_, ?_, huv⟩
          · rw [hspan, List.cons_append]
          · rw [hword, hab, hxy, List.cons_append]
        · exact ⟨[], a, x, y, span, word, rfl, by rw [hab]; rfl, hxy⟩
      · rw [if_neg hab] at h
        cases h

theorem commonLength_le [DecidableEq symbol] (span : List (symbol × value))
    (word : List symbol) : commonLength span word ≤ span.length := by
  induction span generalizing word with
  | nil => exact Nat.zero_le _
  | cons pair span ih =>
    cases word with
    | nil => exact Nat.zero_le _
    | cons b word =>
      unfold commonLength
      split
      · exact Nat.succ_le_succ (ih word)
      · exact Nat.zero_le _

/-- The beginnings of a span that a word of symbols follows. -/
theorem prefix_take_commonLength [DecidableEq symbol] {span p : List (symbol × value)}
    {word : List symbol} :
    p <+: span.take (commonLength span word) <-> p <+: span ∧ p.map Prod.fst <+: word := by
  induction span generalizing p word with
  | nil =>
    constructor
    · intro h
      have hp : p = [] := by simpa using h
      subst hp
      simp
    · intro h
      simpa using h.1
  | cons pair span ih =>
    rcases pair with ⟨a, _⟩
    cases word with
    | nil => simp +contextual [commonLength]
    | cons b word =>
      cases p with
      | nil => simp
      | cons q p =>
        unfold commonLength
        by_cases hab : a = b
        · rw [if_pos hab, List.take_succ_cons, List.cons_prefix_cons, ih,
            List.cons_prefix_cons, List.map_cons, List.cons_prefix_cons]
          constructor
          · rintro ⟨rfl, hspan, hword⟩
            exact ⟨⟨rfl, hspan⟩, hab, hword⟩
          · rintro ⟨⟨hq, hspan⟩, _, hword⟩
            exact ⟨hq, hspan, hword⟩
        · rw [if_neg hab]
          simp only [List.take_zero, List.prefix_nil, reduceCtorEq, false_iff]
          rintro ⟨hspan, hword⟩
          rw [List.cons_prefix_cons] at hspan
          rw [List.map_cons, List.cons_prefix_cons] at hword
          apply hab
          rw [<- hword.1, hspan.1]

/-!
## The words of a well-formed forest
-/

/-- The words that begin in the span of a node. -/
def Under (span : List (symbol × value)) (children : RadixForest symbol value)
    (word : List (symbol × value)) : Prop :=
  (word ≠ [] ∧ word <+: span) ∨ exists rest, children.Stored rest ∧ word = span ++ rest

variable {children siblings : RadixForest symbol value} {key : symbol}

theorem stored_node {terminal : Bool} :
    (node key span terminal children siblings).Stored word <->
      Under span children word ∨ siblings.Stored word := by
  unfold Under
  rw [or_assoc]
  exact Iff.rfl

theorem Under.head {x : value} {rest word}
    (h : Under ((key, x) :: rest) children word) : exists tail, word = (key, x) :: tail := by
  rcases h with ⟨hne, hinit⟩ | ⟨tail, _, hword⟩
  · cases word with
    | nil => exact absurd rfl hne
    | cons pair tail =>
      rw [List.cons_prefix_cons] at hinit
      exact ⟨tail, by rw [hinit.1]⟩
  · exact ⟨rest ++ tail, hword⟩

variable {forest : RadixForest symbol value}

section

variable (hwf : forest.WellFormed)
include hwf

theorem Stored.head (h : forest.Stored word) :
    exists a x tail, word = (a, x) :: tail ∧ a ∈ forest.keys := by
  induction forest with
  | nil => cases h
  | node key span terminal children siblings _ ihsiblings =>
    rcases hwf with ⟨⟨x, _, hspan⟩, _, _, hsiblings⟩
    cases stored_node.mp h with
    | inl hunder =>
      rw [hspan] at hunder
      rcases hunder.head with ⟨tail, hword⟩
      exact ⟨key, x, tail, hword, List.mem_cons_self⟩
    | inr hrest =>
      rcases ihsiblings hsiblings hrest with ⟨a, y, tail, hword, ha⟩
      exact ⟨a, y, tail, hword, List.mem_cons_of_mem _ ha⟩

theorem Stored.ne_nil (h : forest.Stored word) : word ≠ [] := by
  rcases h.head hwf with ⟨_, _, _, hword, _⟩
  rw [hword]
  exact List.cons_ne_nil _ _

theorem mem_keys_iff {a : symbol} : a ∈ forest.keys <-> exists x, forest.Stored [(a, x)] := by
  constructor
  · intro ha
    induction forest with
    | nil => cases ha
    | node key span terminal children siblings _ ihsiblings =>
      rcases hwf with ⟨⟨x, rest, hspan⟩, _, _, hsiblings⟩
      cases ha with
      | head =>
        refine ⟨x, .inl ⟨List.cons_ne_nil _ _, ?_⟩⟩
        rw [hspan]
        exact ⟨rest, rfl⟩
      | tail _ ha =>
        rcases ihsiblings hsiblings ha with ⟨y, hy⟩
        exact ⟨y, .inr (.inr hy)⟩
  · rintro ⟨x, hx⟩
    rcases hx.head hwf with ⟨b, y, tail, hword, hb⟩
    cases hword
    exact hb

end

/-- The words of one node never meet those of its siblings. -/
theorem stored_siblings_head_ne (hwf : siblings.WellFormed) (hkey : key ∉ siblings.keys) {x : value}
    {word tail} (h : siblings.Stored word)
    (hword : word.map Prod.fst = ((key, x) :: tail).map Prod.fst) : False := by
  rcases h.head hwf with ⟨a, _, _, hrest, ha⟩
  rw [hrest, List.map_cons, List.map_cons, List.cons.injEq] at hword
  have heq : a = key := hword.1
  exact hkey (heq ▸ ha)

theorem Under.det {span p q} (hwf : children.WellFormed)
    (ih : forall {p q}, children.Stored p -> children.Stored q ->
      p.map Prod.fst = q.map Prod.fst -> p = q) (hp : Under span children p)
    (hq : Under span children q) (heq : p.map Prod.fst = q.map Prod.fst) : p = q := by
  have hlength : p.length = q.length := by simpa using congrArg List.length heq
  rcases hp with ⟨_, hp⟩ | ⟨_, hr, rfl⟩
  · rcases hq with ⟨_, hq⟩ | ⟨s, hs, rfl⟩
    · exact (List.prefix_of_prefix_length_le hp hq hlength.le).eq_of_length hlength
    · have hle := hp.length_le
      have hpos := List.length_pos_iff.mpr (hs.ne_nil hwf)
      rw [List.length_append] at hlength
      omega
  · rcases hq with ⟨_, hq⟩ | ⟨s, hs, rfl⟩
    · have hle := hq.length_le
      have hpos := List.length_pos_iff.mpr (hr.ne_nil hwf)
      rw [List.length_append] at hlength
      omega
    · rw [List.map_append, List.map_append, List.append_cancel_left_eq] at heq
      rw [ih hr hs heq]

/-- The symbols of a stored word determine its values. -/
theorem Stored.det (hwf : forest.WellFormed) {p q} (hp : forest.Stored p)
    (hq : forest.Stored q) (heq : p.map Prod.fst = q.map Prod.fst) : p = q := by
  induction forest generalizing p q with
  | nil => cases hp
  | node key span terminal children siblings ihchildren ihsiblings =>
    rcases hwf with ⟨⟨_, _, hspan⟩, hkey, hchildren, hsiblings⟩
    rw [stored_node] at hp hq
    rcases hp with hp | hp
    · rcases hq with hq | hq
      · exact hp.det hchildren (fun hp hq => ihchildren hchildren hp hq) hq heq
      · rw [hspan] at hp
        rcases hp.head with ⟨tail, rfl⟩
        exact (stored_siblings_head_ne hsiblings hkey hq heq.symm).elim
    · rcases hq with hq | hq
      · rw [hspan] at hq
        rcases hq.head with ⟨tail, rfl⟩
        exact (stored_siblings_head_ne hsiblings hkey hp heq).elim
      · exact ihsiblings hsiblings hp hq heq

/-!
## Insertion
-/

/-- A beginning of a concatenation ends in its first part or runs into its
second. -/
theorem nonempty_prefix_append {alpha : Type} {p common rest : List alpha} :
    (p ≠ [] ∧ p <+: common ++ rest) <->
      (p ≠ [] ∧ p <+: common) ∨ exists r, (r ≠ [] ∧ r <+: rest) ∧ p = common ++ r := by
  constructor
  · rintro ⟨hne, hp⟩
    cases Nat.le_total p.length common.length with
    | inl hle =>
      exact .inl ⟨hne, List.prefix_of_prefix_length_le hp (List.prefix_append _ _) hle⟩
    | inr hle =>
      rcases List.prefix_of_prefix_length_le (List.prefix_append _ _) hp hle with ⟨r, rfl⟩
      rw [List.prefix_append_right_inj] at hp
      cases r with
      | nil =>
        rw [List.append_nil] at hne ⊢
        exact .inl ⟨hne, List.prefix_refl _⟩
      | cons head tail => exact .inr ⟨head :: tail, ⟨List.cons_ne_nil _ _, hp⟩, rfl⟩
  · rintro (⟨hne, hp⟩ | ⟨r, ⟨hne, hr⟩, rfl⟩)
    · exact ⟨hne, hp.trans (List.prefix_append _ _)⟩
    · refine ⟨?_, ?_⟩
      · intro hnil
        exact hne (List.append_eq_nil_iff.mp hnil).2
      · rw [List.prefix_append_right_inj]
        exact hr

theorem stored_graft {terminal : Bool} (hchildren : span = [] -> children = nil) :
    (graft span terminal children siblings).Stored word <->
      Under span children word ∨ siblings.Stored word := by
  cases span with
  | nil =>
    rw [hchildren rfl]
    have hunder : Under [] (nil : RadixForest symbol value) word <-> False := by
      constructor
      · rintro (⟨hne, hp⟩ | ⟨rest, hrest, _⟩)
        · exact hne (List.prefix_nil.mp hp)
        · cases hrest
      · intro h
        exact h.elim
    rw [hunder, false_or]
    exact Iff.rfl
  | cons pair rest => exact stored_node

theorem under_nil : Under span nil word <-> word ≠ [] ∧ word <+: span := by
  constructor
  · rintro (h | ⟨_, h, _⟩)
    · exact h
    · cases h
  · exact .inl

/-- Splitting a span at the end of its common part adds the beginnings of the
word and nothing else. -/
theorem under_split {common s w p} {terminal : Bool} (hs : s ≠ []) :
    Under common (graft s terminal children (graft w true nil nil)) p <->
      Under (common ++ s) children p ∨ (p ≠ [] ∧ p <+: common ++ w) := by
  have hstored : forall r, (graft s terminal children (graft w true nil nil)).Stored r <->
      Under s children r ∨ (r ≠ [] ∧ r <+: w) := by
    intro r
    rw [stored_graft (fun h => absurd h hs), stored_graft (fun _ => rfl), under_nil]
    exact or_congr Iff.rfl (iff_of_eq (or_false _))
  unfold Under
  simp only [hstored]
  rw [nonempty_prefix_append, nonempty_prefix_append]
  constructor
  · rintro (h | ⟨r, (hr | ⟨q, hq, rfl⟩) | hr, rfl⟩)
    · exact .inl (.inl (.inl h))
    · exact .inl (.inl (.inr ⟨r, hr, rfl⟩))
    · exact .inl (.inr ⟨q, hq, (List.append_assoc _ _ _).symm⟩)
    · exact .inr (.inr ⟨r, hr, rfl⟩)
  · rintro (((h | ⟨r, hr, rfl⟩) | ⟨q, hq, rfl⟩) | (h | ⟨r, hr, rfl⟩))
    · exact .inl h
    · exact .inr ⟨r, .inl (.inl hr), rfl⟩
    · exact .inr ⟨s ++ q, .inl (.inr ⟨q, hq, rfl⟩), List.append_assoc _ _ _⟩
    · exact .inl h
    · exact .inr ⟨r, .inr hr, rfl⟩

theorem decide_length_append_eq {alpha : Type} {common rest : List alpha} :
    decide (common.length = (common ++ rest).length) = rest.isEmpty := by
  cases rest <;> simp

variable {grown : RadixForest symbol value}

theorem insertWord_node [DecidableEq symbol] [DecidableEq value] {terminal : Bool} (hne : word ≠ [])
    (h : (node key span terminal children siblings).insertWord word = .ok grown) :
    (word = span ∧ grown = node key span true children siblings) ∨
    (exists w below, word = span ++ w ∧ w ≠ [] ∧ children.insertWord w = .ok below ∧
      grown = node key span terminal below siblings) ∨
    (exists common s w, span = common ++ s ∧ word = common ++ w ∧ common ≠ [] ∧ s ≠ [] ∧ Apart s w ∧
      grown = node key common w.isEmpty
        (graft s terminal children (graft w true nil nil)) siblings) ∨
    (exists beside, (forall a x, word.head? = some (a, x) -> key ≠ a) ∧
      siblings.insertWord word = .ok beside ∧ grown = node key span terminal children beside) := by
  cases word with
  | nil => exact absurd rfl hne
  | cons pair rest =>
    rcases pair with ⟨a, x⟩
    simp only [insertWord, List.head?_cons] at h
    by_cases hkey : key = a
    · rw [if_pos hkey] at h
      cases hagree : agreeLength span ((a, x) :: rest) with
      | none =>
        rw [hagree] at h
        cases h
      | some count =>
        rw [hagree] at h
        rcases agreeLength_some hagree with ⟨common, s, w, hspan, hword, hcount, hapart⟩
        rw [hspan, hword, <- hcount] at h
        simp only [List.drop_left, List.take_left, decide_length_append_eq] at h
        by_cases hzero : common.length = 0
        · rw [if_pos hzero] at h
          cases h
        · rw [if_neg hzero] at h
          have hcommon : common ≠ [] := fun hnil => hzero (by rw [hnil]; rfl)
          cases s with
          | nil =>
            rw [List.append_nil] at hspan
            rw [if_pos (by rw [List.append_nil]), List.append_nil] at h
            cases w with
            | nil =>
              rw [if_pos (by rw [List.append_nil])] at h
              cases h
              rw [List.append_nil] at hword
              exact .inl ⟨by rw [hspan, hword], by rw [hspan]⟩
            | cons second tail =>
              rw [if_neg (by simp)] at h
              cases hbelow : children.insertWord (second :: tail) with
              | error e =>
                rw [hbelow] at h
                cases h
              | ok below =>
                rw [hbelow] at h
                cases h
                exact .inr (.inl ⟨second :: tail, below, by rw [hspan, hword],
                  List.cons_ne_nil _ _, hbelow, by rw [hspan]⟩)
          | cons second tail =>
            rw [if_neg (by simp)] at h
            cases h
            exact .inr (.inr (.inl ⟨common, second :: tail, w, hspan, hword, hcommon,
              List.cons_ne_nil _ _, hapart, rfl⟩))
    · rw [if_neg hkey] at h
      cases hbeside : siblings.insertWord ((a, x) :: rest) with
      | error e =>
        rw [hbeside] at h
        cases h
      | ok beside =>
        rw [hbeside] at h
        cases h
        refine .inr (.inr (.inr ⟨beside, ?_, rfl, rfl⟩))
        intro _ _ hhead
        cases hhead
        exact hkey

section

variable [DecidableEq symbol] [DecidableEq value] (hne : word ≠ [])
  (h : forest.insertWord word = Except.ok grown) (p : List (symbol × value))
include hne h

theorem insertWord_stored : grown.Stored p <-> forest.Stored p ∨ (p ≠ [] ∧ p <+: word) := by
  induction forest generalizing word grown p with
  | nil =>
    cases h
    rw [stored_graft (fun _ => rfl), under_nil]
    exact or_comm
  | node key span terminal children siblings ihchildren ihsiblings =>
    rcases insertWord_node hne h with ⟨hword, rfl⟩ | ⟨w, _, hword, hw, hbelow, rfl⟩ |
      ⟨_, _, w, hspan, hword, _, hs, _, rfl⟩ | ⟨_, _, hbeside, rfl⟩
    · rw [stored_node, stored_node, hword]
      constructor
      · exact .inl
      · rintro (h | h)
        · exact h
        · exact .inl (.inl h)
    · rw [stored_node, stored_node, hword, nonempty_prefix_append]
      unfold Under
      simp only [ihchildren hw hbelow]
      constructor
      · rintro ((h | ⟨r, hr | hr, hp⟩) | h)
        · exact .inl (.inl (.inl h))
        · exact .inl (.inl (.inr ⟨r, hr, hp⟩))
        · exact .inr (.inr ⟨r, hr, hp⟩)
        · exact .inl (.inr h)
      · rintro (((h | ⟨r, hr, hp⟩) | h) | (h | ⟨r, hr, hp⟩))
        · exact .inl (.inl h)
        · exact .inl (.inr ⟨r, .inl hr, hp⟩)
        · exact .inr h
        · exact .inl (.inl h)
        · exact .inl (.inr ⟨r, .inr hr, hp⟩)
    · rw [stored_node, stored_node, hspan, hword, under_split hs]
      exact or_right_comm
    · rw [stored_node, stored_node, ihsiblings hne hbeside, or_assoc]

theorem insertWord_ends : grown.Ends p <-> forest.Ends p ∨ p = word := by
  have hleaf : forall (w r : List (symbol × value)),
      (graft w true nil nil).Ends r <-> w ≠ [] ∧ r = w := by
    intro w r
    cases w with
    | nil => simp [graft, Ends]
    | cons pair rest => simp [graft, Ends]
  induction forest generalizing word grown p with
  | nil =>
    cases h
    rw [hleaf]
    simp [Ends, hne]
  | node key span terminal children siblings ihchildren ihsiblings =>
    rcases insertWord_node hne h with ⟨hword, rfl⟩ | ⟨w, _, hword, hw, hbelow, rfl⟩ |
      ⟨_, s, w, hspan, hword, _, hs, _, rfl⟩ | ⟨_, _, hbeside, rfl⟩
    · simp only [Ends, hword]
      constructor
      · rintro (⟨_, hp⟩ | hp)
        · exact .inr hp
        · exact .inl (.inr hp)
      · rintro ((⟨_, hp⟩ | hp) | hp)
        · exact .inl ⟨trivial, hp⟩
        · exact .inr hp
        · exact .inl ⟨trivial, hp⟩
    · simp only [Ends, ihchildren hw hbelow, hword]
      constructor
      · rintro (h | ⟨r, hr | hr, hp⟩ | h)
        · exact .inl (.inl h)
        · exact .inl (.inr (.inl ⟨r, hr, hp⟩))
        · exact .inr (by rw [hp, hr])
        · exact .inl (.inr (.inr h))
      · rintro ((h | ⟨r, hr, hp⟩ | h) | h)
        · exact .inl h
        · exact .inr (.inl ⟨r, .inl hr, hp⟩)
        · exact .inr (.inr h)
        · exact .inr (.inl ⟨w, .inr rfl, h⟩)
    · rcases List.exists_cons_of_ne_nil hs with ⟨⟨_, _⟩, rest, hcons⟩
      have hgraft : forall r, (graft s terminal children (graft w true nil nil)).Ends r <->
          (terminal = true ∧ r = s) ∨ (exists q, children.Ends q ∧ r = s ++ q) ∨
            (w ≠ [] ∧ r = w) := by
        intro r
        rw [hcons, <- hleaf w r]
        exact Iff.rfl
      simp only [Ends, hgraft, hspan, hword, List.isEmpty_iff]
      constructor
      · rintro (⟨hw, hp⟩ | ⟨r, ⟨ht, hr⟩ | ⟨q, hq, hr⟩ | ⟨_, hr⟩, hp⟩ | h)
        · exact .inr (by rw [hp, hw, List.append_nil])
        · exact .inl (.inl ⟨ht, by rw [hp, hr]⟩)
        · exact .inl (.inr (.inl ⟨q, hq, by rw [hp, hr, List.append_assoc]⟩))
        · exact .inr (by rw [hp, hr])
        · exact .inl (.inr (.inr h))
      · rintro ((⟨ht, hp⟩ | ⟨q, hq, hp⟩ | h) | h)
        · exact .inr (.inl ⟨s, .inl ⟨ht, rfl⟩, hp⟩)
        · exact .inr (.inl ⟨s ++ q, .inr (.inl ⟨q, hq, rfl⟩),
            by rw [hp, List.append_assoc]⟩)
        · exact .inr (.inr h)
        · by_cases hw : w = []
          · exact .inl ⟨hw, by rw [h, hw, List.append_nil]⟩
          · exact .inr (.inl ⟨w, .inr (.inr ⟨hw, rfl⟩), h⟩)
    · simp only [Ends, ihsiblings hne hbeside, or_assoc]

end

theorem WellFormed.graft {terminal : Bool} (hchildren : children.WellFormed)
    (hsiblings : siblings.WellFormed)
    (hkey : forall a x, span.head? = some (a, x) -> a ∉ siblings.keys) :
    (RadixForest.graft span terminal children siblings).WellFormed := by
  cases span with
  | nil => exact hsiblings
  | cons pair rest =>
    exact ⟨⟨pair.2, rest, rfl⟩, hkey pair.1 pair.2 rfl, hchildren, hsiblings⟩

section

variable (hwf : forest.WellFormed)
include hwf

theorem insertWord_wellFormed [DecidableEq symbol] [DecidableEq value] (hne : word ≠ [])
    (h : forest.insertWord word = .ok grown) : grown.WellFormed := by
  have hleaf : forall w : List (symbol × value), (graft w true nil nil).WellFormed := by
    intro w
    exact WellFormed.graft trivial trivial (fun a x _ => List.not_mem_nil)
  induction forest generalizing word grown with
  | nil =>
    cases h
    exact hleaf word
  | node key span terminal children siblings ihchildren ihsiblings =>
    rcases hwf with ⟨hspan, hkey, hchildren, hsiblings⟩
    rcases insertWord_node hne h with ⟨_, rfl⟩ | ⟨w, _, hword, hw, hbelow, rfl⟩ |
      ⟨_, _, w, hsplit, hword, hcommon, _, hapart, rfl⟩ | ⟨_, hhead, hbeside, rfl⟩
    · exact ⟨hspan, hkey, hchildren, hsiblings⟩
    · exact ⟨hspan, hkey, ihchildren hchildren hw hbelow, hsiblings⟩
    · refine ⟨?_, hkey, WellFormed.graft hchildren (hleaf w) ?_, hsiblings⟩
      · rcases hspan with ⟨x, _, hspan⟩
        rcases List.exists_cons_of_ne_nil hcommon with ⟨pair, tail, hcons⟩
        rw [hsplit, hcons, List.cons_append, List.cons.injEq] at hspan
        exact ⟨x, tail, by rw [hcons, hspan.1]⟩
      · intro a x ha hmem
        cases w with
        | nil => cases hmem
        | cons second tail =>
          rcases second with ⟨b, y⟩
          have hab : a = b := by simpa [graft, keys] using hmem
          exact hapart a x b y ha rfl hab
    · have hbesideWf := ihsiblings hsiblings hne hbeside
      refine ⟨hspan, ?_, hchildren, hbesideWf⟩
      intro hmem
      rcases (mem_keys_iff hbesideWf).mp hmem with ⟨x, hx⟩
      cases (insertWord_stored hne hbeside _).mp hx with
      | inl hold => exact hkey ((mem_keys_iff hsiblings).mpr ⟨x, hold⟩)
      | inr hnew =>
        cases word with
        | nil => exact hne rfl
        | cons second tail =>
          rw [List.cons_prefix_cons] at hnew
          exact hhead key x (by rw [<- hnew.2.1]; rfl) rfl

theorem insertWord_of_compatible [DecidableEq symbol] [DecidableEq value] (hne : word ≠ [])
    (hcompatible : forest.Compatible word) : exists grown, forest.insertWord word = .ok grown := by
  induction forest generalizing word with
  | nil => exact ⟨_, rfl⟩
  | node key span terminal children siblings ihchildren ihsiblings =>
    rcases hwf with ⟨⟨x, _, hspan⟩, _, hchildren, hsiblings⟩
    rcases List.exists_cons_of_ne_nil hne with ⟨⟨a, y⟩, tail, hcons⟩
    have hhead : word.head? = some (a, y) := by rw [hcons]; rfl
    unfold insertWord
    simp only [hhead]
    by_cases hkey : key = a
    · rw [if_pos hkey]
      cases hagree : agreeLength span word with
      | none =>
        rcases agreeLength_none hagree with ⟨common, b, u, _, s, w, hs, hw, huv⟩
        have hstored : (node key span terminal children siblings).Stored (common ++ [(b, u)]) := by
          refine .inl ⟨by simp, ?_⟩
          rw [hs]
          exact ⟨s, by simp⟩
        have hinit := hcompatible _ hstored (by rw [hw]; exact ⟨w.map Prod.fst, by simp⟩)
        rw [hw, List.prefix_append_right_inj, List.cons_prefix_cons] at hinit
        cases hinit.1
        exact absurd rfl huv
      | some count =>
        rcases agreeLength_some hagree with ⟨common, s, w, hs, hw, hcount, hapart⟩
        have hzero : count ≠ 0 := by
          intro hzero
          have hnil : common = [] := List.length_eq_zero_iff.mp (hcount.trans hzero)
          rw [hnil, List.nil_append] at hs hw
          exact hapart key x a y (by rw [<- hs, hspan]; rfl) (by rw [<- hw, hhead]) hkey
        simp only [if_neg hzero]
        by_cases hfull : count = span.length
        · rw [if_pos hfull]
          by_cases hend : count = word.length
          · exact ⟨_, if_pos hend⟩
          · rw [if_neg hend]
            have hs' : span = common := by
              have hlength : s.length = 0 := by
                have := congrArg List.length hs
                rw [List.length_append] at this
                omega
              rw [hs, List.length_eq_zero_iff.mp hlength, List.append_nil]
            have hdrop : word.drop count = w := by
              rw [hw, <- hcount, List.drop_left]
            have hw' : w ≠ [] := by
              intro hnil
              apply hend
              rw [hw, hnil, List.append_nil, hcount]
            have hbelow : children.Compatible w := by
              intro stored hstored hfollow
              have hinit := hcompatible (span ++ stored) (.inr (.inl ⟨stored, hstored, rfl⟩)) (by
                  rw [hw, hs', List.map_append, List.map_append, List.prefix_append_right_inj]
                  exact hfollow)
              rw [hw, hs', List.prefix_append_right_inj] at hinit
              exact hinit
            rcases ihchildren hchildren hw' hbelow with ⟨_, hgrown⟩
            rw [hdrop, hgrown]
            exact ⟨_, rfl⟩
        · exact ⟨_, if_neg hfull⟩
    · rw [if_neg hkey]
      have hbeside : siblings.Compatible word := by
        intro stored hstored hfollow
        exact hcompatible stored (.inr (.inr hstored)) hfollow
      rcases ihsiblings hsiblings hne hbeside with ⟨_, hgrown⟩
      rw [hgrown]
      exact ⟨_, rfl⟩

/-!
## Matching
-/

/-- Matching returns the values of the longest stored word along the symbols. -/
theorem matchWord_longest [DecidableEq symbol] (word : List symbol) :
    exists p : List (symbol × value), forest.matchWord word = p.map Prod.snd ∧
      (p = [] ∨ forest.Stored p) ∧ p.map Prod.fst <+: word ∧
      forall q, forest.Stored q -> q.map Prod.fst <+: word -> q <+: p := by
  induction forest generalizing word with
  | nil =>
    refine ⟨[], by cases word <;> rfl, .inl rfl, List.nil_prefix, ?_⟩
    intro q hq
    cases hq
  | _ key span _ _ siblings ihchildren ihsiblings =>
    have hwhole := hwf
    rcases hwf with ⟨⟨_, _, hspan⟩, hkey, hchildren, hsiblings⟩
    cases word with
    | nil =>
      refine ⟨[], rfl, .inl rfl, List.nil_prefix, ?_⟩
      intro q hq hfollow
      have hnil : q = [] := by simpa using hfollow
      exact absurd hnil (hq.ne_nil hwhole)
    | cons a word =>
      unfold matchWord
      by_cases ha : key = a
      · rw [if_pos ha]
        have hsiblingsOut : forall q, siblings.Stored q -> ¬ q.map Prod.fst <+: a :: word := by
          intro q hq hfollow
          rcases hq.head hsiblings with ⟨b, y, tail, hcons, hb⟩
          rw [hcons, List.map_cons, List.cons_prefix_cons] at hfollow
          exact hkey (ha ▸ hfollow.1 ▸ hb)
        by_cases hfull : commonLength span (a :: word) = span.length
        · simp only [if_pos hfull]
          have hspanFollows : span.map Prod.fst <+: a :: word :=
            (prefix_take_commonLength.mp (by rw [hfull, List.take_length])).2
          rcases hspanFollows with ⟨suffix, hsuffix⟩
          have hdrop : (a :: word).drop (commonLength span (a :: word)) = suffix := by
            rw [hfull, <- hsuffix]
            simp
          rcases ihchildren hchildren suffix with ⟨p, hp, hstored, hfollow, hlongest⟩
          refine ⟨span ++ p, ?_, .inr ?_, ?_, ?_⟩
          · rw [hdrop, hfull, List.take_length, List.map_append, hp]
          · cases hstored with
            | inl hnil =>
              rw [hnil, List.append_nil]
              exact .inl ⟨by rw [hspan]; exact List.cons_ne_nil _ _, List.prefix_refl _⟩
            | inr hstored => exact .inr (.inl ⟨p, hstored, rfl⟩)
          · rw [List.map_append, <- hsuffix, List.prefix_append_right_inj]
            exact hfollow
          · intro q hq hqfollow
            rcases stored_node.mp hq with (⟨_, hq⟩ | ⟨r, hr, rfl⟩) | hq
            · exact hq.trans (List.prefix_append _ _)
            · rw [List.map_append, <- hsuffix, List.prefix_append_right_inj] at hqfollow
              rw [List.prefix_append_right_inj]
              exact hlongest r hr hqfollow
            · exact absurd hqfollow (hsiblingsOut q hq)
        · simp only [if_neg hfull, List.append_nil]
          have htake := prefix_take_commonLength.mp
            (List.prefix_refl (span.take (commonLength span (a :: word))))
          refine ⟨_, rfl, ?_, htake.2, ?_⟩
          · by_cases hnil : span.take (commonLength span (a :: word)) = []
            · exact .inl hnil
            · exact .inr (.inl ⟨hnil, htake.1⟩)
          · intro q hq hqfollow
            rcases stored_node.mp hq with (⟨_, hq⟩ | ⟨r, hr, rfl⟩) | hq
            · exact prefix_take_commonLength.mpr ⟨hq, hqfollow⟩
            · rw [List.map_append] at hqfollow
              have hall := prefix_take_commonLength.mpr
                ⟨List.prefix_refl span, (List.prefix_append _ _).trans hqfollow⟩
              have hle := hall.length_le
              rw [List.length_take] at hle
              have hbound := commonLength_le span (a :: word)
              exact absurd (by omega) hfull
            · exact absurd hqfollow (hsiblingsOut q hq)
      · rw [if_neg ha]
        rcases ihsiblings hsiblings (a :: word) with ⟨p, hp, hstored, hfollow, hlongest⟩
        refine ⟨p, hp, hstored.imp id (fun h => .inr (.inr h)), hfollow, ?_⟩
        intro q hq hqfollow
        rcases stored_node.mp hq with hq | hq
        · rw [hspan] at hq
          rcases hq.head with ⟨tail, rfl⟩
          rw [List.map_cons, List.cons_prefix_cons] at hqfollow
          exact absurd hqfollow.1 ha
        · exact hlongest q hq hqfollow

end

end RadixForest
end Foundation
end Ayaka
