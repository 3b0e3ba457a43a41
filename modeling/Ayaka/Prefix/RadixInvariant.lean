import Ayaka.Prefix.TableInvariant

/-!
# The radix index projects the ownership table

The words the radix index stores under a context are the digest paths of the
cached blocks of that context, and a word ends at a terminal node exactly when
its block is retained.  The rebuild after every removal restores this from the
terminals alone.
-/

namespace Ayaka
namespace Prefix

open Foundation Memory
open PrefixOwnershipNode
open EStateM (Result)

namespace PrefixOwnershipTable

variable {t u : PrefixOwnershipTable} {node x y : PrefixOwnershipNode}
variable {sha256 : List UInt8 -> Digest} {pageSize : Nat}
variable {context : PrefixCacheContext} {word : List (Digest × PrefixHandle)}

def Spells (t : PrefixOwnershipTable) (context : PrefixCacheContext)
    (word : List (Digest × PrefixHandle)) (node : PrefixOwnershipNode) : Prop :=
  t.Holds node ∧ node.identity.context = context ∧
    exists blocks, t.Path node.handle blocks ∧ word = blocks.map PrefixOwnershipNode.step

def DistinctPaths (t : PrefixOwnershipTable) : Prop :=
  forall context word word' x y, t.Spells context word x -> t.Spells context word' y ->
    word.map Prod.fst = word'.map Prod.fst -> word = word'

structure RadixOk (t : PrefixOwnershipTable) (radix : PageRadixIndex) : Prop where
  wellFormed : forall context, (radix.root context).WellFormed
  stored : forall context word, (radix.root context).Stored word <->
    exists node, t.Spells context word node
  ends : forall context word, (radix.root context).Ends word <->
    exists node, t.Spells context word node ∧ 0 < node.terminalRefs

theorem Spells.ne_nil (h : t.Spells context word node) : word ≠ [] := by
  rcases h with ⟨_, _, blocks, hpath, rfl⟩
  simpa using hpath.ne_nil

theorem Spells.cut (hok : TableOk sha256 pageSize t) (h : t.Spells context word node) {cut}
    (hcut : cut <+: word) (hne : cut ≠ []) : exists above, t.Spells context cut above := by
  rcases h with ⟨hnode, hcontext, blocks, hpath, rfl⟩
  rcases List.prefix_map_iff.mp hcut with ⟨short, hshort, rfl⟩
  have hshortNe : short ≠ [] := by simpa using hne
  rcases hpath.cut hshort hshortNe with ⟨_, habove⟩
  rcases habove.last with ⟨above, before, hheld, rfl, rfl⟩
  have hmem : above.core ∈ blocks := hshort.mem (by simp)
  refine ⟨above, hheld, ?_, _, habove, rfl⟩
  rw [<- hcontext, <- (hok.path_context hpath hnode rfl).1 above.core hmem]
  rfl

theorem Spells.mono (h : t.Spells context word x) (hwithin : Within t u) :
    exists y, u.Spells context word y ∧ y.core = x.core := by
  rcases h with ⟨hx, hcontext, blocks, hpath, rfl⟩
  rcases hwithin x hx with ⟨y, hy, hcore⟩
  refine ⟨y, ⟨hy, ?_, blocks, ?_, rfl⟩, hcore⟩
  · rw [identity_of_core hcore, hcontext]
  · rw [handle_of_core hcore]
    exact hpath.mono hwithin

theorem Spells.det (hx : t.Spells context word x) (hy : t.Spells context word y) : x = y := by
  rcases hx with ⟨hx, _, blocks, hpath, rfl⟩
  rcases hy with ⟨hy, _, blocks', hpath', hwords⟩
  rcases hpath.last with ⟨x', before, hx', hhandle, rfl⟩
  rcases hpath'.last with ⟨y', before', hy', hhandle', rfl⟩
  simp only [List.map_append, List.map_cons, List.map_nil] at hwords
  have hlast := (List.append_inj' hwords rfl).2
  have hhandles : x'.handle = y'.handle := congrArg Prod.snd (List.cons.inj hlast).1
  exact hx.det hy (by rw [<- hhandle, <- hhandle', hhandles])

theorem Spells.word_det (h : t.Spells context word x)
    (h' : t.Spells context word' x) : word = word' := by
  rcases h with ⟨_, _, _, hpath, rfl⟩
  rcases h' with ⟨_, _, _, hpath', rfl⟩
  rw [hpath.det hpath']

theorem exists_spells (hok : TableOk sha256 pageSize t) (h : t.Holds node) :
    exists word, t.Spells node.identity.context word node := by
  rcases hok.exists_path h with ⟨blocks, hpath⟩
  exact ⟨_, h, rfl, blocks, hpath, rfl⟩

theorem RadixOk.distinct (h : RadixOk t radix) : DistinctPaths t := by
  intro context word word' x y hx hy heq
  exact RadixForest.Stored.det (h.wellFormed context) ((h.stored context word).mpr ⟨x, hx⟩)
    ((h.stored context word').mpr ⟨y, hy⟩) heq

theorem DistinctPaths.within (h : DistinctPaths u) (hwithin : Within t u) : DistinctPaths t := by
  intro context word word' _ _ hx hy heq
  rcases hx.mono hwithin with ⟨x', hx', _⟩
  rcases hy.mono hwithin with ⟨y', hy', _⟩
  exact h context word word' x' y' hx' hy' heq

structure SameStatus (t u : PrefixOwnershipTable) : Prop where
  shape : SameShape t u
  terminal : forall index, (u.nodes.slot index).map PrefixOwnershipNode.terminal =
    (t.nodes.slot index).map PrefixOwnershipNode.terminal

theorem SameStatus.refl (t : PrefixOwnershipTable) : SameStatus t t :=
  ⟨SameShape.refl t, fun _ => rfl⟩

section

variable (h : SameStatus t u)
include h

theorem SameStatus.trans (h' : SameStatus u v) : SameStatus t v :=
  ⟨h.shape.trans h'.shape, fun index => (h'.terminal index).trans (h.terminal index)⟩

theorem SameStatus.symm : SameStatus u t :=
  ⟨h.shape.symm, fun index => (h.terminal index).symm⟩

theorem SameStatus.holds (hx : t.Holds x) :
    exists y, u.Holds y ∧ PrefixOwnershipTable.shape y = PrefixOwnershipTable.shape x ∧
      (0 < y.terminalRefs <-> 0 < x.terminalRefs) := by
  rcases h.shape.holds hx with ⟨y, hy, hshape⟩
  refine ⟨y, hy, hshape, ?_⟩
  have hhandle := handle_of_core (core_of_shape hshape)
  have hterminal := h.terminal x.handle.index
  unfold Holds at hx hy
  rw [hhandle] at hy
  rw [hx, hy] at hterminal
  simpa [PrefixOwnershipNode.terminal] using hterminal

theorem SameStatus.spells (hword : t.Spells context word x) :
    exists y, u.Spells context word y ∧ (0 < y.terminalRefs <-> 0 < x.terminalRefs) := by
  rcases hword.mono h.shape.within with ⟨y, hy, hcore⟩
  rcases h.holds hword.1 with ⟨z, hz, hshape, hterminal⟩
  have hhandle := (handle_of_core hcore).trans (handle_of_core (core_of_shape hshape)).symm
  cases hy.1.det hz hhandle
  exact ⟨_, hy, hterminal⟩

end

theorem RadixOk.of_status (h : RadixOk t radix) (hstatus : SameStatus t u) : RadixOk u radix := by
  constructor
  case wellFormed => exact h.wellFormed
  case stored =>
    intro context word
    rw [h.stored]
    constructor
    · rintro ⟨x, hx⟩
      rcases hstatus.spells hx with ⟨y, hy, _⟩
      exact ⟨y, hy⟩
    · rintro ⟨x, hx⟩
      rcases hstatus.symm.spells hx with ⟨y, hy, _⟩
      exact ⟨y, hy⟩
  case ends =>
    intro context word
    rw [h.ends]
    constructor
    · rintro ⟨x, hx, hrefs⟩
      rcases hstatus.spells hx with ⟨y, hy, hterminal⟩
      exact ⟨y, hy, hterminal.mpr hrefs⟩
    · rintro ⟨x, hx, hrefs⟩
      rcases hstatus.symm.spells hx with ⟨y, hy, hterminal⟩
      exact ⟨y, hy, hterminal.mpr hrefs⟩

theorem Retained.of_status (h : Retained t none) (hstatus : SameStatus t u) : Retained u none := by
  intro _ hx _ hleaf
  rcases hstatus.symm.holds hx with ⟨y, hy, hshape, hterminal⟩
  refine hterminal.mp (h y hy (by simp) ?_)
  rw [children_of_shape hshape, hleaf]

theorem sameStatus_modifyNode (t : PrefixOwnershipTable) (handle : PrefixHandle)
    {f : PrefixOwnershipNode -> PrefixOwnershipNode}
    (hshape : forall x, PrefixOwnershipTable.shape (f x) = PrefixOwnershipTable.shape x)
    (hterminal : forall x, t.nodes.slot handle.index = some x -> (f x).terminal = x.terminal) :
    SameStatus t (t.modifyNode handle f) := by
  refine ⟨sameShape_modifyNode t handle hshape, fun index => ?_⟩
  show Option.map PrefixOwnershipNode.terminal (Function.update t.nodes.slot handle.index
    ((t.nodes.slot handle.index).map f) index) = _
  by_cases h : index = handle.index
  · rw [h, Function.update_self]
    cases hslot : t.nodes.slot handle.index with
    | none => rfl
    | some x =>
      simp only [Option.map_some, Option.some.injEq]
      exact hterminal x hslot
  · rw [Function.update_of_ne h]

theorem sameStatus_touch (t : PrefixOwnershipTable) (nodes : List PrefixOwnershipNode) :
    SameStatus t (t.touch nodes) := by
  have hfold : forall (u : PrefixOwnershipTable), SameStatus u
      (nodes.foldl (fun table node => table.modifyNode node.handle fun node =>
        { node with lastAccess := table.clock }) u) := by
    induction nodes with
    | nil => exact SameStatus.refl
    | cons node rest ih =>
      intro u
      refine SameStatus.trans ?_ (ih _)
      exact sameStatus_modifyNode (f := fun x => { x with lastAccess := u.clock }) u node.handle
        (fun _ => rfl) fun _ _ => rfl
  have hclock : SameStatus t { t with clock := t.clock + 1 } :=
    ⟨⟨rfl, rfl, fun _ => rfl⟩, fun _ => rfl⟩
  exact hclock.trans (hfold _)

end PrefixOwnershipTable

/-!
## Insertion into the index
-/

namespace PageRadixIndex

variable {context : PrefixCacheContext} {index : PageRadixIndex}

theorem root_setRoot (context other : PrefixCacheContext)
    (forest : RadixForest Digest PrefixHandle) (index : PageRadixIndex) :
    (index.setRoot context forest).root other =
      if other = context then forest else index.root other := by
  unfold root setRoot
  by_cases h : other = context
  · rw [h, AList.lookup_insert, if_pos rfl]
    rfl
  · rw [AList.lookup_insert_ne h, if_neg h]

theorem root_ensured (context other : PrefixCacheContext) (index : PageRadixIndex) :
    (index.setRoot context (index.root context)).root other = index.root other := by
  rw [root_setRoot]
  by_cases h : other = context
  · rw [if_pos h, h]
  · rw [if_neg h]

theorem insert_eq (hne : word ≠ []) :
    insert context (word.map Prod.fst) (word.map Prod.snd) index =
      match (index.root context).insertWord word with
      | .error fault => .error (faultMessage fault)
          (index.setRoot context (index.root context))
      | .ok grown => .ok ()
          ((index.setRoot context (index.root context)).setRoot context grown) := by
  have hguard : ¬ ((word.map Prod.fst).length ≠ (word.map Prod.snd).length ∨
      word.map Prod.fst = []) := by
    simp [hne]
  have hzip : (word.map Prod.fst).zip (word.map Prod.snd) = word := by
    rw [List.zip_map']
    simp
  unfold insert
  rw [if_neg hguard, hzip]
  show (match ((index.setRoot context (index.root context)).root context).insertWord word with
    | .error fault => throw (faultMessage fault)
    | .ok grown => modify (setRoot context grown) : EStateM Exc PageRadixIndex Unit)
      (index.setRoot context (index.root context)) = _
  rw [root_ensured]
  cases (index.root context).insertWord word with
  | error fault => rfl
  | ok grown => rfl

end PageRadixIndex

/-!
## Rebuilding the index
-/

namespace PrefixOwnershipTable

variable {t u : PrefixOwnershipTable} {node x y : PrefixOwnershipNode}
variable {sha256 : List UInt8 -> Digest} {pageSize : Nat}
variable {context : PrefixCacheContext} {word : List (Digest × PrefixHandle)}

structure Projects (t : PrefixOwnershipTable) (terminals : List PrefixOwnershipNode)
    (radix : PageRadixIndex) : Prop where
  wellFormed : forall context, (radix.root context).WellFormed
  stored : forall context word, (radix.root context).Stored word <->
    exists node full, node ∈ terminals ∧ t.Spells context full node ∧ word ≠ [] ∧ word <+: full
  ends : forall context word, (radix.root context).Ends word <->
    exists node, node ∈ terminals ∧ t.Spells context word node

theorem projects_nil (t : PrefixOwnershipTable) : Projects t [] {} := by
  have hroot : forall context, ({} : PageRadixIndex).root context = .nil := by
    intro context
    unfold PageRadixIndex.root
    rfl
  constructor
  case wellFormed =>
    intro context
    trivial
  case _ =>
    intro context word
    rw [hroot]
    simp [RadixForest.Stored]
  case ends =>
    intro context word
    rw [hroot]
    simp [RadixForest.Ends]

variable {terminals : List PrefixOwnershipNode} {radix : PageRadixIndex}

section

variable (h : Projects t terminals radix) (hok : TableOk sha256 pageSize t)
include h hok

/-- Where digest paths are distinct, the chain of any block may join. -/
theorem Projects.compatible (hdistinct : DistinctPaths t) (hword : t.Spells context word node) :
    (radix.root context).Compatible word := by
  intro stored hstored hsymbols
  rcases (h.stored context stored).mp hstored with ⟨other, full, _, hfull, hne, hinit⟩
  rcases hfull.cut hok hinit hne with ⟨above, habove⟩
  have hlength : stored.length ≤ word.length := by
    simpa using hsymbols.length_le
  have htake : word.take stored.length ≠ [] := by
    intro hnil
    have hzero := congrArg List.length hnil
    simp only [List.length_take, List.length_nil] at hzero
    exact hne (List.length_eq_zero_iff.mp (by omega))
  rcases hword.cut hok (List.take_prefix ..) htake with ⟨upper, hupper⟩
  have hfst : stored.map Prod.fst = (word.take stored.length).map Prod.fst := by
    simpa using List.prefix_iff_eq_take.mp hsymbols
  rw [hdistinct _ _ _ _ _ habove hupper hfst]
  exact List.take_prefix ..

theorem Projects.insert (hdistinct : DistinctPaths t) (hword : t.Spells context word node) :
    exists grown, PageRadixIndex.insert context (word.map Prod.fst) (word.map Prod.snd) radix =
        .ok () grown ∧ Projects t (node :: terminals) grown := by
  have hne := hword.ne_nil
  rcases RadixForest.insertWord_of_compatible (h.wellFormed context) hne
    (h.compatible hok hdistinct hword) with ⟨forest, hforest⟩
  refine ⟨(radix.setRoot context (radix.root context)).setRoot context forest, ?_, ?_⟩
  · rw [PageRadixIndex.insert_eq hne, hforest]
  have hroot : forall other, ((radix.setRoot context (radix.root context)).setRoot context
      forest).root other = if other = context then forest else radix.root other := by
    intro other
    rw [PageRadixIndex.root_setRoot, PageRadixIndex.root_ensured]
  have hspells : forall other full, other ≠ context -> ¬ t.Spells other full node := by
    intro other full hother hfull
    exact hother (hfull.2.1.symm.trans hword.2.1)
  constructor
  case wellFormed =>
    intro other
    rw [hroot]
    split
    · exact RadixForest.insertWord_wellFormed (h.wellFormed context) hne hforest
    · exact h.wellFormed other
  case stored =>
    intro other p
    rw [hroot]
    by_cases hother : other = context
    · rw [if_pos hother, RadixForest.insertWord_stored hne hforest, h.stored, hother]
      constructor
      · rintro (⟨x, full, hx, hfull, hp⟩ | hp)
        · exact ⟨x, full, List.mem_cons_of_mem _ hx, hfull, hp⟩
        · exact ⟨node, word, List.mem_cons_self, hword, hp⟩
      · rintro ⟨x, full, hx, hfull, hp⟩
        rcases List.mem_cons.mp hx with rfl | hin
        · rw [hfull.word_det hword] at hp
          exact .inr hp
        · exact .inl ⟨x, full, hin, hfull, hp⟩
    · rw [if_neg hother, h.stored]
      constructor
      · rintro ⟨x, full, hx, hfull, hp⟩
        exact ⟨x, full, List.mem_cons_of_mem _ hx, hfull, hp⟩
      · rintro ⟨x, full, hx, hfull, hp⟩
        rcases List.mem_cons.mp hx with rfl | hin
        · exact absurd hfull (hspells other full hother)
        · exact ⟨x, full, hin, hfull, hp⟩
  case ends =>
    intro other p
    rw [hroot]
    by_cases hother : other = context
    · rw [if_pos hother, RadixForest.insertWord_ends hne hforest, h.ends, hother]
      constructor
      · rintro (⟨x, hx, hp⟩ | rfl)
        · exact ⟨x, List.mem_cons_of_mem _ hx, hp⟩
        · exact ⟨node, List.mem_cons_self, hword⟩
      · rintro ⟨x, hx, hp⟩
        rcases List.mem_cons.mp hx with rfl | hin
        · exact .inr (hp.word_det hword)
        · exact .inl ⟨x, hin, hp⟩
    · rw [if_neg hother, h.ends]
      constructor
      · rintro ⟨x, hx, hp⟩
        exact ⟨x, List.mem_cons_of_mem _ hx, hp⟩
      · rintro ⟨x, hx, hp⟩
        rcases List.mem_cons.mp hx with rfl | hin
        · exact absurd hp (hspells other p hother)
        · exact ⟨x, hin, hp⟩

/-- All chains of the terminals together are the paths of all blocks. -/
theorem Projects.radixOk (hretained : Retained t none)
    (hterminals : forall x, x ∈ terminals <-> t.Holds x ∧ 0 < x.terminalRefs) :
    RadixOk t radix := by
  constructor
  case wellFormed => exact h.wellFormed
  case stored =>
    intro context word
    rw [h.stored]
    constructor
    · rintro ⟨x, _, _, hfull, hne, hinit⟩
      exact hfull.cut hok hinit hne
    · rintro ⟨x, hword⟩
      rcases hword with ⟨hx, hcontext, _, hpath, rfl⟩
      rcases hok.exists_terminal hretained hx hpath with ⟨terminal, rest, hheld, hrefs, hlong⟩
      have hsame : terminal.identity.context = context := by
        rcases hpath.last with ⟨_, _, hx', hhandle, rfl⟩
        cases hx'.det hx hhandle
        rw [<- hcontext, <- (hok.path_context hlong hheld rfl).1 x.core (by simp)]
        rfl
      refine ⟨terminal, _, (hterminals terminal).mpr ⟨hheld, hrefs⟩,
        ⟨hheld, hsame, _, hlong, rfl⟩, ?_, ?_⟩
      · simpa using hpath.ne_nil
      · rw [List.map_append]
        exact List.prefix_append ..
  case ends =>
    intro context word
    rw [h.ends]
    constructor
    · rintro ⟨x, hx, hword⟩
      exact ⟨x, hword, ((hterminals x).mp hx).2⟩
    · rintro ⟨x, hword, hrefs⟩
      exact ⟨x, (hterminals x).mpr ⟨hword.1, hrefs⟩, hword⟩

end

section

variable (hok : TableOk sha256 pageSize t)
include hok

theorem TableOk.mem_values : x ∈ t.nodes.values <-> t.Holds x := by
  rw [IndexMap.mem_values]
  constructor
  · rintro ⟨index, hslot⟩
    exact (hok.holds hslot).1
  · intro h
    exact ⟨_, h⟩

theorem TableOk.mem_terminalNodes : x ∈ t.terminalNodes <-> t.Holds x ∧ 0 < x.terminalRefs := by
  unfold terminalNodes PrefixOwnershipNode.terminal
  rw [List.mem_filter, hok.mem_values, decide_eq_true_iff]

theorem TableOk.chain_spells (h : t.Holds node) {chain}
    (hchain : t.chain node.handle = .ok chain) : chain.getLast? = some node ∧
      t.Spells node.identity.context (chain.map PrefixOwnershipNode.step) node := by
  rcases hok.exists_path h with ⟨blocks, hpath⟩
  rcases hok.chain_run hpath with ⟨nodes, hrun, hcores, hall⟩
  rw [hchain] at hrun
  cases hrun
  refine ⟨?_, h, rfl, blocks, hpath, ?_⟩
  · rcases hpath.last with ⟨last, _, _, hhandle, hblocks⟩
    rw [hblocks] at hcores
    rcases List.map_eq_append_iff.mp hcores with ⟨_, _, rfl, _, hlower⟩
    rcases List.map_eq_singleton_iff.mp hlower with ⟨bottom, rfl, hbottom⟩
    have hheld := hall bottom (by simp)
    have hsame := (handle_of_core hbottom).trans hhandle
    rw [hheld.det h hsame]
    simp
  · rw [<- hcores, List.map_map]
    rfl

end

open RadixPagePrefixCache in
theorem rebuild_loop (hok : TableOk sha256 pageSize t) (hdistinct : DistinctPaths t)
    (hchains : List.Forall₂ (fun terminal chain =>
    t.Holds terminal ∧ t.chain terminal.handle = .ok chain) terminals chains)
    (htable : cache.table = t)
    (hdone : Projects t done cache.radix) :
    exists radix, chains.forM projectChain cache = .ok () { cache with radix } ∧
      Projects t (terminals.reverse ++ done) radix := by
  induction hchains generalizing cache done with
  | nil => exact ⟨cache.radix, rfl, hdone⟩
  | @cons terminal chain terminals chains hchain _ ih =>
    rcases hok.chain_spells hchain.1 hchain.2 with ⟨hlast, hspells⟩
    rcases hdone.insert hok hdistinct hspells with ⟨grown, hinsert, hgrown⟩
    rw [List.map_map, List.map_map] at hinsert
    have hround : projectChain chain cache = .ok () { cache with radix := grown } := by
      unfold projectChain
      rw [hlast]
      exact zoom_run_ok hinsert
    rcases @ih (terminal :: done) { cache with radix := grown } htable hgrown with
      ⟨radix, hrun, hprojects⟩
    refine ⟨radix, (bind_run_ok _ hround).trans hrun, ?_⟩
    rw [List.reverse_cons, List.append_assoc]
    exact hprojects

open RadixPagePrefixCache in
theorem rebuildRadix_run (hok : TableOk sha256 pageSize cache.table)
    (hdistinct : DistinctPaths cache.table) (hretained : Retained cache.table none) :
    exists radix, rebuildRadix cache = .ok () { cache with radix } ∧ RadixOk cache.table radix := by
  have hchain : forall x, x ∈ cache.table.terminalNodes -> exists chain,
      cache.table.chain x.handle = .ok chain := by
    intro x hx
    rcases hok.exists_path (hok.mem_terminalNodes.mp hx).1 with ⟨blocks, hpath⟩
    rcases hok.chain_run hpath with ⟨nodes, hrun, _⟩
    exact ⟨nodes, hrun⟩
  rcases mapM_isOk_iff.mpr hchain with ⟨chains, hchains⟩
  have hpairs : List.Forall₂ (fun terminal chain => cache.table.Holds terminal ∧
      cache.table.chain terminal.handle = .ok chain) cache.table.terminalNodes chains := by
    have hforall := mapM_eq_ok_iff.mp hchains
    rw [List.forall₂_iff_get] at hforall ⊢
    refine ⟨hforall.1, fun i hi hi' => ⟨?_, hforall.2 i hi hi'⟩⟩
    exact (hok.mem_terminalNodes.mp (List.get_mem ..)).1
  have hempty : ({ cache with radix := {} } : RadixPagePrefixCache).table = cache.table := rfl
  rcases rebuild_loop hok hdistinct hpairs hempty (projects_nil _) with ⟨radix, hrun, hprojects⟩
  refine ⟨radix, ?_, ?_⟩
  · unfold rebuildRadix
    rw [query_bind_run]
    simp only [PrefixOwnershipTable.terminalChains, hchains]
    exact (bind_run_ok _ rfl).trans hrun
  · refine hprojects.radixOk hok hretained ?_
    intro x
    rw [List.append_nil, List.mem_reverse, hok.mem_terminalNodes]

end PrefixOwnershipTable
end Prefix
end Ayaka
