import Ayaka.Memory.AllocatorView
import Ayaka.Prefix.Store

/-!
# The shape of the ownership table

Every cached block is filed under its own index, is known by its identity, hangs
below a complete block of the same context and is listed by it.  The chain of
blocks above a node is read off the parent links alone, so what changes the
children, retainers or access times of a node changes no chain.
-/

namespace Ayaka
namespace Prefix

open Foundation Memory
open Function (update update_apply update_of_ne update_self)
open RadixPagePrefixCache (unpublish)

namespace PrefixOwnershipNode

variable {x y : PrefixOwnershipNode}

@[simps handle identity blockTokenIds page parent]
def core (node : PrefixOwnershipNode) : PrefixOwnershipNode :=
  { node with children := [], terminalRefs := 0, lastAccess := 0 }

section

variable (h : x.core = y.core)
include h

theorem handle_of_core : x.handle = y.handle :=
  show x.core.handle = y.core.handle by rw [h]

theorem identity_of_core : x.identity = y.identity :=
  show x.core.identity = y.core.identity by rw [h]

theorem block_of_core : x.blockTokenIds = y.blockTokenIds :=
  show x.core.blockTokenIds = y.core.blockTokenIds by rw [h]

theorem page_of_core : x.page = y.page :=
  show x.core.page = y.core.page by rw [h]

theorem parent_of_core : x.parent = y.parent :=
  show x.core.parent = y.core.parent by rw [h]

end

def step (node : PrefixOwnershipNode) : Digest × PrefixHandle :=
  (node.identity.digest, node.handle)

end PrefixOwnershipNode

namespace PrefixOwnershipTable

open PrefixOwnershipNode (handle_of_core identity_of_core block_of_core parent_of_core)

variable {t u v : PrefixOwnershipTable} {node x y : PrefixOwnershipNode}

def Holds (t : PrefixOwnershipTable) (node : PrefixOwnershipNode) : Prop :=
  t.nodes.slot node.handle.index = some node

theorem Holds.det (hx : t.Holds x) (hy : t.Holds y) (h : x.handle = y.handle) : x = y := by
  unfold Holds at hx hy
  rw [h, hy] at hx
  exact (Option.some.inj hx).symm

theorem get_eq_ok_iff : t.get handle = .ok node <-> t.Holds node ∧ node.handle = handle := by
  unfold get Holds
  constructor
  · intro h
    cases hslot : t.nodes.slot handle.index with
    | none =>
      rw [hslot] at h
      cases h
    | some found =>
      rw [hslot] at h
      by_cases hhandle : found.handle = handle
      · simp only [hhandle, if_true] at h
        cases h
        rw [hhandle]
        exact ⟨hslot, rfl⟩
      · simp only [hhandle, if_false] at h
        cases h
  · rintro ⟨hslot, rfl⟩
    rw [hslot]
    simp

theorem Holds.get (h : t.Holds node) : t.get node.handle = .ok node :=
  get_eq_ok_iff.mpr ⟨h, rfl⟩

theorem get_error (h : forall node, t.Holds node -> node.handle ≠ handle) :
    exists message, t.get handle = .error (.invalidHandleError message) := by
  unfold PrefixOwnershipTable.get
  cases hslot : t.nodes.slot handle.index with
  | none => exact ⟨_, rfl⟩
  | some node =>
    by_cases hhandle : node.handle = handle
    · refine absurd hhandle (h node ?_)
      unfold Holds
      rw [hhandle]
      exact hslot
    · simp only [hhandle, if_false]
      exact ⟨_, rfl⟩

/-!
## Chains
-/

inductive Path (t : PrefixOwnershipTable) : PrefixHandle -> List PrefixOwnershipNode -> Prop where
  | root {node : PrefixOwnershipNode} {handle : PrefixHandle} (hnode : t.Holds node)
      (hhandle : node.handle = handle) (hparent : node.parent = none) :
      Path t handle [node.core]
  | child {node : PrefixOwnershipNode} {handle parent : PrefixHandle}
      {above : List PrefixOwnershipNode} (hnode : t.Holds node)
      (hhandle : node.handle = handle) (hparent : node.parent = some parent)
      (habove : Path t parent above) : Path t handle (above ++ [node.core])

variable {handle : PrefixHandle} {blocks others : List PrefixOwnershipNode}

section

variable (h : Path t handle blocks)
include h

theorem Path.last :
    exists node above, t.Holds node ∧ node.handle = handle ∧ blocks = above ++ [node.core] := by
  cases h with
  | root hnode hhandle _ => exact ⟨_, [], hnode, hhandle, rfl⟩
  | child hnode hhandle _ _ => exact ⟨_, _, hnode, hhandle, rfl⟩

theorem Path.ne_nil : blocks ≠ [] := by
  rcases h.last with ⟨_, _, _, _, rfl⟩
  simp

theorem Path.det (h' : Path t handle others) : blocks = others := by
  induction h generalizing others with
  | root hnode hhandle hparent =>
    cases h' with
    | root hnode' hhandle' _ =>
      cases hnode.det hnode' (hhandle.trans hhandle'.symm)
      rfl
    | child hnode' hhandle' hparent' _ =>
      cases hnode.det hnode' (hhandle.trans hhandle'.symm)
      rw [hparent] at hparent'
      cases hparent'
  | child hnode hhandle hparent _ ih =>
    cases h' with
    | root hnode' hhandle' hparent' =>
      cases hnode.det hnode' (hhandle.trans hhandle'.symm)
      rw [hparent] at hparent'
      cases hparent'
    | child hnode' hhandle' hparent' habove' =>
      cases hnode.det hnode' (hhandle.trans hhandle'.symm)
      rw [hparent] at hparent'
      cases hparent'
      rw [ih habove']

theorem Path.cut {cut} (hcut : cut <+: blocks) (hne : cut ≠ []) :
    exists above, Path t above cut := by
  induction h with
  | root hnode hhandle hparent =>
    rcases List.prefix_cons_iff.mp hcut with hnil | ⟨_, heq, hrest⟩
    · exact absurd hnil hne
    · rw [heq, List.prefix_nil.mp hrest]
      exact ⟨_, .root hnode hhandle hparent⟩
  | child hnode hhandle hparent habove ih =>
    rcases List.prefix_concat_iff.mp hcut with heq | hshort
    · rw [heq]
      exact ⟨_, .child hnode hhandle hparent habove⟩
    · exact ih hshort

end

/-- Every block of `t` is a block of `u`, up to what publication leaves open. -/
def Within (t u : PrefixOwnershipTable) : Prop :=
  forall x, t.Holds x -> exists y, u.Holds y ∧ y.core = x.core

theorem Within.refl (t : PrefixOwnershipTable) : Within t t :=
  fun x hx => ⟨x, hx, rfl⟩

theorem Within.trans (h : Within t u) (h' : Within u v) : Within t v := by
  intro x hx
  rcases h x hx with ⟨y, hy, hcore⟩
  rcases h' y hy with ⟨z, hz, hcore'⟩
  exact ⟨z, hz, hcore'.trans hcore⟩

theorem Path.mono (h : Path t handle blocks) (hwithin : Within t u) : Path u handle blocks := by
  induction h with
  | root hnode hhandle hparent =>
    rcases hwithin _ hnode with ⟨y, hy, hcore⟩
    rw [<- hcore]
    exact .root hy ((handle_of_core hcore).trans hhandle) ((parent_of_core hcore).trans hparent)
  | child hnode hhandle hparent _ ih =>
    rcases hwithin _ hnode with ⟨y, hy, hcore⟩
    rw [<- hcore]
    exact .child hy ((handle_of_core hcore).trans hhandle) ((parent_of_core hcore).trans hparent) ih

/-!
## Well-formed tables
-/

/-- The links of the table and the identities along them. -/
structure TableOk (sha256 : List UInt8 -> Digest) (pageSize : Nat) (t : PrefixOwnershipTable) :
    Prop where
  filed : forall index node, t.nodes.slot index = some node ->
    node.handle = Handle.first .prefixNode index ∧ index < t.nextHandleIndex
  indexed : forall identity index, t.identityToIndex.lookup identity = some index <->
    exists node, t.nodes.slot index = some node ∧ node.identity = identity
  rooted : forall node, t.Holds node -> node.parent = none ->
    exists seed, contextSeed sha256 node.identity.context pageSize = .ok seed ∧
      identityForBlock sha256 node.identity.context seed 0 node.blockTokenIds pageSize =
        .ok node.identity
  linked : forall node parent, t.Holds node -> node.parent = some parent ->
    exists above, t.Holds above ∧ above.handle = parent ∧
      above.handle.index < node.handle.index ∧ node.handle ∈ above.children ∧
      above.identity.context = node.identity.context ∧
      above.blockTokenIds.length = pageSize ∧
      identityForBlock sha256 node.identity.context above.identity.digest
        (above.identity.blockIndex + 1) node.blockTokenIds pageSize = .ok node.identity
  listed : forall node child, t.Holds node -> child ∈ node.children ->
    exists below, t.Holds below ∧ below.handle = child ∧ below.parent = some node.handle
  distinct : forall node, t.Holds node -> node.children.Nodup

/-- A leaf is kept by a terminal reference, with one exception at most. -/
def Retained (t : PrefixOwnershipTable) (except : Option PrefixHandle) : Prop :=
  forall node, t.Holds node -> except ≠ some node.handle -> node.children = [] ->
    0 < node.terminalRefs

namespace TableOk

variable {sha256 : List UInt8 -> Digest} {pageSize : Nat}

section

variable (hok : TableOk sha256 pageSize t)
include hok

theorem holds (h : t.nodes.slot index = some node) : t.Holds node ∧ node.handle.index = index := by
  have hhandle := (hok.filed index node h).1
  unfold Holds
  rw [hhandle]
  exact ⟨h, rfl⟩

theorem handle_lt (h : t.Holds node) : node.handle.index < t.nextHandleIndex :=
  (hok.filed _ node h).2

theorem handle_eq (h : t.Holds node) : node.handle = Handle.first .prefixNode node.handle.index :=
  (hok.filed _ node h).1

theorem handle_inj (hx : t.Holds x) (hy : t.Holds y) (h : x.handle.index = y.handle.index) :
    x = y := by
  refine hx.det hy ?_
  rw [hok.handle_eq hx, hok.handle_eq hy, h]

theorem identity_inj (hx : t.Holds x) (hy : t.Holds y) (h : x.identity = y.identity) : x = y := by
  have hleft := (hok.indexed x.identity x.handle.index).mpr ⟨x, hx, rfl⟩
  have hright := (hok.indexed x.identity y.handle.index).mpr ⟨y, hy, h.symm⟩
  rw [hleft] at hright
  exact hok.handle_inj hx hy (Option.some.inj hright)

theorem find_of_holds (h : t.Holds node) : t.find node.identity = .ok (some node) := by
  unfold find
  rw [(hok.indexed node.identity node.handle.index).mpr ⟨node, h, rfl⟩]
  have hslot : t.nodes.slot node.handle.index = some node := h
  simp [hslot]

/-- A lookup finds the block of an identity or reports that there is none. -/
theorem find_cases (identity : PrefixBlockIdentity) :
    (exists node, t.Holds node ∧ node.identity = identity ∧ t.find identity = .ok (some node)) ∨
      (t.find identity = .ok none ∧ t.identityToIndex.lookup identity = none ∧
        forall node, t.Holds node -> node.identity ≠ identity) := by
  cases hlookup : t.identityToIndex.lookup identity with
  | some index =>
    rcases (hok.indexed identity index).mp hlookup with ⟨node, hslot, rfl⟩
    exact .inl ⟨node, (hok.holds hslot).1, rfl, hok.find_of_holds (hok.holds hslot).1⟩
  | none =>
    refine .inr ⟨?_, rfl, ?_⟩
    · unfold find
      rw [hlookup]
    · intro node hnode hidentity
      have hfound := (hok.indexed identity node.handle.index).mpr ⟨node, hnode, hidentity⟩
      rw [hlookup] at hfound
      cases hfound

theorem exists_path (h : t.Holds node) : exists blocks, Path t node.handle blocks := by
  generalize hindex : node.handle.index = index
  induction index using Nat.strong_induction_on generalizing node with
  | _ index ih =>
    cases hparent : node.parent with
    | none => exact ⟨_, .root h rfl hparent⟩
    | some parent =>
      rcases hok.linked node parent h hparent with ⟨above, habove, rfl, hlt, _⟩
      rcases ih above.handle.index (hindex ▸ hlt) habove rfl with ⟨blocks, hpath⟩
      exact ⟨_, .child h rfl hparent hpath⟩

section

variable (hpath : Path t handle blocks)
include hpath

/-- One context along a chain, and the position of its last block. -/
theorem path_context (h : t.Holds node) (hhandle : node.handle = handle) :
    (forall block, block ∈ blocks -> block.identity.context = node.identity.context) ∧
      node.identity.blockIndex + 1 = blocks.length := by
  induction hpath generalizing node with
  | root hnode hhandle' hparent =>
    cases hnode.det h (hhandle'.trans hhandle.symm)
    rcases hok.rooted _ h hparent with ⟨_, _, hidentity⟩
    refine ⟨?_, ?_⟩
    · intro block hblock
      rw [List.mem_singleton.mp hblock]
      rfl
    · rcases (identityForBlock_eq_ok_iff sha256).mp hidentity with ⟨_, _, _, _, _, hindex, _⟩
      rw [hindex]
      rfl
  | child hnode hhandle' hparent _ ih =>
    cases hnode.det h (hhandle'.trans hhandle.symm)
    rcases hok.linked _ _ h hparent with ⟨_, habove, hup, _, _, hcontext, _, hidentity⟩
    rcases ih habove hup with ⟨hall, hlength⟩
    refine ⟨?_, ?_⟩
    · intro block hblock
      rcases List.mem_append.mp hblock with hin | hlast
      · rw [hall block hin, hcontext]
      · rw [List.mem_singleton.mp hlast]
        rfl
    · rcases (identityForBlock_eq_ok_iff sha256).mp hidentity with ⟨_, _, _, _, _, hindex, _⟩
      rw [hindex, hlength, List.length_append]
      rfl

/-- Blocks above the last one are complete, and there are no more than the index
of the handle allows. -/
theorem path_full : blocks.length ≤ handle.index + 1 ∧
      forall block, block ∈ blocks.dropLast -> block.blockTokenIds.length = pageSize := by
  induction hpath with
  | root hnode hhandle hparent => simp
  | child hnode hhandle hparent habove ih =>
    rcases hok.linked _ _ hnode hparent with ⟨_, hup, hparent', hlt, _, _, hfull, _⟩
    rcases habove.last with ⟨last, before, hlast, hlastHandle, heq⟩
    refine ⟨?_, ?_⟩
    · rw [hhandle, hparent'] at hlt
      simp only [List.length_append, List.length_singleton]
      omega
    · intro block hblock
      rw [List.dropLast_concat, heq] at hblock
      rcases List.mem_append.mp hblock with hin | hself
      · refine ih.2 block ?_
        rw [heq, List.dropLast_concat]
        exact hin
      · cases hlast.det hup (hlastHandle.trans hparent'.symm)
        rw [List.mem_singleton.mp hself]
        exact hfull

/-- The identities along a chain are those of its token blocks. -/
theorem path_identities (h : t.Holds node) (hhandle : node.handle = handle) :
    buildIdentities sha256 (blocks.map PrefixOwnershipNode.blockTokenIds) pageSize
        node.identity.context = .ok (blocks.map PrefixOwnershipNode.identity) := by
  unfold buildIdentities
  rw [except_bind_eq_ok_iff]
  induction hpath generalizing node with
  | root hnode hhandle' hparent =>
    cases hnode.det h (hhandle'.trans hhandle.symm)
    rcases hok.rooted _ h hparent with ⟨seed, hseed, hidentity⟩
    refine ⟨seed, hseed, ?_⟩
    exact (chainIdentities_cons sha256 ..).mpr
      ⟨fun hne => absurd rfl hne, _, [], hidentity, rfl, rfl⟩
  | child hnode hhandle' hparent habove ih =>
    cases hnode.det h (hhandle'.trans hhandle.symm)
    rcases hok.linked _ _ h hparent with ⟨up, hup, hparent', _, _, hcontext, hfull, hidentity⟩
    rcases ih hup hparent' with ⟨seed, hseed, hchain⟩
    rw [hcontext] at hseed hchain
    have hposition := (hok.path_context habove hup hparent').2
    rcases habove.last with ⟨last, before, hlast, hlastHandle, rfl⟩
    cases hlast.det hup (hlastHandle.trans hparent'.symm)
    refine ⟨seed, hseed, ?_⟩
    have hmap : forall {beta : Type} (f : PrefixOwnershipNode -> beta)
        (x : PrefixOwnershipNode), (before ++ [up.core] ++ [x]).map f =
          (before ++ [up.core]).map f ++ [f x] := fun f x => List.map_append
    rw [hmap, hmap]
    refine chainIdentities_concat sha256 hchain ?_ ?_
    · intro _ htokens
      rcases List.mem_map.mp htokens with ⟨block, hblock, rfl⟩
      rcases List.mem_append.mp hblock with hin | hself
      · refine (hok.path_full habove).2 block ?_
        rw [List.dropLast_concat]
        exact hin
      · rw [List.mem_singleton.mp hself]
        exact hfull
    · rw [List.length_map, <- hposition, Nat.zero_add]
      simpa [List.getLast?_append] using hidentity

end

end

theorem chainUp_run (hpath : Path t handle blocks) (hfuel : blocks.length ≤ fuel)
    (below : List PrefixOwnershipNode) :
    exists nodes, t.chainUp fuel handle below = .ok (nodes ++ below) ∧
      nodes.map PrefixOwnershipNode.core = blocks ∧ forall x, x ∈ nodes -> t.Holds x := by
  induction hpath generalizing fuel below with
  | root hnode hhandle hparent =>
    cases fuel with
    | zero => cases hfuel
    | succ fuel =>
      refine ⟨[_], ?_, rfl, ?_⟩
      · rw [chainUp, <- hhandle, hnode.get]
        simp only [bind, Except.bind, hparent]
        rfl
      · intro x hx
        rw [List.mem_singleton.mp hx]
        exact hnode
  | @child node handle parent above hnode hhandle hparent _ ih =>
    cases fuel with
    | zero => simp at hfuel
    | succ fuel =>
      rw [List.length_append, List.length_singleton] at hfuel
      rcases ih (Nat.le_of_succ_le_succ hfuel) (node :: below) with ⟨nodes, hrun, hcores, hall⟩
      refine ⟨nodes ++ [node], ?_, ?_, ?_⟩
      · rw [chainUp, <- hhandle, hnode.get]
        simp only [bind, Except.bind, hparent]
        rw [hrun, List.append_assoc]
        rfl
      · rw [List.map_append, hcores]
        rfl
      · intro x hx
        rcases List.mem_append.mp hx with hin | hself
        · exact hall x hin
        · rw [List.mem_singleton.mp hself]
          exact hnode

section

variable (hok : TableOk sha256 pageSize t)
include hok

theorem chain_run (hpath : Path t handle blocks) : exists nodes, t.chain handle = .ok nodes ∧
      nodes.map PrefixOwnershipNode.core = blocks ∧ forall x, x ∈ nodes -> t.Holds x := by
  rcases chainUp_run hpath (hok.path_full hpath).1 [] with ⟨nodes, hrun, hnodes⟩
  rw [List.append_nil] at hrun
  exact ⟨nodes, hrun, hnodes⟩

theorem exists_leaf (h : t.Holds node) (hpath : Path t node.handle blocks) :
    exists leaf rest, t.Holds leaf ∧ leaf.children = [] ∧ Path t leaf.handle (blocks ++ rest) := by
  generalize hdepth : t.nextHandleIndex - node.handle.index = depth
  induction depth using Nat.strong_induction_on generalizing node blocks with
  | _ depth ih =>
    cases hchildren : node.children with
    | nil =>
      refine ⟨node, [], h, hchildren, ?_⟩
      rw [List.append_nil]
      exact hpath
    | cons child others =>
      rcases hok.listed node child h (by simp [hchildren]) with ⟨below, hbelow, _, hparent⟩
      rcases hok.linked below _ hbelow hparent with ⟨up, hup, hupHandle, hlt, _⟩
      cases hup.det h hupHandle
      have hbound := hok.handle_lt hbelow
      have hnext := Path.child hbelow rfl hparent hpath
      rcases ih (t.nextHandleIndex - below.handle.index) (by omega) hbelow hnext rfl with
        ⟨leaf, rest, hleaf, hchildren, hrest⟩
      refine ⟨leaf, below.core :: rest, hleaf, hchildren, ?_⟩
      rw [List.append_assoc] at hrest
      exact hrest

theorem exists_terminal (hretained : Retained t none) (h : t.Holds node)
    (hpath : Path t node.handle blocks) :
    exists terminal rest, t.Holds terminal ∧ 0 < terminal.terminalRefs ∧
      Path t terminal.handle (blocks ++ rest) := by
  rcases hok.exists_leaf h hpath with ⟨leaf, rest, hleaf, hchildren, hrest⟩
  exact ⟨leaf, rest, hleaf, hretained leaf hleaf (by simp) hchildren, hrest⟩

end

end TableOk

/-!
## Retainers and access times
-/

/-- What retention and access leave alone. -/
def shape (node : PrefixOwnershipNode) : PrefixOwnershipNode :=
  { node with terminalRefs := 0, lastAccess := 0 }

theorem core_of_shape (h : shape x = shape y) : x.core = y.core := by
  show (shape x).core = (shape y).core
  rw [h]

theorem children_of_shape (h : shape x = shape y) : x.children = y.children := by
  show (shape x).children = (shape y).children
  rw [h]

/-- The tables differ in retainers, access times and the clock only. -/
structure SameShape (t u : PrefixOwnershipTable) : Prop where
  index : u.identityToIndex = t.identityToIndex
  next : u.nextHandleIndex = t.nextHandleIndex
  slots : forall index, (u.nodes.slot index).map shape = (t.nodes.slot index).map shape

namespace SameShape

theorem refl (t : PrefixOwnershipTable) : SameShape t t :=
  ⟨rfl, rfl, fun _ => rfl⟩

section

variable (h : SameShape t u)
include h

theorem symm : SameShape u t :=
  ⟨h.index.symm, h.next.symm, fun index => (h.slots index).symm⟩

theorem trans (h' : SameShape u v) : SameShape t v :=
  ⟨h'.index.trans h.index, h'.next.trans h.next,
    fun index => (h'.slots index).trans (h.slots index)⟩

theorem slot {index : Nat} (hx : t.nodes.slot index = some x) :
    exists y, u.nodes.slot index = some y ∧ shape y = shape x := by
  have hslot := h.slots index
  rw [hx, Option.map_some, Option.map_eq_some_iff] at hslot
  exact hslot

theorem holds (hx : t.Holds x) : exists y, u.Holds y ∧ shape y = shape x := by
  rcases h.slot hx with ⟨y, hy, hshape⟩
  refine ⟨y, ?_, hshape⟩
  unfold Holds
  rw [handle_of_core (core_of_shape hshape)]
  exact hy

theorem within : Within t u := by
  intro x hx
  rcases h.holds hx with ⟨y, hy, hshape⟩
  exact ⟨y, hy, core_of_shape hshape⟩

end

end SameShape

theorem sameShape_modifyNode (t : PrefixOwnershipTable) (handle : PrefixHandle)
    {f : PrefixOwnershipNode -> PrefixOwnershipNode} (hf : forall x, shape (f x) = shape x) :
    SameShape t (t.modifyNode handle f) := by
  refine ⟨rfl, rfl, fun index => ?_⟩
  show Option.map shape (update t.nodes.slot handle.index
    ((t.nodes.slot handle.index).map f) index) = _
  by_cases h : index = handle.index
  · rw [h, update_self, Option.map_map]
    congr 1
    exact funext hf
  · rw [update_of_ne h]

theorem TableOk.of_shape {sha256 : List UInt8 -> Digest}
    (hok : TableOk sha256 pageSize t) (hshape : SameShape t u) : TableOk sha256 pageSize u := by
  have hback : forall {x}, u.Holds x -> exists y, t.Holds y ∧ x.core = y.core ∧
      x.children = y.children := by
    intro x hx
    rcases hshape.symm.holds hx with ⟨y, hy, heq⟩
    exact ⟨y, hy, core_of_shape heq.symm, children_of_shape heq.symm⟩
  have hforth : forall {x}, t.Holds x -> exists y, u.Holds y ∧ y.core = x.core ∧
      y.children = x.children := by
    intro x hx
    rcases hshape.holds hx with ⟨y, hy, heq⟩
    exact ⟨y, hy, core_of_shape heq, children_of_shape heq⟩
  constructor
  case filed =>
    intro index x hslot
    rcases hshape.symm.slot hslot with ⟨y, hy, heq⟩
    rw [<- handle_of_core (core_of_shape heq), hshape.next]
    exact hok.filed index y hy
  case indexed =>
    intro _ index
    rw [hshape.index, hok.indexed]
    constructor
    · rintro ⟨x, hx, rfl⟩
      rcases hshape.slot hx with ⟨y, hy, heq⟩
      exact ⟨y, hy, identity_of_core (core_of_shape heq)⟩
    · rintro ⟨x, hx, rfl⟩
      rcases hshape.symm.slot hx with ⟨y, hy, heq⟩
      exact ⟨y, hy, identity_of_core (core_of_shape heq)⟩
  case rooted =>
    intro x hx hparent
    rcases hback hx with ⟨y, hy, hcore, _⟩
    rw [parent_of_core hcore] at hparent
    rw [identity_of_core hcore, block_of_core hcore]
    exact hok.rooted y hy hparent
  case linked =>
    intro x parent hx hparent
    rcases hback hx with ⟨y, hy, hcore, _⟩
    rw [parent_of_core hcore] at hparent
    rcases hok.linked y parent hy hparent with ⟨_, hup, hlink⟩
    rcases hforth hup with ⟨above, habove, hcore', hchildren⟩
    refine ⟨above, habove, ?_⟩
    rw [identity_of_core hcore, block_of_core hcore, handle_of_core hcore, identity_of_core hcore',
      block_of_core hcore', handle_of_core hcore', hchildren]
    exact hlink
  case listed =>
    intro x child hx hchild
    rcases hback hx with ⟨y, hy, hcore, hchildren⟩
    rw [hchildren] at hchild
    rcases hok.listed y child hy hchild with ⟨_, hlow, hhandle, hparent⟩
    rcases hforth hlow with ⟨below, hbelow, hcore', _⟩
    refine ⟨below, hbelow, ?_⟩
    rw [handle_of_core hcore', parent_of_core hcore', handle_of_core hcore]
    exact ⟨hhandle, hparent⟩
  case distinct =>
    intro x hx
    rcases hback hx with ⟨y, hy, _, hchildren⟩
    rw [hchildren]
    exact hok.distinct y hy

/-!
## Publication and its withdrawal
-/

def publish (node : PrefixOwnershipNode) (t : PrefixOwnershipTable) : PrefixOwnershipTable :=
  let entered : PrefixOwnershipTable :=
    { t with
      nodes := t.nodes.put node.handle.index node
      identityToIndex := t.identityToIndex.insert node.identity node.handle.index }
  match node.parent with
  | none => entered
  | some parent => entered.modifyNode parent (PrefixOwnershipNode.addChild node.handle)

section

variable (node other : PrefixOwnershipNode)

/-- What the publication of `node` makes of another node. -/
def joined : PrefixOwnershipNode :=
  if node.parent = some other.handle then other.addChild node.handle else other

/-- What the removal of `node` makes of another node. -/
def parted : PrefixOwnershipNode :=
  if node.parent = some other.handle then
    { other with children := other.children.erase node.handle }
  else
    other

theorem core_joined : (joined node other).core = other.core := by
  unfold joined PrefixOwnershipNode.addChild
  split
  · split
    · rfl
    · rfl
  · rfl

theorem core_parted : (parted node other).core = other.core := by
  unfold parted
  split
  · rfl
  · rfl

end

section Slots

variable {sha256 : List UInt8 -> Digest} {pageSize : Nat}

section

variable (hok : TableOk sha256 pageSize t)
include hok

/-- Rewriting a held node rewrites that node and nothing else. -/
theorem TableOk.slot_modifyNode (hup : t.Holds y) (f : PrefixOwnershipNode -> PrefixOwnershipNode)
    (index : Nat) : (t.modifyNode y.handle f).nodes.slot index =
      (t.nodes.slot index).map fun other => if y.handle = other.handle then f other else other := by
  show update t.nodes.slot y.handle.index ((t.nodes.slot y.handle.index).map f) index = _
  by_cases hindex : index = y.handle.index
  · rw [hindex, update_self, hup]
    simp
  · rw [update_of_ne hindex]
    cases hslot : t.nodes.slot index with
    | none => rfl
    | some other =>
      have hne : y.handle ≠ other.handle := by
        intro heq
        rw [heq, (hok.holds hslot).2] at hindex
        exact hindex rfl
      rw [Option.map_some, if_neg hne]

theorem TableOk.holds_modifyNode (hup : t.Holds y) {f : PrefixOwnershipNode -> PrefixOwnershipNode}
    (hf : forall x, (f x).handle = x.handle) : (t.modifyNode y.handle f).Holds x <->
      exists z, t.Holds z ∧ x = if y.handle = z.handle then f z else z := by
  have hkeep : forall z, (if y.handle = z.handle then f z else z).handle = z.handle := by
    intro z
    split
    · exact hf z
    · rfl
  unfold Holds
  rw [hok.slot_modifyNode hup, Option.map_eq_some_iff]
  constructor
  · rintro ⟨z, hz, rfl⟩
    rw [hkeep] at hz
    exact ⟨z, hz, rfl⟩
  · rintro ⟨z, hz, rfl⟩
    rw [hkeep]
    exact ⟨z, hz, rfl⟩

theorem slot_unpublish (hnode : t.Holds node) (index : Nat) :
    (unpublish node t).nodes.slot index =
      if index = node.handle.index then none else (t.nodes.slot index).map (parted node) := by
  unfold unpublish parted
  cases hparent : node.parent with
  | none =>
    simp only [IndexMap.slot_remove, update_apply, reduceCtorEq, if_false, Option.map_id_fun', id]
  | some parent =>
    rcases hok.linked node parent hnode hparent with ⟨_, hup, rfl, _⟩
    simp only [IndexMap.slot_remove, update_apply, hok.slot_modifyNode hup, Option.some.injEq]

theorem slot_publish (hparent : forall parent, node.parent = some parent ->
      exists up, t.Holds up ∧ up.handle = parent ∧ up.handle.index < node.handle.index)
    (index : Nat) : (publish node t).nodes.slot index =
      if index = node.handle.index then some node else (t.nodes.slot index).map (joined node) := by
  unfold publish joined
  cases hup : node.parent with
  | none =>
    simp only [IndexMap.slot_put, update_apply, reduceCtorEq, if_false, Option.map_id_fun', id]
  | some parent =>
    rcases hparent parent hup with ⟨up, hheld, rfl, _⟩
    have hmodify := hok.slot_modifyNode hheld (PrefixOwnershipNode.addChild node.handle) index
    by_cases hself : index = node.handle.index
    · have hne : index ≠ up.handle.index := by omega
      simp only [modifyNode, IndexMap.slot_modify, IndexMap.slot_put]
      rw [update_of_ne hne, hself, update_self, if_pos rfl]
    · simp only [Option.some.injEq, if_neg hself]
      rw [<- hmodify]
      simp only [modifyNode, IndexMap.slot_modify, IndexMap.slot_put]
      by_cases hindex : index = up.handle.index
      · rw [hindex, update_self, update_self, update_of_ne (by omega)]
      · rw [update_of_ne hindex, update_of_ne hindex, update_of_ne hself]

theorem holds_unpublish (hnode : t.Holds node) : (unpublish node t).Holds x <->
      exists y, t.Holds y ∧ y ≠ node ∧ x = parted node y := by
  unfold Holds
  rw [slot_unpublish hok hnode]
  constructor
  · intro h
    by_cases hself : x.handle.index = node.handle.index
    · rw [if_pos hself] at h
      cases h
    · rw [if_neg hself, Option.map_eq_some_iff] at h
      rcases h with ⟨y, hy, rfl⟩
      refine ⟨y, (hok.holds hy).1, ?_, rfl⟩
      rintro rfl
      exact hself (hok.holds hy).2.symm
  · rintro ⟨y, hy, hne, rfl⟩
    have hhandle := handle_of_core (core_parted node y)
    have hself : y.handle.index ≠ node.handle.index :=
      fun h => hne (hok.handle_inj hy hnode h)
    rw [hhandle, if_neg hself, hy]
    rfl

theorem holds_publish (hfresh : t.nodes.slot node.handle.index = none)
    (hparent : forall parent, node.parent = some parent ->
      exists up, t.Holds up ∧ up.handle = parent ∧ up.handle.index < node.handle.index) :
    (publish node t).Holds x <-> x = node ∨ exists y, t.Holds y ∧ x = joined node y := by
  unfold Holds
  rw [slot_publish hok hparent]
  constructor
  · intro h
    by_cases hself : x.handle.index = node.handle.index
    · rw [if_pos hself] at h
      exact .inl (Option.some.inj h).symm
    · rw [if_neg hself, Option.map_eq_some_iff] at h
      rcases h with ⟨y, hy, rfl⟩
      exact .inr ⟨y, (hok.holds hy).1, rfl⟩
  · rintro (rfl | ⟨y, hy, rfl⟩)
    · rw [if_pos rfl]
    · have hhandle := handle_of_core (core_joined node y)
      have hself : y.handle.index ≠ node.handle.index := by
        intro h
        rw [h, hfresh] at hy
        cases hy
      rw [hhandle, if_neg hself, hy]
      rfl

end

theorem unpublish_index (node : PrefixOwnershipNode) (t : PrefixOwnershipTable) :
    (unpublish node t).identityToIndex = t.identityToIndex.erase node.identity ∧
      (unpublish node t).nextHandleIndex = t.nextHandleIndex := by
  unfold unpublish
  cases node.parent with
  | none => exact ⟨rfl, rfl⟩
  | some parent => exact ⟨rfl, rfl⟩

theorem publish_index (node : PrefixOwnershipNode) (t : PrefixOwnershipTable) :
    (publish node t).identityToIndex = t.identityToIndex.insert node.identity node.handle.index ∧
      (publish node t).nextHandleIndex = t.nextHandleIndex := by
  unfold publish
  cases node.parent with
  | none => exact ⟨rfl, rfl⟩
  | some parent => exact ⟨rfl, rfl⟩

theorem nodup_joined_children (h : y.children.Nodup) : (joined node y).children.Nodup := by
  unfold joined PrefixOwnershipNode.addChild
  split
  · split
    · exact h
    · next hin =>
      refine List.nodup_append.mpr ⟨h, List.nodup_singleton _, ?_⟩
      intro _ ha _ hb heq
      rw [heq, List.mem_singleton.mp hb] at ha
      exact hin ha
  · exact h

theorem mem_parted_children (hok : TableOk sha256 pageSize t) (hy : t.Holds y) :
    child ∈ (parted node y).children <->
      child ∈ y.children ∧ ¬ (node.parent = some y.handle ∧ child = node.handle) := by
  unfold parted
  by_cases h : node.parent = some y.handle
  · rw [if_pos h]
    simp only [(hok.distinct y hy).mem_erase_iff, h, true_and, and_comm]
  · simp [h]

theorem mem_joined_children :
    child ∈ (joined node y).children <->
      child ∈ y.children ∨ (node.parent = some y.handle ∧ child = node.handle) := by
  unfold joined PrefixOwnershipNode.addChild
  by_cases h : node.parent = some y.handle
  · by_cases hin : node.handle ∈ y.children
    · simp only [h, hin, if_true, true_and]
      constructor
      · exact .inl
      · rintro (hc | rfl)
        · exact hc
        · exact hin
    · simp [h, hin]
  · simp [h]

theorem TableOk.unpublish (hok : TableOk sha256 pageSize t) (hnode : t.Holds node)
    (hleaf : node.children = []) : TableOk sha256 pageSize (unpublish node t) := by
  have hholds := fun {x} => holds_unpublish (x := x) hok hnode
  have hcore : forall y, (parted node y).core = y.core := core_parted node
  constructor
  case filed =>
    intro index x hslot
    rw [slot_unpublish hok hnode] at hslot
    by_cases hself : index = node.handle.index
    · rw [if_pos hself] at hslot
      cases hslot
    · rw [if_neg hself, Option.map_eq_some_iff] at hslot
      rcases hslot with ⟨y, hy, rfl⟩
      rw [handle_of_core (hcore y), (unpublish_index node t).2]
      exact hok.filed index y hy
  case indexed =>
    intro identity index
    rw [(unpublish_index node t).1, slot_unpublish hok hnode]
    by_cases hidentity : identity = node.identity
    · rw [hidentity, AList.lookup_erase]
      constructor
      · intro h
        cases h
      · rintro ⟨x, hslot, hx⟩
        by_cases hself : index = node.handle.index
        · rw [if_pos hself] at hslot
          cases hslot
        · rw [if_neg hself, Option.map_eq_some_iff] at hslot
          rcases hslot with ⟨y, hy, rfl⟩
          rw [identity_of_core (hcore y)] at hx
          cases hok.identity_inj (hok.holds hy).1 hnode hx
          exact absurd (hok.holds hy).2.symm hself
    · rw [AList.lookup_erase_ne hidentity, hok.indexed]
      by_cases hself : index = node.handle.index
      · have hslot : t.nodes.slot node.handle.index = some node := hnode
        simp only [hself, if_true, hslot, Option.some.injEq, exists_eq_left', reduceCtorEq,
          false_and, exists_false, iff_false]
        exact fun h => hidentity h.symm
      · rw [if_neg hself]
        constructor
        · rintro ⟨y, hy, hx⟩
          refine ⟨parted node y, by rw [hy]; rfl, ?_⟩
          rw [identity_of_core (hcore y), hx]
        · rintro ⟨x, hx, hxid⟩
          rcases Option.map_eq_some_iff.mp hx with ⟨y, hy, rfl⟩
          rw [identity_of_core (hcore y)] at hxid
          exact ⟨y, hy, hxid⟩
  case rooted =>
    intro x hx hparent
    rcases hholds.mp hx with ⟨y, hy, _, rfl⟩
    rw [parent_of_core (hcore y)] at hparent
    rw [identity_of_core (hcore y), block_of_core (hcore y)]
    exact hok.rooted y hy hparent
  case linked =>
    intro x parent hx hparent
    rcases hholds.mp hx with ⟨y, hy, hne, rfl⟩
    rw [parent_of_core (hcore y)] at hparent
    rcases hok.linked y parent hy hparent with ⟨up, hup, hhandle, hlt, hchild, hlink⟩
    have hupne : up ≠ node := by
      rintro rfl
      rw [hleaf] at hchild
      cases hchild
    refine ⟨parted node up, hholds.mpr ⟨up, hup, hupne, rfl⟩, ?_⟩
    rw [identity_of_core (hcore y), block_of_core (hcore y), handle_of_core (hcore y),
      identity_of_core (hcore up), block_of_core (hcore up), handle_of_core (hcore up),
      mem_parted_children hok hup]
    refine ⟨hhandle, hlt, ⟨hchild, ?_⟩, hlink⟩
    rintro ⟨_, hsame⟩
    exact hne (hy.det hnode hsame)
  case listed =>
    intro x child hx hchild
    rcases hholds.mp hx with ⟨y, hy, _, rfl⟩
    rw [mem_parted_children hok hy] at hchild
    rcases hok.listed y child hy hchild.1 with ⟨low, hlow, hhandle, hparent⟩
    have hlowne : low ≠ node := by
      rintro rfl
      exact hchild.2 ⟨hparent, hhandle.symm⟩
    refine ⟨parted node low, hholds.mpr ⟨low, hlow, hlowne, rfl⟩, ?_⟩
    rw [handle_of_core (hcore low), parent_of_core (hcore low), handle_of_core (hcore y)]
    exact ⟨hhandle, hparent⟩
  case distinct =>
    intro x hx
    rcases hholds.mp hx with ⟨y, hy, _, rfl⟩
    unfold parted
    split
    · exact (hok.distinct y hy).erase _
    · exact hok.distinct y hy

/-- What `_insert_blocks` plans: a new leaf below a complete block of the chain. -/
structure Publishable (sha256 : List UInt8 -> Digest) (pageSize : Nat)
    (t : PrefixOwnershipTable) (node : PrefixOwnershipNode) : Prop where
  fresh : t.nodes.slot node.handle.index = none
  filed : node.handle = Handle.first .prefixNode node.handle.index
  lt : node.handle.index < t.nextHandleIndex
  unknown : t.identityToIndex.lookup node.identity = none
  leaf : node.children = []
  rooted : node.parent = none ->
    exists seed, contextSeed sha256 node.identity.context pageSize = .ok seed ∧
      identityForBlock sha256 node.identity.context seed 0 node.blockTokenIds pageSize =
        .ok node.identity
  linked : forall parent, node.parent = some parent ->
    exists above, t.Holds above ∧ above.handle = parent ∧
      above.handle.index < node.handle.index ∧
      above.identity.context = node.identity.context ∧
      above.blockTokenIds.length = pageSize ∧
      identityForBlock sha256 node.identity.context above.identity.digest
        (above.identity.blockIndex + 1) node.blockTokenIds pageSize = .ok node.identity

theorem Publishable.above (h : Publishable sha256 pageSize t node) (parent : PrefixHandle)
    (hparent : node.parent = some parent) :
    exists up, t.Holds up ∧ up.handle = parent ∧ up.handle.index < node.handle.index := by
  rcases h.linked parent hparent with ⟨up, hup, hhandle, hlt, _⟩
  exact ⟨up, hup, hhandle, hlt⟩

section

variable (hok : TableOk sha256 pageSize t)
include hok

theorem indexed_publish (hnew : Publishable sha256 pageSize t node)
    (identity : PrefixBlockIdentity) (index : Nat) :
    (publish node t).identityToIndex.lookup identity = some index <->
      exists x, (publish node t).nodes.slot index = some x ∧ x.identity = identity := by
  rw [(publish_index node t).1, slot_publish hok hnew.above]
  by_cases hidentity : identity = node.identity
  · rw [hidentity, AList.lookup_insert]
    constructor
    · intro h
      cases h
      exact ⟨node, by rw [if_pos rfl], rfl⟩
    · rintro ⟨x, hslot, hx⟩
      by_cases hindex : index = node.handle.index
      · rw [hindex]
      · rw [if_neg hindex, Option.map_eq_some_iff] at hslot
        rcases hslot with ⟨y, hy, rfl⟩
        rw [identity_of_core (core_joined node y)] at hx
        have hknown := (hok.indexed node.identity index).mpr ⟨y, hy, hx⟩
        rw [hnew.unknown] at hknown
        cases hknown
  · rw [AList.lookup_insert_ne hidentity, hok.indexed]
    by_cases hindex : index = node.handle.index
    · rw [hindex, hnew.fresh, if_pos rfl]
      constructor
      · rintro ⟨_, h, _⟩
        cases h
      · rintro ⟨_, h, hx⟩
        cases h
        exact absurd hx.symm hidentity
    · rw [if_neg hindex]
      constructor
      · rintro ⟨y, hy, hx⟩
        refine ⟨joined node y, by rw [hy]; rfl, ?_⟩
        rw [identity_of_core (core_joined node y), hx]
      · rintro ⟨x, hx, hxid⟩
        rcases Option.map_eq_some_iff.mp hx with ⟨y, hy, rfl⟩
        rw [identity_of_core (core_joined node y)] at hxid
        exact ⟨y, hy, hxid⟩

theorem TableOk.publish (hnew : Publishable sha256 pageSize t node) :
    TableOk sha256 pageSize (publish node t) := by
  have hholds := fun {x} => holds_publish (x := x) hok hnew.fresh hnew.above
  have hcore : forall y, (joined node y).core = y.core := core_joined node
  have hself : (PrefixOwnershipTable.publish node t).Holds node := hholds.mpr (.inl rfl)
  have hother : forall y, t.Holds y ->
      (PrefixOwnershipTable.publish node t).Holds (joined node y) :=
    fun y hy => hholds.mpr (.inr ⟨y, hy, rfl⟩)
  constructor
  case filed =>
    intro index x hslot
    rw [slot_publish hok hnew.above] at hslot
    rw [(publish_index node t).2]
    by_cases hindex : index = node.handle.index
    · rw [if_pos hindex] at hslot
      cases hslot
      rw [hindex]
      exact ⟨hnew.filed, hnew.lt⟩
    · rw [if_neg hindex, Option.map_eq_some_iff] at hslot
      rcases hslot with ⟨y, hy, rfl⟩
      rw [handle_of_core (hcore y)]
      exact hok.filed index y hy
  case indexed => exact indexed_publish hok hnew
  case rooted =>
    intro x hx hparent
    rcases hholds.mp hx with rfl | ⟨y, hy, rfl⟩
    · exact hnew.rooted hparent
    · rw [parent_of_core (hcore y)] at hparent
      rw [identity_of_core (hcore y), block_of_core (hcore y)]
      exact hok.rooted y hy hparent
  case linked =>
    intro x parent hx hparent
    rcases hholds.mp hx with rfl | ⟨y, hy, rfl⟩
    · rcases hnew.linked parent hparent with ⟨up, hup, hhandle, hlt, hlink⟩
      refine ⟨joined x up, hother up hup, ?_⟩
      rw [identity_of_core (hcore up), block_of_core (hcore up), handle_of_core (hcore up),
        mem_joined_children]
      exact ⟨hhandle, hlt, .inr ⟨hhandle ▸ hparent, rfl⟩, hlink⟩
    · rw [parent_of_core (hcore y)] at hparent
      rcases hok.linked y parent hy hparent with ⟨up, hup, hhandle, hlt, hchild, hlink⟩
      refine ⟨joined node up, hother up hup, ?_⟩
      rw [identity_of_core (hcore y), block_of_core (hcore y), handle_of_core (hcore y),
        identity_of_core (hcore up), block_of_core (hcore up), handle_of_core (hcore up),
        mem_joined_children]
      exact ⟨hhandle, hlt, .inl hchild, hlink⟩
  case listed =>
    intro x child hx hchild
    rcases hholds.mp hx with rfl | ⟨y, hy, rfl⟩
    · rw [hnew.leaf] at hchild
      cases hchild
    · rw [handle_of_core (hcore y)]
      rcases mem_joined_children.mp hchild with hold | ⟨hparent, rfl⟩
      · rcases hok.listed y child hy hold with ⟨low, hlow, hhandle, hparent⟩
        refine ⟨joined node low, hother low hlow, ?_⟩
        rw [handle_of_core (hcore low), parent_of_core (hcore low)]
        exact ⟨hhandle, hparent⟩
      · exact ⟨node, hself, rfl, hparent⟩
  case distinct =>
    intro x hx
    rcases hholds.mp hx with rfl | ⟨y, hy, rfl⟩
    · rw [hnew.leaf]
      exact List.nodup_nil
    · exact nodup_joined_children (hok.distinct y hy)

theorem within_unpublish (hnode : t.Holds node) : Within (unpublish node t) t := by
  intro x hx
  rcases (holds_unpublish hok hnode).mp hx with ⟨y, hy, _, rfl⟩
  exact ⟨y, hy, (core_parted node y).symm⟩

/-- Only the parent of a leaf that went can have lost its last child. -/
theorem Retained.unpublish (hnode : t.Holds node) (h : Retained t (some node.handle)) :
    Retained (unpublish node t) node.parent := by
  intro x hx hexcept hleaf
  rcases (holds_unpublish hok hnode).mp hx with ⟨y, hy, hne, rfl⟩
  rw [handle_of_core (core_parted node y)] at hexcept
  unfold parted at hleaf ⊢
  rw [if_neg hexcept] at hleaf ⊢
  refine h y hy ?_ hleaf
  intro heq
  exact hne (hy.det hnode (Option.some.inj heq).symm)

end

end Slots

end PrefixOwnershipTable
end Prefix
end Ayaka
