import Ayaka.Prefix.StoreRuns

/-!
# Planned chains

The blocks an insertion does not know become a fresh chain of nodes below the
known ones.  Published leaf by leaf, the plan grows the table by unretained blocks
only, and the digest path of the whole chain may join the radix index.
-/

namespace Ayaka
namespace Prefix

open Foundation Memory PageAllocator

namespace PrefixOwnershipTable

open RadixForest
open PrefixOwnershipNode (handle_of_core identity_of_core parent_of_core)
open PrefixOwnershipNode (addChild core handle identity step)

variable {t u : PrefixOwnershipTable} {node x y : PrefixOwnershipNode}
variable {sha256 : List UInt8 -> Digest} {pageSize : Nat}
variable {added : List PrefixOwnershipNode}

/-!
## Publishing a plan
-/

/-- The table has grown by unretained blocks. -/
structure Grew (sha256 : List UInt8 -> Digest) (pageSize : Nat) (t u : PrefixOwnershipTable)
    (added : List PrefixOwnershipNode) : Prop where
  table : TableOk sha256 pageSize u
  old : forall y, t.Holds y -> exists x, u.Holds x ∧ x.core = y.core ∧
    x.terminalRefs = y.terminalRefs ∧ y.children ⊆ x.children
  new : forall n, n ∈ added -> exists x, u.Holds x ∧ x.core = n.core ∧ x.terminalRefs = 0
  only : forall x, u.Holds x ->
    (exists y, t.Holds y ∧ y.core = x.core) ∨ exists n, n ∈ added ∧ n.core = x.core
  pages : List.Perm u.pages (added.map PrefixOwnershipNode.page ++ t.pages)
  handles : u.nextHandleIndex = t.nextHandleIndex

theorem Grew.refl (hok : TableOk sha256 pageSize t) : Grew sha256 pageSize t t [] where
  table := hok
  old := fun y hy => ⟨y, hy, rfl, rfl, List.Subset.refl _⟩
  new := fun n hn => by cases hn
  only := fun x hx => .inl ⟨x, hx, rfl⟩
  pages := List.Perm.refl _
  handles := rfl

theorem Grew.within (h : Grew sha256 pageSize t u added) : Within t u := by
  intro y hy
  rcases h.old y hy with ⟨x, hx, hcore, _⟩
  exact ⟨x, hx, hcore⟩

theorem joined_keeps (node other : PrefixOwnershipNode) :
    (joined node other).terminalRefs = other.terminalRefs ∧
      other.children ⊆ (joined node other).children := by
  refine ⟨?_, fun child hchild => mem_joined_children.mpr (.inl hchild)⟩
  unfold joined addChild
  split
  · split
    · rfl
    · rfl
  · rfl

theorem Grew.publish (h : Grew sha256 pageSize t u added)
    (hnew : Publishable sha256 pageSize u node) (hrefs : node.terminalRefs = 0) :
    Grew sha256 pageSize t (publish node u) (node :: added) := by
  have hholds := fun {x} => holds_publish (x := x) h.table hnew.fresh hnew.above
  have hkeep : forall x, u.Holds x -> exists z, (PrefixOwnershipTable.publish node u).Holds z ∧
      z.core = x.core ∧ z.terminalRefs = x.terminalRefs ∧ x.children ⊆ z.children := by
    intro x hx
    exact ⟨joined node x, hholds.mpr (.inr ⟨x, hx, rfl⟩), core_joined node x, joined_keeps node x⟩
  constructor
  case table => exact h.table.publish hnew
  case old =>
    intro y hy
    rcases h.old y hy with ⟨x, hx, hcore, hterminal, hchildren⟩
    rcases hkeep x hx with ⟨z, hz, hcore', hterminal', hchildren'⟩
    exact ⟨z, hz, hcore'.trans hcore, hterminal'.trans hterminal,
      List.Subset.trans hchildren hchildren'⟩
  case new =>
    intro n hn
    rcases List.mem_cons.mp hn with rfl | hin
    · exact ⟨n, hholds.mpr (.inl rfl), rfl, hrefs⟩
    · rcases h.new n hin with ⟨x, hx, hcore, hterminal⟩
      rcases hkeep x hx with ⟨z, hz, hcore', hterminal', _⟩
      exact ⟨z, hz, hcore'.trans hcore, hterminal'.trans hterminal⟩
  case only =>
    intro x hx
    rcases hholds.mp hx with rfl | ⟨y, hy, rfl⟩
    · exact .inr ⟨x, List.mem_cons_self, rfl⟩
    · rw [core_joined]
      rcases h.only y hy with hold | ⟨n, hn, hcore⟩
      · exact .inl hold
      · exact .inr ⟨n, List.mem_cons_of_mem _ hn, hcore⟩
  case pages => exact (pages_publish h.table hnew).trans (h.pages.cons node.page)
  case handles => exact (publish_index node u).2.trans h.handles

def PublishChain (sha256 : List UInt8 -> Digest) (pageSize : Nat) :
    PrefixOwnershipTable -> List PrefixOwnershipNode -> Prop
  | _, [] => True
  | t, node :: rest =>
    Publishable sha256 pageSize t node ∧ node.terminalRefs = 0 ∧
      PublishChain sha256 pageSize (publish node t) rest

def publishAll (planned : List PrefixOwnershipNode) (t : PrefixOwnershipTable) :
    PrefixOwnershipTable :=
  planned.foldl (fun t node => publish node t) t

variable {planned : List PrefixOwnershipNode}

theorem Grew.publishAll (h : Grew sha256 pageSize t u added)
    (hchain : PublishChain sha256 pageSize u planned) :
    Grew sha256 pageSize t (publishAll planned u) (planned.reverse ++ added) := by
  induction planned generalizing u added with
  | nil => exact h
  | cons node rest ih =>
    rcases hchain with ⟨hnew, hrefs, hrest⟩
    have hstep := ih (h.publish hnew hrefs) hrest
    rw [List.reverse_cons, List.append_assoc]
    exact hstep

open RadixPagePrefixCache in
theorem checkPlanned_ok (hok : TableOk sha256 pageSize t) (h : Grew sha256 pageSize t u added)
    (hchain : PublishChain sha256 pageSize u planned) : checkPlanned t added planned = .ok () := by
  induction planned generalizing u added with
  | nil => rfl
  | cons node rest ih =>
    rcases hchain with ⟨hnew, hrefs, hrest⟩
    have hhandle : ¬ (node.handle ∈ added.map handle ∨
        (t.nodes.slot node.handle.index).isSome) := by
      rintro (hin | hslot)
      · rcases List.mem_map.mp hin with ⟨n, hn, hsame⟩
        rcases h.new n hn with ⟨x, hx, hcore, _⟩
        unfold Holds at hx
        rw [handle_of_core hcore, hsame, hnew.fresh] at hx
        cases hx
      · rcases Option.isSome_iff_exists.mp hslot with ⟨y, hy⟩
        rcases h.old y (hok.holds hy).1 with ⟨x, hx, hcore, _⟩
        unfold Holds at hx
        rw [handle_of_core hcore, (hok.holds hy).2, hnew.fresh] at hx
        cases hx
    have hunknown : forall x, u.Holds x -> x.identity ≠ node.identity := by
      intro x hx hsame
      have hknown := (h.table.indexed node.identity x.handle.index).mpr ⟨x, hx, hsame⟩
      rw [hnew.unknown] at hknown
      cases hknown
    have hidentity : ¬ (node.identity ∈ added.map identity ∨
        (t.identityToIndex.lookup node.identity).isSome) := by
      rintro (hin | hlookup)
      · rcases List.mem_map.mp hin with ⟨n, hn, hsame⟩
        rcases h.new n hn with ⟨x, hx, hcore, _⟩
        exact hunknown x hx ((identity_of_core hcore).trans hsame)
      · rcases Option.isSome_iff_exists.mp hlookup with ⟨index, hindex⟩
        rcases (hok.indexed _ _).mp hindex with ⟨y, hy, hsame⟩
        rcases h.old y (hok.holds hy).1 with ⟨x, hx, hcore, _⟩
        exact hunknown x hx ((identity_of_core hcore).trans hsame)
    have hrest' := ih (h.publish hnew hrefs) hrest
    unfold checkPlanned
    rw [if_neg hhandle, if_neg hidentity]
    cases hparent : node.parent with
    | none => exact hrest'
    | some parent =>
      rcases hnew.linked parent hparent with ⟨up, hup, hsame, _⟩
      have hin : parent ∈ (t.nodes.values ++ added).map handle := by
        rcases h.only up hup with ⟨y, hy, hcore⟩ | ⟨n, hn, hcore⟩
        · rw [<- hsame, <- handle_of_core hcore]
          exact List.mem_map_of_mem (List.mem_append_left _ (hok.mem_values.mpr hy))
        · rw [<- hsame, <- handle_of_core hcore]
          exact List.mem_map_of_mem (List.mem_append_right _ hn)
      simp only [hin, not_true_eq_false, if_false]
      exact hrest'

/-!
## The plan
-/

abbrev InsertItem := PrefixBlockIdentity × List TokenId × KVPageHandle

def plan : Nat -> Option PrefixHandle -> List InsertItem -> List PrefixOwnershipNode
  | _, _, [] => []
  | start, parent, (identity, block, page) :: rest =>
    { handle := Handle.first .prefixNode start
      identity
      blockTokenIds := block
      page
      parent } :: plan (start + 1) (some (Handle.first .prefixNode start)) rest

theorem plan_length (start : Nat) (parent : Option PrefixHandle) (items : List InsertItem) :
    (plan start parent items).length = items.length := by
  induction items generalizing start parent with
  | nil => rfl
  | cons item rest ih =>
    rcases item with ⟨_, _, _⟩
    unfold plan
    rw [List.length_cons, ih, List.length_cons]

/-- The items carry the identities that continue a chain at a digest and position. -/
def Continues (sha256 : List UInt8 -> Digest) (context : PrefixCacheContext) (pageSize : Nat)
    (digest : Digest) (position : Nat) (items : List InsertItem) : Prop :=
  chainIdentities sha256 context pageSize digest position (items.map fun item => item.2.1) =
    .ok (items.map Prod.fst)

variable {context : PrefixCacheContext} {digest : Digest} {position : Nat}

theorem continues_cons {identity block page rest}
    (h : Continues sha256 context pageSize digest position ((identity, block, page) :: rest)) :
    (rest ≠ [] -> block.length = pageSize) ∧
      identityForBlock sha256 context digest position block pageSize = .ok identity ∧
      Continues sha256 context pageSize identity.digest (position + 1) rest := by
  unfold Continues at h
  rw [List.map_cons, List.map_cons, chainIdentities_cons] at h
  rcases h with ⟨hfull, head, below, hhead, hbelow, heq⟩
  cases heq
  refine ⟨?_, hhead, hbelow⟩
  intro hne
  exact hfull (by simpa using hne)

section

variable {items : List InsertItem} (h : Continues sha256 context pageSize digest position items)
include h

/-- Identities further down a chain have larger positions, in the one context. -/
theorem Continues.below : forall item, item ∈ items ->
    position ≤ item.1.blockIndex ∧ item.1.context = context := by
  induction items generalizing digest position with
  | nil => simp
  | cons item rest ih =>
    rcases item with ⟨_, _, _⟩
    rcases continues_cons h with ⟨_, hidentity, hrest⟩
    intro other hother
    rcases List.mem_cons.mp hother with rfl | hin
    · rcases (identityForBlock_eq_ok_iff sha256).mp hidentity with ⟨_, _, _, hcontext, _, hindex, _⟩
      exact ⟨Nat.le_of_eq hindex.symm, hcontext⟩
    · exact (ih hrest other hin).imp_left Nat.le_of_succ_le

end

/-- Where a chain goes on: below no block, or below a block of the table. -/
def Anchored (sha256 : List UInt8 -> Digest) (context : PrefixCacheContext) (pageSize : Nat)
    (t : PrefixOwnershipTable) (parent : Option PrefixHandle) (digest : Digest)
    (position : Nat) (full : Prop) : Prop :=
  (parent = none ∧ contextSeed sha256 context pageSize = .ok digest ∧ position = 0) ∨
    exists up, t.Holds up ∧ parent = some up.handle ∧ up.identity.context = context ∧
      up.identity.digest = digest ∧ position = up.identity.blockIndex + 1 ∧
      (full -> up.blockTokenIds.length = pageSize)

variable {parent : Option PrefixHandle}

theorem plan_publishChain (hok : TableOk sha256 pageSize t)
    (hanchor : Anchored sha256 context pageSize t parent digest position (items ≠ []))
    (hitems : Continues sha256 context pageSize digest position items)
    (hfresh : forall index, start ≤ index -> t.nodes.slot index = none)
    (hroom : start + items.length ≤ t.nextHandleIndex)
    (hunknown : forall item, item ∈ items -> t.identityToIndex.lookup item.1 = none) :
    PublishChain sha256 pageSize t (plan start parent items) := by
  induction items generalizing t start parent digest position with
  | nil => trivial
  | cons item rest ih =>
    rcases item with ⟨identity, block, page⟩
    rcases continues_cons hitems with ⟨hfull, hidentity, hrest⟩
    rcases (identityForBlock_eq_ok_iff sha256).mp hidentity with
      ⟨_, message, _, hcontext, _, hindex, _⟩
    rw [List.length_cons] at hroom
    unfold plan
    generalize hnode : (PrefixOwnershipNode.mk (Handle.first .prefixNode start)
      identity block page parent [] 0 0) = node
    have hnew : Publishable sha256 pageSize t node := by
      subst hnode
      constructor
      case fresh => exact hfresh start (Nat.le_refl _)
      case filed => rfl
      case lt => exact Nat.lt_of_lt_of_le (Nat.lt_add_of_pos_right (Nat.succ_pos _)) hroom
      case unknown => exact hunknown _ List.mem_cons_self
      case leaf => rfl
      case rooted =>
        intro hparent
        rcases hanchor with ⟨_, hseed, rfl⟩ | ⟨up, _, hup, _⟩
        · exact ⟨digest, hcontext ▸ hseed, hcontext ▸ hidentity⟩
        · cases hparent.symm.trans hup
      case linked =>
        intro handle hparent
        rcases hanchor with ⟨hnone, _⟩ | ⟨up, hup, hsame, hupContext, rfl, rfl, hupFull⟩
        · cases hparent.symm.trans hnone
        · cases hparent.symm.trans hsame
          refine ⟨up, hup, rfl, ?_, hupContext.trans hcontext.symm, hupFull (by simp),
            hcontext ▸ hidentity⟩
          by_contra hge
          have hslot := hfresh up.handle.index (Nat.not_lt.mp hge)
          unfold Holds at hup
          rw [hslot] at hup
          cases hup
    refine ⟨hnew, by subst hnode; rfl, ?_⟩
    have hholds := fun {x} => holds_publish (x := x) hok hnew.fresh hnew.above
    have hhandle : node.handle = Handle.first .prefixNode start := by
      subst hnode
      rfl
    have hnodeIdentity : node.identity = identity := by
      subst hnode
      rfl
    refine ih (hok.publish hnew) ?_ hrest ?_ ?_ ?_
    · refine .inr ⟨node, hholds.mpr (.inl rfl), by rw [hhandle], ?_, ?_, ?_, ?_⟩
      · rw [hnodeIdentity, hcontext]
      · rw [hnodeIdentity]
      · rw [hnodeIdentity, hindex]
      · subst hnode
        exact hfull
    · intro index _
      have _ : node.handle.index = start := by
        rw [hhandle]
        rfl
      rw [slot_publish hok hnew.above, if_neg (by omega), hfresh index (by omega)]
      rfl
    · rw [(publish_index node t).2]
      omega
    · intro item hitem
      have hne : item.1 ≠ node.identity := by
        intro hsame
        have hposition := (hrest.below item hitem).1
        rw [hsame, hnodeIdentity, hindex] at hposition
        omega
      rw [(publish_index node t).1, AList.lookup_insert_ne hne]
      exact hunknown item (List.mem_cons_of_mem _ hitem)

/-!
## Chains of nodes
-/

/-- The handle a chain goes on below. -/
def lastHandle : Option PrefixHandle -> List PrefixOwnershipNode -> Option PrefixHandle
  | parent, [] => parent
  | _, node :: rest => lastHandle (some node.handle) rest

theorem lastHandle_append (parent : Option PrefixHandle) (xs ys : List PrefixOwnershipNode) :
    lastHandle parent (xs ++ ys) = lastHandle (lastHandle parent xs) ys := by
  induction xs generalizing parent with
  | nil => rfl
  | cons x rest ih => exact ih (some x.handle)

theorem lastHandle_concat (parent : Option PrefixHandle) (xs : List PrefixOwnershipNode)
    (node : PrefixOwnershipNode) : lastHandle parent (xs ++ [node]) = some node.handle := by
  rw [lastHandle_append]
  rfl

inductive ChainIn (t : PrefixOwnershipTable) :
    Option PrefixHandle -> List PrefixOwnershipNode -> Prop where
  | nil (parent : Option PrefixHandle) : ChainIn t parent []
  | cons {parent : Option PrefixHandle} {node : PrefixOwnershipNode}
      {nodes : List PrefixOwnershipNode} (hnode : exists x, t.Holds x ∧ x.core = node.core)
      (hparent : node.parent = parent) (hrest : ChainIn t (some node.handle) nodes) :
      ChainIn t parent (node :: nodes)

variable {nodes : List PrefixOwnershipNode}

theorem ChainIn.mono (h : ChainIn t parent nodes) (hwithin : Within t u) :
    ChainIn u parent nodes := by
  induction h with
  | nil parent => exact .nil parent
  | cons hnode hparent _ ih =>
    rcases hnode with ⟨x, hx, hcore⟩
    rcases hwithin x hx with ⟨y, hy, hcore'⟩
    exact .cons ⟨y, hy, hcore'.trans hcore⟩ hparent ih

theorem ChainIn.holds (h : ChainIn t parent nodes) (hmem : node ∈ nodes) :
    exists x, t.Holds x ∧ x.core = node.core := by
  induction h with
  | nil parent => cases hmem
  | cons hnode _ _ ih =>
    rcases List.mem_cons.mp hmem with rfl | hin
    · exact hnode
    · exact ih hin

theorem ChainIn.append (h : ChainIn t parent xs)
    (h' : ChainIn t (lastHandle parent xs) ys) : ChainIn t parent (xs ++ ys) := by
  induction h with
  | nil parent => exact h'
  | cons hnode hparent _ ih => exact .cons hnode hparent (ih h')

/-- What stands above the next block of a chain. -/
def Above (t : PrefixOwnershipTable) (parent : Option PrefixHandle)
    (blocks : List PrefixOwnershipNode) : Prop :=
  (parent = none ∧ blocks = []) ∨ exists handle, parent = some handle ∧ Path t handle blocks

variable {blocks : List PrefixOwnershipNode}

theorem Above.next (h : Above t parent blocks) (hnode : exists x, t.Holds x ∧ x.core = node.core)
    (hparent : node.parent = parent) : Above t (some node.handle) (blocks ++ [node.core]) := by
  rcases hnode with ⟨x, hx, hcore⟩
  have hhandle := handle_of_core hcore
  have hup := (parent_of_core hcore).trans hparent
  refine .inr ⟨node.handle, rfl, ?_⟩
  rw [<- hcore]
  rcases h with ⟨hnone, rfl⟩ | ⟨handle, hsome, hpath⟩
  · exact .root hx hhandle (hup.trans hnone)
  · exact .child hx hhandle (hup.trans hsome) hpath

/-- Every node of a chain ends the path of the nodes up to it. -/
theorem ChainIn.path (h : ChainIn t parent nodes) (habove : Above t parent blocks)
    (hmem : node ∈ nodes) :
    exists front, front ++ [node] <+: nodes ∧
      Path t node.handle (blocks ++ (front ++ [node]).map core) := by
  induction h generalizing blocks with
  | nil parent => cases hmem
  | @cons parent first nodes hnode hparent _ ih =>
    have hnext := habove.next hnode hparent
    rcases List.mem_cons.mp hmem with rfl | hin
    · refine ⟨[], by simp, ?_⟩
      rcases hnext with ⟨hnone, _⟩ | ⟨handle, hsome, hpath⟩
      · cases hnone
      · cases hsome
        exact hpath
    · rcases ih hnext hin with ⟨front, hfront, hpath⟩
      refine ⟨first :: front, List.cons_prefix_cons.mpr ⟨rfl, hfront⟩, ?_⟩
      rw [List.append_assoc] at hpath
      exact hpath

theorem ChainIn.above (h : ChainIn t parent nodes) (habove : Above t parent blocks) :
    Above t (lastHandle parent nodes) (blocks ++ nodes.map core) := by
  induction h generalizing blocks with
  | nil parent =>
    rw [List.map_nil, List.append_nil]
    exact habove
  | cons hnode hparent _ ih =>
    have hstep := ih (habove.next hnode hparent)
    rw [List.append_assoc] at hstep
    exact hstep

/-- A plan hangs together. -/
theorem plan_chainIn
    (h : forall n, n ∈ plan start parent items -> exists x, t.Holds x ∧ x.core = n.core) :
    ChainIn t parent (plan start parent items) := by
  induction items generalizing start parent with
  | nil => exact .nil parent
  | cons item rest ih =>
    rcases item with ⟨_, _, _⟩
    refine .cons (h _ List.mem_cons_self) rfl (ih ?_)
    intro n hn
    exact h n (List.mem_cons_of_mem _ hn)

/-- Publication leaves the last planned node as the only leaf nobody retains. -/
theorem Retained.publish (hok : TableOk sha256 pageSize t)
    (hnew : Publishable sha256 pageSize t node) (h : Retained t node.parent) :
    Retained (publish node t) (some node.handle) := by
  intro _ hx hexcept hleaf
  rcases (holds_publish hok hnew.fresh hnew.above).mp hx with rfl | ⟨y, hy, rfl⟩
  · exact absurd rfl hexcept
  · rcases joined_keeps node y with ⟨hterminal, hchildren⟩
    rw [hterminal]
    have hyleaf : y.children = [] := by
      rw [hleaf] at hchildren
      exact List.subset_nil.mp hchildren
    refine h y hy ?_ hyleaf
    intro hparent
    have hin : node.handle ∈ (joined node y).children :=
      mem_joined_children.mpr (.inr ⟨hparent, rfl⟩)
    rw [hleaf] at hin
    cases hin

theorem Retained.publishAll (hok : TableOk sha256 pageSize t)
    (hchain : PublishChain sha256 pageSize t (plan start parent items)) (h : Retained t parent) :
    Retained (publishAll (plan start parent items) t)
      (lastHandle parent (plan start parent items)) := by
  induction items generalizing t start parent with
  | nil => exact h
  | cons item rest ih =>
    rcases item with ⟨_, _, _⟩
    rcases hchain with ⟨hnew, _, hrest⟩
    exact ih (hok.publish hnew) hrest (Retained.publish hok hnew h)

theorem Path.mem {handle} (h : Path t handle blocks) {block}
    (hmem : block ∈ blocks) : exists x, t.Holds x ∧ x.core = block := by
  induction h with
  | root hnode _ _ => exact ⟨_, hnode, (List.mem_singleton.mp hmem).symm⟩
  | child hnode _ _ _ ih =>
    rcases List.mem_append.mp hmem with hin | hlast
    · exact ih hin
    · exact ⟨_, hnode, (List.mem_singleton.mp hlast).symm⟩

/-- The digest path of a whole chain, and of each of its nodes. -/
theorem ChainIn.spells (h : ChainIn t none nodes)
    (hcontext : forall n, n ∈ nodes -> n.identity.context = context) (hmem : node ∈ nodes) :
    exists front x, front <+: nodes ∧ x.core = node.core ∧ t.Spells context (front.map step) x := by
  rcases h.path (.inl ⟨rfl, rfl⟩) hmem with ⟨front, hfront, hpath⟩
  rcases h.holds hmem with ⟨x, hx, hcore⟩
  refine ⟨front ++ [node], x, hfront, hcore, hx, ?_, (front ++ [node]).map core, ?_, ?_⟩
  · rw [identity_of_core hcore]
    exact hcontext node hmem
  · rw [handle_of_core hcore]
    exact hpath
  · rw [List.map_map]
    rfl

theorem ChainIn.spells_last (h : ChainIn t none nodes) (hne : nodes ≠ [])
    (hcontext : forall n, n ∈ nodes -> n.identity.context = context) :
    exists last x, nodes.getLast? = some last ∧ x.core = last.core ∧
      t.Spells context (nodes.map step) x := by
  rcases List.eq_nil_or_concat' nodes with hnil | ⟨init, last, rfl⟩
  · exact absurd hnil hne
  · have hmem : last ∈ init ++ [last] := by simp
    have hstart : Above t none [] := .inl ⟨rfl, rfl⟩
    rcases h.holds hmem with ⟨x, hx, hcore⟩
    have habove := h.above hstart
    rw [lastHandle_concat, List.nil_append] at habove
    rcases habove with ⟨hnone, _⟩ | ⟨_, hsome, hpath⟩
    · cases hnone
    · cases hsome
      refine ⟨last, x, by simp, hcore, hx, ?_,
        (init ++ [last]).map core, ?_, ?_⟩
      · rw [identity_of_core hcore]
        exact hcontext last (by simp)
      · rw [handle_of_core hcore]
        exact hpath
      · rw [List.map_map]
        rfl

/-- The index after the path of a chain joined it: all blocks of the grown table
are stored, and the path ends besides the retained ones. -/
theorem RadixOk.insert
    (h : RadixOk t radix) (hok : TableOk sha256 pageSize t) (hgrew : Grew sha256 pageSize t u added)
    (hchain : ChainIn u none nodes) (hne : nodes ≠ [])
    (hcontext : forall n, n ∈ nodes -> n.identity.context = context)
    (hadded : forall n, n ∈ added -> n ∈ nodes)
    (hforest : (radix.root context).insertWord (nodes.map step) =
    .ok forest) :
    let grown := (radix.setRoot context (radix.root context)).setRoot context forest
    (forall other, (grown.root other).WellFormed) ∧
      (forall other word, (grown.root other).Stored word <-> exists x, u.Spells other word x) ∧
      forall other word, (grown.root other).Ends word <->
        (exists x, u.Spells other word x ∧ 0 < x.terminalRefs) ∨
          (other = context ∧ word = nodes.map step) := by
  intro grown
  have hwordNe : nodes.map step ≠ [] := by simpa using hne
  have hroot : forall other, grown.root other =
      if other = context then forest else radix.root other := by
    intro other
    show ((radix.setRoot context (radix.root context)).setRoot context forest).root other = _
    rw [PageRadixIndex.root_setRoot, PageRadixIndex.root_ensured]
  have hforth : forall {other word x}, t.Spells other word x -> exists z, u.Spells other word z ∧
      z.terminalRefs = x.terminalRefs := by
    intro other word x hx
    rcases hx.mono hgrew.within with ⟨z, hz, hcore⟩
    rcases hgrew.old x hx.1 with ⟨z', hz', hcore', hterminal, _⟩
    have hsame := hz.1.det hz' ((handle_of_core hcore).trans (handle_of_core hcore').symm)
    exact ⟨z, hz, hsame ▸ hterminal⟩
  have hback : forall {other word x}, u.Spells other word x ->
      (exists y, t.Spells other word y ∧ x.terminalRefs = y.terminalRefs) ∨
        (other = context ∧ word ≠ [] ∧ word <+: nodes.map step ∧ x.terminalRefs = 0) := by
    intro other word x hx
    rcases hgrew.only x hx.1 with ⟨y, hy, hcore⟩ | ⟨n, hn, hcore⟩
    · rcases exists_spells hok hy with ⟨_, hword'⟩
      rcases hforth hword' with ⟨z, hz, hterminal⟩
      have hhandle := handle_of_core hcore
      rcases hword'.mono hgrew.within with ⟨z', hz', hcore'⟩
      have hzx : z' = x := hz'.1.det hx.1 ((handle_of_core hcore').trans hhandle)
      have hzz : z = z' := hz.det hz'
      subst hzx
      subst hzz
      have hother : y.identity.context = other := hz.2.1.symm.trans hx.2.1
      rw [hother] at hword' hz
      rw [hx.word_det hz]
      exact .inl ⟨y, hword', hterminal⟩
    · rcases hchain.spells hcontext (hadded n hn) with ⟨_, z, hfront, hzcore, hz⟩
      have hzx : z = x := hz.1.det hx.1 (handle_of_core (hzcore.trans hcore))
      subst hzx
      have hother : other = context := hx.2.1.symm.trans hz.2.1
      rcases hgrew.new n hn with ⟨z', hz', hcore', hterminal⟩
      have hsame : z' = z := hz'.det hz.1 (handle_of_core (hcore'.trans hzcore.symm))
      subst hother
      rw [hx.word_det hz]
      exact .inr ⟨rfl, hz.ne_nil, hfront.map _, hsame ▸ hterminal⟩
  have hlast : exists x, u.Spells context (nodes.map step) x := by
    rcases hchain.spells_last hne hcontext with ⟨_, x, _, _, hx⟩
    exact ⟨x, hx⟩
  refine ⟨?_, ?_, ?_⟩
  · intro other
    rw [hroot]
    split
    · exact insertWord_wellFormed (h.wellFormed context) hwordNe hforest
    · exact h.wellFormed other
  · intro other word
    rw [hroot]
    constructor
    · intro hstored
      by_cases hother : other = context
      · rw [if_pos hother, insertWord_stored hwordNe hforest] at hstored
        rcases hstored with hold | ⟨hnil, hinit⟩
        · rcases (h.stored context word).mp hold with ⟨x, hx⟩
          rcases hforth hx with ⟨z, hz, _⟩
          exact ⟨z, hother ▸ hz⟩
        · rcases hlast with ⟨x, hx⟩
          rw [hother]
          exact hx.cut hgrew.table hinit hnil
      · rw [if_neg hother, h.stored] at hstored
        rcases hstored with ⟨x, hx⟩
        rcases hforth hx with ⟨z, hz, _⟩
        exact ⟨z, hz⟩
    · rintro ⟨x, hx⟩
      rcases hback hx with ⟨y, hy, _⟩ | ⟨hother, hnil, hinit, _⟩
      · have hstored := (h.stored other word).mpr ⟨y, hy⟩
        split
        · rename_i hother
          rw [insertWord_stored hwordNe hforest]
          exact .inl (hother ▸ hstored)
        · exact hstored
      · rw [if_pos hother, insertWord_stored hwordNe hforest]
        exact .inr ⟨hnil, hinit⟩
  · intro other word
    rw [hroot]
    constructor
    · intro hends
      by_cases hother : other = context
      · rw [if_pos hother, insertWord_ends hwordNe hforest] at hends
        rcases hends with hold | hword
        · rcases (h.ends context word).mp hold with ⟨x, hx, hrefs⟩
          rcases hforth hx with ⟨z, hz, hterminal⟩
          exact .inl ⟨z, hother ▸ hz, hterminal ▸ hrefs⟩
        · exact .inr ⟨hother, hword⟩
      · rw [if_neg hother, h.ends] at hends
        rcases hends with ⟨x, hx, hrefs⟩
        rcases hforth hx with ⟨z, hz, hterminal⟩
        exact .inl ⟨z, hz, hterminal ▸ hrefs⟩
    · rintro (⟨x, hx, hrefs⟩ | ⟨hother, hword⟩)
      · rcases hback hx with ⟨y, hy, hterminal⟩ | ⟨_, _, _, _⟩
        · have hends := (h.ends other word).mpr ⟨y, hy, hterminal ▸ hrefs⟩
          split
          · rename_i hother
            rw [insertWord_ends hwordNe hforest]
            exact .inl (hother ▸ hends)
          · exact hends
        · omega
      · rw [if_pos hother, insertWord_ends hwordNe hforest]
        exact .inr hword

/-!
## Resolving blocks
-/

/-- Only the handle counter has moved. -/
def bump (count : Nat) (t : PrefixOwnershipTable) : PrefixOwnershipTable :=
  { t with nextHandleIndex := t.nextHandleIndex + count }

theorem bump_bump (t : PrefixOwnershipTable) (i j : Nat) : (t.bump i).bump j = t.bump (i + j) := by
  unfold bump
  rw [Nat.add_assoc]

theorem TableOk.bump (hok : TableOk sha256 pageSize t) (count : Nat) :
    TableOk sha256 pageSize (t.bump count) where
  __ := hok
  filed := fun index x hx =>
    ⟨(hok.filed index x hx).1, Nat.lt_add_right count (hok.filed index x hx).2⟩

theorem within_bump (t : PrefixOwnershipTable) (count : Nat) :
    Within t (t.bump count) ∧ Within (t.bump count) t :=
  ⟨fun x hx => ⟨x, hx, rfl⟩, fun x hx => ⟨x, hx, rfl⟩⟩

theorem spells_bump : (t.bump count).Spells context word x <-> t.Spells context word x := by
  constructor
  · rintro ⟨hx, hcontext, blocks, hpath, hword⟩
    exact ⟨hx, hcontext, blocks, hpath.mono (within_bump t count).2, hword⟩
  · rintro ⟨hx, hcontext, blocks, hpath, hword⟩
    exact ⟨hx, hcontext, blocks, hpath.mono (within_bump t count).1, hword⟩

theorem RadixOk.bump (h : RadixOk t radix) (count : Nat) :
    RadixOk (t.bump count) radix where
  __ := h
  stored := by
    intro context word
    simp only [h.stored, spells_bump]
  ends := by
    intro context word
    simp only [h.ends, spells_bump]

/-- A handle that was never given out is nobody's parent. -/
theorem TableOk.parent_ne (hok : TableOk sha256 pageSize t) (hx : t.Holds x)
    (hindex : t.nextHandleIndex ≤ index) : x.parent ≠ some (Handle.first .prefixNode index) := by
  intro hparent
  rcases hok.linked x _ hx hparent with ⟨up, hup, hhandle, _⟩
  have hlt := hok.handle_lt hup
  rw [hhandle] at hlt
  exact absurd hlt (Nat.not_lt.mpr hindex)

/-- Known blocks that continue one another and hold the expected tokens. -/
inductive KnownChain (t : PrefixOwnershipTable) :
    Option PrefixHandle -> List InsertItem -> List PrefixOwnershipNode -> Prop where
  | nil (parent : Option PrefixHandle) : KnownChain t parent [] []
  | cons {parent : Option PrefixHandle} {item : InsertItem} {items : List InsertItem}
      {node : PrefixOwnershipNode} {nodes : List PrefixOwnershipNode} (hnode : t.Holds node)
      (hparent : node.parent = parent) (hidentity : node.identity = item.1)
      (hblock : node.blockTokenIds = item.2.1)
      (hrest : KnownChain t (some node.handle) items nodes) :
      KnownChain t parent (item :: items) (node :: nodes)

theorem KnownChain.chainIn (h : KnownChain t parent front known) : ChainIn t parent known := by
  induction h with
  | nil parent => exact .nil parent
  | cons hnode hparent _ _ _ ih => exact .cons ⟨_, hnode, rfl⟩ hparent ih

theorem KnownChain.anchored (h : KnownChain t parent front known)
    (hanchor : Anchored sha256 context pageSize t parent digest position (front ++ rest ≠ []))
    (hitems : Continues sha256 context pageSize digest position (front ++ rest)) :
    exists digest position,
      Anchored sha256 context pageSize t (lastHandle parent known) digest position (rest ≠ []) ∧
        Continues sha256 context pageSize digest position rest := by
  induction h generalizing digest position with
  | nil parent => exact ⟨digest, position, hanchor, hitems⟩
  | @cons parent item items node nodes hnode hparent hidentity hblock _ ih =>
    rcases item with ⟨_, _, _⟩
    rcases continues_cons hitems with ⟨hfull, hbuilt, hlater⟩
    rcases (identityForBlock_eq_ok_iff sha256).mp hbuilt with
      ⟨_, message, _, hcontext, _, hindex, _⟩
    refine ih (.inr ⟨node, hnode, rfl, ?_, ?_, ?_, ?_⟩) hlater
    · rw [hidentity, hcontext]
    · rw [hidentity]
    · rw [hidentity, hindex]
    · rw [hblock]
      exact hfull

theorem mem_plan (h : n ∈ plan start parent items) :
    start ≤ n.handle.index ∧ exists item, item ∈ items ∧ n.identity = item.1 ∧
      n.blockTokenIds = item.2.1 ∧ n.page = item.2.2 := by
  induction items generalizing start parent with
  | nil => cases h
  | cons item rest ih =>
    rcases item with ⟨identity, _, page⟩
    rcases List.mem_cons.mp h with rfl | hin
    · exact ⟨Nat.le_refl _, _, List.mem_cons_self, rfl, rfl, rfl⟩
    · rcases ih hin with ⟨hle, item, hitem, hsame⟩
      exact ⟨Nat.le_of_succ_le hle, item, List.mem_cons_of_mem _ hitem, hsame⟩

theorem plan_items (start : Nat) (parent : Option PrefixHandle) (items : List InsertItem) :
    (plan start parent items).map (fun n => (n.identity, n.blockTokenIds, n.page)) = items := by
  induction items generalizing start parent with
  | nil => rfl
  | cons item rest ih =>
    rcases item with ⟨identity, _, page⟩
    unfold plan
    rw [List.map_cons, ih]

theorem KnownChain.items (h : KnownChain t parent front known) :
    known.map (fun n => (n.identity, n.blockTokenIds)) =
      front.map fun item => (item.1, item.2.1) := by
  induction h with
  | nil parent => rfl
  | cons _ _ hidentity hblock _ ih => rw [List.map_cons, List.map_cons, ih, hidentity, hblock]

/-- The radix index is keyed by the digests of the path, found or planned. -/
theorem KnownChain.digests (h : KnownChain t parent front known) (index : Nat)
    (above : Option PrefixHandle) (rest : List InsertItem) :
    ((front ++ rest).map Prod.fst).map PrefixBlockIdentity.digest =
      (known ++ plan index above rest).map fun n => n.identity.digest := by
  have hfront := congrArg (List.map fun pair => pair.1.digest) h.items
  have hrest := congrArg (List.map fun item => item.1.digest) (plan_items index above rest)
  rw [List.map_map, List.map_map] at hfront
  rw [List.map_map] at hrest
  rw [List.map_map, List.map_append, List.map_append]
  exact congrArg₂ _ hfront.symm hrest.symm

theorem KnownChain.same_context (h : KnownChain t parent front known)
    (hitems : forall item, item ∈ front -> item.1.context = context) :
    forall n, n ∈ known -> n.identity.context = context := by
  induction h with
  | nil parent => simp
  | cons hnode _ hidentity _ _ ih =>
    intro n hn
    rcases List.mem_cons.mp hn with rfl | hin
    · rw [hidentity]
      exact hitems _ List.mem_cons_self
    · exact ih (fun item hitem => hitems item (List.mem_cons_of_mem _ hitem)) n hin

end PrefixOwnershipTable

end Prefix
end Ayaka
