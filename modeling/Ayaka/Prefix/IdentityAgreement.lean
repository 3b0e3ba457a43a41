import Ayaka.Prefix.IdentityChains

/-!
# When two block identities agree

The seed of a chain covers the page size and the eight components of its context.
Each component is written with a tag and its length, so the seed message determines
the context.  Two digests then agree exactly when their chains agree up to them.
-/

namespace Ayaka
namespace Prefix

open Foundation

/-!
## Context seeds
-/

variable {text : String} {bytes : List UInt8} {context context' : PrefixCacheContext}

theorem utf8_inj (h : utf8 text = utf8 text') : text = text' := by
  exact String.toByteArray_inj.mp (ByteArray.ext (Array.toList_inj.mp h))

theorem componentMessage_some_eq_ok_iff :
    componentMessage (some text) = .ok bytes <->
      exists length, toBytes8 (utf8 text).length = .ok length ∧
        bytes = 1 :: (length ++ utf8 text) := by
  change (toBytes8 (utf8 text).length >>= fun length => pure ([1] ++ length ++ utf8 text)) = _ <-> _
  rw [except_bind_eq_ok_iff]
  refine exists_congr fun length => and_congr_right fun _ => ?_
  change Except.ok ([1] ++ length ++ utf8 text) = Except.ok bytes <-> _
  rw [Except.ok.injEq, List.append_assoc, List.singleton_append]
  exact eq_comm

/-- The code of a component is not the beginning of the code of another one. -/
theorem componentMessage_inj
    (h : componentMessage component = .ok bytes) (h' : componentMessage component' = .ok bytes')
    (heq : bytes ++ more = bytes' ++ more') : component = component' ∧ more = more' := by
  cases component with
  | none =>
    cases h
    cases component' with
    | none =>
      cases h'
      exact ⟨rfl, List.append_cancel_left heq⟩
    | some text' =>
      rcases componentMessage_some_eq_ok_iff.mp h' with ⟨length', _, rfl⟩
      cases heq
  | some text =>
    rcases componentMessage_some_eq_ok_iff.mp h with ⟨length, hlength, rfl⟩
    cases component' with
    | none =>
      cases h'
      cases heq
    | some text' =>
      rcases componentMessage_some_eq_ok_iff.mp h' with ⟨length', hlength', rfl⟩
      rw [List.cons_append, List.cons_append, List.append_assoc, List.append_assoc] at heq
      rcases List.append_inj (List.cons.inj heq).2
        ((toBytes8_length hlength).trans (toBytes8_length hlength').symm) with ⟨hfield, hrest⟩
      have hsize := toBytes8_inj hlength (hfield ▸ hlength')
      rcases List.append_inj hrest hsize with ⟨htext, hmore⟩
      exact ⟨congrArg some (utf8_inj htext), hmore⟩

theorem components_inj
    (h : List.Forall₂ (fun c bytes => componentMessage c = .ok bytes) components parts)
    (h' : List.Forall₂ (fun c bytes => componentMessage c = .ok bytes) components' parts')
    (hcount : components.length = components'.length) (hflat : parts.flatten = parts'.flatten) :
    components = components' := by
  induction h generalizing components' parts' with
  | nil =>
    cases h' with
    | nil => rfl
    | cons _ _ => cases hcount
  | cons hfirst _ ih =>
    cases h' with
    | nil => cases hcount
    | cons hfirst' hrest' =>
      rcases componentMessage_inj hfirst hfirst' hflat with ⟨hcomponent, hlater⟩
      rw [hcomponent, ih hrest' (Nat.succ.inj hcount) hlater]

theorem PrefixCacheContext.eq_of_components (h : context.components = context'.components) :
    context = context' := by
  cases context
  cases context'
  rcases h with ⟨rfl, rfl, rfl, rfl, rfl, rfl, rfl, rfl⟩
  rfl

theorem seedMessage_inj (h : seedMessage context pageSize = .ok message)
    (h' : seedMessage context' pageSize = .ok message) : context = context' := by
  unfold seedMessage at h h'
  simp only [except_bind_eq_ok_iff, mapM_eq_ok_iff] at h h'
  rcases h with ⟨_, hsize, _, hparts, hmessage⟩
  rcases h' with ⟨_, hsize', _, hparts', hmessage'⟩
  rw [hsize] at hsize'
  cases hsize'
  have heq := (Except.ok.inj hmessage).trans (Except.ok.inj hmessage').symm
  exact PrefixCacheContext.eq_of_components
    (components_inj hparts hparts' rfl (List.append_cancel_left heq))

/-!
## Agreement
-/

section Sha256

variable (sha256 : List UInt8 -> Digest)

/-- Every byte string `build_identities` hashes: the seed's and one for each block. -/
def hashedStrings (context : PrefixCacheContext) (pageSize : Nat)
    (blocks : List (List TokenId)) : List (List UInt8) :=
  match seedMessage context pageSize with
  | .error _ => []
  | .ok message => message :: blockMessages sha256 (sha256 message) 0 blocks

variable {sha256}
variable {context context' : PrefixCacheContext} {pageSize position : Nat} {digest : Digest}
  {identities : List PrefixBlockIdentity} {identity : PrefixBlockIdentity}

theorem chainIdentities_message
    (h : chainIdentities sha256 context pageSize digest position blocks = .ok identities)
    (hi : identities[i]? = some identity) :
    exists parent block message, blockMessage parent (position + i) block = .ok message ∧
      identity.digest = sha256 message ∧ message ∈ blockMessages sha256 digest position blocks := by
  induction blocks generalizing digest position identities i with
  | nil =>
    cases h
    cases hi
  | cons block rest ih =>
    rcases (chainIdentities_cons sha256 ..).mp h with ⟨_, _, _, hfirst, hbelow, rfl⟩
    rcases (identityForBlock_eq_ok_iff sha256).mp hfirst with ⟨_, message, hmessage, _, hdigest, _⟩
    have hmessages : blockMessages sha256 digest position (block :: rest) =
        message :: blockMessages sha256 (sha256 message) (position + 1) rest := by
      rw [blockMessages, hmessage]
    rw [hmessages]
    cases i with
    | zero =>
      cases hi
      exact ⟨digest, block, message, hmessage, hdigest, List.mem_cons_self⟩
    | succ i =>
      rw [hdigest] at hbelow
      rcases ih hbelow hi with ⟨parent, later, message', hlater, hdigest', hmem⟩
      refine ⟨parent, later, message', ?_, hdigest', List.mem_cons_of_mem _ hmem⟩
      rw [Nat.add_right_comm] at hlater
      exact hlater

theorem buildIdentities_eq_ok_iff :
    buildIdentities sha256 blocks pageSize context = .ok identities <->
      exists message, seedMessage context pageSize = .ok message ∧
        chainIdentities sha256 context pageSize (sha256 message) 0 blocks = .ok identities := by
  unfold buildIdentities contextSeed
  simp only [except_bind_eq_ok_iff]
  constructor
  · rintro ⟨_, ⟨message, hmessage, hseed⟩, hchain⟩
    cases hseed
    exact ⟨message, hmessage, hchain⟩
  · rintro ⟨message, hmessage, hchain⟩
    exact ⟨_, ⟨message, hmessage, rfl⟩, hchain⟩

theorem lastDigest_take (h : identities[i]? = some identity) (digest : Digest) :
    lastDigest digest (identities.take (i + 1)) = identity.digest := by
  unfold lastDigest
  rw [List.take_add_one, h, Option.toList_some, List.getLast?_concat]
  rfl

section Chains

variable {blocks blocks' : List (List TokenId)}
variable {identities identities' : List PrefixBlockIdentity}

/-- Blocks of two chains have one digest exactly when they stand at one position, in
one context, after the same tokens. -/
theorem digest_eq_iff (hfree : Set.InjOn sha256
    { m | m ∈ hashedStrings sha256 context pageSize blocks ++
    hashedStrings sha256 context' pageSize blocks' })
    (h : buildIdentities sha256 blocks pageSize context = .ok identities)
    (h' : buildIdentities sha256 blocks' pageSize context' = .ok identities')
    (hx : identities[i]? = some x)
    (hy : identities'[j]? = some y) :
    x.digest = y.digest <->
      i = j ∧ context = context' ∧ blocks.take (i + 1) = blocks'.take (i + 1) := by
  rcases buildIdentities_eq_ok_iff.mp h with ⟨seed, hseed, hchain⟩
  rcases buildIdentities_eq_ok_iff.mp h' with ⟨seed', hseed', hchain'⟩
  unfold hashedStrings at hfree
  rw [hseed, hseed'] at hfree
  constructor
  · intro hdigest
    rcases chainIdentities_message hchain hx with ⟨_, _, message, hmessage, hsha, hmem⟩
    rcases chainIdentities_message hchain' hy with ⟨_, _, message', hmessage', hsha', hmem'⟩
    have hsame : message = message' :=
      hfree (by simp [hmem]) (by simp [hmem']) (hsha.symm.trans (hdigest.trans hsha'))
    subst hsame
    have hindex : i = j := by
      have hposition := (blockMessage_inj hmessage hmessage').2.1
      omega
    subst hindex
    have hsub : blockMessages sha256 (sha256 seed) 0 (blocks.take (i + 1)) ⊆
        blockMessages sha256 (sha256 seed) 0 blocks :=
      (blockMessages_mono sha256 (List.take_prefix (i + 1) blocks)).subset
    have hsub' : blockMessages sha256 (sha256 seed') 0 (blocks'.take (i + 1)) ⊆
        blockMessages sha256 (sha256 seed') 0 blocks' :=
      (blockMessages_mono sha256 (List.take_prefix (i + 1) blocks')).subset
    have hlength : (blocks.take (i + 1)).length = (blocks'.take (i + 1)).length := by
      have hlt := (List.getElem?_eq_some_iff.mp hx).1
      have hlt' := (List.getElem?_eq_some_iff.mp hy).1
      rw [chainIdentities_length hchain] at hlt
      rw [chainIdentities_length hchain'] at hlt'
      rw [List.length_take, List.length_take]
      omega
    have hlast : lastDigest (sha256 seed) (identities.take (i + 1)) =
        lastDigest (sha256 seed') (identities'.take (i + 1)) := by
      rw [lastDigest_take hx, lastDigest_take hy, hdigest]
    rcases chainIdentities_det hfree (chainIdentities_take hchain (i + 1))
      (chainIdentities_take hchain' (i + 1)) (fun m hm => by simp [hsub hm])
      (fun m hm => by simp [hsub' hm]) hlength hlast with ⟨hseeds, htokens⟩
    have hcontexts : seed = seed' := hfree (by simp) (by simp) hseeds
    subst hcontexts
    exact ⟨rfl, seedMessage_inj hseed hseed', htokens⟩
  · rintro ⟨rfl, rfl, htokens⟩
    rw [hseed] at hseed'
    cases hseed'
    have htake := chainIdentities_take hchain (i + 1)
    rw [htokens, chainIdentities_take hchain' (i + 1)] at htake
    have hids := Except.ok.inj htake
    rw [<- lastDigest_take hx (sha256 seed), <- hids, lastDigest_take hy]

/-- Without collisions among the strings hashed for them, two identities have one
digest exactly when they have one block index, one context and the same tokens up to
their block; in particular chains with different salts share no digest. -/
theorem digests_agree_iff
    (hfree : Set.InjOn sha256
      { m | m ∈ hashedStrings sha256 context pageSize blocks ++
        hashedStrings sha256 context' pageSize blocks' })
    (h : buildIdentities sha256 blocks pageSize context = Except.ok identities)
    (h' : buildIdentities sha256 blocks' pageSize context' = Except.ok identities') :
    (forall x y, x ∈ identities -> y ∈ identities' ->
      (x.digest = y.digest <->
        x.blockIndex = y.blockIndex ∧ x.context = y.context ∧
          blocks.take (x.blockIndex + 1) = blocks'.take (x.blockIndex + 1))) ∧
      (context.cacheSalt ≠ context'.cacheSalt ->
        forall x y, x ∈ identities -> y ∈ identities' -> x.digest ≠ y.digest) := by
  have hat : forall {c : PrefixCacheContext} {bs : List (List TokenId)}
      {ids : List PrefixBlockIdentity}, buildIdentities sha256 bs pageSize c = Except.ok ids ->
        forall x, x ∈ ids -> ids[x.blockIndex]? = some x ∧ x.context = c := by
    intro c bs ids hbuilt x hx
    rcases buildIdentities_eq_ok_iff.mp hbuilt with ⟨_, _, hchain⟩
    rcases List.mem_iff_getElem?.mp hx with ⟨_, hi⟩
    rcases chainIdentities_getElem hchain hi with ⟨hcontext, hindex⟩
    rw [hindex, Nat.zero_add]
    exact ⟨hi, hcontext⟩
  have hiff : forall x y, x ∈ identities -> y ∈ identities' -> (x.digest = y.digest <->
        x.blockIndex = y.blockIndex ∧ x.context = y.context ∧
          blocks.take (x.blockIndex + 1) = blocks'.take (x.blockIndex + 1)) := by
    intro x y hx hy
    rw [(hat h x hx).2, (hat h' y hy).2]
    exact digest_eq_iff hfree h h' (hat h x hx).1 (hat h' y hy).1
  refine ⟨hiff, ?_⟩
  intro hsalt x y hx hy hdigest
  have hcontext := ((hiff x y hx hy).mp hdigest).2.1
  rw [(hat h x hx).2, (hat h' y hy).2] at hcontext
  exact hsalt (congrArg PrefixCacheContext.cacheSalt hcontext)

end Chains

end Sha256

/-! ## Two salts -/

def checksum (message : List UInt8) : Nat :=
  message.foldl (fun sum byte => (sum * 263 + byte.toNat + 1) % 2 ^ 256) 0

theorem length_checksum (message : List UInt8) :
    ((List.range 32).map fun i => UInt8.ofNat (checksum message / 256 ^ i)).length = 32 := by
  simp

def checksumDigest (message : List UInt8) : Digest :=
  ⟨(List.range 32).map fun i => UInt8.ofNat (checksum message / 256 ^ i), length_checksum message⟩

def saltedContext (salt : String) (h : salt ≠ "") : PrefixCacheContext where
  modelId := "m"
  cacheSalt := some salt
  required := by decide
  optional := by simp [h]

theorem exists_identities (h : (buildIdentities sha256 blocks pageSize context).toOption.map
      List.length = some n) :
    exists identities, buildIdentities sha256 blocks pageSize context = .ok identities ∧
      identities.length = n := by
  cases hbuilt : buildIdentities sha256 blocks pageSize context with
  | error e =>
    rw [hbuilt] at h
    cases h
  | ok identities =>
    rw [hbuilt] at h
    exact ⟨identities, rfl, Option.some.inj h⟩

/-- Chains of two identities each. -/
theorem digests_agree_salted :
    exists identities identities',
      buildIdentities checksumDigest [[1], [2]] 1 (saltedContext "a" (by decide)) =
        Except.ok identities ∧
      buildIdentities checksumDigest [[1], [2]] 1 (saltedContext "b" (by decide)) =
        Except.ok identities' ∧
      identities.length = 2 ∧ identities'.length = 2 ∧
      forall x y, x ∈ identities -> y ∈ identities' -> x.digest ≠ y.digest := by
  rcases exists_identities (show (buildIdentities checksumDigest [[1], [2]] 1
    (saltedContext "a" (by decide))).toOption.map List.length = some 2 by decide +kernel) with
    ⟨identities, h, hlength⟩
  rcases exists_identities (show (buildIdentities checksumDigest [[1], [2]] 1
    (saltedContext "b" (by decide))).toOption.map List.length = some 2 by decide +kernel) with
    ⟨identities', h', hlength'⟩
  have hall : forall m,
      m ∈ hashedStrings checksumDigest (saltedContext "a" (by decide)) 1 [[1], [2]] ++
        hashedStrings checksumDigest (saltedContext "b" (by decide)) 1 [[1], [2]] ->
        forall n, n ∈ hashedStrings checksumDigest (saltedContext "a" (by decide)) 1 [[1], [2]] ++
          hashedStrings checksumDigest (saltedContext "b" (by decide)) 1 [[1], [2]] ->
            checksumDigest m = checksumDigest n -> m = n := by
    decide +kernel
  exact ⟨identities, identities', h, h', hlength, hlength', (digests_agree_iff
    (fun m hm n hn heq => hall m hm n hn heq) h h').2 (by decide)⟩

end Prefix
end Ayaka
