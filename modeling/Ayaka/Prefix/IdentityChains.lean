import Ayaka.Prefix.Identity

/-!
# Digest chains

A block message determines the parent digest, the position and the tokens it was
built from.  Two chains with one last digest are therefore one chain, unless the
digest function collides on their messages.
-/

namespace Ayaka
namespace Prefix

open Foundation

/-!
## Fixed-width bytes
-/

theorem bigEndian_length (width n : Nat) : (bigEndian width n).length = width := by
  induction width generalizing n with
  | zero => rfl
  | succ width ih =>
    unfold bigEndian
    rw [List.length_append, ih]
    rfl

theorem bigEndian_inj {width m n : Nat} (hm : m < 256 ^ width) (hn : n < 256 ^ width)
    (h : bigEndian width m = bigEndian width n) : m = n := by
  induction width generalizing m n with
  | zero =>
    omega
  | succ width ih =>
    rcases List.append_inj' h rfl with ⟨hhigh, hlow⟩
    have _ : m / 256 = n / 256 :=
      ih (Nat.div_lt_of_lt_mul (by omega)) (Nat.div_lt_of_lt_mul (by omega)) hhigh
    have hrest : m % 256 = n % 256 := by
      have hbyte := congrArg UInt8.toNat (List.singleton_inj.mp hlow)
      simpa using hbyte
    omega

variable {block : List TokenId} {message : List UInt8}

theorem toBytes8_eq_ok_iff : toBytes8 n = .ok bytes <-> n < 2 ^ 64 ∧ bigEndian 8 n = bytes := by
  unfold toBytes8
  by_cases h : n < 2 ^ 64
  · rw [if_pos h, Except.ok.injEq]
    exact ⟨fun heq => ⟨h, heq⟩, And.right⟩
  · rw [if_neg h]
    constructor
    · intro heq
      cases heq
    · intro heq
      exact absurd heq.1 h

theorem toBytes8_length (h : toBytes8 n = .ok bytes) : bytes.length = 8 := by
  rw [<- (toBytes8_eq_ok_iff.mp h).2]
  exact bigEndian_length 8 n

theorem toBytes8_inj {m : Nat} (hm : toBytes8 m = .ok bytes) (hn : toBytes8 n = .ok bytes) :
    m = n := by
  rcases toBytes8_eq_ok_iff.mp hm with ⟨hmlt, hmbytes⟩
  rcases toBytes8_eq_ok_iff.mp hn with ⟨hnlt, hnbytes⟩
  exact @bigEndian_inj 8 m n hmlt hnlt (hmbytes.trans hnbytes.symm)

/-- Tokens are told apart by their eight-byte words. -/
theorem tokens_inj (h : List.Forall₂ (fun token bytes => toBytes8 token = .ok bytes) block words)
    (h' : List.Forall₂ (fun token bytes => toBytes8 token = .ok bytes) block' words')
    (hflat : words.flatten = words'.flatten) : block = block' := by
  induction h generalizing block' words' with
  | nil =>
    cases h' with
    | nil => rfl
    | cons hfirst _ =>
      have hlength := congrArg List.length hflat
      rw [List.flatten_cons, List.length_append, toBytes8_length hfirst] at hlength
      simp only [List.flatten_nil, List.length_nil] at hlength
      omega
  | cons hfirst _ ih =>
    cases h' with
    | nil =>
      have hlength := congrArg List.length hflat
      rw [List.flatten_cons, List.length_append, toBytes8_length hfirst] at hlength
      simp only [List.flatten_nil, List.length_nil] at hlength
      omega
    | cons hfirst' hrest' =>
      have hwidth := (toBytes8_length hfirst).trans (toBytes8_length hfirst').symm
      rcases List.append_inj hflat hwidth with ⟨hword, hlater⟩
      rw [toBytes8_inj hfirst (hword ▸ hfirst'), ih hrest' hlater]

/-!
## Messages
-/

theorem blockMessage_eq_ok_iff :
    blockMessage parentDigest blockIndex block = .ok message <->
      exists position words, toBytes8 blockIndex = .ok position ∧
        List.Forall₂ (fun token bytes => toBytes8 token = .ok bytes) block words ∧
        message = hashDomain ++ parentDigest.1 ++ position ++ words.flatten := by
  unfold blockMessage
  simp only [except_bind_eq_ok_iff, mapM_eq_ok_iff]
  constructor
  · rintro ⟨position, hposition, words, hwords, hmessage⟩
    exact ⟨position, words, hposition, hwords, (Except.ok.inj hmessage).symm⟩
  · rintro ⟨position, words, hposition, hwords, rfl⟩
    exact ⟨position, hposition, words, hwords, rfl⟩

theorem blockMessage_inj (h : blockMessage digest position block = .ok message)
    (h' : blockMessage digest' position' block' = .ok message) :
    digest = digest' ∧ position = position' ∧ block = block' := by
  rcases blockMessage_eq_ok_iff.mp h with ⟨bytes, _, hbytes, hwords, rfl⟩
  rcases blockMessage_eq_ok_iff.mp h' with ⟨bytes', words', hbytes', hwords', heq⟩
  have hdigests : digest.1.length = digest'.1.length := digest.2.trans digest'.2.symm
  have hwidth : bytes.length = bytes'.length :=
    (toBytes8_length hbytes).trans (toBytes8_length hbytes').symm
  have hfront : (hashDomain ++ digest.1 ++ bytes).length =
      (hashDomain ++ digest'.1 ++ bytes').length := by
    rw [List.length_append, List.length_append, List.length_append, List.length_append,
      hdigests, hwidth]
  rcases List.append_inj heq hfront with ⟨hhead, hflat⟩
  rcases List.append_inj' hhead hwidth with ⟨hparent, hbytesEq⟩
  have hdigest := List.append_cancel_left hparent
  exact ⟨Subtype.ext hdigest, toBytes8_inj hbytes (hbytesEq ▸ hbytes'),
    tokens_inj hwords hwords' hflat⟩

section Sha256

variable (sha256 : List UInt8 -> Digest) {blocks : List (List TokenId)}

def blockMessages : Digest -> Nat -> List (List TokenId) -> List (List UInt8)
  | _, _, [] => []
  | parentDigest, blockIndex, block :: rest =>
    match blockMessage parentDigest blockIndex block with
    | .error _ => []
    | .ok message => message :: blockMessages (sha256 message) (blockIndex + 1) rest

/-- The block messages hashed by `build_identities`. -/
def hashedMessages (context : PrefixCacheContext) (pageSize : Nat)
    (blocks : List (List TokenId)) : List (List UInt8) :=
  match contextSeed sha256 context pageSize with
  | .error _ => []
  | .ok seed => blockMessages sha256 seed 0 blocks

theorem blockMessages_mono (h : short <+: blocks) :
    blockMessages sha256 digest position short <+: blockMessages sha256 digest position blocks := by
  induction short generalizing digest position blocks with
  | nil => exact List.nil_prefix
  | cons block rest ih =>
    rcases h with ⟨more, rfl⟩
    rw [List.cons_append]
    unfold blockMessages
    cases blockMessage digest position block with
    | error e => exact List.nil_prefix
    | ok message => exact List.cons_prefix_cons.mpr ⟨rfl, ih ⟨more, rfl⟩⟩

theorem hashedMessages_subset (h : short <+: blocks) :
    hashedMessages sha256 context pageSize short ⊆
      hashedMessages sha256 context pageSize blocks := by
  unfold hashedMessages
  cases contextSeed sha256 context pageSize with
  | error e => exact List.Subset.refl _
  | ok seed => exact (blockMessages_mono sha256 h).subset

variable {sha256}
variable {context : PrefixCacheContext} {pageSize position : Nat} {digest : Digest}
def lastDigest (digest : Digest) (identities : List PrefixBlockIdentity) : Digest :=
  (identities.getLast?.map PrefixBlockIdentity.digest).getD digest

theorem lastDigest_cons (digest : Digest) (identity : PrefixBlockIdentity)
    (below : List PrefixBlockIdentity) :
    lastDigest digest (identity :: below) = lastDigest identity.digest below := by
  unfold lastDigest
  rw [List.getLast?_cons]
  cases below.getLast? with
  | none => rfl
  | some last => rfl

/-- Without collisions the last digest of a chain determines the chain. -/
theorem chainIdentities_det (hfree : Set.InjOn sha256 messages)
    (h : chainIdentities sha256 context pageSize digest position blocks = .ok identities)
    (h' : chainIdentities sha256 context' pageSize digest' position blocks' = .ok identities')
    (hin : forall m, m ∈ blockMessages sha256 digest position blocks -> m ∈ messages)
    (hin' : forall m, m ∈ blockMessages sha256 digest' position blocks' -> m ∈ messages)
    (hlength : blocks.length = blocks'.length)
    (hlast : lastDigest digest identities = lastDigest digest' identities') :
    digest = digest' ∧ blocks = blocks' := by
  induction blocks generalizing digest digest' position blocks' identities identities' with
  | nil =>
    cases blocks' with
    | nil =>
      cases h
      cases h'
      exact ⟨hlast, rfl⟩
    | cons _ _ => cases hlength
  | cons block rest ih =>
    cases blocks' with
    | nil => cases hlength
    | cons block' rest' =>
      rcases (chainIdentities_cons sha256 ..).mp h with ⟨_, _, _, hidentity, hbelow, rfl⟩
      rcases (chainIdentities_cons sha256 ..).mp h' with
        ⟨_, identity', below', hidentity', hbelow', rfl⟩
      rcases (identityForBlock_eq_ok_iff sha256).mp hidentity with
        ⟨_, message, hmessage, _, hdigest, _⟩
      rcases (identityForBlock_eq_ok_iff sha256).mp hidentity' with
        ⟨_, message', hmessage', _, hdigest', _⟩
      simp only [blockMessages, hmessage, List.mem_cons] at hin
      simp only [blockMessages, hmessage', List.mem_cons] at hin'
      rw [lastDigest_cons, lastDigest_cons] at hlast
      rw [hdigest] at hbelow hlast
      rw [hdigest'] at hbelow' hlast
      rcases ih hbelow hbelow' (fun m hm => hin m (.inr hm))
        (fun m hm => hin' m (.inr hm)) (Nat.succ.inj hlength) hlast with ⟨hhash, hrest⟩
      have hsame : message = message' :=
        hfree (hin message (.inl rfl)) (hin' message' (.inl rfl)) hhash
      subst hsame
      rcases blockMessage_inj hmessage hmessage' with ⟨hparent, _, hblock⟩
      exact ⟨hparent, by rw [hblock, hrest]⟩

variable {blocks : List (List TokenId)} {identities : List PrefixBlockIdentity}

section

variable (h : chainIdentities sha256 context pageSize digest position blocks = Except.ok identities)
include h

theorem chainIdentities_length : identities.length = blocks.length := by
  induction blocks generalizing digest position identities with
  | nil =>
    cases h
    rfl
  | cons block rest ih =>
    rcases (chainIdentities_cons sha256 ..).mp h with ⟨_, _, _, _, hbelow, rfl⟩
    rw [List.length_cons, List.length_cons, ih hbelow]

theorem chainIdentities_getElem (hi : identities[i]? = some identity) :
    identity.context = context ∧ identity.blockIndex = position + i := by
  induction blocks generalizing digest position identities i with
  | nil =>
    cases h
    cases hi
  | cons block rest ih =>
    rcases (chainIdentities_cons sha256 ..).mp h with ⟨_, first, below, hfirst, hbelow, rfl⟩
    cases i with
    | zero =>
      cases hi
      rcases (identityForBlock_eq_ok_iff sha256).mp hfirst with ⟨_, _, _, hcontext, _, hindex, _⟩
      exact ⟨hcontext, hindex⟩
    | succ i =>
      rcases ih hbelow hi with ⟨hcontext, hindex⟩
      exact ⟨hcontext, by rw [hindex]; omega⟩

theorem chainIdentities_take (count : Nat) :
    chainIdentities sha256 context pageSize digest position (blocks.take count) =
      .ok (identities.take count) := by
  induction blocks generalizing digest position identities count with
  | nil =>
    cases h
    rw [List.take_nil, List.take_nil]
    rfl
  | cons block rest ih =>
    rcases (chainIdentities_cons sha256 ..).mp h with
      ⟨hfull, identity, below, hidentity, hbelow, rfl⟩
    cases count with
    | zero => rfl
    | succ count =>
      refine (chainIdentities_cons sha256 ..).mpr ⟨?_, identity, _, hidentity, ih hbelow count, rfl⟩
      intro hne
      refine hfull ?_
      rintro rfl
      exact hne List.take_nil

end

/-!
## Sizes under which hashing succeeds
-/

/-- The texts of a context fit the eight-byte length field, as every Python string
does. -/
def PrefixCacheContext.Sized (context : PrefixCacheContext) : Prop :=
  forall text, some text ∈ context.components -> (utf8 text).length < 2 ^ 64

theorem contextSeed_ok (sha256 : List UInt8 -> Digest) (hsize : pageSize < 2 ^ 64)
    (hcontext : context.Sized) : exists seed, contextSeed sha256 context pageSize = .ok seed := by
  have hparts : exists parts, context.components.mapM componentMessage = .ok parts := by
    refine mapM_isOk_iff.mpr fun component hcomponent => ?_
    cases component with
    | none => exact ⟨_, rfl⟩
    | some text =>
      exact ⟨_, except_bind_eq_ok_iff.mpr
        ⟨_, toBytes8_eq_ok_iff.mpr ⟨hcontext text hcomponent, rfl⟩, rfl⟩⟩
  rcases hparts with ⟨parts, hparts⟩
  refine ⟨_, except_bind_eq_ok_iff.mpr ⟨_, except_bind_eq_ok_iff.mpr ⟨_,
    toBytes8_eq_ok_iff.mpr ⟨hsize, rfl⟩, except_bind_eq_ok_iff.mpr ⟨parts, hparts, rfl⟩⟩, rfl⟩⟩

theorem chainIdentities_ok (sha256 : List UInt8 -> Digest) (hpos : 0 < pageSize)
    (hfull : forall block, block ∈ blocks -> block.length = pageSize)
    (htokens : forall block, block ∈ blocks -> forall token, token ∈ block -> token < 2 ^ 64)
    (hroom : position + blocks.length ≤ 2 ^ 64) :
    exists identities, chainIdentities sha256 context pageSize digest position blocks =
      .ok identities := by
  induction blocks generalizing digest position with
  | nil => exact ⟨[], rfl⟩
  | cons block rest ih =>
    rw [List.length_cons] at hroom
    have hlength := hfull block List.mem_cons_self
    have hwords : exists words, block.mapM toBytes8 = .ok words :=
      mapM_isOk_iff.mpr fun token htoken =>
        ⟨_, toBytes8_eq_ok_iff.mpr ⟨htokens block List.mem_cons_self token htoken, rfl⟩⟩
    rcases hwords with ⟨words, hwords⟩
    have hmessage : exists message, blockMessage digest position block = .ok message :=
      ⟨_, blockMessage_eq_ok_iff.mpr ⟨_, words,
        toBytes8_eq_ok_iff.mpr ⟨by omega, rfl⟩, mapM_eq_ok_iff.mp hwords, rfl⟩⟩
    rcases hmessage with ⟨message, hmessage⟩
    have hroom' : position + 1 + rest.length ≤ 2 ^ 64 := by omega
    rcases @ih (position + 1) (sha256 message) (fun b hb => hfull b (List.mem_cons_of_mem _ hb))
      (fun b hb => htokens b (List.mem_cons_of_mem _ hb)) hroom' with ⟨below, hbelow⟩
    have hcount : 0 < position * pageSize + block.length := by
      rw [hlength]
      exact Nat.add_pos_right _ hpos
    refine ⟨⟨context, sha256 message, position, _, hcount⟩ :: below,
      (chainIdentities_cons sha256 ..).mpr ⟨fun _ => hlength, _, below, ?_, hbelow, rfl⟩⟩
    rw [identityForBlock_eq_ok_iff]
    exact ⟨⟨hlength ▸ hpos, Nat.le_of_eq hlength⟩, message, hmessage, rfl, rfl, rfl, rfl⟩

end Sha256

end Prefix
end Ayaka
