import Ayaka.Foundation.Effect
import Ayaka.Handles

/-!
# Chained block identities

Token pages and the execution context are turned into a chain of digests: every
digest covers the one before it, the block's position and the block's tokens.  The
digest function is a parameter; it only has to return 32 bytes.
-/

namespace Ayaka
namespace Prefix

open Foundation

abbrev TokenId := Nat

def maxTokenId : Nat := 2 ^ 63 - 1

/-- A SHA-256 digest. -/
abbrev Digest := { bytes : List UInt8 // bytes.length = 32 }

/-- Execution state that must agree before cached KV can be reused. -/
structure PrefixCacheContext where
  modelId : String
  modelRevision : Option String := none
  adapterId : Option String := none
  cacheSalt : Option String := none
  multimodalHash : Option String := none
  ropeConfigHash : Option String := none
  cacheDtype : String := "float16"
  cacheLayoutVersion : String := "mha-nhd-v1"
  required : modelId ≠ "" ∧ cacheDtype ≠ "" ∧ cacheLayoutVersion ≠ ""
  optional : forall value, value ∈ [modelRevision, adapterId, cacheSalt, multimodalHash,
    ropeConfigHash] -> value ≠ some ""
  deriving DecidableEq

def PrefixCacheContext.components (context : PrefixCacheContext) : List (Option String) :=
  [some context.modelId, context.modelRevision, context.adapterId, context.cacheSalt,
    context.multimodalHash, context.ropeConfigHash, some context.cacheDtype,
    some context.cacheLayoutVersion]

@[ext]
structure PrefixBlockIdentity where
  context : PrefixCacheContext
  digest : Digest
  blockIndex : Nat
  tokenCount : Nat
  tokenCount_pos : 0 < tokenCount

instance : DecidableEq PrefixBlockIdentity :=
  fun _ _ => decidable_of_iff _ PrefixBlockIdentity.ext_iff.symm

/-!
## Hashed byte strings
-/

def utf8 (text : String) : List UInt8 :=
  text.toUTF8.data.toList

def bigEndian : Nat -> Nat -> List UInt8
  | 0, _ => []
  | width + 1, n => bigEndian width (n / 256) ++ [UInt8.ofNat n]

/-- `int.to_bytes(8, "big", signed=False)`. -/
def toBytes8 (n : Nat) : Except Exc (List UInt8) :=
  if n < 2 ^ 64 then
    .ok (bigEndian 8 n)
  else
    .error (.overflowError "int too big to convert")

def hashDomain : List UInt8 :=
  utf8 "ayaka-prefix-block-v1"

def blockMessage (parentDigest : Digest) (blockIndex : Nat) (block : List TokenId) :
    Except Exc (List UInt8) := do
  let position <- toBytes8 blockIndex
  let tokens <- block.mapM toBytes8
  pure (hashDomain ++ parentDigest.1 ++ position ++ tokens.flatten)

def componentMessage : Option String -> Except Exc (List UInt8)
  | none => pure [0]
  | some component => do
    let encoded := utf8 component
    let length <- toBytes8 encoded.length
    pure ([1] ++ length ++ encoded)

def seedMessage (context : PrefixCacheContext) (pageSize : Nat) : Except Exc (List UInt8) := do
  let size <- toBytes8 pageSize
  let parts <- context.components.mapM componentMessage
  pure (hashDomain ++ size ++ parts.flatten)

/-!
## Identities of token blocks
-/

section Sha256

variable (sha256 : List UInt8 -> Digest)

def contextSeed (context : PrefixCacheContext) (pageSize : Nat) : Except Exc Digest := do
  let message <- seedMessage context pageSize
  pure (sha256 message)

def identityForBlock (context : PrefixCacheContext) (parentDigest : Digest)
    (blockIndex : Nat) (block : List TokenId) (pageSize : Nat) : Except Exc PrefixBlockIdentity :=
  if h : 0 < block.length ∧ block.length ≤ pageSize then do
    let message <- blockMessage parentDigest blockIndex block
    pure
      { context
        digest := sha256 message
        blockIndex
        tokenCount := blockIndex * pageSize + block.length
        tokenCount_pos := Nat.add_pos_right _ h.1 }
  else
    throw (.valueError "prefix block must contain between one and page_size tokens")

/-- The loop of `build_identities` from one parent digest on. -/
def chainIdentities (context : PrefixCacheContext) (pageSize : Nat) :
    Digest -> Nat -> List (List TokenId) -> Except Exc (List PrefixBlockIdentity)
  | _, _, [] => pure []
  | parentDigest, blockIndex, block :: rest => do
    if rest ≠ [] ∧ block.length ≠ pageSize then
      throw (.valueError "only a terminal prefix block may be partial")
    let identity <-
      identityForBlock sha256 context parentDigest blockIndex block pageSize
    let identities <- chainIdentities context pageSize identity.digest (blockIndex + 1) rest
    pure (identity :: identities)

def buildIdentities (blocks : List (List TokenId)) (pageSize : Nat)
    (context : PrefixCacheContext) : Except Exc (List PrefixBlockIdentity) := do
  let seed <- contextSeed sha256 context pageSize
  chainIdentities sha256 context pageSize seed 0 blocks

theorem identityForBlock_eq_ok_iff :
    identityForBlock sha256 context parentDigest blockIndex block pageSize = .ok identity <->
      (0 < block.length ∧ block.length ≤ pageSize) ∧
        exists message, blockMessage parentDigest blockIndex block = .ok message ∧
          identity.context = context ∧ identity.digest = sha256 message ∧
          identity.blockIndex = blockIndex ∧
          identity.tokenCount = blockIndex * pageSize + block.length := by
  unfold identityForBlock
  by_cases hsize : 0 < block.length ∧ block.length ≤ pageSize
  · rw [dif_pos hsize]
    cases hmessage : blockMessage parentDigest blockIndex block with
    | error e => simp [bind, Except.bind]
    | ok message =>
      simp only [bind, Except.bind, pure, Except.pure, Except.ok.injEq, hsize, and_self,
        true_and, exists_eq_left']
      constructor
      · rintro rfl
        exact ⟨rfl, rfl, rfl, rfl⟩
      · rintro ⟨hcontext, hdigest, hindex, hcount⟩
        exact PrefixBlockIdentity.ext hcontext.symm hdigest.symm hindex.symm hcount.symm
  · simp [hsize]

theorem chainIdentities_cons (parentDigest : Digest) (blockIndex : Nat) (block : List TokenId)
    (rest : List (List TokenId)) :
    chainIdentities sha256 context pageSize parentDigest blockIndex (block :: rest) =
        .ok identities <-> (rest ≠ [] -> block.length = pageSize) ∧ exists identity below,
          identityForBlock sha256 context parentDigest blockIndex block pageSize = .ok identity ∧
            chainIdentities sha256 context pageSize identity.digest (blockIndex + 1) rest =
              .ok below ∧ identities = identity :: below := by
  rw [chainIdentities]
  by_cases hpartial : rest ≠ [] ∧ block.length ≠ pageSize
  · rw [if_pos hpartial]
    constructor
    · intro h
      cases h
    · intro h
      exact absurd (h.1 hpartial.1) hpartial.2
  · have hfull : rest ≠ [] -> block.length = pageSize := by
      intro hrest
      by_contra hne
      exact hpartial ⟨hrest, hne⟩
    rw [if_neg hpartial, except_bind_eq_ok_iff]
    simp only [except_bind_eq_ok_iff]
    constructor
    · rintro ⟨identity, hidentity, below, hbelow, heq⟩
      exact ⟨hfull, identity, below, hidentity, hbelow, (Except.ok.inj heq).symm⟩
    · rintro ⟨_, identity, below, hidentity, hbelow, heq⟩
      exact ⟨identity, hidentity, below, hbelow, congrArg Except.ok heq.symm⟩

/-- A chain of complete blocks is extended by one block under its last digest. -/
theorem chainIdentities_concat
    (hblocks : chainIdentities sha256 context pageSize parentDigest blockIndex blocks =
    .ok identities) (hfull : forall b, b ∈ blocks -> b.length = pageSize)
    (hlast : identityForBlock sha256 context
    ((identities.getLast?.map PrefixBlockIdentity.digest).getD parentDigest)
    (blockIndex + blocks.length) block pageSize = .ok identity) :
    chainIdentities sha256 context pageSize parentDigest blockIndex (blocks ++ [block]) =
      .ok (identities ++ [identity]) := by
  induction blocks generalizing parentDigest blockIndex identities with
  | nil =>
    cases hblocks
    rw [List.nil_append, chainIdentities_cons]
    exact ⟨fun h => absurd rfl h, identity, [], hlast, rfl, rfl⟩
  | cons first rest ih =>
    rcases (chainIdentities_cons sha256 ..).mp hblocks with ⟨_, head, below, hhead, hbelow, rfl⟩
    rw [List.cons_append, chainIdentities_cons]
    refine ⟨fun _ => hfull first (by simp), head, below ++ [identity], hhead, ?_, rfl⟩
    refine ih hbelow (fun b hb => hfull b (by simp [hb])) ?_
    rw [List.getLast?_cons] at hlast
    rw [Nat.add_right_comm, Nat.add_assoc]
    cases hlastBelow : below.getLast? with
    | none => simpa [hlastBelow] using hlast
    | some last => simpa [hlastBelow] using hlast

end Sha256

/-!
## Splitting tokens into blocks
-/

/-- The slices `tokens[i * size : (i + 1) * size]` for `i < count`. -/
def slices (size count : Nat) (tokens : List TokenId) : List (List TokenId) :=
  (List.range count).map fun i => (tokens.drop (i * size)).take size

/-- The length of `range(0, stop, step)`. -/
def rangeLength (stop step : Nat) : Nat :=
  (stop + step - 1) / step

def validateTokenId (tokenId : Int) : Except Exc TokenId :=
  if 0 ≤ tokenId ∧ tokenId ≤ maxTokenId then
    .ok tokenId.toNat
  else
    .error (.valueError "token ids must be integers in [0, 9223372036854775807]")

def normalizeTokenIds (tokenIds : List Int) : Except Exc (List TokenId) :=
  tokenIds.mapM validateTokenId

def fullTokenBlocks (tokenIds : List Int) (pageSize : Nat) : Except Exc (List (List TokenId)) := do
  if pageSize = 0 then
    throw (.valueError "page_size must be positive")
  let normalized <- normalizeTokenIds tokenIds
  pure (slices pageSize (normalized.length / pageSize) normalized)

end Prefix
end Ayaka
