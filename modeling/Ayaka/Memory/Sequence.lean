import Ayaka.Foundation.Effect
import Ayaka.Foundation.IndexMap
import Ayaka.Memory.State

/-!
# Sequence page tables

A sequence's KV is a list of page-table entries, each a page and the number of
its positions attention may read.
-/

namespace Ayaka
namespace Memory

open Foundation

/-- One committed logical block; an entry without tokens cannot be built. -/
@[ext] structure PageTableEntry where
  page : KVPageHandle
  validTokens : Nat
  validTokens_pos : 0 < validTokens
  deriving Repr

instance : DecidableEq PageTableEntry :=
  fun _ _ => decidable_of_iff _ PageTableEntry.ext_iff.symm

def PageTableEntry.new (page : KVPageHandle) (validTokens : Nat) : Except Exc PageTableEntry :=
  if h : 0 < validTokens then
    .ok { page, validTokens, validTokens_pos := h }
  else
    .error (.valueError "a committed page-table entry must contain tokens")

end Memory
end Ayaka
