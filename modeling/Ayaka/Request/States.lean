import Mathlib

/-!
# Request states

The states of a request and the edges between them.  Cancellation and failure
leave every state that is not terminal; there are no self-loops.
-/

namespace Ayaka
namespace Request

inductive RequestState where
  | created
  | validating
  | tokenizing
  | cacheLookup
  | waiting
  | admitted
  | prefill
  | decoding
  | streaming
  | finished
  | waitingKV
  | waitingRemoteKV
  | preempted
  | swapped
  | paused
  | migrating
  | retrying
  | cancelled
  | failed
  deriving DecidableEq, Repr

namespace RequestState

def value : RequestState -> String
  | created => "created"
  | validating => "validating"
  | tokenizing => "tokenizing"
  | cacheLookup => "cache_lookup"
  | waiting => "waiting"
  | admitted => "admitted"
  | prefill => "prefill"
  | decoding => "decoding"
  | streaming => "streaming"
  | finished => "finished"
  | waitingKV => "waiting_kv"
  | waitingRemoteKV => "waiting_remote_kv"
  | preempted => "preempted"
  | swapped => "swapped"
  | paused => "paused"
  | migrating => "migrating"
  | retrying => "retrying"
  | cancelled => "cancelled"
  | failed => "failed"

/-- `TERMINAL_STATES`. -/
def isTerminal : RequestState -> Bool
  | finished | cancelled | failed => true
  | _ => false

/-- The table of `_build` before the common exits are added. -/
def ownTargets : RequestState -> List RequestState
  | created => [validating]
  | validating => [tokenizing]
  | tokenizing => [cacheLookup]
  | cacheLookup => [waiting, waitingRemoteKV]
  | waiting => [admitted, waitingKV]
  | waitingKV => [waiting, admitted]
  | waitingRemoteKV => [waiting, cacheLookup]
  | admitted => [prefill, decoding, preempted, swapped, migrating]
  | prefill => [decoding, preempted, swapped, paused, migrating, retrying, finished]
  | decoding => [streaming, finished, preempted, swapped, paused, migrating, retrying]
  | streaming => [decoding, finished, paused, preempted, swapped]
  | preempted => [waiting]
  | swapped => [waiting, admitted, preempted]
  | paused => [prefill, decoding, streaming, preempted, swapped]
  | migrating => [admitted, prefill, decoding, retrying]
  | retrying => [waiting, cacheLookup]
  | finished | cancelled | failed => []

def legalTargets (state : RequestState) : List RequestState :=
  if state.isTerminal then state.ownTargets else state.ownTargets ++ [cancelled, failed]

def isLegal (src dst : RequestState) : Bool :=
  decide (dst ∈ src.legalTargets)

end RequestState

end Request
end Ayaka
