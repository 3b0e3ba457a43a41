import Ayaka.Foundation.Effect
import Ayaka.Executor.Failure

/-!
# Node transfer framing

A ticket moves between nodes as a list of byte chunks.  Over TCP every chunk is a
frame with its length in front, in process the chunks are handed over as they are;
the receiver asks for pieces of the sizes it expects.

A socket holds the bytes sent and not yet received.  How many of them a `recv`
returns is up to the system, at least one as long as there are any; once there are
none the peer has closed, which also stands for a receiver that waits for ever.
-/

namespace Ayaka
namespace Serving

open Foundation
open Executor (Failure)

abbrev Bytes := List UInt8

/-! ## Frames -/

/-- The digits of a number to the base 256, lowest first. -/
def pack : Nat -> Nat -> Bytes
  | 0, _ => []
  | width + 1, n => UInt8.ofNat n :: pack width (n / 256)

def unpack (bytes : Bytes) : Nat :=
  bytes.foldr (fun byte high => byte.toNat + 256 * high) 0

/-- `_HEADER.pack(len(payload), 0) + payload`, the bytes `_send_frame` sends. -/
def frame (payload : Bytes) : Bytes :=
  pack 8 payload.length ++ pack 8 0 ++ payload

structure Socket where
  stream : Bytes
  cut : Nat -> Nat

abbrev SocketM := EStateM Failure Socket

def recv (size : Nat) : SocketM Bytes := do
  let sock <- get
  let count := min size (sock.cut 0 + 1)
  set ({ stream := sock.stream.drop count, cut := fun n => sock.cut (n + 1) } : Socket)
  return sock.stream.take count

/-- The loop of `_recv_exact`; each round but the last brings a byte. -/
def recvLoop (size : Nat) : Nat -> Bytes -> SocketM Bytes
  | 0, chunks => pure chunks
  | fuel + 1, chunks =>
    if chunks.length < size then do
      let data <- recv (size - chunks.length)
      if data = [] then
        throw (.exception "peer closed mid-frame")
      recvLoop size fuel (chunks ++ data)
    else
      pure chunks

def recvExact (size : Nat) : SocketM Bytes :=
  recvLoop size size []

def recvFrame : SocketM Bytes := do
  let header <- recvExact 16
  recvExact (unpack (header.take 8))

/-! ## Channels -/

namespace TcpRemoteChannel

/-- `send_chunks`: the bytes it puts on the wire. -/
def sendChunks (chunks : List Bytes) : Bytes :=
  chunks.flatMap frame

/-- The loop over the frames of one piece; every frame takes some of the stream. -/
def collect (expected : Nat) : Nat -> Bytes -> SocketM Bytes
  | 0, chunk => pure chunk
  | fuel + 1, chunk =>
    if chunk.length < expected then do
      collect expected fuel (chunk ++ (<- recvFrame))
    else
      pure chunk

def recvChunks : List Nat -> SocketM (List Bytes)
  | [] => pure []
  | expected :: rest => do
    let chunk <- collect expected ((<- get).stream.length + 1) []
    return chunk.take expected :: (<- recvChunks rest)

end TcpRemoteChannel

namespace LoopbackRemoteChannel

/-- The state is the inbox of the twin, to which `send_chunks` appends. -/
abbrev LoopbackM := EStateM Failure (List Bytes)

/-- The loop over the chunks of one piece. -/
def collect (expected : Nat) : Bytes -> LoopbackM Bytes
  | chunk, [] =>
    if chunk.length < expected then
      .error (.runtimeError "loopback inbox drained before the ticket") []
    else
      .ok chunk []
  | chunk, next :: inbox =>
    if chunk.length < expected then
      collect expected (chunk ++ next) inbox
    else
      .ok chunk (next :: inbox)

def recvChunks : List Nat -> LoopbackM (List Bytes)
  | [] => pure []
  | expected :: rest => do
    let chunk <- collect expected []
    return chunk :: (<- recvChunks rest)

end LoopbackRemoteChannel

/-! ## Receiving -/

open TcpRemoteChannel (sendChunks)

theorem sendChunks_cons (chunk : Bytes) (chunks : List Bytes) :
    sendChunks (chunk :: chunks) = frame chunk ++ sendChunks chunks :=
  List.flatMap_cons

theorem length_pack (width n : Nat) : (pack width n).length = width := by
  induction width generalizing n with
  | zero => rfl
  | succ width ih => rw [pack, List.length_cons, ih]

theorem unpack_pack (width n : Nat) : unpack (pack width n) = n % 256 ^ width := by
  induction width generalizing n with
  | zero => rw [pow_zero, Nat.mod_one]; rfl
  | succ width ih =>
    rw [pack, unpack, List.foldr_cons, <- unpack, ih, pow_succ', Nat.mod_mul]
    rfl

theorem recvLoop_run (chunks data rest : Bytes) (cut : Nat -> Nat)
    (hsize : chunks.length + data.length = size) (hfuel : data.length ≤ fuel) :
    exists cut', recvLoop size fuel chunks ⟨data ++ rest, cut⟩ =
      .ok (chunks ++ data) ⟨rest, cut'⟩ := by
  induction fuel generalizing chunks data cut with
  | zero =>
    rw [List.eq_nil_of_length_eq_zero (Nat.le_zero.mp hfuel), List.append_nil]
    exact ⟨cut, rfl⟩
  | succ fuel ih =>
    unfold recvLoop
    by_cases hmore : chunks.length < size
    · rw [if_pos hmore]
      -- what this `recv` returns is a first part of what is missing, and not empty
      obtain ⟨count, hcount⟩ : exists count, count = min (size - chunks.length) (cut 0 + 1) :=
        ⟨_, rfl⟩
      have hle : count ≤ data.length := by omega
      have hrecv : recv (size - chunks.length) ⟨data ++ rest, cut⟩ =
          .ok (data.take count) ⟨data.drop count ++ rest, fun n => cut (n + 1)⟩ := by
        rw [<- List.take_append_of_le_length hle, <- List.drop_append_of_le_length hle, hcount]
        rfl
      have hlength : (data.take count).length = count := List.length_take_of_le hle
      have hsome : data.take count ≠ [] := by
        intro hnil
        rw [hnil, List.length_nil] at hlength
        omega
      rw [bind_run_ok _ hrecv, if_neg hsome]
      have hrun := ih (chunks ++ data.take count) (data.drop count) (fun n => cut (n + 1))
        (by simp; omega) (by simp; omega)
      rw [List.append_assoc, List.take_append_drop] at hrun
      exact hrun
    · have hnil : data = [] := List.eq_nil_of_length_eq_zero (by omega)
      rw [if_neg hmore, hnil, List.append_nil]
      exact ⟨cut, rfl⟩

theorem recvExact_run (data rest : Bytes) (cut : Nat -> Nat) :
    exists cut', recvExact data.length ⟨data ++ rest, cut⟩ = .ok data ⟨rest, cut'⟩ :=
  recvLoop_run [] data rest cut (Nat.zero_add _) le_rfl

/-- A frame comes out as it went in, however the stream is cut. -/
theorem recvFrame_run (hshort : payload.length < 256 ^ 8) (rest : Bytes) (cut : Nat -> Nat) :
    exists cut', recvFrame ⟨frame payload ++ rest, cut⟩ = .ok payload ⟨rest, cut'⟩ := by
  have hheader : (pack 8 payload.length ++ pack 8 0).length = 16 := by
    rw [List.length_append, length_pack, length_pack]
  rcases recvExact_run (pack 8 payload.length ++ pack 8 0) (payload ++ rest) cut with ⟨cut', hfirst⟩
  rw [hheader, <- List.append_assoc] at hfirst
  rw [recvFrame, frame, bind_run_ok _ hfirst,
    List.take_left' (length_pack 8 payload.length), unpack_pack, Nat.mod_eq_of_lt hshort]
  exact recvExact_run payload rest cut'

/-! ## Tickets -/

/-- A chunk a ticket may carry: not empty, and with a length the header can tell. -/
def Sendable (chunk : Bytes) : Prop :=
  chunk ≠ [] ∧ chunk.length < 256 ^ 8

structure Ticket where
  chunks : List Bytes
  sizes : List Nat
  sendable : forall chunk, chunk ∈ chunks -> Sendable chunk
  total : sizes.sum = chunks.flatten.length

/-- No chunk crosses the end of a piece: every expected size is the total of the next
whole chunks. -/
def Ticket.Aligned (t : Ticket) : Prop :=
  exists groups : List (List Bytes), groups.flatten = t.chunks ∧
    groups.map (fun group => group.flatten.length) = t.sizes

section

variable {expected : Nat} {group : List Bytes} (rest : List Bytes) (chunk : Bytes)

theorem short_of_cons (hnext : Sendable next)
    (hexpected : chunk.length + (next :: group).flatten.length = expected) :
    chunk.length < expected ∧ (chunk ++ next).length + group.flatten.length = expected := by
  have hpos := List.length_pos_of_ne_nil hnext.1
  rw [List.flatten_cons, List.length_append] at hexpected
  rw [List.length_append]
  omega

variable (hgroup : forall next, next ∈ group -> Sendable next)
  (hexpected : chunk.length + group.flatten.length = expected)
include hgroup hexpected

theorem LoopbackRemoteChannel.collect_run : LoopbackRemoteChannel.collect expected chunk
    (group ++ rest) = .ok (chunk ++ group.flatten) rest := by
  induction group generalizing chunk with
  | nil =>
    have hdone : ¬ chunk.length < expected := by
      rw [List.flatten_nil, List.length_nil] at hexpected
      omega
    rw [List.nil_append, List.flatten_nil, List.append_nil]
    cases rest with
    | nil => exact if_neg hdone
    | cons next rest => exact if_neg hdone
  | cons next group ih =>
    rw [List.forall_mem_cons] at hgroup
    have hshort := short_of_cons chunk hgroup.1 hexpected
    rw [List.flatten_cons, <- List.append_assoc, <- ih (chunk ++ next) hgroup.2 hshort.2]
    exact if_pos hshort.1

theorem TcpRemoteChannel.collect_run (hfuel : group.length ≤ fuel)
    (cut : Nat -> Nat) : exists cut', TcpRemoteChannel.collect expected fuel chunk
      ⟨sendChunks (group ++ rest), cut⟩ = .ok (chunk ++ group.flatten) ⟨sendChunks rest, cut'⟩ := by
  induction group generalizing chunk fuel cut with
  | nil =>
    have hdone : ¬ chunk.length < expected := by
      rw [List.flatten_nil, List.length_nil] at hexpected
      omega
    rw [List.nil_append, List.flatten_nil, List.append_nil]
    refine ⟨cut, ?_⟩
    cases fuel with
    | zero => rfl
    | succ fuel => rw [TcpRemoteChannel.collect, if_neg hdone]; rfl
  | cons next group ih =>
    rw [List.forall_mem_cons] at hgroup
    have hshort := short_of_cons chunk hgroup.1 hexpected
    cases fuel with
    | zero => exact absurd hfuel (Nat.not_succ_le_zero _)
    | succ fuel =>
      rcases recvFrame_run hgroup.1.2 (sendChunks (group ++ rest)) cut with ⟨cut', hframe⟩
      have hrun := ih (chunk ++ next) hgroup.2 hshort.2 (Nat.le_of_succ_le_succ hfuel) cut'
      rw [List.flatten_cons, <- List.append_assoc, TcpRemoteChannel.collect, if_pos hshort.1,
        List.cons_append, sendChunks_cons, bind_run_ok _ hframe]
      exact hrun

end

theorem length_le_sendChunks (chunks : List Bytes) :
    chunks.length ≤ (sendChunks chunks).length := by
  induction chunks with
  | nil => exact Nat.zero_le _
  | cons chunk chunks ih =>
    simp only [sendChunks_cons, frame, List.length_append, List.length_cons, length_pack]
    omega

section

variable {groups : List (List Bytes)} (rest : List Bytes)
  (hgroups : forall group, group ∈ groups -> forall chunk, chunk ∈ group -> Sendable chunk)
include hgroups

theorem LoopbackRemoteChannel.recvChunks_run : LoopbackRemoteChannel.recvChunks
    (groups.map fun group => group.flatten.length) (groups.flatten ++ rest) =
      .ok (groups.map List.flatten) rest := by
  induction groups with
  | nil => rfl
  | cons group groups ih =>
    rw [List.forall_mem_cons] at hgroups
    rw [List.map_cons, List.flatten_cons, List.append_assoc, LoopbackRemoteChannel.recvChunks,
      bind_run_ok _ (LoopbackRemoteChannel.collect_run _ [] hgroups.1 (Nat.zero_add _)),
      bind_run_ok _ (ih hgroups.2)]
    rfl

theorem TcpRemoteChannel.recvChunks_run (cut : Nat -> Nat) :
    exists cut', TcpRemoteChannel.recvChunks (groups.map fun group => group.flatten.length)
      ⟨sendChunks (groups.flatten ++ rest), cut⟩ =
      .ok (groups.map List.flatten) ⟨sendChunks rest, cut'⟩ := by
  induction groups generalizing cut with
  | nil => exact ⟨cut, rfl⟩
  | cons group groups ih =>
    rw [List.forall_mem_cons] at hgroups
    have hfuel : group.length ≤ (sendChunks (group ++ (groups.flatten ++ rest))).length + 1 := by
      have hall := length_le_sendChunks (group ++ (groups.flatten ++ rest))
      rw [List.length_append] at hall
      omega
    rcases TcpRemoteChannel.collect_run (groups.flatten ++ rest) [] hgroups.1 (Nat.zero_add _)
      hfuel cut with ⟨cut', hcollect⟩
    rcases ih hgroups.2 cut' with ⟨last, hrest⟩
    rw [List.map_cons, List.flatten_cons, List.append_assoc, TcpRemoteChannel.recvChunks,
      get_bind_run, bind_run_ok _ hcollect, bind_run_ok _ hrest]
    refine ⟨last, ?_⟩
    rw [List.nil_append, List.take_length]
    rfl

end

/-- Pieces of the expected sizes that make up what was sent. -/
def Received (t : Ticket) (pieces : List Bytes) : Prop :=
  pieces.map List.length = t.sizes ∧ pieces.flatten = t.chunks.flatten

/-- Tickets whose chunks cross no end of a piece come out whole on both channels,
whatever follows them and however the stream is cut. -/
theorem tickets_received (tickets : List Ticket)
    (haligned : forall t, t ∈ tickets -> t.Aligned) (rest : List Bytes) (cut : Nat -> Nat) :
    exists results cut', List.Forall₂ Received tickets results ∧
      (tickets.mapM fun t => TcpRemoteChannel.recvChunks t.sizes)
        ⟨sendChunks (tickets.flatMap Ticket.chunks ++ rest), cut⟩ =
          .ok results ⟨sendChunks rest, cut'⟩ ∧
      (tickets.mapM fun t => LoopbackRemoteChannel.recvChunks t.sizes)
        (tickets.flatMap Ticket.chunks ++ rest) = .ok results rest := by
  induction tickets generalizing cut with
  | nil => exact ⟨[], cut, .nil, rfl, rfl⟩
  | cons t tickets ih =>
    rw [List.forall_mem_cons] at haligned
    rcases haligned.1 with ⟨groups, hchunks, hsizes⟩
    have hgroups : forall group, group ∈ groups -> forall chunk, chunk ∈ group ->
        Sendable chunk := by
      intro group hgroup chunk hchunk
      exact t.sendable chunk (hchunks ▸ List.mem_flatten_of_mem hgroup hchunk)
    have hloop := LoopbackRemoteChannel.recvChunks_run
      (tickets.flatMap Ticket.chunks ++ rest) hgroups
    rcases TcpRemoteChannel.recvChunks_run (tickets.flatMap Ticket.chunks ++ rest) hgroups cut
      with ⟨cut', htcp⟩
    rcases ih haligned.2 cut' with ⟨results, last, hresults, htcps, hloops⟩
    rw [hchunks, hsizes] at hloop htcp
    refine ⟨groups.map List.flatten :: results, last, .cons ⟨?_, ?_⟩ hresults, ?_, ?_⟩
    · rw [<- hsizes, List.map_map]
      rfl
    · rw [<- hchunks]
      exact List.flatten_flatten.symm
    · rw [List.mapM_cons, List.flatMap_cons, List.append_assoc, bind_run_ok _ htcp,
        bind_run_ok _ htcps]
      rfl
    · rw [List.mapM_cons, List.flatMap_cons, List.append_assoc, bind_run_ok _ hloop,
        bind_run_ok _ hloops]
      rfl

def whole : Ticket where
  chunks := [[1], [2], [3]]
  sizes := [1, 2]
  sendable := by simp [Sendable]
  total := rfl

theorem tickets_received_whole : exists results cut, List.Forall₂ Received [whole] results ∧
    ([whole].mapM fun t => TcpRemoteChannel.recvChunks t.sizes)
      ⟨sendChunks ([[1], [2], [3]] ++ [[4]]), fun _ => 0⟩ =
        .ok results ⟨sendChunks [[4]], cut⟩ ∧
    ([whole].mapM fun t => LoopbackRemoteChannel.recvChunks t.sizes)
      ([[1], [2], [3]] ++ [[4]]) = .ok results [[4]] :=
  tickets_received [whole] (by simpa using ⟨[[[1]], [[2], [3]]], rfl, rfl⟩) [[4]] fun _ => 0

def crossing : Ticket where
  chunks := [[1, 2, 3]]
  sizes := [1, 2]
  sendable := by simp [Sendable]
  total := rfl

theorem crossing_lost :
    returned? (TcpRemoteChannel.recvChunks crossing.sizes
        ⟨sendChunks (crossing.chunks ++ [[4, 5]]), fun _ => 6⟩) = some [[1], [4, 5]] ∧
      returned? (LoopbackRemoteChannel.recvChunks crossing.sizes
        (crossing.chunks ++ [[4, 5]])) = some [[1, 2, 3], [4, 5]] := by
  decide

end Serving
end Ayaka
