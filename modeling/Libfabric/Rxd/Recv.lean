import Mathlib.Data.List.Basic

/-! The receive side of an rxd endpoint toward one peer (`rxd_cq.c`).
`rxd_handle_data` and `rxd_handle_op` take a packet whose `seq_no` is the
peer's `rx_seq_no` and move `rx_seq_no` on. With `rxd_env.retry` set a packet
out of sequence is dropped; with it off the packet is kept on `buf_pkts` by
`dlist_insert_order`, and `rxd_progress_buf_pkts` drains the head once it is
next. What `rxd_unpack_init_rx` finds for an op packet is carried by the packet
(`RxdOpFate`). Besides the source's state, the peer keeps the sequence numbers
it has taken in (`accepted`). -/
namespace Libfabric.Rxd.Recv

/-- `dlist_insert_order(head, order, entry)`: insert `entry` before the first
item `order(item, entry)` holds of, or at the tail. -/
def dlistInsertOrder {α : Type} (order : α → α → Bool) (entry : α) : List α → List α
  | [] => [entry]
  | item :: rest => if order item entry then entry :: item :: rest else item :: dlistInsertOrder order entry rest

/-- What `rxd_unpack_init_rx` gives for an op packet when it is taken in:
an error, a matching rx entry, or none. With none, an `RXD_MSG` or
`RXD_TAGGED` packet becomes the unexpected message `curr_unexp` (carrying
its `sar_hdr` and segment count), or fails to get one (`noMem`); other ops
are refused. -/
inductive RxdOpFate where
  | invalid
  | matched
  | unexpected (sar : Bool) (numSegs : Nat)
  | noMem
  | refused
  deriving DecidableEq, Repr

/-- A data or op packet from the peer. A data packet is `RXD_DATA` or, with
`read`, `RXD_DATA_READ`; `short` is a packet smaller than its header. -/
inductive RxdPktBody where
  | data (read : Bool) (segNo : Nat) (short : Bool)
  | op (fate : RxdOpFate)
  deriving DecidableEq, Repr

structure RxdPkt where
  seqNo : Nat
  body : RxdPktBody
  deriving DecidableEq, Repr

/-- The receive side of `struct rxd_peer`: `rx_seq_no`, `buf_pkts` in list
order, the segment count of `curr_unexp`, and whether `peer_addr` is set. -/
structure RxdRxPeer where
  rxSeqNo : Nat
  bufPkts : List RxdPkt
  currUnexp : Option Nat
  peerAddrValid : Bool
  accepted : List Nat
  deriving DecidableEq, Repr

def rxdCompPktSeqNo (item new : RxdPkt) : Bool := decide (new.seqNo > item.seqNo)

def bufferPkt (peer : RxdRxPeer) (pkt : RxdPkt) : RxdRxPeer :=
  { peer with bufPkts := dlistInsertOrder rxdCompPktSeqNo pkt peer.bufPkts }

def accept (peer : RxdRxPeer) (pkt : RxdPkt) : RxdRxPeer :=
  { peer with rxSeqNo := peer.rxSeqNo + 1, accepted := peer.accepted ++ [pkt.seqNo] }

def RxdRxPeer.headNext (peer : RxdRxPeer) : Bool :=
  peer.bufPkts.head?.map RxdPkt.seqNo == some peer.rxSeqNo

/-- `rxd_progress_buf_pkts`: take buffered packets from the head of
`buf_pkts` while the head is next in sequence. -/
def rxdProgressBufPkts (peer : RxdRxPeer) : RxdRxPeer :=
  match _buffered : peer.bufPkts with
  | [] => peer
  | pkt :: rest =>
    if pkt.seqNo ≠ peer.rxSeqNo then peer
    else
      match pkt.body with
      | .data _ _ _ => rxdProgressBufPkts { accept peer pkt with bufPkts := rest }
      | .op fate =>
        match fate with
        -- an error completion, and the packet is freed
        | .invalid => rxdProgressBufPkts { accept peer pkt with bufPkts := rest }
        -- `rx_seq_no++; continue;` with the packet left on the list
        | .unexpected _ numSegs => rxdProgressBufPkts { accept peer pkt with currUnexp := some numSegs }
        | .noMem => rxdProgressBufPkts (accept peer pkt)
        | .refused => peer
        | .matched => rxdProgressBufPkts { accept peer pkt with bufPkts := rest }
-- a `continue` keeps the list but moves `rx_seq_no` past its head
termination_by peer.bufPkts.length + peer.headNext.toNat
decreasing_by all_goals simp_all [RxdRxPeer.headNext, accept] <;> grind [Bool.toNat_le]

def rxdHandleData (retry : Bool) (peer : RxdRxPeer) (pkt : RxdPkt) (read : Bool) (segNo : Nat)
    (short : Bool) : RxdRxPeer :=
  if short then peer
  else if pkt.seqNo = peer.rxSeqNo then
    let peer := accept peer pkt
    match read, peer.currUnexp with
    -- the packet joins the unexpected message, and `buf_pkts` waits
    | false, some numSegs => if segNo + 1 = numSegs - 1 then { peer with currUnexp := none } else peer
    | _, _ => if peer.bufPkts = [] then peer else rxdProgressBufPkts peer
  else if !retry then bufferPkt peer pkt
  else peer

def rxdHandleOp (retry : Bool) (peer : RxdRxPeer) (pkt : RxdPkt) (fate : RxdOpFate) : RxdRxPeer :=
  if pkt.seqNo ≠ peer.rxSeqNo then
    if !retry then bufferPkt peer pkt else peer
  else if !peer.peerAddrValid then peer
  else
    match fate with
    | .invalid | .noMem | .refused => peer
    -- `rxd_match_rx` set `curr_unexp`; without a `sar_hdr` it is done at once
    | .unexpected sar numSegs => { accept peer pkt with currUnexp := if sar then some numSegs else none }
    | .matched =>
      let peer := accept peer pkt
      if peer.bufPkts = [] then peer else rxdProgressBufPkts peer

def rxdHandlePkt (retry : Bool) (peer : RxdRxPeer) (pkt : RxdPkt) : RxdRxPeer :=
  match pkt.body with
  | .data read segNo short => rxdHandleData retry peer pkt read segNo short
  | .op fate => rxdHandleOp retry peer pkt fate

/-- The packets arriving one after another, in any order the network gives. -/
def rxdRecvRun (retry : Bool) (peer : RxdRxPeer) (arrivals : List RxdPkt) : RxdRxPeer :=
  arrivals.foldl (rxdHandlePkt retry) peer

/-- A peer just inserted into the address vector. -/
def RxdRxPeer.fresh : RxdRxPeer where
  rxSeqNo := 0
  bufPkts := []
  currUnexp := none
  peerAddrValid := true
  accepted := []

end Libfabric.Rxd.Recv
