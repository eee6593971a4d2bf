import Libfabric.Rxd.Recv

/-! The receive side takes packets in strictly in sequence in both modes: the
numbers taken in are `rx_seq_no`, `rx_seq_no + 1`, … whatever the network
drops, repeats or reorders. With retry off, `buf_pkts` is kept in
non-increasing order, so its head is the latest packet, while the drain only
takes the head: once `a` and a later `b` are buffered with `rx_seq_no` not past
`a`, nothing leaves the buffer unless `a` arrives again. -/
namespace Libfabric.Rxd.Recv

section InsertOrder

variable {α : Type} {order : α → α → Bool} {entry : α} {l : List α}

theorem mem_dlistInsertOrder {x : α} : x ∈ dlistInsertOrder order entry l ↔ x = entry ∨ x ∈ l := by
  induction l with
  | nil => simp [dlistInsertOrder]
  | cons item rest ih =>
    simp only [dlistInsertOrder]
    split <;> simp [ih, or_left_comm]

theorem pairwise_dlistInsertOrder (key : α → Nat) (sorted : l.Pairwise fun x y => key y ≤ key x) :
    (dlistInsertOrder (fun item new => decide (key new > key item)) entry l).Pairwise
      fun x y => key y ≤ key x := by
  induction l with
  | nil => simp [dlistInsertOrder]
  | cons item rest ih =>
    rw [List.pairwise_cons] at sorted
    simp only [dlistInsertOrder]
    split
    · rename_i larger
      have larger : key item < key entry := by simpa using larger
      refine List.Pairwise.cons (fun y mem => ?_) (List.Pairwise.cons sorted.1 sorted.2)
      rcases List.mem_cons.mp mem with rfl | mem
      · exact Nat.le_of_lt larger
      · exact Nat.le_trans (sorted.1 y mem) (Nat.le_of_lt larger)
    · rename_i smaller
      have smaller : key entry ≤ key item := by simpa using smaller
      refine List.Pairwise.cons (fun y mem => ?_) (ih sorted.2)
      rcases mem_dlistInsertOrder.mp mem with rfl | mem
      · exact smaller
      · exact sorted.1 y mem

end InsertOrder

/-- `buf_pkts` from its head: each packet numbered at or after the ones behind it. -/
def Descending (peer : RxdRxPeer) : Prop := peer.bufPkts.Pairwise fun x y => y.seqNo ≤ x.seqNo

/-- The packets taken in from `peer` to `peer'` are numbered from `peer`'s
`rx_seq_no` on, one for each step of `rx_seq_no`. -/
def Extends (peer peer' : RxdRxPeer) : Prop :=
  peer.rxSeqNo ≤ peer'.rxSeqNo ∧
    peer'.accepted = peer.accepted ++ List.range' peer.rxSeqNo (peer'.rxSeqNo - peer.rxSeqNo)

/-- What handling one packet can do to the peer: nothing, keep the packet on
`buf_pkts` (retry off), or take it in when it is next in sequence and then
set `curr_unexp` or drain `buf_pkts`. -/
inductive HandleMove (retry : Bool) (peer : RxdRxPeer) (pkt : RxdPkt) : RxdRxPeer → Prop where
  | drop : HandleMove retry peer pkt peer
  | buffer : pkt.seqNo ≠ peer.rxSeqNo → retry = false → HandleMove retry peer pkt (bufferPkt peer pkt)
  | take (currUnexp : Option Nat) : pkt.seqNo = peer.rxSeqNo →
      HandleMove retry peer pkt { accept peer pkt with currUnexp := currUnexp }
  | drain : pkt.seqNo = peer.rxSeqNo → HandleMove retry peer pkt (rxdProgressBufPkts (accept peer pkt))

section Moves

variable {retry : Bool} {peer : RxdRxPeer} {pkt : RxdPkt}

theorem rxdProgressBufPkts_suffix (peer : RxdRxPeer) : (rxdProgressBufPkts peer).bufPkts <:+ peer.bufPkts := by
  fun_induction rxdProgressBufPkts peer with
  | case1 => exact List.suffix_refl _
  | case2 => exact List.suffix_refl _
  | case3 peer pkt rest buffered _ _ _ _ _ ih => exact buffered ▸ ih.trans (List.suffix_cons pkt rest)
  | case4 peer pkt rest buffered _ _ ih => exact buffered ▸ ih.trans (List.suffix_cons pkt rest)
  | case5 _ _ _ _ _ _ _ _ ih => exact ih
  | case6 _ _ _ _ _ _ ih => exact ih
  | case7 => exact List.suffix_refl _
  | case8 peer pkt rest buffered _ _ ih => exact buffered ▸ ih.trans (List.suffix_cons pkt rest)

theorem rxdProgressBufPkts_of_head {rest : List RxdPkt} (head : peer.bufPkts = pkt :: rest)
    (ahead : pkt.seqNo ≠ peer.rxSeqNo) : rxdProgressBufPkts peer = peer := by
  rw [rxdProgressBufPkts]
  split
  · rfl
  · rename_i buffered
    rw [head, List.cons.injEq] at buffered
    obtain ⟨rfl, rfl⟩ := buffered
    rw [if_pos ahead]

/-- The `continue` after an unexpected message, or after one that found no
memory, takes the packet in but leaves it on `buf_pkts`, now behind
`rx_seq_no`: the next pass returns, and the drain stops there. -/
theorem rxdProgressBufPkts_continue_stops {rest : List RxdPkt} {fate : RxdOpFate} (head : peer.bufPkts = pkt :: rest)
    (next : pkt.seqNo = peer.rxSeqNo) (op : pkt.body = .op fate)
    (kept : (∃ sar numSegs, fate = .unexpected sar numSegs) ∨ fate = .noMem) :
    (rxdProgressBufPkts peer).bufPkts = pkt :: rest ∧ (rxdProgressBufPkts peer).rxSeqNo = pkt.seqNo + 1 := by
  have stops (peer' : RxdRxPeer) (same : peer'.bufPkts = pkt :: rest) (past : peer'.rxSeqNo = pkt.seqNo + 1) :
      rxdProgressBufPkts peer' = peer' :=
    rxdProgressBufPkts_of_head same (by omega)
  rw [rxdProgressBufPkts]
  split
  · rename_i empty
    rw [head] at empty
    cases empty
  rename_i buffered
  rw [head, List.cons.injEq] at buffered
  obtain ⟨rfl, rfl⟩ := buffered
  rw [if_neg (not_not.mpr next)]
  -- both branches call the drain again on the packet taken in
  rcases kept with ⟨sar, numSegs, rfl⟩ | rfl
  all_goals
    simp only [op]
    rw [stops]
    · exact ⟨head, by simp [accept, next]⟩
    · exact head
    · simp [accept, next]

theorem rxdHandleData_move (read : Bool) (segNo : Nat) (short : Bool) :
    HandleMove retry peer pkt (rxdHandleData retry peer pkt read segNo short) := by
  unfold rxdHandleData
  split
  · exact .drop
  split
  · rename_i next
    have taken : HandleMove retry peer pkt (accept peer pkt) := .take (accept peer pkt).currUnexp next
    dsimp only
    split
    · split
      · exact .take none next
      · exact taken
    · split
      · exact taken
      · exact .drain next
  rename_i ahead
  split
  · rename_i off
    exact .buffer ahead (by simpa using off)
  · exact .drop

theorem rxdHandleOp_move (fate : RxdOpFate) : HandleMove retry peer pkt (rxdHandleOp retry peer pkt fate) := by
  unfold rxdHandleOp
  split
  · rename_i ahead
    split
    · rename_i off
      exact .buffer ahead (by simpa using off)
    · exact .drop
  split
  · exact .drop
  rename_i ahead _
  have next := not_not.mp ahead
  split
  · exact .drop
  · exact .drop
  · exact .drop
  · exact .take _ next
  · dsimp only
    split
    · exact .take (accept peer pkt).currUnexp next
    · exact .drain next

theorem rxdRecvRun_append (retry : Bool) (peer : RxdRxPeer) (earlier later : List RxdPkt) :
    rxdRecvRun retry peer (earlier ++ later) = rxdRecvRun retry (rxdRecvRun retry peer earlier) later :=
  List.foldl_append

theorem rxdHandlePkt_move : HandleMove retry peer pkt (rxdHandlePkt retry peer pkt) := by
  unfold rxdHandlePkt
  split
  · exact rxdHandleData_move _ _ _
  · exact rxdHandleOp_move _

end Moves

section Sequence

variable {retry : Bool} {peer peer' peer'' : RxdRxPeer} {pkt : RxdPkt}

theorem Extends.refl (peer : RxdRxPeer) : Extends peer peer := ⟨Nat.le_refl _, by simp⟩

theorem Extends.trans (first : Extends peer peer') (second : Extends peer' peer'') : Extends peer peer'' := by
  obtain ⟨le₁, acc₁⟩ := first
  obtain ⟨le₂, acc₂⟩ := second
  refine ⟨Nat.le_trans le₁ le₂, ?_⟩
  have split : peer''.rxSeqNo - peer.rxSeqNo = (peer'.rxSeqNo - peer.rxSeqNo) + (peer''.rxSeqNo - peer'.rxSeqNo) := by
    omega
  have start : peer.rxSeqNo + 1 * (peer'.rxSeqNo - peer.rxSeqNo) = peer'.rxSeqNo := by omega
  rw [acc₂, acc₁, split, ← List.range'_append, start, List.append_assoc]

theorem extends_accept (next : pkt.seqNo = peer.rxSeqNo) : Extends peer (accept peer pkt) := by
  refine ⟨Nat.le_succ _, ?_⟩
  simp [accept, next]

theorem rxdProgressBufPkts_extends (peer : RxdRxPeer) : Extends peer (rxdProgressBufPkts peer) := by
  fun_induction rxdProgressBufPkts peer with
  | case1 => exact Extends.refl _
  | case2 => exact Extends.refl _
  | case3 peer pkt rest _ next _ _ _ _ ih => exact (extends_accept (not_not.mp next)).trans ih
  | case4 peer pkt rest _ next _ ih => exact (extends_accept (not_not.mp next)).trans ih
  | case5 peer pkt rest _ next _ _ _ ih => exact (extends_accept (not_not.mp next)).trans ih
  | case6 peer pkt rest _ next _ ih => exact (extends_accept (not_not.mp next)).trans ih
  | case7 => exact Extends.refl _
  | case8 peer pkt rest _ next _ ih => exact (extends_accept (not_not.mp next)).trans ih

theorem extends_of_move (move : HandleMove retry peer pkt peer') : Extends peer peer' := by
  cases move with
  | drop => exact Extends.refl peer
  | buffer => exact Extends.refl peer
  | take _ next => exact extends_accept next
  | drain next => exact (extends_accept next).trans (rxdProgressBufPkts_extends _)

/-- Whatever arrives, in whatever order and however often, the packets the
peer takes in are numbered `rx_seq_no`, `rx_seq_no + 1`, … in order, one for
each step of `rx_seq_no`, in both modes. -/
theorem rxdRecvRun_in_sequence (retry : Bool) (peer : RxdRxPeer) (arrivals : List RxdPkt) :
    Extends peer (rxdRecvRun retry peer arrivals) :=
  List.foldlRecOn arrivals (rxdHandlePkt retry) (Extends.refl peer) fun _ taken _ _ =>
    taken.trans (extends_of_move rxdHandlePkt_move)

end Sequence

section Stall

variable {retry : Bool} {peer peer' : RxdRxPeer} {pkt a b : RxdPkt}

theorem descending_bufferPkt (sorted : Descending peer) : Descending (bufferPkt peer pkt) :=
  pairwise_dlistInsertOrder RxdPkt.seqNo sorted

theorem descending_of_move (move : HandleMove retry peer pkt peer') (sorted : Descending peer) :
    Descending peer' := by
  cases move with
  | drop => exact sorted
  | buffer => exact descending_bufferPkt sorted
  | take => exact sorted
  | drain => exact sorted.sublist (rxdProgressBufPkts_suffix _).sublist

theorem descending_rxdRecvRun (arrivals : List RxdPkt) (sorted : Descending peer) :
    Descending (rxdRecvRun retry peer arrivals) :=
  List.foldlRecOn arrivals (rxdHandlePkt retry) sorted fun _ kept _ _ =>
    descending_of_move rxdHandlePkt_move kept

/-- `a` and a later-numbered `b` are both on `buf_pkts`, which is in order,
and `rx_seq_no` has not passed `a`. -/
structure Stalled (a b : RxdPkt) (peer : RxdRxPeer) : Prop where
  sorted : Descending peer
  memA : a ∈ peer.bufPkts
  memB : b ∈ peer.bufPkts
  before : a.seqNo < b.seqNo
  behind : peer.rxSeqNo ≤ a.seqNo

theorem Stalled.drain_idle (stalled : Stalled a b peer) : rxdProgressBufPkts peer = peer := by
  obtain ⟨sorted, _, memB, before, behind⟩ := stalled
  cases buffered : peer.bufPkts with
  | nil => rw [buffered] at memB; cases memB
  | cons head rest =>
    have atLeast : b.seqNo ≤ head.seqNo := by
      rw [Descending, buffered, List.pairwise_cons] at sorted
      rw [buffered] at memB
      rcases List.mem_cons.mp memB with rfl | memB
      · exact Nat.le_refl _
      · exact sorted.1 b memB
    exact rxdProgressBufPkts_of_head buffered (by omega)

theorem Stalled.take (stalled : Stalled a b peer) (next : pkt.seqNo = peer.rxSeqNo)
    (other : pkt.seqNo ≠ a.seqNo) (currUnexp : Option Nat) :
    Stalled a b { accept peer pkt with currUnexp := currUnexp } where
  sorted := stalled.sorted
  memA := stalled.memA
  memB := stalled.memB
  before := stalled.before
  behind := by
    have := stalled.behind
    show peer.rxSeqNo + 1 ≤ a.seqNo
    omega

theorem Stalled.of_move (stalled : Stalled a b peer) (move : HandleMove false peer pkt peer')
    (other : pkt.seqNo ≠ a.seqNo) : Stalled a b peer' := by
  cases move with
  | drop => exact stalled
  | buffer =>
    exact ⟨descending_bufferPkt stalled.sorted, mem_dlistInsertOrder.mpr (Or.inr stalled.memA),
      mem_dlistInsertOrder.mpr (Or.inr stalled.memB), stalled.before, stalled.behind⟩
  | take currUnexp next => exact stalled.take next other currUnexp
  | drain next =>
    have taken := stalled.take next other (accept peer pkt).currUnexp
    rw [Stalled.drain_idle taken]
    exact taken

theorem Stalled.run {later : List RxdPkt} (stalled : Stalled a b peer) (never : ∀ pkt ∈ later, pkt.seqNo ≠ a.seqNo) :
    Stalled a b (rxdRecvRun false peer later) :=
  List.foldlRecOn later (rxdHandlePkt false) stalled fun _ kept pkt mem =>
    kept.of_move rxdHandlePkt_move (never pkt mem)

/-- With `FI_RXD_RETRY` off, once the packets `a` and then a later-numbered
`b` wait on `buf_pkts` while `rx_seq_no` is not past `a`, nothing more is
drained: whatever arrives after, as long as `a` is not sent again, `rx_seq_no`
stays at or below `a` and both packets stay on the list. `a` is behind `b`
on the list, and the drain only looks at the head. -/
theorem rxdRecvRun_retry_off_stalls (earlier later : List RxdPkt)
    (buffered : a ∈ (rxdRecvRun false .fresh earlier).bufPkts ∧ b ∈ (rxdRecvRun false .fresh earlier).bufPkts)
    (before : a.seqNo < b.seqNo) (behind : (rxdRecvRun false .fresh earlier).rxSeqNo ≤ a.seqNo)
    (never : ∀ pkt ∈ later, pkt.seqNo ≠ a.seqNo) :
    (rxdRecvRun false .fresh (earlier ++ later)).rxSeqNo ≤ a.seqNo ∧
      a ∈ (rxdRecvRun false .fresh (earlier ++ later)).bufPkts ∧
      b ∈ (rxdRecvRun false .fresh (earlier ++ later)).bufPkts := by
  have sorted : Descending (rxdRecvRun false .fresh earlier) := descending_rxdRecvRun earlier List.Pairwise.nil
  have stalled : Stalled a b (rxdRecvRun false .fresh earlier) := ⟨sorted, buffered.1, buffered.2, before, behind⟩
  have final := stalled.run never
  rw [rxdRecvRun_append]
  exact ⟨final.behind, final.memA, final.memB⟩

theorem rxdRecvRun_reversed_burst :
    rxdRecvRun false .fresh [⟨2, .op .matched⟩, ⟨1, .op .matched⟩, ⟨0, .op .matched⟩] =
      { rxSeqNo := 1, bufPkts := [⟨2, .op .matched⟩, ⟨1, .op .matched⟩], currUnexp := none,
        peerAddrValid := true, accepted := [0] } := by
  simp [rxdRecvRun, rxdHandlePkt, rxdHandleOp, RxdRxPeer.fresh, bufferPkt, accept, dlistInsertOrder,
    rxdCompPktSeqNo]
  rw [rxdProgressBufPkts_of_head rfl (by decide)]

theorem rxdRecvRun_retry_off_stalls_reversed :
    (rxdRecvRun false .fresh ([⟨2, .op .matched⟩, ⟨1, .op .matched⟩, ⟨0, .op .matched⟩] ++
        [⟨3, .op .matched⟩, ⟨4, .data false 0 false⟩])).rxSeqNo ≤ 1 ∧
      ⟨1, .op .matched⟩ ∈ (rxdRecvRun false .fresh ([⟨2, .op .matched⟩, ⟨1, .op .matched⟩, ⟨0, .op .matched⟩] ++
        [⟨3, .op .matched⟩, ⟨4, .data false 0 false⟩])).bufPkts ∧
      ⟨2, .op .matched⟩ ∈ (rxdRecvRun false .fresh ([⟨2, .op .matched⟩, ⟨1, .op .matched⟩, ⟨0, .op .matched⟩] ++
        [⟨3, .op .matched⟩, ⟨4, .data false 0 false⟩])).bufPkts :=
  rxdRecvRun_retry_off_stalls (a := ⟨1, .op .matched⟩) (b := ⟨2, .op .matched⟩) _ _
    (by rw [rxdRecvRun_reversed_burst]; decide) (by decide)
    (Nat.le_of_eq (congrArg RxdRxPeer.rxSeqNo rxdRecvRun_reversed_burst)) (by decide)

end Stall

end Libfabric.Rxd.Recv
