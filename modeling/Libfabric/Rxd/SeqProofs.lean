import Libfabric.Rxd.Seq
import Libfabric.Rxd.SarProofs

/-! How the progress loop gives sequence numbers back. Posting the data of a
read response reserves a range from `tx_seq_no`; when the pool runs dry after
some of its packets are on the wire, the loop moves `tx_seq_no` back over the
whole range, numbers already sent included. The next packet toward the peer
then takes a number the peer has already received. -/
namespace Libfabric.Rxd

theorem RxdPeer.windowFull_eq_false {peer : RxdPeer} :
    peer.windowFull = false ↔ peer.unacked.length < peer.txWindow := by
  simp [RxdPeer.windowFull, RxdPeer.unackedCnt]

section Post

variable (txPkt : Nat → Bool) (ep : RxdEp) (entry : RxdXEntry)

theorem rxdEpPostDataPkts_done {ep entry} (done : entry.bytesDone = entry.len) :
    rxdEpPostDataPkts txPkt ep entry = (if ep.peer.windowFull then 1 else 0, entry, ep) := by
  rw [rxdEpPostDataPkts, if_neg (not_not.mpr done)]

theorem rxdEpPostDataPkts_enomem (remaining : entry.bytesDone ≠ entry.len)
    (room : ep.peer.windowFull = false) (empty : txPkt ep.allocs = false) :
    rxdEpPostDataPkts txPkt ep entry = (-fiEnomem, entry, { ep with allocs := ep.allocs + 1 }) := by
  rw [rxdEpPostDataPkts, if_pos remaining]
  simp [room, rxdGetTxPkt, empty]

theorem rxdEpPostDataPkts_send (remaining : entry.bytesDone ≠ entry.len)
    (room : ep.peer.windowFull = false) (got : txPkt ep.allocs = true) :
    rxdEpPostDataPkts txPkt ep entry =
      rxdEpPostDataPkts txPkt
        (rxdSendUnacked { ep with allocs := ep.allocs + 1 }
          (entry.startSeq + entry.nextSegNo + (if entry.read then 0 else 1)))
        { entry with toRxdXEntry := (Sar.rxdInitDataPkt ep.maxSegSz entry.toRxdXEntry).2 } := by
  rw [rxdEpPostDataPkts, if_pos remaining]
  simp [room, rxdGetTxPkt, got]

end Post

/-- The data of a fresh read response longer than one segment, posted with a
window that has room for two packets and a pool that has one: the first
segment goes out numbered `tx_seq_no`, the second finds no packet, and
`tx_seq_no` is moved back to where it was. The number just sent is the next
one to be handed out. -/
theorem progressEntry_returns_sent_number (txPkt : Nat → Bool) (headSeq : Nat) (inc : Bool)
    {ep : RxdEp} {entry : RxdXEntry} (response : entry.op = .dataRead) (started : entry.pkt = false)
    (readData : entry.read = true) (unsent : entry.bytesDone = 0) (unposted : entry.nextSegNo = 0)
    (positive : 0 < ep.maxSegSz) (long : ep.maxSegSz < entry.len)
    (room : ep.peer.unacked.length + 2 ≤ ep.peer.txWindow)
    (first : txPkt ep.allocs = true) (second : txPkt (ep.allocs + 1) = false) :
    let visit := progressEntry txPkt headSeq inc entry ep
    visit.goOn = false ∧ visit.ep.peer.txSeqNo = ep.peer.txSeqNo ∧
      visit.ep.wire = ep.wire ++ [ep.peer.txSeqNo] := by
  intro visit
  have notDone : entry.bytesDone ≠ entry.len := by omega
  have open₀ : ep.peer.windowFull = false := RxdPeer.windowFull_eq_false.mpr (by omega)
  -- the reservation moves `tx_seq_no` past the range and starts it at the old value
  have reserving : visit = postData txPkt .kept true (reserveRange entry ep).1 (reserveRange entry ep).2 := by
    have nonempty : 0 ≠ entry.len := by omega
    simp [visit, progressEntry, startWaiting, started, nonempty, response, unsent, open₀]
  rw [reserving]
  set reserved := (reserveRange entry ep).2 with reservedEq
  set entry₁ := (reserveRange entry ep).1 with entry₁Eq
  have sent := rxdEpPostDataPkts_send txPkt reserved entry₁ notDone open₀ first
  let afterFirst := rxdSendUnacked { reserved with allocs := reserved.allocs + 1 } ep.peer.txSeqNo
  let entry₂ : RxdXEntry := { entry₁ with toRxdXEntry := (Sar.rxdInitDataPkt ep.maxSegSz entry₁.toRxdXEntry).2 }
  have stillRemaining : entry₂.bytesDone ≠ entry₂.len := by
    have one := Sar.rxdInitDataPkt_bytesDone_le ep.maxSegSz entry₁.toRxdXEntry
    simp only [entry₂, entry₁Eq, reserveRange, unsent, Sar.rxdInitDataPkt_len] at one ⊢
    omega
  have open₁ : afterFirst.peer.windowFull = false := by
    rw [RxdPeer.windowFull_eq_false]
    simp only [afterFirst, reservedEq, reserveRange, rxdSendUnacked, List.length_append,
      List.length_singleton]
    omega
  have failed := rxdEpPostDataPkts_enomem txPkt afterFirst entry₂ stillRemaining open₁ second
  have posted : rxdEpPostDataPkts txPkt reserved entry₁ =
      (-fiEnomem, entry₂, { afterFirst with allocs := afterFirst.allocs + 1 }) := by
    have seqNo : entry₁.startSeq + entry₁.nextSegNo + (if entry₁.read then 0 else 1) =
        ep.peer.txSeqNo := by
      simp [entry₁Eq, reserveRange, unposted, readData]
    rw [sent, seqNo]
    exact failed
  rw [postData, posted]
  simp [fiEnomem, afterFirst, entry₂, entry₁Eq, reservedEq, reserveRange, rxdSendUnacked]

/-- A read response of two segments when the pool has one packet: its first
segment goes out as number 0, then `tx_seq_no` falls back to 0, and the next
message goes out as number 0 as well. -/
theorem run_reuses_seq_no :
    (run (fun n => n ≠ 1) (RxdEp.connected 1000 128)
      [.readRequest 2000, .sendmsg .msg 10 100 16]).wire = [0, 0] := by
  decide +kernel

/-- `inc` stays set for the rest of the loop. With a window of one, a read
response waits behind a message; the ack that opens the window lets the loop
reserve and send the response (number 1), then start a long message (number 2,
range up to 5). Its first data packet finds no packet, and the loop gives back
the message's three numbers though it reserved them in `rxd_start_xfer`: the
next message goes out as number 2 again. -/
theorem run_gives_back_started_range :
    (run (fun n => n ≠ 3) (RxdEp.connected 1000 1)
      [.sendmsg .msg 10 100 16, .readRequest 500, .sendmsg .msg 2500 100 16, .ack 1 10,
        .sendmsg .msg 10 100 16]).wire = [0, 1, 2, 2] := by
  decide +kernel

/-- A given-back range also leaves the unacked list out of order, and an ack
then stops early. A read response of three segments sends numbers 0 and 1
before the pool runs dry; the next message goes out as 0 again, so `unacked`
holds 0, 1, 0. An ack of 1 releases the first packet and stops at the second,
since `rxd_handle_ack` walks the list only up to the first packet at or after
the acked number. The message, numbered before 1, stays unacked. -/
theorem run_keeps_packet_before_ack :
    ∃ seqNo ∈ (run (fun n => n ≠ 2) (RxdEp.connected 1000 128)
      [.readRequest 3000, .sendmsg .msg 10 100 16, .ack 1 128]).peer.unacked, ofiBefore seqNo 1 := by
  decide +kernel

end Libfabric.Rxd
