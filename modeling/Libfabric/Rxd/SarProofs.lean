import Libfabric.IovProofs
import Libfabric.Rxd.Sar

/-! The round trips of rxd's segmentation. The sender of a transfer whose
data packets start at byte `base` is `SenderAt k` after `k` packets
(`SenderAt.post` is the run of `rxd_ep_post_data_pkts`), and the receiver's
buffers are `Reassembled` after any set of faithful packets in any order
(`Reassembled.recvRun`). Together they give the message round trip
(`rxdMsg_round_trip`) and the read round trip (`rxdRmaRead_round_trip`),
for transfers whose data part is shorter than `2^32` bytes. Past that the
cast of `rxd_init_data_pkt` empties the segments (`rxdEpPostDataPkts_wraps`),
and a message that ends `2^32 * q` bytes past its op packet never arrives
(`rxdMsg_wraps`). -/
namespace Libfabric.Rxd.Sar

open Buffer

theorem lt_ofiDivCeil_iff {a s k : Nat} (pos : 0 < s) : k < ofiDivCeil a s ↔ k * s < a := by
  rw [ofiDivCeil, ← Nat.succ_le_iff, Nat.le_div_iff_mul_le pos, Nat.succ_mul]
  omega

theorem ofiDivCeil_mul_ge {a s : Nat} (pos : 0 < s) : a ≤ ofiDivCeil a s * s := by
  have covered : ¬ ofiDivCeil a s * s < a := fun short => Nat.lt_irrefl _ ((lt_ofiDivCeil_iff pos).mpr short)
  omega

variable {dom : RxdDomain}

/-- Data packet `k` of a transfer of the first `len` bytes of `src`, whose
data packets start at byte `base`. -/
def segPkt (segSz base len : Nat) (src : Bytes) (k : Nat) : DataPkt :=
  ⟨k, (src.drop (base + k * segSz)).take (min segSz (len - (base + k * segSz)))⟩

/-- A sender `k` packets into a transfer of the first `len` bytes of `src`
whose data packets start at byte `base`. -/
structure SenderAt (segSz base len : Nat) (src : Bytes) (k : Nat) (txEntry : RxdXEntry) : Prop where
  flat : txEntry.iov.flatten = src
  total : txEntry.len = len
  segNo : txEntry.nextSegNo = k
  done : txEntry.bytesDone = min len (base + k * segSz)

@[simp] theorem rxdInitDataPkt_segNo (maxSegSz : Nat) (txEntry : RxdXEntry) :
    (rxdInitDataPkt maxSegSz txEntry).1.segNo = txEntry.nextSegNo := rfl

@[simp] theorem rxdInitDataPkt_len (maxSegSz : Nat) (txEntry : RxdXEntry) :
    (rxdInitDataPkt maxSegSz txEntry).2.len = txEntry.len := rfl

@[simp] theorem rxdInitDataPkt_numSegs (maxSegSz : Nat) (txEntry : RxdXEntry) :
    (rxdInitDataPkt maxSegSz txEntry).2.numSegs = txEntry.numSegs := rfl

theorem rxdInitDataPkt_bytesDone_le (maxSegSz : Nat) (txEntry : RxdXEntry) :
    (rxdInitDataPkt maxSegSz txEntry).2.bytesDone ≤ txEntry.bytesDone + maxSegSz := by
  simp only [rxdInitDataPkt, ofiCopyFromIov_nil]
  omega

theorem rxdInitDataPkt_eq (txEntry : RxdXEntry) (short : txEntry.len - txEntry.bytesDone < 2 ^ 32)
    (held : txEntry.len ≤ txEntry.iov.flatten.length) :
    rxdInitDataPkt dom.maxSegSz txEntry =
      (⟨txEntry.nextSegNo,
          (txEntry.iov.flatten.drop txEntry.bytesDone).take
            (min dom.maxSegSz (txEntry.len - txEntry.bytesDone))⟩,
        { txEntry with
          nextSegNo := txEntry.nextSegNo + 1
          bytesDone := txEntry.bytesDone + min dom.maxSegSz (txEntry.len - txEntry.bytesDone) }) := by
  have copied : min (min dom.maxSegSz (txEntry.len - txEntry.bytesDone))
      (txEntry.iov.flatten.length - txEntry.bytesDone) =
      min dom.maxSegSz (txEntry.len - txEntry.bytesDone) := by omega
  simp only [rxdInitDataPkt, Nat.mod_eq_of_lt short, ofiCopyFromIov_nil, copied]

section Sender

variable {base len : Nat} {src : Bytes}

theorem SenderAt.pending (pos : 0 < dom.maxSegSz) {k : Nat} {txEntry : RxdXEntry}
    (at_ : SenderAt dom.maxSegSz base len src k txEntry) :
    txEntry.bytesDone ≠ txEntry.len ↔ k < ofiDivCeil (len - base) dom.maxSegSz := by
  rw [at_.done, at_.total, lt_ofiDivCeil_iff pos]
  omega

theorem SenderAt.next (pos : 0 < dom.maxSegSz) (short : len - base < 2 ^ 32) (held : len ≤ src.length)
    {k : Nat} {txEntry : RxdXEntry} (at_ : SenderAt dom.maxSegSz base len src k txEntry)
    (more : k < ofiDivCeil (len - base) dom.maxSegSz) :
    (rxdInitDataPkt dom.maxSegSz txEntry).1 = segPkt dom.maxSegSz base len src k ∧
      SenderAt dom.maxSegSz base len src (k + 1) (rxdInitDataPkt dom.maxSegSz txEntry).2 := by
  have inside : k * dom.maxSegSz < len - base := (lt_ofiDivCeil_iff pos).mp more
  have done : txEntry.bytesDone = base + k * dom.maxSegSz := by rw [at_.done]; omega
  rw [rxdInitDataPkt_eq txEntry (by rw [at_.total]; omega) (by rw [at_.total, at_.flat]; exact held)]
  refine ⟨?_, ⟨at_.flat, at_.total, by rw [at_.segNo], ?_⟩⟩
  · simp only [segPkt, at_.segNo, at_.flat, at_.total, done]
  · simp only [done, at_.total, Nat.succ_mul]
    omega

/-- The run of `rxd_ep_post_data_pkts`: with room for `room` packets it sends
the next `min room (count - k)` segments, `count` being the transfer's
segment count. -/
theorem SenderAt.post (pos : 0 < dom.maxSegSz) (short : len - base < 2 ^ 32) (held : len ≤ src.length) (room : Nat) :
    ∀ {k : Nat} {txEntry : RxdXEntry}, SenderAt dom.maxSegSz base len src k txEntry →
      (rxdEpPostDataPkts dom room txEntry).1 =
          (List.range' k (min room (ofiDivCeil (len - base) dom.maxSegSz - k))).map
            (segPkt dom.maxSegSz base len src) ∧
        SenderAt dom.maxSegSz base len src (k + min room (ofiDivCeil (len - base) dom.maxSegSz - k))
          (rxdEpPostDataPkts dom room txEntry).2 := by
  induction room with
  | zero =>
    intro k txEntry at_
    simpa [rxdEpPostDataPkts] using at_
  | succ room ih =>
    intro k txEntry at_
    by_cases more : k < ofiDivCeil (len - base) dom.maxSegSz
    · -- a segment is left: send it and go on from the next one
      obtain ⟨sent, next⟩ := at_.next pos short held more
      obtain ⟨rest, after⟩ := ih next
      have count : min (room + 1) (ofiDivCeil (len - base) dom.maxSegSz - k) =
          min room (ofiDivCeil (len - base) dom.maxSegSz - (k + 1)) + 1 := by omega
      rw [rxdEpPostDataPkts, if_pos ((at_.pending pos).mpr more)]
      generalize rxdInitDataPkt dom.maxSegSz txEntry = step at sent next rest after
      obtain ⟨pkt, txEntry'⟩ := step
      dsimp only at sent rest after ⊢
      rw [count, List.range'_succ, List.map_cons, ← sent, ← rest, ← Nat.add_assoc, Nat.add_right_comm k]
      exact ⟨rfl, after⟩
    · -- everything is sent: the loop stops at once
      have spent : min (room + 1) (ofiDivCeil (len - base) dom.maxSegSz - k) = 0 := by omega
      rw [rxdEpPostDataPkts, if_neg (fun pending => more ((at_.pending pos).mp pending)), spent]
      exact ⟨rfl, at_⟩

theorem rxdInitDataPkt_wraps (txEntry : RxdXEntry) (wrap : (txEntry.len - txEntry.bytesDone) % 2 ^ 32 = 0) :
    rxdInitDataPkt dom.maxSegSz txEntry =
      (⟨txEntry.nextSegNo, []⟩, { txEntry with nextSegNo := txEntry.nextSegNo + 1 }) := by
  simp only [rxdInitDataPkt, wrap, Nat.min_zero, ofiCopyFromIov_nil, List.take_zero, Nat.zero_min, Nat.add_zero]

/-- The run of `rxd_ep_post_data_pkts` from a sender with a nonzero multiple
of `2^32` bytes left: every packet is empty, `bytes_done` never moves, and
the loop goes on for as long as the window has room. -/
theorem rxdEpPostDataPkts_wraps (room : Nat) :
    ∀ {txEntry : RxdXEntry}, (txEntry.len - txEntry.bytesDone) % 2 ^ 32 = 0 → txEntry.bytesDone ≠ txEntry.len →
      rxdEpPostDataPkts dom room txEntry =
        ((List.range' txEntry.nextSegNo room).map fun k => ⟨k, []⟩,
          { txEntry with nextSegNo := txEntry.nextSegNo + room }) := by
  induction room with
  | zero => intro txEntry _ _; rfl
  | succ room ih =>
    intro txEntry wrap pending
    have rest := @ih { txEntry with nextSegNo := txEntry.nextSegNo + 1 } wrap pending
    rw [rxdEpPostDataPkts, if_pos pending, rxdInitDataPkt_wraps txEntry wrap]
    dsimp only
    rw [rest, List.range'_succ, List.map_cons, Nat.add_assoc, Nat.add_comm 1 room]

end Sender

section Receiver

variable (dom)

/-- Where `rxd_ep_recv_data` copies a packet to: `offset + seg_no * max_seg_sz`. -/
def pktPos (offset : Nat) (pkt : DataPkt) : Nat := offset + pkt.segNo * dom.maxSegSz

/-- How many of the packet's bytes fit buffers of `cap` bytes there. -/
def pktCnt (offset cap : Nat) (pkt : DataPkt) : Nat := min pkt.msg.length (cap - pktPos dom offset pkt)

/-- The bytes of the receive buffers written so far: the op packet's first
`offset`, and what each processed data packet copied. -/
def Covered (offset cap : Nat) (pkts : List DataPkt) (p : Nat) : Prop :=
  p < offset ∨
    ∃ pkt ∈ pkts, pktPos dom offset pkt ≤ p ∧ p < pktPos dom offset pkt + pktCnt dom offset cap pkt

instance (offset cap : Nat) (pkts : List DataPkt) : DecidablePred (Covered dom offset cap pkts) :=
  fun p => inferInstanceAs (Decidable (p < offset ∨
    ∃ pkt ∈ pkts, pktPos dom offset pkt ≤ p ∧ p < pktPos dom offset pkt + pktCnt dom offset cap pkt))

/-- What a packet copies is the source's bytes at the same positions. -/
def Faithful (src : Bytes) (offset cap : Nat) (pkt : DataPkt) : Prop :=
  ∀ i < pktCnt dom offset cap pkt, pkt.msg[i]? = src[pktPos dom offset pkt + i]?

/-- The receive buffers, of segment lengths `lens`, after the data packets
`pkts`: every byte written holds the source's byte, every other byte what
was posted. -/
structure Reassembled (lens : List Nat) (posted src : Bytes) (pkts : List DataPkt) (xEntry : RxdXEntry) :
    Prop where
  lengths : xEntry.iov.map List.length = lens
  bytes : ∀ p, xEntry.iov.flatten[p]? = if Covered dom xEntry.offset lens.sum pkts p then src[p]? else posted[p]?

variable {dom}

theorem rxdEpRecvData_eq (xEntry : RxdXEntry) (pkt : DataPkt) :
    rxdEpRecvData dom xEntry pkt =
      ({ xEntry with
          iov := scatter xEntry.iov (pktPos dom xEntry.offset pkt) pkt.msg
          bytesDone := xEntry.bytesDone + pktCnt dom xEntry.offset xEntry.iov.flatten.length pkt
          nextSegNo := xEntry.nextSegNo + 1 },
        !decide (xEntry.nextSegNo + 1 < xEntry.numSegs)) := by
  simp only [rxdEpRecvData, ofiCopyToIov_eq, List.take_length, pktCnt, pktPos]

theorem length_flatten_of_lengths {iov : List Bytes} {lens : List Nat} (lengths : iov.map List.length = lens) :
    iov.flatten.length = lens.sum := by
  rw [List.length_flatten, lengths]

theorem Reassembled.recv {lens : List Nat} {posted src : Bytes} {pkts : List DataPkt} {xEntry : RxdXEntry}
    (re : Reassembled dom lens posted src pkts xEntry) {pkt : DataPkt}
    (faithful : Faithful dom src xEntry.offset lens.sum pkt) :
    Reassembled dom lens posted src (pkts ++ [pkt]) (rxdEpRecvData dom xEntry pkt).1 := by
  rw [rxdEpRecvData_eq]
  refine ⟨by rw [map_length_scatter, re.lengths], fun p => ?_⟩
  have total := length_flatten_of_lengths re.lengths
  have covered : Covered dom xEntry.offset lens.sum (pkts ++ [pkt]) p ↔
      Covered dom xEntry.offset lens.sum pkts p ∨
        (pktPos dom xEntry.offset pkt ≤ p ∧
          p < pktPos dom xEntry.offset pkt + pktCnt dom xEntry.offset lens.sum pkt) := by
    simp only [Covered, List.mem_append, List.mem_singleton]
    constructor
    · rintro (before | ⟨q, (old | rfl), range⟩)
      · exact .inl (.inl before)
      · exact .inl (.inr ⟨q, old, range⟩)
      · exact .inr range
    · rintro ((before | ⟨q, old, range⟩) | range)
      · exact .inl before
      · exact .inr ⟨q, .inl old, range⟩
      · exact .inr ⟨pkt, .inr rfl, range⟩
  dsimp only
  rw [flatten_scatter, total]
  have cnt : pktCnt dom xEntry.offset lens.sum pkt = min pkt.msg.length (lens.sum - pktPos dom xEntry.offset pkt) :=
    rfl
  by_cases empty : pktCnt dom xEntry.offset lens.sum pkt = 0
  · -- nothing of the packet fits: the buffers are as they were
    have nothing : pkt.msg.take (lens.sum - pktPos dom xEntry.offset pkt) = [] := by
      rw [List.take_eq_nil_iff, ← List.length_eq_zero_iff]
      omega
    have same : Covered dom xEntry.offset lens.sum (pkts ++ [pkt]) p ↔ Covered dom xEntry.offset lens.sum pkts p := by
      rw [covered, empty, Nat.add_zero, or_iff_left (by omega)]
    rw [nothing, writeAt_nil, re.bytes p]
    exact if_congr same.symm rfl rfl
  · have fits : pktPos dom xEntry.offset pkt + (pkt.msg.take (lens.sum - pktPos dom xEntry.offset pkt)).length ≤
        xEntry.iov.flatten.length := by
      rw [List.length_take, total]
      omega
    have count : (pkt.msg.take (lens.sum - pktPos dom xEntry.offset pkt)).length =
        pktCnt dom xEntry.offset lens.sum pkt := by
      rw [List.length_take, cnt]
      omega
    rw [getElem?_writeAt fits, count]
    by_cases inside : pktPos dom xEntry.offset pkt ≤ p ∧
        p < pktPos dom xEntry.offset pkt + pktCnt dom xEntry.offset lens.sum pkt
    · -- the packet's byte, which is the source's
      rw [if_pos inside, if_pos (covered.mpr (.inr inside)), List.getElem?_take_of_lt (by omega),
        faithful (p - pktPos dom xEntry.offset pkt) (by omega), Nat.add_sub_cancel' inside.1]
    · have same : Covered dom xEntry.offset lens.sum (pkts ++ [pkt]) p ↔ Covered dom xEntry.offset lens.sum pkts p := by
        rw [covered, or_iff_left inside]
      rw [if_neg inside, re.bytes p]
      exact if_congr same.symm rfl rfl

theorem rxdRecvDataPkts_cons (xEntry : RxdXEntry) (pkt : DataPkt) (rest : List DataPkt) :
    rxdRecvDataPkts dom xEntry (pkt :: rest) =
      ((rxdRecvDataPkts dom (rxdEpRecvData dom xEntry pkt).1 rest).1,
        (rxdEpRecvData dom xEntry pkt).2 :: (rxdRecvDataPkts dom (rxdEpRecvData dom xEntry pkt).1 rest).2) :=
  rfl

/-- What the run of `rxd_ep_recv_data` does to the entry's counters: the
offset, the segment count and the buffers' lengths stay, `next_seg_no`
counts the packets and `bytes_done` adds what each copied. -/
theorem rxdRecvDataPkts_counters (rest : List DataPkt) :
    ∀ xEntry : RxdXEntry,
      (rxdRecvDataPkts dom xEntry rest).1.offset = xEntry.offset ∧
        (rxdRecvDataPkts dom xEntry rest).1.numSegs = xEntry.numSegs ∧
        (rxdRecvDataPkts dom xEntry rest).1.nextSegNo = xEntry.nextSegNo + rest.length ∧
        (rxdRecvDataPkts dom xEntry rest).1.iov.map List.length = xEntry.iov.map List.length ∧
        (rxdRecvDataPkts dom xEntry rest).1.len = xEntry.len ∧
        (rxdRecvDataPkts dom xEntry rest).1.bytesDone =
          xEntry.bytesDone + (rest.map (pktCnt dom xEntry.offset xEntry.iov.flatten.length)).sum := by
  induction rest with
  | nil => intro xEntry; simp [rxdRecvDataPkts]
  | cons pkt rest ih =>
    intro xEntry
    obtain ⟨offset, numSegs, segNo, lengths, len, done⟩ := ih (rxdEpRecvData dom xEntry pkt).1
    have flat : (rxdEpRecvData dom xEntry pkt).1.iov.flatten.length = xEntry.iov.flatten.length := by
      rw [rxdEpRecvData_eq]
      exact length_flatten_scatter _ _ _
    rw [rxdRecvDataPkts_cons, offset, numSegs, segNo, lengths, len, done, flat]
    simp only [rxdEpRecvData_eq, map_length_scatter, List.length_cons, List.map_cons, List.sum_cons, true_and]
    exact ⟨by omega, by omega⟩

theorem rxdRecvDataPkts_dones (rest : List DataPkt) :
    ∀ xEntry : RxdXEntry,
      (rxdRecvDataPkts dom xEntry rest).2 =
        (List.range rest.length).map fun j => !decide (xEntry.nextSegNo + j + 1 < xEntry.numSegs) := by
  induction rest with
  | nil => intro xEntry; rfl
  | cons pkt rest ih =>
    intro xEntry
    rw [rxdRecvDataPkts_cons, ih, List.length_cons, List.range_succ_eq_map, List.map_cons, List.map_map]
    simp only [rxdEpRecvData_eq, Function.comp_def, Nat.add_zero]
    congr 2
    funext j
    congr 3
    omega

theorem Reassembled.recvRun {lens : List Nat} {posted src : Bytes} (rest : List DataPkt) :
    ∀ {pkts : List DataPkt} {xEntry : RxdXEntry}, Reassembled dom lens posted src pkts xEntry →
      (∀ pkt ∈ rest, Faithful dom src xEntry.offset lens.sum pkt) →
      Reassembled dom lens posted src (pkts ++ rest) (rxdRecvDataPkts dom xEntry rest).1 := by
  induction rest with
  | nil => intro pkts xEntry re _; simpa [rxdRecvDataPkts] using re
  | cons pkt rest ih =>
    intro pkts xEntry re faithful
    have step := re.recv (faithful pkt (List.mem_cons_self ..))
    have offset : (rxdEpRecvData dom xEntry pkt).1.offset = xEntry.offset := by rw [rxdEpRecvData_eq]
    have run := ih step (fun q mem => offset ▸ faithful q (List.mem_cons_of_mem _ mem))
    rw [rxdRecvDataPkts_cons]
    simpa only [List.append_assoc, List.singleton_append] using run

end Receiver

section Segments

/-! The packets of a whole transfer, read by a receiver of `cap` bytes whose
offset is `min base cap`: the bytes the op packet copied, or all of them. -/

variable {base len cap : Nat} {src : Bytes}

theorem length_segPkt_msg (held : len ≤ src.length) (segSz k : Nat) :
    (segPkt segSz base len src k).msg.length = min segSz (len - (base + k * segSz)) := by
  simp only [segPkt, List.length_take, List.length_drop]
  omega

/-- A segment's bytes are the source's at its position, when the receiver's
offset is where the data starts; when the offset is the receiver's end,
nothing of it is copied. -/
theorem faithful_segPkt (held : len ≤ src.length) (k : Nat) :
    Faithful dom src (min base cap) cap (segPkt dom.maxSegSz base len src k) := by
  intro i copied
  have count : (segPkt dom.maxSegSz base len src k).msg.length = min dom.maxSegSz (len - (base + k * dom.maxSegSz)) :=
    length_segPkt_msg held dom.maxSegSz k
  simp only [pktCnt, pktPos, count] at copied
  have at_ : min base cap = base := by omega
  have inside : i < min dom.maxSegSz (len - (base + k * dom.maxSegSz)) := by omega
  simp only [pktPos, at_, segPkt, List.getElem?_take_of_lt inside,
    List.getElem?_drop]

theorem covered_segPkts_iff (pos : 0 < dom.maxSegSz) (held : len ≤ src.length) (start : base ≤ len) (p : Nat) :
    Covered dom (min base cap) cap
        ((List.range (ofiDivCeil (len - base) dom.maxSegSz)).map (segPkt dom.maxSegSz base len src)) p ↔
      p < min len cap := by
  simp only [Covered, List.mem_map, List.mem_range, pktCnt, pktPos]
  constructor
  · rintro (front | ⟨pkt, ⟨k, more, rfl⟩, after, before⟩)
    · omega
    · rw [length_segPkt_msg held] at before
      have inside := (lt_ofiDivCeil_iff pos).mp more
      simp only [segPkt] at after before
      omega
  · intro below
    by_cases front : p < min base cap
    · exact .inl front
    · -- the byte lies in segment `(p - base) / max_seg_sz`
      refine .inr ⟨_, ⟨(p - base) / dom.maxSegSz, (lt_ofiDivCeil_iff pos).mpr ?_, rfl⟩, ?_⟩
      · have := Nat.div_mul_le_self (p - base) dom.maxSegSz
        omega
      · rw [length_segPkt_msg held]
        have low := Nat.div_mul_le_self (p - base) dom.maxSegSz
        have high : p - base < (p - base) / dom.maxSegSz * dom.maxSegSz + dom.maxSegSz := Nat.lt_div_mul_add pos
        simp only [segPkt]
        omega

theorem sum_pktCnt_segPkts (held : len ≤ src.length) (start : base ≤ len) (m : Nat)
    (upto : m ≤ ofiDivCeil (len - base) dom.maxSegSz) (pos : 0 < dom.maxSegSz) :
    min base cap +
        ((List.range m).map fun k => pktCnt dom (min base cap) cap (segPkt dom.maxSegSz base len src k)).sum =
      min cap (min len (base + m * dom.maxSegSz)) := by
  induction m with
  | zero => simp only [List.range_zero, List.map_nil, List.sum_nil, Nat.zero_mul, Nat.add_zero]; omega
  | succ m ih =>
    have inside := (lt_ofiDivCeil_iff pos).mp (show m < ofiDivCeil (len - base) dom.maxSegSz by omega)
    rw [List.range_succ, List.map_append, List.sum_append, ← Nat.add_assoc, ih (by omega), List.map_singleton,
      List.sum_singleton, pktCnt, length_segPkt_msg held, pktPos, Nat.succ_mul]
    simp only [segPkt]
    omega

theorem range_map_last (n : Nat) (pos : 0 < n) :
    ((List.range n).map fun j => !decide (j + 1 < n)) = List.replicate (n - 1) false ++ [true] := by
  obtain ⟨m, rfl⟩ : ∃ m, n = m + 1 := ⟨n - 1, by omega⟩
  rw [List.range_succ, List.map_append, List.map_singleton, Nat.add_sub_cancel]
  congr 1
  · rw [List.eq_replicate_iff, List.length_map, List.length_range]
    refine ⟨rfl, fun b mem => ?_⟩
    obtain ⟨j, below, rfl⟩ := List.mem_map.mp mem
    simp only [List.mem_range] at below
    simp only [Bool.not_eq_false', decide_eq_true_eq]
    omega
  · simp

/-- A receiver whose offset is `min base cap` and that holds the op packet's
part ends, once every segment has come in whatever order, with the first
`min len cap` bytes of the source and as many bytes done. -/
theorem Reassembled.recvSegPkts (pos : 0 < dom.maxSegSz) (held : len ≤ src.length) (start : base ≤ len)
    {lens : List Nat} {posted : Bytes} (size : posted.length = lens.sum) {xEntry : RxdXEntry}
    (re : Reassembled dom lens posted src [] xEntry) (offset : xEntry.offset = min base lens.sum)
    (done : xEntry.bytesDone = min base lens.sum) {arrival : List DataPkt}
    (order : arrival.Perm
      ((List.range (ofiDivCeil (len - base) dom.maxSegSz)).map (segPkt dom.maxSegSz base len src))) :
    (rxdRecvDataPkts dom xEntry arrival).1.iov.map List.length = lens ∧
      (rxdRecvDataPkts dom xEntry arrival).1.iov.flatten = writeAt posted 0 (src.take (min len lens.sum)) ∧
      (rxdRecvDataPkts dom xEntry arrival).1.bytesDone = min len lens.sum := by
  have run := re.recvRun arrival fun pkt mem => by
    obtain ⟨k, _, rfl⟩ := List.mem_map.mp (order.mem_iff.mp mem)
    rw [offset]
    exact faithful_segPkt held k
  obtain ⟨offset', _, _, _, _, done'⟩ := rxdRecvDataPkts_counters arrival xEntry
  refine ⟨run.lengths, List.ext_getElem? fun p => ?_, ?_⟩
  · -- byte by byte: the source's below `min len cap`, the posted byte above
    have fits : 0 + (src.take (min len lens.sum)).length ≤ posted.length := by
      rw [List.length_take, size]
      omega
    rw [run.bytes p, getElem?_writeAt fits, offset', offset, List.nil_append, List.length_take]
    have covered : Covered dom (min base lens.sum) lens.sum arrival p ↔ p < min len lens.sum := by
      rw [← covered_segPkts_iff pos held start p]
      simp only [Covered, order.mem_iff]
    by_cases below : p < min len lens.sum
    · rw [if_pos (covered.mpr below), if_pos ⟨Nat.zero_le p, by omega⟩, Nat.sub_zero,
        List.getElem?_take_of_lt below]
    · rw [if_neg (fun c => below (covered.mp c)), if_neg (by omega)]
  · -- the counts add up whatever the order
    rw [done', length_flatten_of_lengths re.lengths, offset, done, (order.map _).sum_eq, List.map_map]
    rw [show (pktCnt dom (min base lens.sum) lens.sum ∘ segPkt dom.maxSegSz base len src) =
      fun k => pktCnt dom (min base lens.sum) lens.sum (segPkt dom.maxSegSz base len src k) from rfl,
      sum_pktCnt_segPkts held start _ le_rfl pos]
    have whole : len - base ≤ ofiDivCeil (len - base) dom.maxSegSz * dom.maxSegSz := ofiDivCeil_mul_ge pos
    omega

end Segments

section Transfers

/-- The room `rxd_tx_entry_init_msg` leaves in the op packet for message
bytes once the tag and the CQ data have theirs, before the SAR header's. -/
def opInline (dom : RxdDomain) (tag cqData : Bool) : Nat :=
  let maxInline := if tag then dom.maxInlineMsg - sizeofRxdTagHdr else dom.maxInlineMsg
  if cqData then maxInline - sizeofRxdDataHdr else maxInline

theorem ofiTotalIovLen_eq (iov : List Bytes) : ofiTotalIovLen iov = iov.flatten.length :=
  List.length_flatten.symm

theorem ofiTotalIovLen_single (seg : Bytes) : ofiTotalIovLen [seg] = seg.length := by
  simp only [ofiTotalIovLen, List.map_cons, List.map_nil, List.sum_cons, List.sum_nil, Nat.add_zero]

variable {tag cqData : Bool} {iov : List Bytes}

theorem rxdTxEntryInitMsg_sar (long : opInline dom tag cqData < ofiTotalIovLen iov) :
    rxdTxEntryInitMsg dom tag cqData iov =
      ({ rxdTxEntryInitCommon iov with
          numSegs := ofiDivCeil (ofiTotalIovLen iov - (opInline dom tag cqData - sizeofRxdSarHdr)) dom.maxSegSz + 1
          bytesDone := opInline dom tag cqData - sizeofRxdSarHdr },
        ⟨some ⟨ofiTotalIovLen iov,
            ofiDivCeil (ofiTotalIovLen iov - (opInline dom tag cqData - sizeofRxdSarHdr)) dom.maxSegSz + 1⟩,
          iov.flatten.take (opInline dom tag cqData - sizeofRxdSarHdr)⟩) := by
  have cut : min (ofiTotalIovLen iov) (opInline dom tag cqData - sizeofRxdSarHdr) =
      opInline dom tag cqData - sizeofRxdSarHdr := by omega
  have cut' : min (opInline dom tag cqData - sizeofRxdSarHdr) (ofiTotalIovLen iov) =
      opInline dom tag cqData - sizeofRxdSarHdr := by omega
  -- the two reductions of `max_inline` are read flag by flag
  cases tag <;> cases cqData <;>
    simp only [opInline, Bool.false_eq_true, if_true, if_false] at long cut cut' ⊢ <;>
    simp only [rxdTxEntryInitMsg, rxdTxEntryInitCommon, Bool.false_eq_true, if_true, if_false, gt_iff_lt,
      if_pos long, rxdInitMsg, ofiCopyFromIov_nil, List.drop_zero, Nat.sub_zero, ← ofiTotalIovLen_eq, cut, cut']

/-- `rxd_progress_op` of an op packet with a SAR header of more than one
segment: its bytes go to the front of the buffers, `offset` is what they
filled, and the receive waits for the data packets. -/
theorem rxdProgressOp_sar (rxEntry : RxdXEntry) (sarHdr : RxdSarHdr) (msg : Bytes) (many : sarHdr.numSegs ≠ 1) :
    rxdProgressOp rxEntry ⟨some sarHdr, msg⟩ =
      ({ rxEntry with
          iov := scatter rxEntry.iov 0 msg
          bytesDone := min msg.length rxEntry.iov.flatten.length
          offset := min msg.length rxEntry.iov.flatten.length
          numSegs := sarHdr.numSegs
          nextSegNo := rxEntry.nextSegNo + 1 }, false) := by
  simp only [rxdProgressOp, rxdProgressOpMsg, ofiCopyToIov_eq, List.take_length, Nat.sub_zero, if_neg many]

theorem reassembled_scatter (rxIov : List Bytes) {src : Bytes} {base : Nat} (held : base ≤ src.length)
    {xEntry : RxdXEntry} (iov : xEntry.iov = scatter rxIov 0 (src.take base))
    (offset : xEntry.offset = min base (ofiTotalIovLen rxIov)) :
    Reassembled dom (rxIov.map List.length) rxIov.flatten src [] xEntry where
  lengths := by rw [iov, map_length_scatter]
  bytes p := by
    have fits : 0 + ((src.take base).take (rxIov.flatten.length - 0)).length ≤ rxIov.flatten.length := by
      simp only [List.length_take]
      omega
    rw [iov, flatten_scatter, getElem?_writeAt fits]
    simp only [Covered, offset, ofiTotalIovLen_eq, List.not_mem_nil, false_and, exists_false, or_false,
      List.take_take, List.length_take, Nat.sub_zero, Nat.zero_add, Nat.zero_le, true_and]
    by_cases below : p < min base rxIov.flatten.length
    · rw [if_pos (by omega), if_pos below, List.getElem?_take_of_lt (by omega)]
    · rw [if_neg (by omega), if_neg below]

/-- The receiver once it has matched and taken the op packet of a transfer
of `size` bytes in `num_segs` packets, `num_segs` not one: it holds the op
packet's part of the source, with `offset` and `bytes_done` what that filled,
expects `MIN(R, size)` bytes, and waits for `num_segs - 1` data packets. -/
theorem rxdProgressOp_reassembled (dom : RxdDomain) (rxIov : List Bytes) {src : Bytes} {base size numSegs : Nat}
    (held : base ≤ src.length) (many : numSegs ≠ 1) :
    let pkt : OpPkt := ⟨some ⟨size, numSegs⟩, src.take base⟩
    let rx := rxdProgressOp (rxdMatchRx (rxdRxEntryInit rxIov) pkt) pkt
    Reassembled dom (rxIov.map List.length) rxIov.flatten src [] rx.1 ∧
      rx.1.len = min (ofiTotalIovLen rxIov) size ∧
      rx.1.offset = min base (ofiTotalIovLen rxIov) ∧ rx.1.bytesDone = min base (ofiTotalIovLen rxIov) ∧
      rx.1.nextSegNo = 1 ∧ rx.1.numSegs = numSegs ∧ rx.2 = false := by
  have filled : min (src.take base).length (rxdRxEntryInit rxIov).iov.flatten.length =
      min base (ofiTotalIovLen rxIov) := by
    rw [List.length_take, ofiTotalIovLen_eq]
    simp only [rxdRxEntryInit]
    omega
  intro pkt rx
  simp only [rx, pkt, rxdMatchRx]
  rw [rxdProgressOp_sar _ ⟨size, numSegs⟩ _ many]
  dsimp only
  rw [filled]
  exact ⟨reassembled_scatter rxIov held rfl rfl, rfl, rfl, rfl, rfl, rfl, rfl⟩

/-- The sender of a message longer than the op packet holds, whose data
part is shorter than `2^32` bytes, posts its `num_segs - 1` segments when
the window has room for them, and then has every byte done. -/
theorem rxdEpPostDataPkts_initMsg (pos : 0 < dom.maxSegSz) (long : opInline dom tag cqData < ofiTotalIovLen iov)
    (short : ofiTotalIovLen iov - (opInline dom tag cqData - sizeofRxdSarHdr) < 2 ^ 32) {room : Nat}
    (enough : (rxdTxEntryInitMsg dom tag cqData iov).1.numSegs - 1 ≤ room) :
    (rxdEpPostDataPkts dom room (rxdTxEntryInitMsg dom tag cqData iov).1).1 =
        (List.range ((rxdTxEntryInitMsg dom tag cqData iov).1.numSegs - 1)).map
          (segPkt dom.maxSegSz (opInline dom tag cqData - sizeofRxdSarHdr) (ofiTotalIovLen iov) iov.flatten) ∧
      (rxdEpPostDataPkts dom room (rxdTxEntryInitMsg dom tag cqData iov).1).2.bytesDone = ofiTotalIovLen iov := by
  have held : ofiTotalIovLen iov ≤ iov.flatten.length := (ofiTotalIovLen_eq iov).le
  have below : opInline dom tag cqData - sizeofRxdSarHdr < ofiTotalIovLen iov := by omega
  rw [rxdTxEntryInitMsg_sar long] at enough ⊢
  generalize opInline dom tag cqData - sizeofRxdSarHdr = base at below short enough ⊢
  dsimp only at enough ⊢
  have start : SenderAt dom.maxSegSz base (ofiTotalIovLen iov) iov.flatten 0
      { rxdTxEntryInitCommon iov with
          numSegs := ofiDivCeil (ofiTotalIovLen iov - base) dom.maxSegSz + 1, bytesDone := base } :=
    ⟨rfl, rfl, rfl, by dsimp only; omega⟩
  obtain ⟨sent, after⟩ := start.post pos short held room
  have all : min room (ofiDivCeil (ofiTotalIovLen iov - base) dom.maxSegSz - 0) =
      ofiDivCeil (ofiTotalIovLen iov - base) dom.maxSegSz := by omega
  have whole : ofiTotalIovLen iov - base ≤ ofiDivCeil (ofiTotalIovLen iov - base) dom.maxSegSz * dom.maxSegSz :=
    ofiDivCeil_mul_ge pos
  rw [all, ← List.range_eq_range'] at sent
  rw [all, Nat.zero_add] at after
  refine ⟨sent, ?_⟩
  rw [after.done]
  omega

/-- The round trip of a message longer than the op packet holds, whose
data part is shorter than `2^32` bytes: the receiver that matches and takes
the op packet and then the data packets the sender posted, in any order,
holds the first `min len R` bytes of the message, has as many bytes done,
completes once, on the last of the `num_segs` packets, and without error. -/
theorem rxdMsg_round_trip (pos : 0 < dom.maxSegSz) {rxIov : List Bytes}
    (long : opInline dom tag cqData < ofiTotalIovLen iov)
    (short : ofiTotalIovLen iov - (opInline dom tag cqData - sizeofRxdSarHdr) < 2 ^ 32) {room : Nat}
    (enough : (rxdTxEntryInitMsg dom tag cqData iov).1.numSegs - 1 ≤ room) {arrival : List DataPkt}
    (order : arrival.Perm (rxdEpPostDataPkts dom room (rxdTxEntryInitMsg dom tag cqData iov).1).1) :
    let txEntry := (rxdTxEntryInitMsg dom tag cqData iov).1
    let op := (rxdTxEntryInitMsg dom tag cqData iov).2
    let rx := rxdProgressOp (rxdMatchRx (rxdRxEntryInit rxIov) op) op
    let recv := rxdRecvDataPkts dom rx.1 arrival
    recv.1.iov.map List.length = rxIov.map List.length ∧
      recv.1.iov.flatten = writeAt rxIov.flatten 0 (iov.flatten.take (min txEntry.len (ofiTotalIovLen rxIov))) ∧
      recv.1.bytesDone = min txEntry.len (ofiTotalIovLen rxIov) ∧
      rx.2 :: recv.2 = List.replicate (txEntry.numSegs - 1) false ++ [true] ∧
      rxdCompleteRx recv.1 = .done (min txEntry.len (ofiTotalIovLen rxIov)) := by
  have held : ofiTotalIovLen iov ≤ iov.flatten.length := (ofiTotalIovLen_eq iov).le
  have below : opInline dom tag cqData - sizeofRxdSarHdr < ofiTotalIovLen iov := by omega
  rw [(rxdEpPostDataPkts_initMsg pos long short enough).1] at order
  rw [rxdTxEntryInitMsg_sar long] at order ⊢
  generalize opInline dom tag cqData - sizeofRxdSarHdr = base at below order ⊢
  dsimp only [rxdTxEntryInitCommon] at order ⊢
  have segs : 0 < ofiDivCeil (ofiTotalIovLen iov - base) dom.maxSegSz := (lt_ofiDivCeil_iff pos).mpr (by omega)
  rw [Nat.add_sub_cancel] at order ⊢
  obtain ⟨re, len, offset, done, segNo, numSegs, opDone⟩ := rxdProgressOp_reassembled dom rxIov
    (show base ≤ iov.flatten.length by omega)
    (show ofiDivCeil (ofiTotalIovLen iov - base) dom.maxSegSz + 1 ≠ 1 by omega)
  generalize rxdProgressOp _ _ = rx at re len offset done segNo numSegs opDone ⊢
  obtain ⟨lengths, flat, bytes⟩ := re.recvSegPkts pos held below.le (ofiTotalIovLen_eq rxIov).symm offset done order
  obtain ⟨-, -, -, -, len', -⟩ := @rxdRecvDataPkts_counters dom arrival rx.1
  refine ⟨lengths, flat, bytes, ?_, ?_⟩
  · -- only the last data packet brings `next_seg_no` to `num_segs`
    generalize ofiDivCeil (ofiTotalIovLen iov - base) dom.maxSegSz = n at segs numSegs order ⊢
    have shift : (fun j => !decide (rx.1.nextSegNo + j + 1 < rx.1.numSegs)) = fun j => !decide (j + 1 < n) := by
      funext j
      have same : 1 + j + 1 < n + 1 ↔ j + 1 < n := by omega
      rw [segNo, numSegs, decide_eq_decide.mpr same]
    rw [opDone, rxdRecvDataPkts_dones, shift, order.length_eq, List.length_map, List.length_range,
      range_map_last n segs, ← List.cons_append, ← List.replicate_succ, Nat.sub_add_cancel segs]
  · -- `bytes_done` is the `cq_entry.len` the match set
    have whole : (rxdRecvDataPkts dom rx.1 arrival).1.bytesDone = (rxdRecvDataPkts dom rx.1 arrival).1.len := by
      rw [bytes, len', len, Nat.min_comm]
      rfl
    rw [rxdCompleteRx, if_neg (not_not.mpr whole), len', len, Nat.min_comm]

theorem rxdMsg_round_trip_reversed :
    let dom : RxdDomain := ⟨40, 8⟩
    let iov : List Bytes := [List.replicate 30 1, List.replicate 20 2]
    let rxIov : List Bytes := [List.replicate 24 0, List.replicate 40 0]
    let txEntry := (rxdTxEntryInitMsg dom false false iov).1
    let op := (rxdTxEntryInitMsg dom false false iov).2
    let rx := rxdProgressOp (rxdMatchRx (rxdRxEntryInit rxIov) op) op
    let recv := rxdRecvDataPkts dom rx.1 (rxdEpPostDataPkts dom 5 txEntry).1.reverse
    recv.1.iov.map List.length = rxIov.map List.length ∧
      recv.1.iov.flatten = writeAt rxIov.flatten 0 (iov.flatten.take (min txEntry.len (ofiTotalIovLen rxIov))) ∧
      recv.1.bytesDone = min txEntry.len (ofiTotalIovLen rxIov) ∧
      rx.2 :: recv.2 = List.replicate (txEntry.numSegs - 1) false ++ [true] ∧
      rxdCompleteRx recv.1 = .done (min txEntry.len (ofiTotalIovLen rxIov)) :=
  rxdMsg_round_trip (by decide) (by decide) (by decide) (by decide) (List.reverse_perm _)

/-- A message whose data part is a nonzero multiple of `2^32` bytes never
gets its data across. `rxd_init_data_pkt` casts what is left to `uint32_t`,
so every data packet is empty and the sender never has the message done.
The receiver that matches and takes the op packet and then the
`num_segs - 1` data packets, in any order, completes once, on the last, with
only the op packet's bytes, and reports `FI_ETRUNC` whenever its buffers
hold more. -/
theorem rxdMsg_wraps (pos : 0 < dom.maxSegSz) {rxIov : List Bytes} {q : Nat} (pending : 0 < q)
    (wrap : ofiTotalIovLen iov - (opInline dom tag cqData - sizeofRxdSarHdr) = 2 ^ 32 * q) {arrival : List DataPkt}
    (order : arrival.Perm (rxdEpPostDataPkts dom ((rxdTxEntryInitMsg dom tag cqData iov).1.numSegs - 1)
      (rxdTxEntryInitMsg dom tag cqData iov).1).1) :
    let txEntry := (rxdTxEntryInitMsg dom tag cqData iov).1
    let op := (rxdTxEntryInitMsg dom tag cqData iov).2
    let sent := rxdEpPostDataPkts dom (txEntry.numSegs - 1) txEntry
    let rx := rxdProgressOp (rxdMatchRx (rxdRxEntryInit rxIov) op) op
    let recv := rxdRecvDataPkts dom rx.1 arrival
    (∀ pkt ∈ sent.1, pkt.msg = []) ∧ sent.2.bytesDone = opInline dom tag cqData - sizeofRxdSarHdr ∧
      recv.1.bytesDone = min (opInline dom tag cqData - sizeofRxdSarHdr) (ofiTotalIovLen rxIov) ∧
      rx.2 :: recv.2 = List.replicate (txEntry.numSegs - 1) false ++ [true] ∧
      (opInline dom tag cqData - sizeofRxdSarHdr < ofiTotalIovLen rxIov →
        rxdCompleteRx recv.1 = .etrunc (opInline dom tag cqData - sizeofRxdSarHdr)) := by
  have sar : sizeofRxdSarHdr = 24 := rfl
  have long : opInline dom tag cqData < ofiTotalIovLen iov := by omega
  rw [rxdTxEntryInitMsg_sar long] at order ⊢
  generalize opInline dom tag cqData - sizeofRxdSarHdr = base at wrap order ⊢
  dsimp only [rxdTxEntryInitCommon] at order ⊢
  rw [Nat.add_sub_cancel] at order ⊢
  -- the sender: every packet empty, `bytes_done` stuck at the op packet's part
  rw [rxdEpPostDataPkts_wraps _ (by dsimp only; omega) (by dsimp only; omega)] at order ⊢
  have empty : ∀ pkt ∈ arrival, pkt.msg = [] := fun pkt mem => by
    obtain ⟨k, _, rfl⟩ := List.mem_map.mp (order.mem_iff.mp mem)
    rfl
  -- the receiver: the op packet's part, and nothing from the data packets
  have segs : 0 < ofiDivCeil (ofiTotalIovLen iov - base) dom.maxSegSz := (lt_ofiDivCeil_iff pos).mpr (by omega)
  obtain ⟨-, len, -, done, segNo, numSegs, opDone⟩ := rxdProgressOp_reassembled dom rxIov
    (show base ≤ iov.flatten.length by rw [← ofiTotalIovLen_eq]; omega)
    (show ofiDivCeil (ofiTotalIovLen iov - base) dom.maxSegSz + 1 ≠ 1 by omega)
  generalize rxdProgressOp _ _ = rx at len done segNo numSegs opDone ⊢
  obtain ⟨-, -, -, -, len', done'⟩ := @rxdRecvDataPkts_counters dom arrival rx.1
  have nothing : (arrival.map (pktCnt dom rx.1.offset rx.1.iov.flatten.length)).sum = 0 := by
    refine List.sum_eq_zero fun c mem => ?_
    obtain ⟨pkt, inArrival, rfl⟩ := List.mem_map.mp mem
    simp only [pktCnt, empty pkt inArrival, List.length_nil, Nat.zero_min]
  have recvDone : (rxdRecvDataPkts dom rx.1 arrival).1.bytesDone = min base (ofiTotalIovLen rxIov) := by
    rw [done', nothing, Nat.add_zero, done]
  refine ⟨fun pkt mem => ?_, rfl, recvDone, ?_, fun wants => ?_⟩
  · obtain ⟨k, _, rfl⟩ := List.mem_map.mp mem
    rfl
  · generalize ofiDivCeil (ofiTotalIovLen iov - base) dom.maxSegSz = n at segs numSegs order ⊢
    have shift : (fun j => !decide (rx.1.nextSegNo + j + 1 < rx.1.numSegs)) = fun j => !decide (j + 1 < n) := by
      funext j
      have same : 1 + j + 1 < n + 1 ↔ j + 1 < n := by omega
      rw [segNo, numSegs, decide_eq_decide.mpr same]
    rw [opDone, rxdRecvDataPkts_dones, shift, order.length_eq, List.length_map, List.length_range',
      range_map_last n segs, ← List.cons_append, ← List.replicate_succ, Nat.sub_add_cancel segs]
  · -- `bytes_done` falls short of the `MIN(R, len)` the match expects
    have short : (rxdRecvDataPkts dom rx.1 arrival).1.bytesDone ≠ (rxdRecvDataPkts dom rx.1 arrival).1.len := by
      rw [recvDone, len', len]
      omega
    rw [rxdCompleteRx, if_pos short, recvDone, Nat.min_eq_left wants.le]

/-- The UDP domain (`max_inline_msg` 4080, `max_seg_sz` 4064) and a message
of `2^32 + 4056` bytes: its one data part of `2^32` bytes wraps. -/
theorem rxdMsg_wraps_udp :
    let dom : RxdDomain := ⟨4080, 4064⟩
    let iov : List Bytes := [List.replicate (2 ^ 32 + 4056) 1]
    let rxIov : List Bytes := [List.replicate (2 ^ 32 + 4056) 0]
    let txEntry := (rxdTxEntryInitMsg dom false false iov).1
    let op := (rxdTxEntryInitMsg dom false false iov).2
    let sent := rxdEpPostDataPkts dom (txEntry.numSegs - 1) txEntry
    let rx := rxdProgressOp (rxdMatchRx (rxdRxEntryInit rxIov) op) op
    let recv := rxdRecvDataPkts dom rx.1 sent.1.reverse
    (∀ pkt ∈ sent.1, pkt.msg = []) ∧ sent.2.bytesDone = opInline dom false false - sizeofRxdSarHdr ∧
      recv.1.bytesDone = min (opInline dom false false - sizeofRxdSarHdr) (ofiTotalIovLen rxIov) ∧
      rx.2 :: recv.2 = List.replicate (txEntry.numSegs - 1) false ++ [true] ∧
      (opInline dom false false - sizeofRxdSarHdr < ofiTotalIovLen rxIov →
        rxdCompleteRx recv.1 = .etrunc (opInline dom false false - sizeofRxdSarHdr)) :=
  -- the buffers are never evaluated: their length is read off `List.length_replicate`
  have total : ofiTotalIovLen [List.replicate (2 ^ 32 + 4056) (1 : UInt8)] = 2 ^ 32 + 4056 := by
    rw [ofiTotalIovLen_single, List.length_replicate]
  rxdMsg_wraps (by decide) Nat.one_pos (by rw [total]; decide) (List.reverse_perm _)

/-- The round trip of an RMA read of fewer than `2^32` bytes: the target
posts the `ofi_div_ceil(size, max_seg_sz)` data packets of its buffers, and
the reader that takes them in any order holds the first `size` bytes of the
target's buffers, has them all done, and completes once, on the last. -/
theorem rxdRmaRead_round_trip (pos : 0 < dom.maxSegSz) {localIov targetIov : List Bytes}
    (nonempty : 0 < ofiTotalIovLen localIov) (short : ofiTotalIovLen localIov < 2 ^ 32)
    (held : ofiTotalIovLen localIov ≤ ofiTotalIovLen targetIov) {room : Nat}
    (enough : (rxdTxEntryInitRmaRead dom localIov).numSegs ≤ room) {arrival : List DataPkt}
    (order : arrival.Perm
      (rxdEpPostDataPkts dom room (rxdRmaReadEntryInit dom (ofiTotalIovLen localIov) targetIov)).1) :
    let txEntry := rxdTxEntryInitRmaRead dom localIov
    let resp := rxdEpPostDataPkts dom room (rxdRmaReadEntryInit dom (ofiTotalIovLen localIov) targetIov)
    let recv := rxdRecvDataPkts dom txEntry arrival
    resp.2.bytesDone = ofiTotalIovLen localIov ∧
      recv.1.iov.map List.length = localIov.map List.length ∧
      recv.1.iov.flatten = targetIov.flatten.take (ofiTotalIovLen localIov) ∧
      recv.1.bytesDone = ofiTotalIovLen localIov ∧
      recv.2 = List.replicate (txEntry.numSegs - 1) false ++ [true] := by
  intro txEntry resp recv
  have held' : ofiTotalIovLen localIov ≤ targetIov.flatten.length := by rw [← ofiTotalIovLen_eq]; exact held
  have segs : txEntry.numSegs = ofiDivCeil (ofiTotalIovLen localIov - 0) dom.maxSegSz := rfl
  have positive : 0 < txEntry.numSegs := by
    rw [segs]
    exact (lt_ofiDivCeil_iff pos).mpr (by omega)
  have enough : txEntry.numSegs ≤ room := enough
  -- the target: a sender of the first `size` bytes whose data start at byte 0
  have start : SenderAt dom.maxSegSz 0 (ofiTotalIovLen localIov) targetIov.flatten 0
      (rxdRmaReadEntryInit dom (ofiTotalIovLen localIov) targetIov) :=
    ⟨rfl, rfl, rfl, by simp [rxdRmaReadEntryInit]⟩
  obtain ⟨sent, after⟩ := start.post pos (by omega) held' room
  rw [← segs, show min room (txEntry.numSegs - 0) = txEntry.numSegs by omega, ← List.range_eq_range'] at sent
  rw [← segs, show min room (txEntry.numSegs - 0) = txEntry.numSegs by omega] at after
  rw [sent, segs] at order
  have whole : ofiTotalIovLen localIov - 0 ≤ txEntry.numSegs * dom.maxSegSz := ofiDivCeil_mul_ge pos
  -- the reader: no op packet, every byte from the data packets
  have re : Reassembled dom (localIov.map List.length) localIov.flatten targetIov.flatten [] txEntry :=
    reassembled_scatter localIov (Nat.zero_le targetIov.flatten.length)
      (by simp [txEntry, rxdTxEntryInitRmaRead, rxdTxEntryInitCommon])
      (by simp [txEntry, rxdTxEntryInitRmaRead, rxdTxEntryInitCommon])
  obtain ⟨lengths, flat, bytes⟩ := re.recvSegPkts pos held' (Nat.zero_le _) (ofiTotalIovLen_eq localIov).symm
    (by simp [txEntry, rxdTxEntryInitRmaRead, rxdTxEntryInitCommon])
    (by simp [txEntry, rxdTxEntryInitRmaRead, rxdTxEntryInitCommon]) order
  have fill : localIov.flatten.length = (targetIov.flatten.take (ofiTotalIovLen localIov)).length := by
    rw [List.length_take, ← ofiTotalIovLen_eq]
    omega
  have total : (localIov.map List.length).sum = ofiTotalIovLen localIov := rfl
  rw [total, Nat.min_self] at flat bytes
  refine ⟨?_, lengths, ?_, bytes, ?_⟩
  · rw [after.done]
    simp only [Nat.zero_add]
    omega
  · rw [flat]
    exact writeAt_zero_of_length fill
  · have shift : (fun j => !decide (txEntry.nextSegNo + j + 1 < txEntry.numSegs)) =
        fun j => !decide (j + 1 < txEntry.numSegs) := by
      funext j
      rw [show txEntry.nextSegNo = 0 from rfl, Nat.zero_add]
    rw [rxdRecvDataPkts_dones, shift, order.length_eq, List.length_map, List.length_range, ← segs,
      range_map_last _ positive]

theorem rxdRmaRead_round_trip_reversed :
    let dom : RxdDomain := ⟨40, 8⟩
    let localIov : List Bytes := [List.replicate 10 0, List.replicate 7 0]
    let targetIov : List Bytes := [List.replicate 12 5, List.replicate 8 6]
    let txEntry := rxdTxEntryInitRmaRead dom localIov
    let resp := rxdEpPostDataPkts dom 3 (rxdRmaReadEntryInit dom (ofiTotalIovLen localIov) targetIov)
    let recv := rxdRecvDataPkts dom txEntry resp.1.reverse
    resp.2.bytesDone = ofiTotalIovLen localIov ∧
      recv.1.iov.map List.length = localIov.map List.length ∧
      recv.1.iov.flatten = targetIov.flatten.take (ofiTotalIovLen localIov) ∧
      recv.1.bytesDone = ofiTotalIovLen localIov ∧
      recv.2 = List.replicate (txEntry.numSegs - 1) false ++ [true] :=
  rxdRmaRead_round_trip (by decide) (by decide) (by decide) (by decide) (by decide) (List.reverse_perm _)

end Transfers

end Libfabric.Rxd.Sar
