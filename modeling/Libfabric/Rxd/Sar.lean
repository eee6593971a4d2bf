import Libfabric.Iov
import Libfabric.Rxd.Unpack

/-! The data path of rxd's segmentation and reassembly (`rxd_msg.c`, `rxd_ep.c`,
`rxd_cq.c`, `rxd_rma.c`). A long message goes out as the op packet, with the
first `max_inline` bytes behind a SAR header, and `num_segs - 1` data packets
of at most `max_seg_sz` bytes; a read response has only data packets. Buffers
are lists of segments of bytes and a packet is its payload, the headers being
`Rxd.Unpack`'s. The sender's window is the `room` of `rxdEpPostDataPkts`, and
the order in which data packets are delivered is the list given to
`rxdRecvDataPkts`. -/
namespace Libfabric.Rxd.Sar

/-- The sizes of `struct rxd_domain` that segmentation reads. -/
structure RxdDomain where
  maxInlineMsg : Nat
  maxSegSz : Nat
  deriving DecidableEq, Repr

/-- The data side of `struct rxd_x_entry`: its buffers, `cq_entry.len`,
`bytes_done`, `offset`, `next_seg_no` and `num_segs`. -/
structure RxdXEntry where
  iov : List Bytes
  len : Nat
  bytesDone : Nat
  offset : Nat
  nextSegNo : Nat
  numSegs : Nat
  deriving DecidableEq, Repr

structure RxdSarHdr where
  size : Nat
  numSegs : Nat
  deriving DecidableEq, Repr

/-- An op packet: its SAR header, `none` when it is `RXD_INLINE`, and its
message bytes. -/
structure OpPkt where
  sarHdr : Option RxdSarHdr
  msg : Bytes
  deriving DecidableEq, Repr

structure DataPkt where
  segNo : Nat
  msg : Bytes
  deriving DecidableEq, Repr

def ofiTotalIovLen (iov : List Bytes) : Nat := (iov.map List.length).sum

/-! The sender. -/

def rxdTxEntryInitCommon (iov : List Bytes) : RxdXEntry :=
  { iov, len := ofiTotalIovLen iov, bytesDone := 0, offset := 0, nextSegNo := 0, numSegs := 0 }

/-- `rxd_init_msg`: `MIN(total_len, avail_len)` bytes from the front of the
buffers, and their count. -/
def rxdInitMsg (iov : List Bytes) (totalLen availLen : Nat) : Bytes × Nat :=
  ofiCopyFromIov [] (min totalLen availLen) iov 0

/-- `rxd_tx_entry_init_msg`: the op packet loses room to the tag
(`RXD_TAG_HDR`) and to the CQ data (`rxd_check_init_cq_data`). A longer
message also gives room to the SAR header and sends the rest in
`num_segs - 1` data packets. -/
def rxdTxEntryInitMsg (dom : RxdDomain) (tag cqData : Bool) (iov : List Bytes) : RxdXEntry × OpPkt :=
  let txEntry := rxdTxEntryInitCommon iov
  let maxInline := if tag then dom.maxInlineMsg - sizeofRxdTagHdr else dom.maxInlineMsg
  let maxInline := if cqData then maxInline - sizeofRxdDataHdr else maxInline
  let (maxInline, numSegs, sarHdr) :=
    if txEntry.len > maxInline then
      let maxInline := maxInline - sizeofRxdSarHdr
      let numSegs := ofiDivCeil (txEntry.len - maxInline) dom.maxSegSz + 1
      -- `rxd_init_sar_hdr`
      (maxInline, numSegs, some ⟨txEntry.len, numSegs⟩)
    else (maxInline, 1, none)
  let (msg, done) := rxdInitMsg iov txEntry.len maxInline
  ({ txEntry with numSegs, bytesDone := done }, ⟨sarHdr, msg⟩)

/-- `rxd_init_data_pkt` with the domain's `max_seg_sz`: the next segment,
`MIN(max_seg_sz, seg_size)` bytes from `bytes_done` on, where `seg_size` is
`len - bytes_done` cast to `uint32_t`. -/
def rxdInitDataPkt (maxSegSz : Nat) (txEntry : RxdXEntry) : DataPkt × RxdXEntry :=
  let segSize := (txEntry.len - txEntry.bytesDone) % 2 ^ 32
  let segSize := min maxSegSz segSize
  let (msg, pktSize) := ofiCopyFromIov [] segSize txEntry.iov txEntry.bytesDone
  (⟨txEntry.nextSegNo, msg⟩,
    { txEntry with nextSegNo := txEntry.nextSegNo + 1, bytesDone := txEntry.bytesDone + pktSize })

/-- `rxd_ep_post_data_pkts` with room for `room` more packets in the window:
the packets sent, in order, while `bytes_done` falls short of `len`. -/
def rxdEpPostDataPkts (dom : RxdDomain) : Nat → RxdXEntry → List DataPkt × RxdXEntry
  | 0, txEntry => ([], txEntry)
  | room + 1, txEntry =>
    if txEntry.bytesDone ≠ txEntry.len then
      let (pkt, txEntry) := rxdInitDataPkt dom.maxSegSz txEntry
      let (pkts, txEntry) := rxdEpPostDataPkts dom room txEntry
      (pkt :: pkts, txEntry)
    else ([], txEntry)

/-! The receiver. -/

def rxdRxEntryInit (iov : List Bytes) : RxdXEntry :=
  { iov, len := ofiTotalIovLen iov, bytesDone := 0, offset := 0, nextSegNo := 0, numSegs := 0 }

/-- `rxd_match_rx` once a posted receive matches: `cq_entry.len` becomes
`MIN(cq_entry.len, total_size)`, where `total_size` is the SAR header's `size`
or else the op packet's message size. -/
def rxdMatchRx (rxEntry : RxdXEntry) (pkt : OpPkt) : RxdXEntry :=
  let totalSize := match pkt.sarHdr with
    | some sarHdr => sarHdr.size
    | none => pkt.msg.length
  { rxEntry with len := min rxEntry.len totalSize }

def rxdProgressOpMsg (rxEntry : RxdXEntry) (msg : Bytes) : RxdXEntry :=
  let (iov, done) := ofiCopyToIov rxEntry.iov 0 msg msg.length
  { rxEntry with iov, bytesDone := done }

/-- `rxd_progress_op` of a message, and whether it calls `rxd_complete_rx`:
without a SAR header, or with one segment, the receive completes at once. -/
def rxdProgressOp (rxEntry : RxdXEntry) (pkt : OpPkt) : RxdXEntry × Bool :=
  let rxEntry := rxdProgressOpMsg rxEntry pkt.msg
  let rxEntry := { rxEntry with offset := rxEntry.bytesDone }
  match pkt.sarHdr with
  | none => (rxEntry, true)
  | some sarHdr =>
    if sarHdr.numSegs = 1 then (rxEntry, true)
    else ({ rxEntry with numSegs := sarHdr.numSegs, nextSegNo := rxEntry.nextSegNo + 1 }, false)

/-- `rxd_ep_recv_data`: the packet's bytes to `offset + seg_no * max_seg_sz`,
and whether the transfer completes (`rxd_complete_rx`, or `rxd_complete_tx`
for a read). -/
def rxdEpRecvData (dom : RxdDomain) (xEntry : RxdXEntry) (pkt : DataPkt) : RxdXEntry × Bool :=
  let (iov, done) := ofiCopyToIov xEntry.iov (xEntry.offset + pkt.segNo * dom.maxSegSz) pkt.msg pkt.msg.length
  let xEntry := { xEntry with iov, bytesDone := xEntry.bytesDone + done, nextSegNo := xEntry.nextSegNo + 1 }
  (xEntry, !decide (xEntry.nextSegNo < xEntry.numSegs))

/-- What `rxd_complete_rx` writes: an error entry with `FI_ETRUNC` and
`bytes_done` as its length when `bytes_done` is not `cq_entry.len`, and
otherwise the completion of `cq_entry.len` bytes. -/
inductive RxdRxCompletion where
  | done (len : Nat)
  | etrunc (len : Nat)
  deriving DecidableEq, Repr

def rxdCompleteRx (rxEntry : RxdXEntry) : RxdRxCompletion :=
  if rxEntry.bytesDone ≠ rxEntry.len then .etrunc rxEntry.bytesDone else .done rxEntry.len

def rxdRecvDataPkts (dom : RxdDomain) : RxdXEntry → List DataPkt → RxdXEntry × List Bool
  | xEntry, [] => (xEntry, [])
  | xEntry, pkt :: pkts =>
    let (xEntry, done) := rxdEpRecvData dom xEntry pkt
    let (xEntry, dones) := rxdRecvDataPkts dom xEntry pkts
    (xEntry, done :: dones)

/-! Reads. -/

/-- `rxd_tx_entry_init_rma` of a read (`FI_READ`): the reader expects
`ofi_div_ceil(len, max_seg_sz)` data packets into its buffers. -/
def rxdTxEntryInitRmaRead (dom : RxdDomain) (iov : List Bytes) : RxdXEntry :=
  let txEntry := rxdTxEntryInitCommon iov
  { txEntry with numSegs := ofiDivCeil txEntry.len dom.maxSegSz }

/-- `rxd_rma_read_entry_init`: the target sends `size` bytes of the
registered buffers `iov` back, in `ofi_div_ceil(size, max_seg_sz)` packets. -/
def rxdRmaReadEntryInit (dom : RxdDomain) (size : Nat) (iov : List Bytes) : RxdXEntry :=
  { iov, len := size, bytesDone := 0, offset := 0, nextSegNo := 0, numSegs := ofiDivCeil size dom.maxSegSz }

end Libfabric.Rxd.Sar
