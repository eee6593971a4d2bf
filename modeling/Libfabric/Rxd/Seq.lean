import Libfabric.Errno
import Libfabric.Lib.Serial
import Libfabric.Rxd.Sar

/-! Sequence numbers on the transmit side of an rxd endpoint toward one peer.
An op packet draws its number in `rxd_start_xfer`, which reserves `num_segs`
numbers for a transfer of several segments; a read response reserves its range
when `rxd_progress_tx_list` first posts it. When the packet pool runs dry the
progress loop gives the reserved range back. Whether `rxd_get_tx_pkt` finds a
packet is an input (`txPkt n` answers its `n`-th call), and the endpoint keeps
the numbers it has put on the wire for the first time (`wire`). -/
namespace Libfabric.Rxd

def ofiBefore (a b : Nat) : Bool := Serial.lt 64 a b

def ofiAfterEq (a b : Nat) : Bool := Serial.ge 64 a b

inductive RxdOp where
  | msg
  | tagged
  | readReq
  | write
  | atomic
  | atomicFetch
  | atomicCompare
  | dataRead
  deriving DecidableEq, Repr

/-- A transmit entry (`struct rxd_x_entry`): its data side, its operation,
whether its op packet still waits to be started (`pkt != NULL`), the first
sequence number of its range, and whether its data packets are
`RXD_DATA_READ` (`cq_entry.flags` has `FI_READ` or `FI_REMOTE_READ`). -/
structure RxdXEntry extends Sar.RxdXEntry where
  op : RxdOp
  pkt : Bool
  startSeq : Nat
  read : Bool
  deriving DecidableEq, Repr

/-- The transmit side of `struct rxd_peer`. `unacked` lists the sequence numbers
of the unacknowledged packets in the order sent; `unacked_cnt` is its length. -/
structure RxdPeer where
  txSeqNo : Nat
  lastRxAck : Nat
  txWindow : Nat
  unacked : List Nat
  txList : List RxdXEntry
  rmaRxList : List RxdXEntry
  deriving DecidableEq, Repr

/-- The endpoint with its one peer: `max_seg_sz` of the domain, the calls of
`rxd_get_tx_pkt` so far, and the sequence numbers sent. -/
structure RxdEp where
  maxSegSz : Nat
  allocs : Nat
  peer : RxdPeer
  wire : List Nat
  deriving DecidableEq, Repr

namespace RxdPeer

def unackedCnt (peer : RxdPeer) : Nat := peer.unacked.length

def windowFull (peer : RxdPeer) : Bool := peer.unackedCnt ≥ peer.txWindow

end RxdPeer

section Transmit

variable (txPkt : Nat → Bool)

def rxdGetTxPkt (ep : RxdEp) : Bool × RxdEp :=
  (txPkt ep.allocs, { ep with allocs := ep.allocs + 1 })

def rxdSendUnacked (ep : RxdEp) (seqNo : Nat) : RxdEp :=
  { ep with
    wire := ep.wire ++ [seqNo]
    peer := { ep.peer with unacked := ep.peer.unacked ++ [seqNo] } }

def rxdSetPktSeq (peer : RxdPeer) : Nat × RxdPeer :=
  (peer.txSeqNo, { peer with txSeqNo := peer.txSeqNo + 1 })

/-- `rxd_start_xfer`: numbers and sends the op packet, reserving the whole
range for a transfer of several segments (a read request only takes one).
Returns whether the window is still open. -/
def rxdStartXfer (ep : RxdEp) (entry : RxdXEntry) : Bool × RxdXEntry × RxdEp :=
  if ep.peer.windowFull then (false, entry, ep)
  else
    let (startSeq, peer) := rxdSetPktSeq ep.peer
    let peer :=
      if entry.op ≠ .readReq ∧ entry.numSegs > 1 then { peer with txSeqNo := startSeq + entry.numSegs }
      else peer
    let ep := rxdSendUnacked { ep with peer } startSeq
    (!ep.peer.windowFull, { entry with startSeq, pkt := false }, ep)

/-- `rxd_ep_post_data_pkts`: sends data packets while bytes remain and the
window is open. Returns `1` when it stops at a full window after sending, `0`
otherwise, and `-FI_ENOMEM` when no packet is left in the pool. Each packet sent
adds to `unacked`, so the loop ends once the window is full. -/
def rxdEpPostDataPkts (ep : RxdEp) (entry : RxdXEntry) : Int × RxdXEntry × RxdEp :=
  if entry.bytesDone ≠ entry.len then
    if ep.peer.windowFull then (0, entry, ep)
    else
      let alloc := rxdGetTxPkt txPkt ep
      if !alloc.1 then (-fiEnomem, entry, alloc.2)
      else
        let (pkt, data) := Sar.rxdInitDataPkt alloc.2.maxSegSz entry.toRxdXEntry
        let seqNo := entry.startSeq + pkt.segNo + (if entry.read then 0 else 1)
        rxdEpPostDataPkts (rxdSendUnacked alloc.2 seqNo) { entry with toRxdXEntry := data }
  else (if ep.peer.windowFull then 1 else 0, entry, ep)
termination_by ep.peer.txWindow - ep.peer.unacked.length
decreasing_by
  simp only [rxdSendUnacked, rxdGetTxPkt, List.length_append, List.length_singleton]
  simp only [RxdPeer.windowFull, RxdPeer.unackedCnt, ge_iff_le, decide_eq_true_eq] at *
  omega

inductive Place where
  | kept
  | moved
  | freed
  deriving DecidableEq, Repr

/-- What one pass of the loop body does with an entry: whether the loop goes on,
where the entry ends up, the entry and `inc` after it, and the endpoint. -/
structure Visit where
  goOn : Bool
  place : Place
  entry : RxdXEntry
  inc : Bool
  ep : RxdEp

/-- The start of the loop body: an entry whose op packet waits is started with
`rxd_start_xfer`. Returns what that returned (`none` when there was nothing to
start), the entry, the endpoint, and where the entry goes: a read request or an
atomic with a result waits on `rma_rx_list` once started. -/
def startWaiting (entry : RxdXEntry) (ep : RxdEp) : Option Bool × RxdXEntry × RxdEp × Place :=
  if entry.pkt then
    let (ret, entry, ep) := rxdStartXfer ep entry
    let waits := !entry.pkt &&
      (entry.op == .readReq || entry.op == .atomicFetch || entry.op == .atomicCompare)
    (some ret, entry, ep, if waits then Place.moved else .kept)
  else (none, entry, ep, Place.kept)

/-- The range of a `RXD_DATA_READ` entry, taken from `tx_seq_no`. -/
def reserveRange (entry : RxdXEntry) (ep : RxdEp) : RxdXEntry × RxdEp :=
  ({ entry with startSeq := ep.peer.txSeqNo },
    { ep with peer := { ep.peer with txSeqNo := ep.peer.txSeqNo + entry.numSegs } })

/-- The end of the loop body: the data is posted, and a failure stops the loop.
On `-FI_ENOMEM` the entry's range is given back whenever some range was
reserved earlier in this loop (`inc`), whatever was sent of it. -/
def postData (place : Place) (inc : Bool) (entry : RxdXEntry) (ep : RxdEp) : Visit :=
  let (ret, entry, ep) := rxdEpPostDataPkts txPkt ep entry
  if ret ≠ 0 then
    let ep :=
      if ret = -fiEnomem ∧ inc then
        { ep with peer := { ep.peer with txSeqNo := ep.peer.txSeqNo - entry.numSegs } }
      else ep
    ⟨false, place, entry, inc, ep⟩
  else ⟨true, place, entry, inc, ep⟩

/-- The body of the loop of `rxd_progress_tx_list` for one entry. `headSeq` is
the oldest unacknowledged number, `inc` whether a `RXD_DATA_READ` range was
reserved earlier in this loop. -/
def progressEntry (headSeq : Nat) (inc : Bool) (entry : RxdXEntry) (ep : RxdEp) : Visit :=
  let (started, entry, ep, place) := startWaiting entry ep
  if started = some false ∨ (started.isSome ∧ entry.op = .readReq) then
    ⟨false, place, entry, inc, ep⟩
  else if entry.bytesDone = entry.len ∧ entry.op ≠ .atomicFetch ∧ entry.op ≠ .atomicCompare then
    -- `num_segs - 1` is `uint64_t` arithmetic
    if ofiBefore (entry.startSeq + Serial.sub 64 entry.numSegs 1) headSeq then
      ⟨true, .freed, entry, inc, ep⟩
    else ⟨true, place, entry, inc, ep⟩
  else if entry.op = .dataRead ∧ entry.bytesDone = 0 then
    if ep.peer.windowFull then ⟨false, place, entry, inc, ep⟩
    else
      let (entry, ep) := reserveRange entry ep
      postData txPkt place true entry ep
  else postData txPkt place inc entry ep

/-- The loop of `rxd_progress_tx_list` over the entries not yet visited.
`kept` are the visited entries that stay on `tx_list`; an entry that moves goes
to the end of `rma_rx_list`; when the loop stops, the unvisited entries stay. -/
def progressLoop (headSeq : Nat) (inc : Bool) (kept : List RxdXEntry) :
    List RxdXEntry → RxdEp → RxdEp
  | [], ep => { ep with peer := { ep.peer with txList := kept } }
  | entry :: rest, ep =>
      let visit := progressEntry txPkt headSeq inc entry ep
      let ep := visit.ep
      let (kept, ep) :=
        match visit.place with
        | .kept => (kept ++ [visit.entry], ep)
        | .moved => (kept, { ep with peer := { ep.peer with rmaRxList := ep.peer.rmaRxList ++ [visit.entry] } })
        | .freed => (kept, ep)
      if visit.goOn then progressLoop headSeq visit.inc kept rest ep
      else { ep with peer := { ep.peer with txList := kept ++ rest } }

/-- `rxd_progress_tx_list` for the peer (whose address is valid). -/
def rxdProgressTxList (ep : RxdEp) : RxdEp :=
  let headSeq := match ep.peer.unacked with
    | [] => ep.peer.lastRxAck
    | seqNo :: _ => seqNo
  progressLoop txPkt headSeq false [] ep.peer.txList ep

/-- A new entry of `rxd_tx_entry_init_common` for `len` bytes, which fails
without a packet for its op header. The bytes are not what numbering depends
on: the buffer is `len` zero bytes. -/
def rxdTxEntryInitCommon (ep : RxdEp) (op : RxdOp) (len : Nat) (read : Bool) :
    Option RxdXEntry × RxdEp :=
  let (got, ep) := rxdGetTxPkt txPkt ep
  if got then
    (some { toRxdXEntry := Sar.rxdTxEntryInitCommon [List.replicate len 0], op, pkt := true, startSeq := 0, read },
      ep)
  else (none, ep)

/-- The segments of `rxd_tx_entry_init_msg`: up to `maxInline` bytes (what the
op packet holds after its tag and CQ data) go inline, and a longer message gives
`sarHdrSize` of them to its SAR header and sends the rest in data packets. -/
def rxdTxEntryInitMsg (ep : RxdEp) (op : RxdOp) (len maxInline sarHdrSize : Nat) :
    Option RxdXEntry × RxdEp :=
  match rxdTxEntryInitCommon txPkt ep op len false with
  | (none, ep) => (none, ep)
  | (some entry, ep) =>
      if len > maxInline then
        let maxInline := maxInline - sarHdrSize
        (some { entry with
          numSegs := ofiDivCeil (len - maxInline) ep.maxSegSz + 1, bytesDone := min len maxInline }, ep)
      else (some { entry with numSegs := 1, bytesDone := min len maxInline }, ep)

/-- `rxd_ep_generic_sendmsg` of a message or tagged message (`op`): the entry
goes on `tx_list`, is started, and posts its data at once if the window allows. -/
def rxdEpGenericSendmsg (ep : RxdEp) (op : RxdOp) (len maxInline sarHdrSize : Nat) : Int × RxdEp :=
  match rxdTxEntryInitMsg txPkt ep op len maxInline sarHdrSize with
  | (none, ep) => (-fiEagain, ep)
  | (some entry, ep) =>
      let (ret, entry, ep) := rxdStartXfer ep entry
      let (entry, ep) :=
        if ret ∧ entry.numSegs > 1 then
          let (_, entry, ep) := rxdEpPostDataPkts txPkt ep entry
          (entry, ep)
        else (entry, ep)
      (0, { ep with peer := { ep.peer with txList := ep.peer.txList ++ [entry] } })

/-- `rxd_generic_rma` of a read (`FI_READ`): the read request asks for
`ofi_div_ceil(len, max_seg_sz)` segments back and waits on `rma_rx_list` once
started. -/
def rxdGenericRead (ep : RxdEp) (len : Nat) : Int × RxdEp :=
  match rxdTxEntryInitCommon txPkt ep .readReq len true with
  | (none, ep) => (-fiEagain, ep)
  | (some entry, ep) =>
      let entry := { entry with numSegs := ofiDivCeil len ep.maxSegSz }
      let (_, entry, ep) := rxdStartXfer ep entry
      if entry.pkt then (0, { ep with peer := { ep.peer with txList := ep.peer.txList ++ [entry] } })
      else (0, { ep with peer := { ep.peer with rmaRxList := ep.peer.rmaRxList ++ [entry] } })

/-- `rxd_rma_read_entry_init`: the peer asks to read `size` bytes; the data goes
back as `RXD_DATA_READ` packets from a new entry on `tx_list`. -/
def rxdRmaReadEntryInit (ep : RxdEp) (size : Nat) : RxdEp :=
  let entry : RxdXEntry :=
    { iov := [List.replicate size 0], len := size, bytesDone := 0, offset := 0, nextSegNo := 0,
      numSegs := ofiDivCeil size ep.maxSegSz, op := .dataRead, pkt := false, startSeq := 0, read := true }
  rxdProgressTxList txPkt { ep with peer := { ep.peer with txList := ep.peer.txList ++ [entry] } }

/-- `rxd_handle_ack`: takes the peer's window, drops the packets numbered below
the acknowledged one from the front of `unacked`, and progresses the list. The
send completions of those packets have arrived: none is still in use. -/
def rxdHandleAck (ep : RxdEp) (seqNo window : Nat) : RxdEp :=
  let ep := { ep with peer := { ep.peer with txWindow := window } }
  if ep.peer.lastRxAck = seqNo then ep
  else
    let ep := { ep with peer := { ep.peer with lastRxAck := seqNo } }
    if ep.peer.unacked = [] then ep
    else
      let unacked := ep.peer.unacked.dropWhile (fun s => !ofiAfterEq s seqNo)
      rxdProgressTxList txPkt { ep with peer := { ep.peer with unacked } }

end Transmit

inductive RxdCall where
  | sendmsg (op : RxdOp) (len maxInline sarHdrSize : Nat)
  | read (len : Nat)
  | readRequest (size : Nat)
  | ack (seqNo window : Nat)
  deriving DecidableEq, Repr

def call (txPkt : Nat → Bool) (ep : RxdEp) : RxdCall → RxdEp
  | .sendmsg op len maxInline sarHdrSize => (rxdEpGenericSendmsg txPkt ep op len maxInline sarHdrSize).2
  | .read len => (rxdGenericRead txPkt ep len).2
  | .readRequest size => rxdRmaReadEntryInit txPkt ep size
  | .ack seqNo window => rxdHandleAck txPkt ep seqNo window

def run (txPkt : Nat → Bool) (ep : RxdEp) : List RxdCall → RxdEp
  | [] => ep
  | c :: cs => run txPkt (call txPkt ep c) cs

/-- A connected peer with nothing sent yet (`rxd_create_peer` with its address
known): numbers start at 0 and the window is `rxd_env.max_unacked`. -/
def RxdEp.connected (maxSegSz maxUnacked : Nat) : RxdEp where
  maxSegSz := maxSegSz
  allocs := 0
  peer := { txSeqNo := 0, lastRxAck := 0, txWindow := maxUnacked, unacked := [], txList := [],
            rmaRxList := [] }
  wire := []

end Libfabric.Rxd
