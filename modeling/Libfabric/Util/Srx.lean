import Libfabric.Errno

/-! The shared receive context of `util_srx.c`. With directed receive a receive
for one source goes to that source's queue and one for any source to the
common queue, each stamped with the next `seq_no`; a message takes the oldest
matching receive of the two heads, and one that finds none waits as
unexpected. Entries are linked through their `s_entry` and found again with
`container_of`; the model keeps the LP64 layout of the words the matching code
reaches, so that a `container_of` through another member reads what is really
at the address it computes. -/
namespace Libfabric.Util

def fiAddrUnspec : UInt64 := 0xFFFFFFFFFFFFFFFF

def fiMultiRecv : UInt64 := (1 : UInt64) <<< 16

def ofiMatchTag (recvTag recvIgnore tag : UInt64) : Bool :=
  (recvTag ||| recvIgnore) == (tag ||| recvIgnore)

inductive UtilRxEntryStatus where
  | posted
  | unexp
  | matched
  deriving DecidableEq, Repr

/-- `struct util_rx_entry`: of its `peer_entry` the source, message size, tag,
flags, owner context and `iov` pointer, then its sequence number, ignore mask
and status. Pointers are their values. -/
structure UtilRxEntry where
  addr : UInt64
  msgSize : UInt64
  tag : UInt64
  flags : UInt64
  ownerContext : UInt64
  iov : UInt64
  seqNo : UInt64
  ignore : UInt64
  status : UtilRxEntryStatus
  deriving DecidableEq, Repr

/-! ### Layout -/

def offsetofSEntry : Nat := 0

/-- `offsetof(struct util_rx_entry, peer_entry)`: after the 16-byte union of
`d_entry` and `s_entry`. -/
def offsetofPeerEntry : Nat := 16

def offsetofTag : Nat := 40

def offsetofFlags : Nat := 56

def offsetofSeqNo : Nat := 112

def offsetofIgnore : Nat := 120

/-- The 8-byte word that holds `multi_recv_ref` and, in its upper half,
`status`. -/
def offsetofStatusWord : Nat := 128

def sizeofUtilRxEntry : Nat := 136

/-- The 8-byte word at byte `offset` of an entry, for the words the model has:
`peer_entry` is `srx`, `addr`, `msg_size`, `tag`, `cq_data`, `flags`, `context`,
`count`, `desc`, `peer_context`, `owner_context`, `iov` from byte 16 on. -/
def UtilRxEntry.word (e : UtilRxEntry) : Nat → Option UInt64
  | 24 => some e.addr
  | 32 => some e.msgSize
  | 40 => some e.tag
  | 56 => some e.flags
  | 96 => some e.ownerContext
  | 104 => some e.iov
  | 112 => some e.seqNo
  | 120 => some e.ignore
  | _ => none

/-- `container_of(item, struct util_rx_entry, member)->field` where `item` is
the entry's `s_entry`: the container is computed `member` bytes before the item,
so the word read lies `field - member` bytes after the entry's start. -/
def UtilRxEntry.via (e : UtilRxEntry) (member field : Nat) : Option UInt64 :=
  if member ≤ field then e.word (offsetofSEntry + field - member) else none

/-- Whether an entry reached through `member` matches `tag` by its own
`peer_entry.tag` and `ignore`. -/
def UtilRxEntry.matchesVia (e : UtilRxEntry) (member : Nat) (tag : UInt64) : Option Bool := do
  let recvTag ← e.via member offsetofTag
  let recvIgnore ← e.via member offsetofIgnore
  pure (ofiMatchTag recvTag recvIgnore tag)

/-! ### The context -/

/-- A peer with unexpected messages (`struct util_unexp_peer`); its `cnt` is
the length of its two queues together. -/
structure UtilUnexpPeer where
  msgQueue : List UtilRxEntry
  tagQueue : List UtilRxEntry
  deriving DecidableEq, Repr

def UtilUnexpPeer.empty : UtilUnexpPeer := { msgQueue := [], tagQueue := [] }

/-- Where a walk of `tag_queue` goes past the entries it lists. -/
inductive TagQueueEnd where
  /-- the last entry's `next` is `NULL`, and `tail` is that entry -/
  | null
  /-- on into the context itself, with `tail` on an entry the walk does not reach -/
  | ctx
  /-- on into the context, with `tail` `NULL` -/
  | ctxNullTail
  deriving DecidableEq, Repr

/-- `struct util_srx_ctx`: the posted queues, the unexpected messages (those of
an unknown source, and per source with the list `unexp_peers` of the sources
that have some, in the order they got their first), and the chunk pointers of
`src_recv_queues`, which lie at bytes 192 on of the context. `tag_queue` is
the entries a walk from its `head` reaches and where the walk goes on. -/
structure UtilSrxCtx where
  dirRecv : Bool
  rxSeqNo : UInt64
  msgQueue : List UtilRxEntry
  tagQueue : List UtilRxEntry
  tagQueueEnd : TagQueueEnd
  srcRecvQueues : UInt64 → List UtilRxEntry
  srcTrecvQueues : UInt64 → List UtilRxEntry
  unspecUnexpMsgQueue : List UtilRxEntry
  unspecUnexpTagQueue : List UtilRxEntry
  unexpPeers : List UInt64
  srcUnexpPeers : UInt64 → UtilUnexpPeer
  srcRecvChunks : Nat → UInt64

/-- `offsetof(struct util_srx_ctx, msg_queue)`: after the 96-byte
`fid_peer_srx`, `dir_recv` (padded to 8 bytes), `min_multi_recv_size`,
`rx_op_flags`, `rx_msg_flags`, `iov_limit`, `update_func`, `cq` and
`rx_seq_no`. -/
def offsetofMsgQueue : Nat := 160

/-- `offsetof(struct util_srx_ctx, src_recv_queues)`: after `msg_queue` and
`tag_queue`, 16 bytes each. Its first member is `chunk[OFI_IDX_MAX_CHUNKS]`. -/
def offsetofSrcRecvQueues : Nat := 192

/-- The 8-byte word at byte `offset` of the context, for the words the model
has: the 1024 chunk pointers of `src_recv_queues`. -/
def UtilSrxCtx.word (srx : UtilSrxCtx) (offset : Nat) : Option UInt64 :=
  if offsetofSrcRecvQueues ≤ offset ∧ offset < offsetofSrcRecvQueues + 8 * 1024 ∧ offset % 8 = 0 then
    some (srx.srcRecvChunks ((offset - offsetofSrcRecvQueues) / 8))
  else none

def UtilSrxCtx.init (dirRecv : Bool) : UtilSrxCtx where
  dirRecv := dirRecv
  rxSeqNo := 0
  msgQueue := []
  tagQueue := []
  tagQueueEnd := .null
  srcRecvQueues := fun _ => []
  srcTrecvQueues := fun _ => []
  unspecUnexpMsgQueue := []
  unspecUnexpTagQueue := []
  unexpPeers := []
  srcUnexpPeers := fun _ => UtilUnexpPeer.empty
  srcRecvChunks := fun _ => 0

structure FiPeerMatchAttr where
  addr : UInt64
  msgSize : UInt64
  tag : UInt64
  deriving DecidableEq, Repr

/-- The `fi_peer_rx_entry` a lookup hands back: the `peer_entry` at byte
`offset` of an entry's memory, a new unexpected entry, or an address inside the
context itself. -/
inductive RxEntryRef where
  | entryAt (e : UtilRxEntry) (offset : Nat)
  | unexp (e : UtilRxEntry)
  | ctxAt (offset : Nat)
  deriving DecidableEq, Repr

namespace UtilSrxCtx

variable (srx : UtilSrxCtx)

def setSrcTrecvQueue (addr : UInt64) (queue : List UtilRxEntry) : UtilSrxCtx :=
  { srx with srcTrecvQueues := fun a => if a = addr then queue else srx.srcTrecvQueues a }

def setSrcRecvQueue (addr : UInt64) (queue : List UtilRxEntry) : UtilSrxCtx :=
  { srx with srcRecvQueues := fun a => if a = addr then queue else srx.srcRecvQueues a }

def setSrcUnexpPeer (addr : UInt64) (peer : UtilUnexpPeer) : UtilSrxCtx :=
  { srx with srcUnexpPeers := fun a => if a = addr then peer else srx.srcUnexpPeers a }

/-- The end of a walk of `tag_queue` that found nothing among its entries:
past a `NULL` it stops, and past the context it would read the context as
an entry, memory the model does not have. -/
def walkTagEnd (found : Option Nat) : Option (Option Nat) :=
  match found, srx.tagQueueEnd with
  | some i, _ => some (some i)
  | none, .null => some none
  | none, _ => none

/-- `slist_insert_tail` on `tag_queue`: behind the last entry of an intact
queue; behind a `tail` the walk does not reach once it runs into the
context; and through a `NULL` `tail` under a `head` that is not `NULL`, a
fault. -/
def insertTag (e : UtilRxEntry) : Option UtilSrxCtx :=
  match srx.tagQueueEnd with
  | .null => some { srx with tagQueue := srx.tagQueue ++ [e] }
  | .ctx => some srx
  | .ctxNullTail => none

/-- `slist_remove` of entry `j` of `tag_queue` once `srx` has been stored in
its `next`: the link before it leads into the context, the entries after it
are cut off, and `tail`, which a non-`NULL` `next` leaves alone, is off the
walk. -/
def linkTagToCtx (j : Nat) : UtilSrxCtx :=
  { srx with
    tagQueue := srx.tagQueue.take j
    tagQueueEnd := if srx.tagQueueEnd = .ctxNullTail then .ctxNullTail else .ctx }

/-- `srx` stored into `tag_queue.head`: the walk goes straight into the
context, and `tail` stays, `NULL` if the queue was empty. -/
def headTagToCtx : UtilSrxCtx :=
  { srx with
    tagQueue := []
    tagQueueEnd :=
      if srx.tagQueueEnd = .ctxNullTail ∨ (srx.tagQueueEnd = .null ∧ srx.tagQueue = []) then .ctxNullTail
      else .ctx }

end UtilSrxCtx

/-! ### Matching an incoming message -/

def firstMatch (tag : UInt64) : List UtilRxEntry → Option (Option Nat)
  | [] => some none
  | e :: rest => do
      let hit ← e.matchesVia offsetofSEntry tag
      if hit then pure (some 0)
      else
        let found ← firstMatch tag rest
        pure (found.map (· + 1))

/-- `util_init_unexp`: the other fields of a recycled entry are not set, and
the model leaves them zero. -/
def utilInitUnexp (attr : FiPeerMatchAttr) (flags : UInt64) : UtilRxEntry :=
  { addr := attr.addr, msgSize := attr.msgSize, tag := attr.tag, flags, ownerContext := 0, iov := 0,
    seqNo := 0, ignore := 0, status := .unexp }

def fiTaggedRecv : UInt64 := ((1 : UInt64) <<< 3) ||| ((1 : UInt64) <<< 10)

def fiMsgRecv : UInt64 := ((1 : UInt64) <<< 1) ||| ((1 : UInt64) <<< 10)

def matched (e : UtilRxEntry) (msgSize : UInt64) : UtilRxEntry :=
  { e with status := .matched, msgSize := min e.msgSize msgSize }

def rxEntryMatchedWord : UInt64 := 2

/-- A 4-byte store into the upper half of an 8-byte word (little endian). -/
def storeHigh (word value : UInt64) : UInt64 := (word &&& (0xFFFFFFFF : UInt64)) ||| (value <<< (32 : UInt64))

/-- `util_match_tag`: the first entry of the common tagged queue that matches,
or a new unexpected entry and `-FI_ENOENT`. -/
def utilMatchTag (srx : UtilSrxCtx) (attr : FiPeerMatchAttr) : Option (Int × RxEntryRef × UtilSrxCtx) := do
  match ← srx.walkTagEnd (← firstMatch attr.tag srx.tagQueue) with
  | some i =>
      let e := srx.tagQueue.getD i (utilInitUnexp attr 0)
      pure (0, .entryAt (matched e attr.msgSize) offsetofPeerEntry,
        { srx with tagQueue := srx.tagQueue.eraseIdx i })
  | none =>
      let e := utilInitUnexp attr fiTaggedRecv
      pure (-fiEnoent, .unexp { e with msgSize := min e.msgSize attr.msgSize }, srx)

/-- The `check_any` loop of `util_get_tag`: walks the common tagged queue until
an entry is newer than `seqNo` or matches. The entries are reached with
`container_of(any_item, struct util_rx_entry, peer_entry)`. -/
def checkAny (tag seqNo : UInt64) : List UtilRxEntry → Option (Option Nat)
  | [] => some none
  | e :: rest => do
      let anySeq ← e.via offsetofPeerEntry offsetofSeqNo
      if anySeq > seqNo then pure none
      else
        let hit ← e.matchesVia offsetofPeerEntry tag
        if hit then pure (some 0)
        else
          let found ← checkAny tag seqNo rest
          pure (found.map (· + 1))

/-- `util_get_tag`. With a queue for the message's source, the first matching
entry there is compared against the common queue; otherwise the common queue
alone is searched. `none` when the code reads memory the model does not have.
An entry `check_any` selects is reached through `peer_entry`, sixteen bytes
off: the `status` store lands in the upper half of its `seq_no`, and the
`peer_entry.srx` store in its `s_entry.next`. -/
def utilGetTag (srx : UtilSrxCtx) (attr : FiPeerMatchAttr) : Option (Int × RxEntryRef × UtilSrxCtx) := do
  let queue := if attr.addr = fiAddrUnspec then [] else srx.srcTrecvQueues attr.addr
  if queue = [] then utilMatchTag srx attr
  else
    match ← firstMatch attr.tag queue with
    | none => utilMatchTag srx attr
    | some i =>
        let e := queue.getD i (utilInitUnexp attr 0)
        let seqNo ← e.via offsetofSEntry offsetofSeqNo
        match ← srx.walkTagEnd (← checkAny attr.tag seqNo srx.tagQueue) with
        | some j =>
            let any := srx.tagQueue.getD j (utilInitUnexp attr 0)
            let any := { any with seqNo := storeHigh any.seqNo rxEntryMatchedWord }
            pure (0, .entryAt any (offsetofSEntry + offsetofPeerEntry - offsetofPeerEntry), srx.linkTagToCtx j)
        | none =>
            pure (0, .entryAt { e with status := .matched } offsetofPeerEntry,
              srx.setSrcTrecvQueue attr.addr (queue.eraseIdx i))

def utilMatchMsg (srx : UtilSrxCtx) (attr : FiPeerMatchAttr) : Option (Int × RxEntryRef × UtilSrxCtx) :=
  match srx.msgQueue with
  | [] =>
      let e := utilInitUnexp attr fiMsgRecv
      some (-fiEnoent, .unexp { e with msgSize := min e.msgSize attr.msgSize }, srx)
  | e :: rest =>
      if e.flags &&& fiMultiRecv ≠ 0 then none
      else some (0, .entryAt (matched e attr.msgSize) offsetofPeerEntry, { srx with msgQueue := rest })

/-- `util_get_msg`, for receives that are not `FI_MULTI_RECV`. The entry for
the common queue is `container_of(&srx_ctx->msg_queue.head, struct
util_rx_entry, s_entry)`: the address of the queue's `head` pointer inside the
context, taken as an entry, so its `seq_no` and `flags` are words of the
context, the `status` store lands in the upper half of chunk pointer 12 of
`src_recv_queues`, and the `peer_entry.srx` store on `tag_queue.head`. -/
def utilGetMsg (srx : UtilSrxCtx) (attr : FiPeerMatchAttr) : Option (Int × RxEntryRef × UtilSrxCtx) := do
  let queue := if attr.addr = fiAddrUnspec then [] else srx.srcRecvQueues attr.addr
  match queue with
  | [] => utilMatchMsg srx attr
  | e :: rest =>
      let takeOwn : Option (Int × RxEntryRef × UtilSrxCtx) :=
        if e.flags &&& fiMultiRecv ≠ 0 then none
        else some (0, .entryAt { e with status := .matched } offsetofPeerEntry,
          srx.setSrcRecvQueue attr.addr rest)
      if srx.msgQueue = [] then takeOwn
      else
        let anyBase := offsetofMsgQueue - offsetofSEntry
        let anySeq ← srx.word (anyBase + offsetofSeqNo)
        if anySeq ≤ e.seqNo then
          let statusAt := anyBase + offsetofStatusWord
          let chunk := (statusAt - offsetofSrcRecvQueues) / 8
          let srx := { srx with
            srcRecvChunks := fun k =>
              if k = chunk then storeHigh (srx.srcRecvChunks k) rxEntryMatchedWord else srx.srcRecvChunks k }
          let anyFlags ← srx.word (anyBase + offsetofFlags)
          if anyFlags &&& fiMultiRecv ≠ 0 then none
          else pure (0, .ctxAt (anyBase + offsetofPeerEntry), { srx with msgQueue := srx.msgQueue.tail }.headTagToCtx)
        else takeOwn

/-! ### Posting a receive -/

/-- `util_search_peer_tag` with `remove`: the first unexpected tagged message of
the peer that the posting's tag and mask accept. -/
def utilSearchPeerTag (peer : UtilUnexpPeer) (tag ignore : UInt64) : Option (UtilRxEntry × UtilUnexpPeer) :=
  match peer.tagQueue.findIdx? (fun e => ofiMatchTag tag ignore e.tag) with
  | none => none
  | some i => some (peer.tagQueue.getD i (utilInitUnexp ⟨0, 0, 0⟩ 0), { peer with tagQueue := peer.tagQueue.eraseIdx i })

def removeFromPeer (srx : UtilSrxCtx) (addr : UInt64) (peer : UtilUnexpPeer) : UtilSrxCtx :=
  let srx := srx.setSrcUnexpPeer addr peer
  if peer.msgQueue.length + peer.tagQueue.length = 0 then
    { srx with unexpPeers := srx.unexpPeers.erase addr }
  else srx

def searchUnexpPeersTag (srx : UtilSrxCtx) (tag ignore : UInt64) :
    List UInt64 → Option (UtilRxEntry × UtilSrxCtx)
  | [] => none
  | addr :: rest =>
      match utilSearchPeerTag (srx.srcUnexpPeers addr) tag ignore with
      | some (e, peer) => some (e, removeFromPeer srx addr peer)
      | none => searchUnexpPeersTag srx tag ignore rest

/-- `util_search_unexp_tag` with `remove`: for any source, the messages of an
unknown source first, then each source in `unexp_peers`; for one source, its
own queue. -/
def utilSearchUnexpTag (srx : UtilSrxCtx) (addr tag ignore : UInt64) : Option (UtilRxEntry × UtilSrxCtx) :=
  if addr = fiAddrUnspec then
    match srx.unspecUnexpTagQueue.findIdx? (fun e => ofiMatchTag tag ignore e.tag) with
    | some i =>
        some (srx.unspecUnexpTagQueue.getD i (utilInitUnexp ⟨0, 0, 0⟩ 0),
          { srx with unspecUnexpTagQueue := srx.unspecUnexpTagQueue.eraseIdx i })
    | none => searchUnexpPeersTag srx tag ignore srx.unexpPeers
  else
    match utilSearchPeerTag (srx.srcUnexpPeers addr) tag ignore with
    | some (e, peer) => some (e, removeFromPeer srx addr peer)
    | none => none

/-- `util_get_recv_entry`: a new posted entry at address `entryAddr` of the pool, its
iovecs right after it, numbered with the next `rx_seq_no`. -/
def utilGetRecvEntry (srx : UtilSrxCtx) (entryAddr addr tag ignore flags msgSize : UInt64) :
    UtilRxEntry × UtilSrxCtx :=
  ({ addr, msgSize, tag, flags, ownerContext := 0, iov := entryAddr + sizeofUtilRxEntry.toUInt64,
     seqNo := srx.rxSeqNo, ignore, status := .posted },
    { srx with rxSeqNo := srx.rxSeqNo + 1 })

/-- `util_srx_generic_trecv` without `FI_PEEK`, `FI_CLAIM` or `FI_DISCARD`, for a
buffer of `msgSize` bytes: an unexpected message that matches is started and
handed back; otherwise a new entry at `entryAddr` is queued. `none` for a
fault. -/
def utilSrxGenericTrecv (srx : UtilSrxCtx) (entryAddr addr tag ignore msgSize : UInt64) :
    Option (Option UtilRxEntry × UtilSrxCtx) :=
  let addr := if srx.dirRecv then addr else fiAddrUnspec
  match utilSearchUnexpTag srx addr tag ignore with
  | some (e, srx) =>
      some (some { e with status := .posted, addr, tag, flags := fiTaggedRecv, msgSize }, srx)
  | none =>
      let (e, srx) := utilGetRecvEntry srx entryAddr addr tag ignore fiTaggedRecv msgSize
      if addr = fiAddrUnspec then (srx.insertTag e).map fun srx => (none, srx)
      else some (none, srx.setSrcTrecvQueue addr (srx.srcTrecvQueues addr ++ [e]))

/-- `util_queue_tag`: an unexpected tagged message waits in the queue of its
source, or of unknown sources. -/
def utilQueueTag (srx : UtilSrxCtx) (e : UtilRxEntry) : UtilSrxCtx :=
  if !srx.dirRecv || e.addr = fiAddrUnspec then
    { srx with unspecUnexpTagQueue := srx.unspecUnexpTagQueue ++ [e] }
  else
    let peer := srx.srcUnexpPeers e.addr
    let srx := if peer.msgQueue.length + peer.tagQueue.length = 0 then
        { srx with unexpPeers := srx.unexpPeers ++ [e.addr] } else srx
    srx.setSrcUnexpPeer e.addr { peer with tagQueue := peer.tagQueue ++ [e] }

/-! ### Runs -/

/-- What happens at the context: a tagged receive is posted, or a tagged message
arrives. The provider looks the message up with `util_get_tag` and, when
nothing matches, queues it with `util_queue_tag`. -/
inductive SrxEvent where
  | trecv (entryAddr addr tag ignore msgSize : UInt64)
  | tagged (attr : FiPeerMatchAttr)
  deriving DecidableEq, Repr

def SrxEvent.apply (srx : UtilSrxCtx) : SrxEvent → Option UtilSrxCtx
  | .trecv entryAddr addr tag ignore msgSize =>
      (utilSrxGenericTrecv srx entryAddr addr tag ignore msgSize).map Prod.snd
  | .tagged attr => do
      let (ret, ref, srx) ← utilGetTag srx attr
      match ref with
      | .unexp e => pure (if ret = -fiEnoent then utilQueueTag srx e else srx)
      | _ => pure srx

def runEvents (srx : UtilSrxCtx) : List SrxEvent → Option UtilSrxCtx
  | [] => some srx
  | event :: events => (event.apply srx).bind (fun srx => runEvents srx events)

end Libfabric.Util
