import Libfabric.Ofi
import Libfabric.Lib.Fields

/-! The REQ packets of the EFA RDM protocol (`efa_rdm_pkt_type.c` and the
`efa_rdm_pke_*.c` of each request type). A REQ header is the fixed header of
its type, the `rma_iov` entries of an RMA or atomic request, then the optional
headers its flags announce: the raw address, the connection id, the CQ data.
A packet is the byte list of its entry's wire data, `mtu_size` bytes long, with
little-endian members; the payload is the run of the operation's buffer that
follows the header on the wire. -/
namespace Libfabric.EfaRdm

open Fields

/-- The REQ packet types, the entries of `EFA_RDM_PKT_TYPE_REQ_INFO_VEC`. -/
inductive ReqPktType where
  | eagerMsgrtm | eagerTagrtm | mediumMsgrtm | mediumTagrtm | longctsMsgrtm | longctsTagrtm
  | eagerRtw | longctsRtw | shortRtr | longctsRtr | writeRta | fetchRta | compareRta
  | longreadMsgrtm | longreadTagrtm | longreadRtw | readRtr
  | dcEagerMsgrtm | dcEagerTagrtm | dcMediumMsgrtm | dcMediumTagrtm | dcLongctsMsgrtm | dcLongctsTagrtm
  | dcEagerRtw | dcLongctsRtw | dcWriteRta
  | runtctsMsgrtm | runtctsTagrtm | runtctsRtw | runtreadMsgrtm | runtreadTagrtm | runtreadRtw
  deriving DecidableEq, Repr

namespace ReqPktType

/-- The packet type numbers of `efa_rdm_protocol.h`. -/
def id : ReqPktType → Nat
  | eagerMsgrtm => 64 | eagerTagrtm => 65 | mediumMsgrtm => 66 | mediumTagrtm => 67
  | longctsMsgrtm => 68 | longctsTagrtm => 69 | eagerRtw => 70 | longctsRtw => 71
  | shortRtr => 72 | longctsRtr => 73 | writeRta => 74 | fetchRta => 75 | compareRta => 76
  | longreadMsgrtm => 128 | longreadTagrtm => 129 | longreadRtw => 130 | readRtr => 131
  | dcEagerMsgrtm => 133 | dcEagerTagrtm => 134 | dcMediumMsgrtm => 135 | dcMediumTagrtm => 136
  | dcLongctsMsgrtm => 137 | dcLongctsTagrtm => 138 | dcEagerRtw => 139 | dcLongctsRtw => 140
  | dcWriteRta => 141
  | runtctsMsgrtm => 142 | runtctsTagrtm => 143 | runtctsRtw => 144
  | runtreadMsgrtm => 145 | runtreadTagrtm => 146 | runtreadRtw => 147

def all : List ReqPktType :=
  [eagerMsgrtm, eagerTagrtm, mediumMsgrtm, mediumTagrtm, longctsMsgrtm, longctsTagrtm,
    eagerRtw, longctsRtw, shortRtr, longctsRtr, writeRta, fetchRta, compareRta,
    longreadMsgrtm, longreadTagrtm, longreadRtw, readRtr,
    dcEagerMsgrtm, dcEagerTagrtm, dcMediumMsgrtm, dcMediumTagrtm, dcLongctsMsgrtm, dcLongctsTagrtm,
    dcEagerRtw, dcLongctsRtw, dcWriteRta,
    runtctsMsgrtm, runtctsTagrtm, runtctsRtw, runtreadMsgrtm, runtreadTagrtm, runtreadRtw]

def ofId? (n : Nat) : Option ReqPktType := all.find? (·.id == n)

/-- `base_hdr_size` of the type's entry in `EFA_RDM_PKT_TYPE_REQ_INFO_VEC`:
the `sizeof` of its header struct, whose trailing `rma_iov[0]` adds nothing. -/
def baseHdrSize : ReqPktType → Nat
  | eagerMsgrtm => 8 | eagerTagrtm => 16
  | mediumMsgrtm => 24 | mediumTagrtm => 32
  | longctsMsgrtm => 24 | longctsTagrtm => 32
  | longreadMsgrtm => 24 | longreadTagrtm => 32
  | dcEagerMsgrtm => 16 | dcEagerTagrtm => 24
  | dcMediumMsgrtm => 32 | dcMediumTagrtm => 40
  -- the DC long-CTS entries use the non-DC header structs
  | dcLongctsMsgrtm => 24 | dcLongctsTagrtm => 32
  | runtctsMsgrtm => 40 | runtctsTagrtm => 48
  | runtreadMsgrtm => 40 | runtreadTagrtm => 48
  | eagerRtw => 8 | dcEagerRtw => 16 | longctsRtw => 24 | dcLongctsRtw => 24 | longreadRtw => 24
  | runtctsRtw => 40 | runtreadRtw => 40
  | shortRtr => 24 | longctsRtr => 24 | readRtr => 4
  | writeRta => 24 | dcWriteRta => 24 | fetchRta => 24 | compareRta => 24

end ReqPktType

open ReqPktType

/-- `EFA_RDM_PKT_TYPE_REQ_INFO_VEC[pkt_type].base_hdr_size`; the table's
unlisted entries are zero. -/
def efaRdmPktTypeReqBaseHdrSize (pktType : Nat) : Nat := ((ofId? pktType).map baseHdrSize).getD 0

def efaRdmPktTypeContainsRmaIov (pktType : Nat) : Bool :=
  [eagerRtw, dcEagerRtw, longctsRtw, dcLongctsRtw, longreadRtw, shortRtr, longctsRtr,
    writeRta, dcWriteRta, fetchRta, compareRta].any (·.id == pktType)

def efaRdmPktTypeIsRuntread (pktType : Nat) : Bool :=
  pktType == runtreadTagrtm.id || pktType == runtreadMsgrtm.id

def efaRdmPktTypeIsReq (pktType : Nat) : Bool := 64 ≤ pktType

/-! Header flags (`efa_rdm_protocol.h`), and the sizes of the optional headers. -/

def efaRdmReqOptRawAddrHdr : Nat := 2 ^ 0
def efaRdmReqOptCqDataHdr : Nat := 2 ^ 1
def efaRdmReqMsg : Nat := 2 ^ 2
def efaRdmReqTagged : Nat := 2 ^ 3
def efaRdmReqAtomic : Nat := 2 ^ 5
def efaRdmReqReadNack : Nat := 2 ^ 13
def efaRdmPktConnidHdr : Nat := 2 ^ 15

def efaRdmProtocolVersion : Nat := 4
def efaRdmIovLimit : Nat := 4

/-- `sizeof(struct fi_rma_iov)`, also that of `struct efa_rma_iov`: three 8-byte members. -/
def sizeofFiRmaIov : Nat := 24

def efaEpAddrLen : Nat := 32

def efaEpAddrQkeyOffset : Nat := 20

def sizeofReqOptRawAddrHdr : Nat := 4
def sizeofReqOptCqDataHdr : Nat := 8
def sizeofReqOptConnidHdr : Nat := 4
def efaRdmReqOptHdrAlignment : Nat := 8

def efaRdmReqOptRawAddrHdrSize : Nat :=
  ((sizeofReqOptRawAddrHdr + efaEpAddrLen - 1) / efaRdmReqOptHdrAlignment + 1) * efaRdmReqOptHdrAlignment

def efaRdmEpInOrderAlignment : Nat := 128
def efaRdmEpCudaMemoryAlignment : Nat := 64

/-- The non-REQ packet types that carry data. -/
def efaRdmCtsdataPkt : Nat := 4
def efaRdmReadrspPkt : Nat := 5
def efaRdmAtomrspPkt : Nat := 8

/-- `struct efa_ep_addr`: the GID, the QP number, padding, the qkey, and the `next` pointer. -/
structure EfaEpAddr where
  raw : Bytes
  qpn : UInt16
  pad : UInt16
  qkey : UInt32
  next : UInt64
  rawLength : raw.length = 16

/-- The bytes of a `struct efa_ep_addr`, as `memcpy` copies them. -/
def EfaEpAddr.bytes (a : EfaEpAddr) : Bytes :=
  a.raw ++ encodeLE 2 a.qpn.toNat ++ encodeLE 2 a.pad.toNat ++ encodeLE 4 a.qkey.toNat ++ encodeLE 8 a.next.toNat

/-- The parts of `struct efa_rdm_peer` the REQ writers test. -/
structure ReqPeer where
  /-- `flags & EFA_RDM_PEER_HANDSHAKE_RECEIVED` -/
  handshakeReceived : Bool
  /-- `extra_info[0] & EFA_RDM_EXTRA_REQUEST_CONSTANT_HEADER_LENGTH` -/
  constantHeaderLength : Bool
  /-- `extra_info[0] & EFA_RDM_EXTRA_FEATURE_REQUEST_USER_RECV_QP` -/
  requestUserRecvQp : Bool

def efaRdmPeerNeedRawAddrHdr (peer : ReqPeer) : Bool := !peer.handshakeReceived || peer.constantHeaderLength

def efaRdmPeerNeedConnid (peer : ReqPeer) : Bool := peer.handshakeReceived

def efaRdmPeerExpectsZeroHdrDataTransfer (peer : ReqPeer) : Bool := peer.requestUserRecvQp

/-- The parts of `struct efa_rdm_ep` and of `efa_env` the REQ writers read. -/
structure ReqEp where
  mtuSize : Nat
  /-- `base_ep.src_addr` -/
  srcAddr : EfaEpAddr
  sendrecvInOrderAligned128Bytes : Bool
  /-- `efa_env.tx_min_credits` -/
  txMinCredits : Nat

structure RmaIov where
  addr : Nat
  len : Nat
  key : Nat

/-- An entry of the TX entry's `iov`, with the key of its `desc` once
`efa_rdm_ope_try_fill_desc` has run (`none` where it registered nothing). -/
structure ReqIov where
  base : Nat
  len : Nat
  key : Option Nat

/-- The parts of a TX entry (`struct efa_rdm_ope`) the REQ writers read. -/
structure ReqTxe where
  peer : ReqPeer
  /-- `fi_flags & FI_REMOTE_CQ_DATA` -/
  remoteCqData : Bool
  /-- `cq_entry.data` -/
  cqData : UInt64
  /-- `internal_flags & EFA_RDM_OPE_READ_NACK` -/
  readNack : Bool
  msgId : Nat
  txId : Nat
  tag : Nat
  totalLen : Nat
  bytesRunt : Nat
  window : Nat
  atomicDatatype : Nat
  atomicOp : Nat
  /-- `rma_iov[0 .. rma_iov_count)` -/
  rmaIov : List RmaIov
  /-- `iov[0 .. iov_count)` -/
  iov : List ReqIov
  /-- `efa_mr_is_cuda(desc[0])` -/
  cuda : Bool
  /-- the bytes of the operation's buffer, in order -/
  data : Bytes
  /-- the bytes of the compare buffer of a compare atomic -/
  compareData : Bytes

/-! The receiver's walk over a REQ header (`efa_rdm_pke_req.c`). -/

def efaRdmPkeGetReqRmaIovCount (wire : Bytes) : Nat :=
  let pktType := load wire 0 1
  if [eagerRtw, dcEagerRtw, longctsRtw, dcLongctsRtw, longreadRtw].any (·.id == pktType) then load wire 4 4
  else if [shortRtr, longctsRtr].any (·.id == pktType) then load wire 4 4
  else if [writeRta, dcWriteRta, fetchRta, compareRta].any (·.id == pktType) then load wire 8 4
  else 0

/-- `efa_rdm_pke_get_req_base_hdr_size`: the fixed header and its `rma_iov` entries. -/
def efaRdmPkeGetReqBaseHdrSize (wire : Bytes) : Nat :=
  efaRdmPktTypeReqBaseHdrSize (load wire 0 1) + efaRdmPkeGetReqRmaIovCount wire * sizeofFiRmaIov

/-- `efa_rdm_pke_get_req_hdr_size`: past the optional headers, the raw
address header by the `addr_len` it carries. -/
def efaRdmPkeGetReqHdrSize (wire : Bytes) : Nat :=
  let flags := load wire 2 2
  let optHdr := efaRdmPkeGetReqBaseHdrSize wire
  let optHdr :=
    if flagSet flags efaRdmReqOptRawAddrHdr then optHdr + sizeofReqOptRawAddrHdr + load wire optHdr 4 else optHdr
  let optHdr := if flagSet flags efaRdmReqOptCqDataHdr then optHdr + sizeofReqOptCqDataHdr else optHdr
  if flagSet flags efaRdmPktConnidHdr then optHdr + sizeofReqOptConnidHdr else optHdr

/-- `efa_rdm_pke_get_req_raw_addr`: the offset of the raw address, `NULL` as `none`. -/
def efaRdmPkeGetReqRawAddr (wire : Bytes) : Option Nat :=
  let optHdr := efaRdmPkeGetReqBaseHdrSize wire
  if flagSet (load wire 2 2) efaRdmReqOptRawAddrHdr then some (optHdr + sizeofReqOptRawAddrHdr) else none

/-- `efa_rdm_pke_get_req_connid_ptr`: the offset of the connection id, which
is the qkey of the raw address when the packet carries one. -/
def efaRdmPkeGetReqConnidPtr (wire : Bytes) : Option Nat :=
  let flags := load wire 2 2
  let optHdr := efaRdmPkeGetReqBaseHdrSize wire
  if flagSet flags efaRdmReqOptRawAddrHdr then some (optHdr + sizeofReqOptRawAddrHdr + efaEpAddrQkeyOffset)
  else
    let optHdr := if flagSet flags efaRdmReqOptCqDataHdr then optHdr + sizeofReqOptCqDataHdr else optHdr
    if flagSet flags efaRdmPktConnidHdr then some optHdr else none

def efaRdmPkeGetReqCqData (wire : Bytes) : Nat :=
  let optHdr := efaRdmPkeGetReqBaseHdrSize wire
  let optHdr :=
    if flagSet (load wire 2 2) efaRdmReqOptRawAddrHdr then optHdr + sizeofReqOptRawAddrHdr + load wire optHdr 4
    else optHdr
  load wire optHdr 8

/-- `efa_rdm_pke_get_payload_offset` of a received packet; `fromReadCopyPool`
for an entry of the read-copy pool, which holds payload only. -/
def efaRdmPkeGetPayloadOffset (fromReadCopyPool : Bool) (wire : Bytes) : Nat :=
  if fromReadCopyPool then 0
  else
    let pktType := load wire 0 1
    if efaRdmPktTypeIsReq pktType then
      let payloadOffset := efaRdmPkeGetReqHdrSize wire
      -- the `fi_rma_iov` read entries of a runting read sit between header and payload
      if pktType == runtreadMsgrtm.id || pktType == runtreadTagrtm.id then
        payloadOffset + load wire 20 4 * sizeofFiRmaIov
      else payloadOffset
    else if pktType = efaRdmCtsdataPkt then
      24 + if flagSet (load wire 2 2) efaRdmPktConnidHdr then 8 else 0
    else if pktType = efaRdmReadrspPkt then 24
    else if pktType = efaRdmAtomrspPkt then 24
    else sizeMax

/-! The sender's sizing of a REQ packet. -/

def efaRdmPktTypeGetReqHdrSize (pktType flags rmaIovCount : Nat) : Nat :=
  let hdrSize := efaRdmPktTypeReqBaseHdrSize pktType
  let hdrSize :=
    if flagSet flags efaRdmReqOptRawAddrHdr then hdrSize + efaRdmReqOptRawAddrHdrSize
    else if flagSet flags efaRdmPktConnidHdr then hdrSize + sizeofReqOptConnidHdr
    else hdrSize
  let hdrSize := if flagSet flags efaRdmReqOptCqDataHdr then hdrSize + sizeofReqOptCqDataHdr else hdrSize
  if efaRdmPktTypeContainsRmaIov pktType then hdrSize + rmaIovCount * sizeofFiRmaIov else hdrSize

def efaRdmTxeMaxReqDataCapacity (ep : ReqEp) (txe : ReqTxe) (pktType : Nat) : Nat :=
  let headerFlags :=
    if efaRdmPeerNeedRawAddrHdr txe.peer then efaRdmReqOptRawAddrHdr
    else if efaRdmPeerNeedConnid txe.peer then efaRdmPktConnidHdr
    else 0
  let headerFlags := if txe.remoteCqData then headerFlags ||| efaRdmReqOptCqDataHdr else headerFlags
  let maxDataOffset := efaRdmPktTypeGetReqHdrSize pktType headerFlags txe.rmaIov.length
  let maxDataOffset :=
    if efaRdmPktTypeIsRuntread pktType then maxDataOffset + txe.iov.length * sizeofFiRmaIov else maxDataOffset
  sizeSub ep.mtuSize maxDataOffset

/-! The sender's writers. -/

def orFlags (wire : Bytes) (bits : Nat) : Bytes := store wire 2 2 (load wire 2 2 ||| bits)

/-- The `fi_rma_iov` entries `iovs` from `pos` on: `addr`, `len`, `key`. -/
def storeRmaIovs (wire : Bytes) (pos : Nat) : List RmaIov → Bytes
  | [] => wire
  | iov :: rest =>
      storeRmaIovs (store (store (store wire pos 8 iov.addr) (pos + 8) 8 iov.len) (pos + 16) 8 iov.key)
        (pos + sizeofFiRmaIov) rest

/-- The first half of `efa_rdm_pke_init_req_hdr_common`: the base header,
with the flags of the optional headers the peer and the operation ask for. -/
def initReqBaseHdr (txe : ReqTxe) (pktType : Nat) (wire : Bytes) : Bytes :=
  let wire := store (store (store wire 0 1 pktType) 1 1 efaRdmProtocolVersion) 2 2 0
  let wire :=
    if efaRdmPeerNeedRawAddrHdr txe.peer then orFlags wire efaRdmReqOptRawAddrHdr
    else if efaRdmPeerNeedConnid txe.peer then orFlags wire efaRdmPktConnidHdr
    else wire
  if txe.remoteCqData then orFlags wire efaRdmReqOptCqDataHdr else wire

/-- The second half of `efa_rdm_pke_init_req_hdr_common`: the optional
headers the flags announce, behind the fixed header and its `rma_iov`
entries, whose count the caller has stored already. -/
def initReqOptHdrs (ep : ReqEp) (txe : ReqTxe) (wire : Bytes) : Bytes :=
  let flags := load wire 2 2
  let rawAt := efaRdmPkeGetReqBaseHdrSize wire
  let raw := flagSet flags efaRdmReqOptRawAddrHdr
  let wire :=
    if raw then
      Buffer.writeAt (store wire rawAt 4 (efaRdmReqOptRawAddrHdrSize - sizeofReqOptRawAddrHdr))
        (rawAt + sizeofReqOptRawAddrHdr) ep.srcAddr.bytes
    else wire
  let cqAt := if raw then rawAt + efaRdmReqOptRawAddrHdrSize else rawAt
  let cq := flagSet flags efaRdmReqOptCqDataHdr
  let wire := if cq then store wire cqAt 8 txe.cqData.toNat else wire
  let connidAt := if cq then cqAt + sizeofReqOptCqDataHdr else cqAt
  if flagSet flags efaRdmPktConnidHdr then store wire connidAt 4 ep.srcAddr.qkey.toNat else wire

def efaRdmPkeInitReqHdrCommon (ep : ReqEp) (txe : ReqTxe) (pktType : Nat) (wire : Bytes) : Bytes :=
  initReqOptHdrs ep txe (initReqBaseHdr txe pktType wire)

/-- `efa_rdm_pke_set_rtm_tag`: the tag is the last member of the fixed header. -/
def efaRdmPkeSetRtmTag (wire : Bytes) (tag : Nat) : Bytes :=
  store wire (efaRdmPkeGetReqBaseHdrSize wire - 8) 8 tag

/-- A packet entry as a REQ writer leaves it: its wire data, `pkt_size`, and
the `payload_offset` it handed to the payload copy, `none` for a packet
without payload. -/
structure ReqPke where
  wire : Bytes
  pktSize : Nat
  payloadAt : Option Nat

/-- `efa_rdm_pke_init_payload_from_ope`: `data_size` bytes of the operation's
buffer from `segment_offset` on, at `payload_offset`; `ofi_iov_locate` fails
on a segment that starts past the buffer. -/
def efaRdmPkeInitPayloadFromOpe (txe : ReqTxe) (payloadOffset segmentOffset dataSize : Nat) (wire : Bytes) :
    Option ReqPke :=
  if dataSize = 0 then some ⟨wire, payloadOffset, some payloadOffset⟩
  else if txe.data.length ≤ segmentOffset then none
  else
    some ⟨Buffer.writeAt wire payloadOffset ((txe.data.drop segmentOffset).take dataSize),
      payloadOffset + dataSize, some payloadOffset⟩

/-- `efa_rdm_txe_prepare_to_be_read`: the `fi_rma_iov` entries of the
operation's buffer at `pos`; `-FI_ENOMR` at an entry with no registration. -/
def efaRdmTxePrepareToBeRead (txe : ReqTxe) (pos : Nat) (wire : Bytes) : Option Bytes :=
  go txe.iov pos wire
where
  go : List ReqIov → Nat → Bytes → Option Bytes
    | [], _, wire => some wire
    | iov :: rest, pos, wire =>
        let wire := store (store wire pos 8 iov.base) (pos + 8) 8 iov.len
        match iov.key with
        | none => none
        | some key => go rest (pos + sizeofFiRmaIov) (store wire (pos + 16) 8 key)

def ReqPke.mapWire (f : Bytes → Bytes) (pke : ReqPke) : ReqPke := { pke with wire := f pke.wire }

/-! RTM packets (`efa_rdm_pke_rtm.c`). -/

/-- The `data_size` of `efa_rdm_pke_init_rtm_with_payload`: none after a
read NACK, else the caller's, or for `-1` (`none`) as much of the rest as
the packet holds, cut to whole alignment units of a CUDA buffer while more
data follows. -/
def rtmDataSize (ep : ReqEp) (txe : ReqTxe) (segmentOffset : Nat) (dataSize : Option Nat) (hdrSize : Nat) : Nat :=
  if txe.readNack then 0
  else match dataSize with
    | some dataSize => dataSize
    | none =>
      let dataSize := min (sizeSub txe.totalLen segmentOffset) (sizeSub ep.mtuSize hdrSize)
      if dataSize + segmentOffset < txe.totalLen ∧ txe.cuda then
        if ep.sendrecvInOrderAligned128Bytes then dataSize / efaRdmEpInOrderAlignment * efaRdmEpInOrderAlignment
        else dataSize / efaRdmEpCudaMemoryAlignment * efaRdmEpCudaMemoryAlignment
      else dataSize

/-- `efa_rdm_pke_init_rtm_with_payload`; `dataSize = none` is the `-1` that
asks for as much data as the packet holds. -/
def efaRdmPkeInitRtmWithPayload (ep : ReqEp) (txe : ReqTxe) (pktType : ReqPktType) (segmentOffset : Nat)
    (dataSize : Option Nat) (wire : Bytes) : Option ReqPke :=
  let wire := efaRdmPkeInitReqHdrCommon ep txe pktType.id wire
  let wire := store (orFlags wire efaRdmReqMsg) 4 4 txe.msgId
  let wire := if txe.readNack then orFlags wire efaRdmReqReadNack else wire
  let hdrSize := efaRdmPkeGetReqHdrSize wire
  efaRdmPkeInitPayloadFromOpe txe hdrSize segmentOffset (rtmDataSize ep txe segmentOffset dataSize hdrSize) wire

/-- The zero-header eager message for a peer that receives into its user
QP: payload only, at offset `0`. -/
def efaRdmPkeInitEagerMsgrtmZeroHdr (txe : ReqTxe) (wire : Bytes) : Option ReqPke :=
  efaRdmPkeInitPayloadFromOpe txe 0 0 txe.totalLen wire

/-- `efa_rdm_pke_init_eager_msgrtm`; `noBaseHdr` is the entry's `EFA_RDM_PKE_HAS_NO_BASE_HDR`. -/
def efaRdmPkeInitEagerMsgrtm (ep : ReqEp) (txe : ReqTxe) (noBaseHdr : Bool) (wire : Bytes) : Option ReqPke :=
  if noBaseHdr then efaRdmPkeInitEagerMsgrtmZeroHdr txe wire
  else efaRdmPkeInitRtmWithPayload ep txe eagerMsgrtm 0 none wire

def rtmTagged (txe : ReqTxe) (wire : Bytes) : Bytes := efaRdmPkeSetRtmTag (orFlags wire efaRdmReqTagged) txe.tag

def efaRdmPkeInitEagerTagrtm (ep : ReqEp) (txe : ReqTxe) (wire : Bytes) : Option ReqPke :=
  (efaRdmPkeInitRtmWithPayload ep txe eagerTagrtm 0 none wire).map (ReqPke.mapWire (rtmTagged txe))

/-- `efa_rdm_pke_init_dc_eager_msgrtm`: the `send_id` of the DC eager header. -/
def efaRdmPkeInitDcEagerMsgrtm (ep : ReqEp) (txe : ReqTxe) (wire : Bytes) : Option ReqPke :=
  (efaRdmPkeInitRtmWithPayload ep txe dcEagerMsgrtm 0 none wire).map
    (ReqPke.mapWire fun wire => store wire 8 4 txe.txId)

def efaRdmPkeInitDcEagerTagrtm (ep : ReqEp) (txe : ReqTxe) (wire : Bytes) : Option ReqPke :=
  (efaRdmPkeInitRtmWithPayload ep txe dcEagerTagrtm 0 none wire).map
    (ReqPke.mapWire fun wire => store (rtmTagged txe wire) 8 4 txe.txId)

/-- `efa_rdm_pke_init_medium_msgrtm`: `msg_length` and `seg_offset`. -/
def efaRdmPkeInitMediumMsgrtm (ep : ReqEp) (txe : ReqTxe) (segmentOffset dataSize : Nat) (wire : Bytes) :
    Option ReqPke :=
  (efaRdmPkeInitRtmWithPayload ep txe mediumMsgrtm segmentOffset (some dataSize) wire).map
    (ReqPke.mapWire fun wire => store (store wire 8 8 txe.totalLen) 16 8 segmentOffset)

def efaRdmPkeInitMediumTagrtm (ep : ReqEp) (txe : ReqTxe) (segmentOffset dataSize : Nat) (wire : Bytes) :
    Option ReqPke :=
  (efaRdmPkeInitRtmWithPayload ep txe mediumTagrtm segmentOffset (some dataSize) wire).map
    (ReqPke.mapWire fun wire => rtmTagged txe (store (store wire 8 8 txe.totalLen) 16 8 segmentOffset))

/-- `efa_rdm_pke_init_dc_medium_msgrtm`: the DC medium header keeps
`send_id` ahead of `msg_length` and `seg_offset`. -/
def efaRdmPkeInitDcMediumMsgrtm (ep : ReqEp) (txe : ReqTxe) (segmentOffset dataSize : Nat) (wire : Bytes) :
    Option ReqPke :=
  (efaRdmPkeInitRtmWithPayload ep txe dcMediumMsgrtm segmentOffset (some dataSize) wire).map
    (ReqPke.mapWire fun wire => store (store (store wire 16 8 txe.totalLen) 24 8 segmentOffset) 8 4 txe.txId)

def efaRdmPkeInitDcMediumTagrtm (ep : ReqEp) (txe : ReqTxe) (segmentOffset dataSize : Nat) (wire : Bytes) :
    Option ReqPke :=
  (efaRdmPkeInitRtmWithPayload ep txe dcMediumTagrtm segmentOffset (some dataSize) wire).map
    (ReqPke.mapWire fun wire =>
      efaRdmPkeSetRtmTag
        (store (orFlags (store (store wire 16 8 txe.totalLen) 24 8 segmentOffset) efaRdmReqTagged) 8 4 txe.txId)
        txe.tag)

/-- `efa_rdm_pke_init_longcts_rtm_common`: `msg_length`, `send_id` and `credit_request`. -/
def efaRdmPkeInitLongctsRtmCommon (ep : ReqEp) (txe : ReqTxe) (pktType : ReqPktType) (wire : Bytes) :
    Option ReqPke :=
  (efaRdmPkeInitRtmWithPayload ep txe pktType 0 none wire).map
    (ReqPke.mapWire fun wire => store (store (store wire 8 8 txe.totalLen) 16 4 txe.txId) 20 4 ep.txMinCredits)

def efaRdmPkeInitLongctsMsgrtm (ep : ReqEp) (txe : ReqTxe) (wire : Bytes) : Option ReqPke :=
  efaRdmPkeInitLongctsRtmCommon ep txe longctsMsgrtm wire

def efaRdmPkeInitLongctsTagrtm (ep : ReqEp) (txe : ReqTxe) (wire : Bytes) : Option ReqPke :=
  (efaRdmPkeInitLongctsRtmCommon ep txe longctsTagrtm wire).map (ReqPke.mapWire (rtmTagged txe))

def efaRdmPkeInitDcLongctsMsgrtm (ep : ReqEp) (txe : ReqTxe) (wire : Bytes) : Option ReqPke :=
  efaRdmPkeInitLongctsRtmCommon ep txe dcLongctsMsgrtm wire

def efaRdmPkeInitDcLongctsTagrtm (ep : ReqEp) (txe : ReqTxe) (wire : Bytes) : Option ReqPke :=
  (efaRdmPkeInitLongctsRtmCommon ep txe dcLongctsTagrtm wire).map (ReqPke.mapWire (rtmTagged txe))

/-- `efa_rdm_pke_init_longread_rtm`: no payload; the read entries of the
buffer follow the header. -/
def efaRdmPkeInitLongreadRtm (ep : ReqEp) (txe : ReqTxe) (pktType : ReqPktType) (wire : Bytes) :
    Option ReqPke :=
  let wire := efaRdmPkeInitReqHdrCommon ep txe pktType.id wire
  let wire := store (orFlags wire efaRdmReqMsg) 4 4 txe.msgId
  let wire := store (store (store wire 8 8 txe.totalLen) 16 4 txe.txId) 20 4 txe.iov.length
  let hdrSize := efaRdmPkeGetReqHdrSize wire
  (efaRdmTxePrepareToBeRead txe hdrSize wire).map fun wire =>
    ⟨wire, hdrSize + txe.iov.length * sizeofFiRmaIov, none⟩

def efaRdmPkeInitLongreadMsgrtm (ep : ReqEp) (txe : ReqTxe) (wire : Bytes) : Option ReqPke :=
  efaRdmPkeInitLongreadRtm ep txe longreadMsgrtm wire

def efaRdmPkeInitLongreadTagrtm (ep : ReqEp) (txe : ReqTxe) (wire : Bytes) : Option ReqPke :=
  (efaRdmPkeInitLongreadRtm ep txe longreadTagrtm wire).map (ReqPke.mapWire (rtmTagged txe))

/-- `efa_rdm_pke_init_runtread_rtm`: the read entries of the buffer, then
the runt of payload behind them. -/
def efaRdmPkeInitRuntreadRtm (ep : ReqEp) (txe : ReqTxe) (pktType : ReqPktType) (segmentOffset dataSize : Nat)
    (wire : Bytes) : Option ReqPke :=
  let wire := efaRdmPkeInitReqHdrCommon ep txe pktType.id wire
  let wire := store (orFlags wire efaRdmReqMsg) 4 4 txe.msgId
  let wire := store (store (store (store wire 8 8 txe.totalLen) 16 4 txe.txId) 24 8 segmentOffset) 32 8 txe.bytesRunt
  let wire := store wire 20 4 txe.iov.length
  let hdrSize := efaRdmPkeGetReqHdrSize wire
  (efaRdmTxePrepareToBeRead txe hdrSize wire).bind fun wire =>
    efaRdmPkeInitPayloadFromOpe txe (hdrSize + txe.iov.length * sizeofFiRmaIov) segmentOffset dataSize wire

def efaRdmPkeInitRuntreadMsgrtm (ep : ReqEp) (txe : ReqTxe) (segmentOffset dataSize : Nat) (wire : Bytes) :
    Option ReqPke :=
  efaRdmPkeInitRuntreadRtm ep txe runtreadMsgrtm segmentOffset dataSize wire

def efaRdmPkeInitRuntreadTagrtm (ep : ReqEp) (txe : ReqTxe) (segmentOffset dataSize : Nat) (wire : Bytes) :
    Option ReqPke :=
  (efaRdmPkeInitRuntreadRtm ep txe runtreadTagrtm segmentOffset dataSize wire).map (ReqPke.mapWire (rtmTagged txe))

/-! RTW packets (`efa_rdm_pke_rtw.c`). -/

/-- `efa_rdm_pke_init_rtw_common`: the `rma_iov` entries behind the fixed
header, then as much of the buffer as the packet holds. -/
def efaRdmPkeInitRtwCommon (ep : ReqEp) (txe : ReqTxe) (rmaIovAt : Nat) (wire : Bytes) : Option ReqPke :=
  let wire := storeRmaIovs wire rmaIovAt txe.rmaIov
  let hdrSize := efaRdmPkeGetReqHdrSize wire
  let dataSize := min (sizeSub ep.mtuSize hdrSize) txe.totalLen
  efaRdmPkeInitPayloadFromOpe txe hdrSize 0 dataSize wire

def efaRdmPkeInitEagerRtw (ep : ReqEp) (txe : ReqTxe) (wire : Bytes) : Option ReqPke :=
  let wire := efaRdmPkeInitReqHdrCommon ep txe eagerRtw.id (store wire 4 4 txe.rmaIov.length)
  efaRdmPkeInitRtwCommon ep txe eagerRtw.baseHdrSize wire

/-- `efa_rdm_pke_init_dc_eager_rtw`: `send_id` is stored after the payload. -/
def efaRdmPkeInitDcEagerRtw (ep : ReqEp) (txe : ReqTxe) (wire : Bytes) : Option ReqPke :=
  let wire := efaRdmPkeInitReqHdrCommon ep txe dcEagerRtw.id (store wire 4 4 txe.rmaIov.length)
  (efaRdmPkeInitRtwCommon ep txe dcEagerRtw.baseHdrSize wire).map (ReqPke.mapWire fun wire => store wire 8 4 txe.txId)

def efaRdmPkeInitLongctsRtwHdr (ep : ReqEp) (txe : ReqTxe) (pktType : ReqPktType) (wire : Bytes) : Bytes :=
  let wire := store (store (store (store wire 4 4 txe.rmaIov.length) 8 8 txe.totalLen) 16 4 txe.txId) 20 4
    ep.txMinCredits
  efaRdmPkeInitReqHdrCommon ep txe pktType.id wire

def efaRdmPkeInitLongctsRtw (ep : ReqEp) (txe : ReqTxe) (wire : Bytes) : Option ReqPke :=
  efaRdmPkeInitRtwCommon ep txe longctsRtw.baseHdrSize (efaRdmPkeInitLongctsRtwHdr ep txe longctsRtw wire)

def efaRdmPkeInitDcLongctsRtw (ep : ReqEp) (txe : ReqTxe) (wire : Bytes) : Option ReqPke :=
  efaRdmPkeInitRtwCommon ep txe longctsRtw.baseHdrSize (efaRdmPkeInitLongctsRtwHdr ep txe dcLongctsRtw wire)

def efaRdmPkeInitLongreadRtw (ep : ReqEp) (txe : ReqTxe) (wire : Bytes) : Option ReqPke :=
  let wire := store (store (store (store wire 4 4 txe.rmaIov.length) 8 8 txe.totalLen) 16 4 txe.txId) 20 4
    txe.iov.length
  let wire := efaRdmPkeInitReqHdrCommon ep txe longreadRtw.id wire
  let wire := storeRmaIovs wire longreadRtw.baseHdrSize txe.rmaIov
  let hdrSize := efaRdmPkeGetReqHdrSize wire
  (efaRdmTxePrepareToBeRead txe hdrSize wire).map fun wire =>
    ⟨wire, hdrSize + txe.iov.length * sizeofFiRmaIov, none⟩

/-! RTR packets (`efa_rdm_pke_rtr.c`). -/

def efaRdmPkeInitRtrCommon (ep : ReqEp) (txe : ReqTxe) (pktType : ReqPktType) (window : Nat) (wire : Bytes) :
    ReqPke :=
  let wire := efaRdmPkeInitReqHdrCommon ep txe pktType.id (store wire 4 4 txe.rmaIov.length)
  let wire := store (store (store wire 8 8 txe.totalLen) 16 4 txe.txId) 20 4 window
  let wire := storeRmaIovs wire shortRtr.baseHdrSize txe.rmaIov
  ⟨wire, efaRdmPkeGetReqHdrSize wire, none⟩

def efaRdmPkeInitShortRtr (ep : ReqEp) (txe : ReqTxe) (wire : Bytes) : ReqPke :=
  efaRdmPkeInitRtrCommon ep txe shortRtr txe.totalLen wire

def efaRdmPkeInitLongctsRtr (ep : ReqEp) (txe : ReqTxe) (wire : Bytes) : ReqPke :=
  efaRdmPkeInitRtrCommon ep txe longctsRtr txe.window wire

/-! RTA packets (`efa_rdm_pke_rta.c`). -/

/-- `efa_rdm_pke_init_rta_common`: the operands follow the header, as much
of them as the packet holds. -/
def efaRdmPkeInitRtaCommon (ep : ReqEp) (txe : ReqTxe) (pktType : ReqPktType) (wire : Bytes) : ReqPke :=
  let wire := store (store (store (store wire 4 4 txe.msgId) 8 4 txe.rmaIov.length) 12 4 txe.atomicDatatype) 16 4
    txe.atomicOp
  let wire := orFlags (efaRdmPkeInitReqHdrCommon ep txe pktType.id wire) efaRdmReqAtomic
  let wire := storeRmaIovs wire writeRta.baseHdrSize txe.rmaIov
  let hdrSize := efaRdmPkeGetReqHdrSize wire
  let data := txe.data.take (sizeSub ep.mtuSize hdrSize)
  ⟨Buffer.writeAt wire hdrSize data, hdrSize + data.length, some hdrSize⟩

def efaRdmPkeInitWriteRta (ep : ReqEp) (txe : ReqTxe) (wire : Bytes) : ReqPke :=
  efaRdmPkeInitRtaCommon ep txe writeRta wire

def efaRdmPkeInitDcWriteRta (ep : ReqEp) (txe : ReqTxe) (wire : Bytes) : ReqPke :=
  (efaRdmPkeInitRtaCommon ep txe dcWriteRta wire).mapWire fun wire => store wire 20 4 txe.txId

def efaRdmPkeInitFetchRta (ep : ReqEp) (txe : ReqTxe) (wire : Bytes) : ReqPke :=
  (efaRdmPkeInitRtaCommon ep txe fetchRta wire).mapWire fun wire => store wire 20 4 txe.txId

/-- `efa_rdm_pke_init_compare_rta`: `recv_id`, then the compare operands
behind the others. -/
def efaRdmPkeInitCompareRta (ep : ReqEp) (txe : ReqTxe) (wire : Bytes) : ReqPke :=
  let pke := efaRdmPkeInitRtaCommon ep txe compareRta wire
  let wire := store pke.wire 20 4 txe.txId
  let data := txe.compareData.take (sizeSub ep.mtuSize pke.pktSize)
  ⟨Buffer.writeAt wire pke.pktSize data, pke.pktSize + data.length, pke.payloadAt⟩

/-- `efa_rdm_pke_fill_data` for the REQ packet types: the zero-header eager
message for a peer that asks for it, and `-FI_EINVAL` for the types no
writer builds. -/
def efaRdmPkeFillData (ep : ReqEp) (txe : ReqTxe) (pktType : ReqPktType) (dataOffset dataSize : Nat)
    (wire : Bytes) : Option ReqPke :=
  match pktType with
  | eagerMsgrtm =>
      efaRdmPkeInitEagerMsgrtm ep txe (efaRdmPeerExpectsZeroHdrDataTransfer txe.peer) wire
  | eagerTagrtm => efaRdmPkeInitEagerTagrtm ep txe wire
  | mediumMsgrtm => efaRdmPkeInitMediumMsgrtm ep txe dataOffset dataSize wire
  | mediumTagrtm => efaRdmPkeInitMediumTagrtm ep txe dataOffset dataSize wire
  | longctsMsgrtm => efaRdmPkeInitLongctsMsgrtm ep txe wire
  | longctsTagrtm => efaRdmPkeInitLongctsTagrtm ep txe wire
  | longreadMsgrtm => efaRdmPkeInitLongreadMsgrtm ep txe wire
  | longreadTagrtm => efaRdmPkeInitLongreadTagrtm ep txe wire
  | runtreadMsgrtm => efaRdmPkeInitRuntreadMsgrtm ep txe dataOffset dataSize wire
  | runtreadTagrtm => efaRdmPkeInitRuntreadTagrtm ep txe dataOffset dataSize wire
  | eagerRtw => efaRdmPkeInitEagerRtw ep txe wire
  | longctsRtw => efaRdmPkeInitLongctsRtw ep txe wire
  | longreadRtw => efaRdmPkeInitLongreadRtw ep txe wire
  | shortRtr => some (efaRdmPkeInitShortRtr ep txe wire)
  | longctsRtr => some (efaRdmPkeInitLongctsRtr ep txe wire)
  | writeRta => some (efaRdmPkeInitWriteRta ep txe wire)
  | fetchRta => some (efaRdmPkeInitFetchRta ep txe wire)
  | compareRta => some (efaRdmPkeInitCompareRta ep txe wire)
  | dcEagerMsgrtm => efaRdmPkeInitDcEagerMsgrtm ep txe wire
  | dcEagerTagrtm => efaRdmPkeInitDcEagerTagrtm ep txe wire
  | dcMediumMsgrtm => efaRdmPkeInitDcMediumMsgrtm ep txe dataOffset dataSize wire
  | dcMediumTagrtm => efaRdmPkeInitDcMediumTagrtm ep txe dataOffset dataSize wire
  | dcLongctsMsgrtm => efaRdmPkeInitDcLongctsMsgrtm ep txe wire
  | dcLongctsTagrtm => efaRdmPkeInitDcLongctsTagrtm ep txe wire
  | dcEagerRtw => efaRdmPkeInitDcEagerRtw ep txe wire
  | dcLongctsRtw => efaRdmPkeInitDcLongctsRtw ep txe wire
  | dcWriteRta => some (efaRdmPkeInitDcWriteRta ep txe wire)
  | readRtr | runtctsMsgrtm | runtctsTagrtm | runtctsRtw | runtreadRtw => none

end Libfabric.EfaRdm
