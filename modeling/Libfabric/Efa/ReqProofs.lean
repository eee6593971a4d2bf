import Libfabric.Efa.Req

/-! The REQ header as both ends see it. `ReqHdrOn` says that the front of a
packet holds the header `efa_rdm_pke_init_req_hdr_common` lays out for a TX
entry: the type, the three flags of the optional headers, the `rma_iov`
count, and the optional headers at the offsets `optStart`, `cqAt` and
`connidAt`, which end at `hdrEnd`. The writers establish it and keep it, and
every reader is computed from it alone. -/
namespace Libfabric.EfaRdm

open Fields ReqPktType

/-! The sender's layout of the optional headers. -/

/-- The raw address header goes to a peer that has not handshaken or asks
for constant-length headers. -/
def hasRaw (txe : ReqTxe) : Bool := efaRdmPeerNeedRawAddrHdr txe.peer

/-- The connid header goes to a handshaken peer that gets no raw address. -/
def hasConnid (txe : ReqTxe) : Bool := !hasRaw txe && efaRdmPeerNeedConnid txe.peer

/-- The header flags of a TX entry's REQ packets, `header_flags` of
`efa_rdm_txe_max_req_data_capacity`. -/
def reqFlags (txe : ReqTxe) : Nat :=
  let flags :=
    if efaRdmPeerNeedRawAddrHdr txe.peer then efaRdmReqOptRawAddrHdr
    else if efaRdmPeerNeedConnid txe.peer then efaRdmPktConnidHdr
    else 0
  if txe.remoteCqData then flags ||| efaRdmReqOptCqDataHdr else flags

/-- The `rma_iov_count` member: behind the base header in RTW and RTR
headers, behind `msg_id` in RTA headers. -/
def ReqPktType.rmaIovCountOffset (t : ReqPktType) : Nat :=
  if [writeRta, dcWriteRta, fetchRta, compareRta].contains t then 8 else 4

/-- The `rma_iov` entries a packet of type `t` carries. -/
def rmaCount (txe : ReqTxe) (t : ReqPktType) : Nat :=
  if efaRdmPktTypeContainsRmaIov t.id then txe.rmaIov.length else 0

def optStart (txe : ReqTxe) (t : ReqPktType) : Nat := t.baseHdrSize + rmaCount txe t * sizeofFiRmaIov

def cqAt (txe : ReqTxe) (t : ReqPktType) : Nat :=
  optStart txe t + if hasRaw txe then efaRdmReqOptRawAddrHdrSize else 0

def connidAt (txe : ReqTxe) (t : ReqPktType) : Nat :=
  cqAt txe t + if txe.remoteCqData then sizeofReqOptCqDataHdr else 0

def hdrEnd (txe : ReqTxe) (t : ReqPktType) : Nat :=
  connidAt txe t + if hasConnid txe then sizeofReqOptConnidHdr else 0

section Layout

variable {txe : ReqTxe} {t : ReqPktType}

@[simp] theorem ofId?_id (t : ReqPktType) : ofId? t.id = some t := by
  cases t <;> rfl

@[simp] theorem efaRdmPktTypeReqBaseHdrSize_id (t : ReqPktType) :
    efaRdmPktTypeReqBaseHdrSize t.id = t.baseHdrSize := by
  simp [efaRdmPktTypeReqBaseHdrSize]

theorem efaRdmReqOptRawAddrHdrSize_eq : efaRdmReqOptRawAddrHdrSize = 40 := rfl

theorem four_le_baseHdrSize (t : ReqPktType) : 4 ≤ t.baseHdrSize := by
  cases t <;> decide

theorem rmaIovCountOffset_add_le (contains : efaRdmPktTypeContainsRmaIov t.id = true) :
    t.rmaIovCountOffset + 4 ≤ t.baseHdrSize := by
  cases t <;> first | decide | simp [efaRdmPktTypeContainsRmaIov, ReqPktType.id] at contains

theorem four_le_rmaIovCountOffset (t : ReqPktType) : 4 ≤ t.rmaIovCountOffset := by
  unfold ReqPktType.rmaIovCountOffset
  split <;> omega

theorem optStart_le_cqAt : optStart txe t ≤ cqAt txe t := by
  unfold cqAt
  omega

theorem cqAt_le_connidAt : cqAt txe t ≤ connidAt txe t := by
  unfold connidAt
  omega

theorem connidAt_le_hdrEnd : connidAt txe t ≤ hdrEnd txe t := by
  unfold hdrEnd
  omega

theorem baseHdrSize_le_optStart : t.baseHdrSize ≤ optStart txe t := by
  unfold optStart
  omega

theorem four_le_optStart : 4 ≤ optStart txe t :=
  Nat.le_trans (four_le_baseHdrSize t) baseHdrSize_le_optStart

theorem optStart_le_hdrEnd : optStart txe t ≤ hdrEnd txe t :=
  Nat.le_trans optStart_le_cqAt (Nat.le_trans cqAt_le_connidAt connidAt_le_hdrEnd)

theorem cqAt_of_hasRaw (raw : hasRaw txe = true) : cqAt txe t = optStart txe t + efaRdmReqOptRawAddrHdrSize := by
  simp [cqAt, raw]

theorem connidAt_of_remoteCqData (cq : txe.remoteCqData = true) :
    connidAt txe t = cqAt txe t + sizeofReqOptCqDataHdr := by
  simp [connidAt, cq]

theorem hdrEnd_of_hasConnid (connid : hasConnid txe = true) :
    hdrEnd txe t = connidAt txe t + sizeofReqOptConnidHdr := by
  simp [hdrEnd, connid]

theorem hasRaw_eq_false_of_hasConnid (connid : hasConnid txe = true) : hasRaw txe = false := by
  simp only [hasConnid, Bool.and_eq_true, Bool.not_eq_true'] at connid
  exact connid.1

/-! The flags the sender announces, bit by bit. -/

theorem flagSet_reqFlags_raw (txe : ReqTxe) : flagSet (reqFlags txe) efaRdmReqOptRawAddrHdr = hasRaw txe := by
  unfold reqFlags hasRaw
  cases efaRdmPeerNeedRawAddrHdr txe.peer <;> cases efaRdmPeerNeedConnid txe.peer <;>
    cases txe.remoteCqData <;> decide

theorem flagSet_reqFlags_cq (txe : ReqTxe) : flagSet (reqFlags txe) efaRdmReqOptCqDataHdr = txe.remoteCqData := by
  unfold reqFlags
  cases efaRdmPeerNeedRawAddrHdr txe.peer <;> cases efaRdmPeerNeedConnid txe.peer <;>
    cases txe.remoteCqData <;> decide

theorem flagSet_reqFlags_connid (txe : ReqTxe) : flagSet (reqFlags txe) efaRdmPktConnidHdr = hasConnid txe := by
  unfold reqFlags hasConnid hasRaw
  cases efaRdmPeerNeedRawAddrHdr txe.peer <;> cases efaRdmPeerNeedConnid txe.peer <;>
    cases txe.remoteCqData <;> decide

theorem reqFlags_lt (txe : ReqTxe) : reqFlags txe < 2 ^ 16 := by
  unfold reqFlags
  cases efaRdmPeerNeedRawAddrHdr txe.peer <;> cases efaRdmPeerNeedConnid txe.peer <;>
    cases txe.remoteCqData <;> decide

theorem efaRdmPktTypeGetReqHdrSize_reqFlags (txe : ReqTxe) (t : ReqPktType) :
    efaRdmPktTypeGetReqHdrSize t.id (reqFlags txe) txe.rmaIov.length = hdrEnd txe t := by
  unfold efaRdmPktTypeGetReqHdrSize hdrEnd connidAt cqAt optStart rmaCount
  rw [efaRdmPktTypeReqBaseHdrSize_id, flagSet_reqFlags_raw, flagSet_reqFlags_cq, flagSet_reqFlags_connid]
  -- the two address headers exclude each other
  cases raw : hasRaw txe
  · cases hasConnid txe <;> cases txe.remoteCqData <;> cases efaRdmPktTypeContainsRmaIov t.id <;> simp <;> omega
  · have noConnid : hasConnid txe = false := by simp [hasConnid, raw]
    rw [noConnid]
    cases txe.remoteCqData <;> cases efaRdmPktTypeContainsRmaIov t.id <;> simp <;> omega

end Layout

/-- The front of `wire` holds the REQ header of type `t` that
`efa_rdm_pke_init_req_hdr_common` lays out for `txe` on endpoint `ep`: what a
receiver reads from it. -/
structure ReqHdrOn (ep : ReqEp) (txe : ReqTxe) (t : ReqPktType) (wire : Bytes) : Prop where
  room : hdrEnd txe t ≤ wire.length
  type : load wire 0 1 = t.id
  raw : flagSet (load wire 2 2) efaRdmReqOptRawAddrHdr = hasRaw txe
  cq : flagSet (load wire 2 2) efaRdmReqOptCqDataHdr = txe.remoteCqData
  connid : flagSet (load wire 2 2) efaRdmPktConnidHdr = hasConnid txe
  count : efaRdmPktTypeContainsRmaIov t.id = true → load wire t.rmaIovCountOffset 4 = txe.rmaIov.length
  addrLen : hasRaw txe = true →
    load wire (optStart txe t) 4 = efaRdmReqOptRawAddrHdrSize - sizeofReqOptRawAddrHdr
  addr : hasRaw txe = true →
    (wire.drop (optStart txe t + sizeofReqOptRawAddrHdr)).take efaEpAddrLen = ep.srcAddr.bytes
  cqData : txe.remoteCqData = true → load wire (cqAt txe t) 8 = txe.cqData.toNat
  connidVal : hasConnid txe = true → load wire (connidAt txe t) 4 = ep.srcAddr.qkey.toNat

section Frame

variable {ep : ReqEp} {txe : ReqTxe} {t : ReqPktType} {wire : Bytes}

theorem ReqHdrOn.outside (h : ReqHdrOn ep txe t wire) {lo hi : Nat} {wire' : Bytes}
    (same : SameOutside lo hi wire wire') (base : 4 ≤ lo)
    (count : efaRdmPktTypeContainsRmaIov t.id = true → t.rmaIovCountOffset + 4 ≤ lo ∨ hi ≤ t.rmaIovCountOffset)
    (opt : hi ≤ optStart txe t ∨ hdrEnd txe t ≤ lo) :
    ReqHdrOn ep txe t wire' := by
  have cq := @optStart_le_cqAt txe t
  have connid := @cqAt_le_connidAt txe t
  have last := @connidAt_le_hdrEnd txe t
  have flagsKept : load wire' 2 2 = load wire 2 2 := same.load (by omega)
  refine ⟨Nat.le_trans h.room same.1, ?_, ?_, ?_, ?_, ?_, ?_, ?_, ?_, ?_⟩
  · rw [same.load (by omega), h.type]
  · rw [flagsKept, h.raw]
  · rw [flagsKept, h.cq]
  · rw [flagsKept, h.connid]
  · intro contains
    rw [same.load (count contains), h.count contains]
  · intro raw
    have room := cqAt_of_hasRaw (t := t) raw
    rw [efaRdmReqOptRawAddrHdrSize_eq] at room
    rw [same.load (by omega), h.addrLen raw]
  · intro raw
    have room := cqAt_of_hasRaw (t := t) raw
    rw [efaRdmReqOptRawAddrHdrSize_eq] at room
    rw [same.2 _ _ (by unfold sizeofReqOptRawAddrHdr efaEpAddrLen; omega), h.addr raw]
  · intro withCq
    have room := connidAt_of_remoteCqData (t := t) withCq
    unfold sizeofReqOptCqDataHdr at room
    rw [same.load (by omega), h.cqData withCq]
  · intro withConnid
    have room := hdrEnd_of_hasConnid (t := t) withConnid
    unfold sizeofReqOptConnidHdr at room
    rw [same.load (by omega), h.connidVal withConnid]

theorem ReqHdrOn.store (h : ReqHdrOn ep txe t wire) {pos w v : Nat}
    (fits : pos + w ≤ wire.length) (base : 4 ≤ pos)
    (count : efaRdmPktTypeContainsRmaIov t.id = true → t.rmaIovCountOffset + 4 ≤ pos ∨ pos + w ≤ t.rmaIovCountOffset)
    (opt : pos + w ≤ optStart txe t ∨ hdrEnd txe t ≤ pos) :
    ReqHdrOn ep txe t (store wire pos w v) :=
  h.outside (sameOutside_store fits) base count opt

theorem ReqHdrOn.behind (h : ReqHdrOn ep txe t wire) {lo hi : Nat} {wire' : Bytes}
    (same : SameOutside lo hi wire wire') (behind : hdrEnd txe t ≤ lo) :
    ReqHdrOn ep txe t wire' := by
  have base := @four_le_optStart txe t
  have opt := @optStart_le_hdrEnd txe t
  refine h.outside same (by omega) (fun contains => Or.inl ?_) (Or.inr behind)
  have inside := rmaIovCountOffset_add_le contains
  have := @baseHdrSize_le_optStart txe t
  omega

/-- The bits a writer ors into the flags after the common header. -/
structure OtherFlags (bits : Nat) : Prop where
  raw : bits.testBit 0 = false
  cq : bits.testBit 1 = false
  connid : bits.testBit 15 = false

theorem otherFlags_two_pow {i : Nat} (raw : i ≠ 0) (cq : i ≠ 1) (connid : i ≠ 15) : OtherFlags (2 ^ i) := by
  refine ⟨?_, ?_, ?_⟩ <;> rw [Nat.testBit_two_pow] <;> simpa using by omega

theorem load_orFlags (fits : 4 ≤ wire.length) (bits : Nat) :
    load (orFlags wire bits) 2 2 = (load wire 2 2 ||| bits) % 2 ^ 16 :=
  load_store_self (by omega)

theorem length_orFlags (fits : 4 ≤ wire.length) (bits : Nat) : (orFlags wire bits).length = wire.length :=
  length_store (by omega)

theorem load_orFlags_of_apart (fits : 4 ≤ wire.length) (bits : Nat) {q c : Nat} (apart : Apart 2 2 q c) :
    load (orFlags wire bits) q c = load wire q c :=
  load_store_of_apart (by omega) apart

theorem drop_take_orFlags_of_apart (fits : 4 ≤ wire.length) (bits : Nat) {q c : Nat} (apart : Apart 2 2 q c) :
    ((orFlags wire bits).drop q).take c = (wire.drop q).take c :=
  drop_take_store_of_apart (by omega) apart

theorem flagSet_orFlags (fits : 4 ≤ wire.length) {bits i : Nat} (other : bits.testBit i = false) (below : i < 16) :
    flagSet (load (orFlags wire bits) 2 2) (2 ^ i) = flagSet (load wire 2 2) (2 ^ i) := by
  rw [load_orFlags fits, flagSet_mod_of_lt below, flagSet_or_of_not i other]

theorem ReqHdrOn.orFlags (h : ReqHdrOn ep txe t wire) {bits : Nat} (other : OtherFlags bits) :
    ReqHdrOn ep txe t (orFlags wire bits) := by
  have fits : 4 ≤ wire.length := Nat.le_trans four_le_optStart (Nat.le_trans optStart_le_hdrEnd h.room)
  have base := @four_le_optStart txe t
  have ends := @optStart_le_hdrEnd txe t
  have cq := @optStart_le_cqAt txe t
  have connid := @cqAt_le_connidAt txe t
  have last := @connidAt_le_hdrEnd txe t
  refine ⟨by rw [length_orFlags fits]; exact h.room, ?_, ?_, ?_, ?_, ?_, ?_, ?_, ?_, ?_⟩
  · rw [load_orFlags_of_apart fits bits (Or.inr (by omega)), h.type]
  · rw [efaRdmReqOptRawAddrHdr, flagSet_orFlags fits other.raw (by omega)]
    exact h.raw
  · rw [efaRdmReqOptCqDataHdr, flagSet_orFlags fits other.cq (by omega)]
    exact h.cq
  · rw [efaRdmPktConnidHdr, flagSet_orFlags fits other.connid (by omega)]
    exact h.connid
  · intro contains
    have := four_le_rmaIovCountOffset t
    rw [load_orFlags_of_apart fits bits (Or.inl (by omega)), h.count contains]
  · intro raw
    rw [load_orFlags_of_apart fits bits (Or.inl (by omega)), h.addrLen raw]
  · intro raw
    rw [drop_take_orFlags_of_apart fits bits (Or.inl (by unfold sizeofReqOptRawAddrHdr; omega)), h.addr raw]
  · intro withCq
    rw [load_orFlags_of_apart fits bits (Or.inl (by omega)), h.cqData withCq]
  · intro withConnid
    rw [load_orFlags_of_apart fits bits (Or.inl (by omega)), h.connidVal withConnid]

end Frame

/-! The receiver's walk over a header the sender laid out. -/

section Readers

variable {ep : ReqEp} {txe : ReqTxe} {t : ReqPktType} {wire : Bytes}

theorem EfaEpAddr.load_qkey (a : EfaEpAddr) : load a.bytes efaEpAddrQkeyOffset 4 = a.qkey.toNat := by
  have front : (a.raw ++ encodeLE 2 a.qpn.toNat ++ encodeLE 2 a.pad.toNat).length = efaEpAddrQkeyOffset := by
    simp [a.rawLength, efaEpAddrQkeyOffset]
  have small : a.qkey.toNat < 256 ^ 4 := a.qkey.toNat_lt
  rw [load, EfaEpAddr.bytes, List.append_assoc _ (encodeLE 4 a.qkey.toNat), List.drop_left' front,
    List.take_left' (length_encodeLE 4 _), decodeLE_encodeLE, Nat.mod_eq_of_lt small]

theorem sixtyFour_le_id (t : ReqPktType) : 64 ≤ t.id := by
  cases t <;> decide

theorem efaRdmPkeGetReqRmaIovCount_of (type : load wire 0 1 = t.id)
    (count : efaRdmPktTypeContainsRmaIov t.id = true → load wire t.rmaIovCountOffset 4 = txe.rmaIov.length) :
    efaRdmPkeGetReqRmaIovCount wire = rmaCount txe t := by
  unfold efaRdmPkeGetReqRmaIovCount rmaCount
  rw [type]
  -- the receiver's three lists of types are the sender's one
  cases t <;> simp [ReqPktType.id, efaRdmPktTypeContainsRmaIov, ReqPktType.rmaIovCountOffset] at count ⊢ <;>
    exact count

theorem ReqHdrOn.baseHdrSize (h : ReqHdrOn ep txe t wire) : efaRdmPkeGetReqBaseHdrSize wire = optStart txe t := by
  rw [efaRdmPkeGetReqBaseHdrSize, h.type, efaRdmPktTypeReqBaseHdrSize_id,
    efaRdmPkeGetReqRmaIovCount_of h.type h.count, optStart]

theorem ReqHdrOn.hdrSize (h : ReqHdrOn ep txe t wire) : efaRdmPkeGetReqHdrSize wire = hdrEnd txe t := by
  simp only [efaRdmPkeGetReqHdrSize, h.raw, h.cq, h.connid, h.baseHdrSize]
  unfold hdrEnd connidAt cqAt
  cases raw : hasRaw txe
  · cases txe.remoteCqData <;> cases hasConnid txe <;> simp
  · rw [h.addrLen raw, efaRdmReqOptRawAddrHdrSize_eq]
    cases txe.remoteCqData <;> cases hasConnid txe <;> simp [sizeofReqOptRawAddrHdr]

theorem ReqHdrOn.cqDataGet (h : ReqHdrOn ep txe t wire) (withCq : txe.remoteCqData = true) :
    efaRdmPkeGetReqCqData wire = txe.cqData.toNat := by
  simp only [efaRdmPkeGetReqCqData, h.raw, h.baseHdrSize]
  rw [← h.cqData withCq]
  unfold cqAt
  cases raw : hasRaw txe
  · simp
  · simp [h.addrLen raw, efaRdmReqOptRawAddrHdrSize_eq, sizeofReqOptRawAddrHdr]

theorem ReqHdrOn.rawAddrGet (h : ReqHdrOn ep txe t wire) :
    (efaRdmPkeGetReqRawAddr wire).map (fun p => (wire.drop p).take efaEpAddrLen) =
      if hasRaw txe then some ep.srcAddr.bytes else none := by
  simp only [efaRdmPkeGetReqRawAddr, h.raw, h.baseHdrSize]
  cases raw : hasRaw txe
  · simp
  · simp [h.addr raw]

theorem ReqHdrOn.connidGet (h : ReqHdrOn ep txe t wire) :
    (efaRdmPkeGetReqConnidPtr wire).map (load wire · 4) =
      if hasRaw txe || hasConnid txe then some ep.srcAddr.qkey.toNat else none := by
  simp only [efaRdmPkeGetReqConnidPtr, h.raw, h.cq, h.connid, h.baseHdrSize]
  cases raw : hasRaw txe
  · cases connid : hasConnid txe
    · cases txe.remoteCqData <;> simp
    · have value := h.connidVal connid
      unfold connidAt cqAt at value
      cases cq : txe.remoteCqData <;> simp_all
  · have inside : efaEpAddrQkeyOffset + 4 ≤ efaEpAddrLen := by decide
    have qkey := ep.srcAddr.load_qkey
    rw [← h.addr raw, load_drop_take inside] at qkey
    simpa using qkey

theorem ReqHdrOn.payloadOffset (h : ReqHdrOn ep txe t wire) :
    efaRdmPkeGetPayloadOffset false wire =
      hdrEnd txe t + if efaRdmPktTypeIsRuntread t.id then load wire 20 4 * sizeofFiRmaIov else 0 := by
  have req : efaRdmPktTypeIsReq t.id = true := by simpa [efaRdmPktTypeIsReq] using sixtyFour_le_id t
  have runt : (t.id == runtreadMsgrtm.id || t.id == runtreadTagrtm.id) = efaRdmPktTypeIsRuntread t.id := by
    rw [efaRdmPktTypeIsRuntread, Bool.or_comm]
  simp only [efaRdmPkeGetPayloadOffset, h.type, req, runt, h.hdrSize, Bool.false_eq_true, if_false, if_true]
  split <;> simp

end Readers

/-! `efa_rdm_pke_init_req_hdr_common` lays the header out. -/

section Common

variable {ep : ReqEp} {txe : ReqTxe} {t : ReqPktType} {wire : Bytes}

theorem length_bytes (a : EfaEpAddr) : a.bytes.length = efaEpAddrLen := by
  simp [EfaEpAddr.bytes, a.rawLength, efaEpAddrLen]

theorem sameOutside_orFlags {a w : Bytes} {lo : Nat} (h : SameOutside lo 4 a w) (low : lo ≤ 2) (fits : 4 ≤ a.length)
    (bits : Nat) : SameOutside lo 4 a (orFlags w bits) :=
  h.trans ((sameOutside_store (Nat.le_trans fits h.1)).mono low (le_refl 4))

theorem initReqBaseHdr_sameOutside_type (fits : 4 ≤ wire.length) (pktType : Nat) :
    SameOutside 1 4 (store wire 0 1 pktType) (initReqBaseHdr txe pktType wire) := by
  have len₁ : (store wire 0 1 pktType).length = wire.length := length_store (by omega)
  have len₂ : (store (store wire 0 1 pktType) 1 1 efaRdmProtocolVersion).length = wire.length := by
    rw [length_store (by omega), len₁]
  have stores : SameOutside 1 4 (store wire 0 1 pktType)
      (store (store (store wire 0 1 pktType) 1 1 efaRdmProtocolVersion) 2 2 0) :=
    ((sameOutside_store (by omega)).mono (le_refl 1) (by omega)).trans
      ((sameOutside_store (by omega)).mono (by omega) (le_refl 4))
  have long : 4 ≤ (store wire 0 1 pktType).length := by omega
  unfold initReqBaseHdr
  dsimp only
  generalize store (store (store wire 0 1 pktType) 1 1 efaRdmProtocolVersion) 2 2 0 = w₀ at stores ⊢
  split_ifs <;>
    first
    | exact sameOutside_orFlags (sameOutside_orFlags stores (by omega) long _) (by omega) long _
    | exact sameOutside_orFlags stores (by omega) long _
    | exact stores

theorem initReqBaseHdr_sameOutside (fits : 4 ≤ wire.length) (pktType : Nat) :
    SameOutside 0 4 wire (initReqBaseHdr txe pktType wire) :=
  ((sameOutside_store (by omega)).mono (le_refl 0) (by omega)).trans
    ((initReqBaseHdr_sameOutside_type fits pktType).mono (Nat.zero_le 1) (le_refl 4))

theorem load_initReqBaseHdr_type (fits : 4 ≤ wire.length) {pktType : Nat} (small : pktType < 256) :
    load (initReqBaseHdr txe pktType wire) 0 1 = pktType := by
  rw [(initReqBaseHdr_sameOutside_type fits pktType).load (Or.inl (by omega)), load_store_of_lt (by omega) small]

theorem load_initReqBaseHdr_flags (fits : 4 ≤ wire.length) (pktType : Nat) :
    load (initReqBaseHdr txe pktType wire) 2 2 = reqFlags txe := by
  have len₂ : 4 ≤ (store (store wire 0 1 pktType) 1 1 efaRdmProtocolVersion).length := by
    rw [length_store (by rw [length_store (by omega)]; omega), length_store (by omega)]
    exact fits
  have len : 4 ≤ (store (store (store wire 0 1 pktType) 1 1 efaRdmProtocolVersion) 2 2 0).length := by
    rw [length_store len₂]
    exact len₂
  have cleared : load (store (store (store wire 0 1 pktType) 1 1 efaRdmProtocolVersion) 2 2 0) 2 2 = 0 := by
    rw [load_store_self len₂]
    rfl
  unfold initReqBaseHdr reqFlags
  dsimp only
  generalize store (store (store wire 0 1 pktType) 1 1 efaRdmProtocolVersion) 2 2 0 = w₀ at len cleared ⊢
  -- every choice of optional headers sets exactly its bits
  cases efaRdmPeerNeedRawAddrHdr txe.peer <;> cases efaRdmPeerNeedConnid txe.peer <;> cases txe.remoteCqData <;>
    simp [load_orFlags, length_orFlags, len, cleared, efaRdmReqOptRawAddrHdr, efaRdmPktConnidHdr,
      efaRdmReqOptCqDataHdr]


theorem rawAddrHdr_spec {p : Nat} (fits : p + efaRdmReqOptRawAddrHdrSize ≤ wire.length) (a : EfaEpAddr) :
    SameOutside p (p + efaRdmReqOptRawAddrHdrSize) wire
        (Buffer.writeAt (store wire p 4 (efaRdmReqOptRawAddrHdrSize - sizeofReqOptRawAddrHdr))
          (p + sizeofReqOptRawAddrHdr) a.bytes) ∧
      load (Buffer.writeAt (store wire p 4 (efaRdmReqOptRawAddrHdrSize - sizeofReqOptRawAddrHdr))
          (p + sizeofReqOptRawAddrHdr) a.bytes) p 4 = efaRdmReqOptRawAddrHdrSize - sizeofReqOptRawAddrHdr ∧
      ((Buffer.writeAt (store wire p 4 (efaRdmReqOptRawAddrHdrSize - sizeofReqOptRawAddrHdr))
          (p + sizeofReqOptRawAddrHdr) a.bytes).drop (p + sizeofReqOptRawAddrHdr)).take efaEpAddrLen = a.bytes := by
  rw [efaRdmReqOptRawAddrHdrSize_eq] at fits ⊢
  have len : (store wire p 4 (40 - sizeofReqOptRawAddrHdr)).length = wire.length := length_store (by omega)
  have addrFits : p + sizeofReqOptRawAddrHdr + a.bytes.length ≤ (store wire p 4 (40 - sizeofReqOptRawAddrHdr)).length := by
    rw [len, length_bytes]
    unfold sizeofReqOptRawAddrHdr efaEpAddrLen
    omega
  refine ⟨?_, ?_, ?_⟩
  · exact ((sameOutside_store (by omega)).mono (le_refl p) (by omega)).trans
      ((sameOutside_writeAt addrFits).mono (by omega)
        (by rw [length_bytes]; unfold sizeofReqOptRawAddrHdr efaEpAddrLen; omega))
  · rw [load_writeAt_of_apart addrFits (Or.inr (by unfold sizeofReqOptRawAddrHdr; omega)),
      load_store_of_lt (by omega) (by decide)]
  · have self := Buffer.drop_take_writeAt_self addrFits
    rwa [length_bytes] at self

theorem cqAt_eq_ite :
    (if hasRaw txe = true then optStart txe t + efaRdmReqOptRawAddrHdrSize else optStart txe t) = cqAt txe t := by
  unfold cqAt
  split <;> simp

theorem connidAt_eq_ite :
    (if txe.remoteCqData = true then cqAt txe t + sizeofReqOptCqDataHdr else cqAt txe t) = connidAt txe t := by
  unfold connidAt
  split <;> simp

theorem initReqOptHdrs_spec (fits : hdrEnd txe t ≤ wire.length) (type : load wire 0 1 = t.id)
    (flags : load wire 2 2 = reqFlags txe)
    (count : efaRdmPktTypeContainsRmaIov t.id = true → load wire t.rmaIovCountOffset 4 = txe.rmaIov.length) :
    ReqHdrOn ep txe t (initReqOptHdrs ep txe wire) := by
  have base : efaRdmPkeGetReqBaseHdrSize wire = optStart txe t := by
    rw [efaRdmPkeGetReqBaseHdrSize, type, efaRdmPktTypeReqBaseHdrSize_id,
      efaRdmPkeGetReqRmaIovCount_of type count, optStart]
  have cq₀ := @optStart_le_cqAt txe t
  have connid₀ := @cqAt_le_connidAt txe t
  have last := @connidAt_le_hdrEnd txe t
  have countBelow : efaRdmPktTypeContainsRmaIov t.id = true → t.rmaIovCountOffset + 4 ≤ optStart txe t :=
    fun contains => Nat.le_trans (rmaIovCountOffset_add_le contains) baseHdrSize_le_optStart
  have base₀ := @four_le_optStart txe t
  unfold initReqOptHdrs
  simp only [flags, base, flagSet_reqFlags_raw, flagSet_reqFlags_cq, flagSet_reqFlags_connid, cqAt_eq_ite,
    connidAt_eq_ite]
  -- the raw address header, between `optStart` and `cqAt`
  generalize hw₁ : (if hasRaw txe = true then
      Buffer.writeAt (store wire (optStart txe t) 4 (efaRdmReqOptRawAddrHdrSize - sizeofReqOptRawAddrHdr))
        (optStart txe t + sizeofReqOptRawAddrHdr) ep.srcAddr.bytes
    else wire) = w₁
  have stage₁ : SameOutside (optStart txe t) (cqAt txe t) wire w₁ ∧ (hasRaw txe = true →
      load w₁ (optStart txe t) 4 = efaRdmReqOptRawAddrHdrSize - sizeofReqOptRawAddrHdr ∧
      (w₁.drop (optStart txe t + sizeofReqOptRawAddrHdr)).take efaEpAddrLen = ep.srcAddr.bytes) := by
    subst hw₁
    cases raw : hasRaw txe
    · refine ⟨SameOutside.refl _ _ _, fun no => nomatch no⟩
    · have room := cqAt_of_hasRaw (t := t) raw
      obtain ⟨same, addrLen, addr⟩ := @rawAddrHdr_spec wire (optStart txe t) (by omega) ep.srcAddr
      exact ⟨room ▸ same, fun _ => ⟨addrLen, addr⟩⟩
  -- the CQ data header, between `cqAt` and `connidAt`
  generalize hw₂ : (if txe.remoteCqData = true then store w₁ (cqAt txe t) 8 txe.cqData.toNat else w₁) = w₂
  have stage₂ : SameOutside (cqAt txe t) (connidAt txe t) w₁ w₂ ∧
      (txe.remoteCqData = true → load w₂ (cqAt txe t) 8 = txe.cqData.toNat) := by
    subst hw₂
    cases withCq : txe.remoteCqData
    · exact ⟨SameOutside.refl _ _ _, fun no => nomatch no⟩
    · have room := connidAt_of_remoteCqData (t := t) withCq
      have fits₁ : cqAt txe t + 8 ≤ w₁.length := by
        unfold sizeofReqOptCqDataHdr at room
        exact Nat.le_trans (by omega) stage₁.1.1
      refine ⟨?_, fun _ => ?_⟩
      · rw [room]
        exact sameOutside_store fits₁
      · rw [if_pos rfl, load_store_of_lt fits₁ (UInt64.toNat_lt _)]
  -- the connid header, between `connidAt` and `hdrEnd`
  generalize hw₃ : (if hasConnid txe = true then store w₂ (connidAt txe t) 4 ep.srcAddr.qkey.toNat else w₂) = w₃
  have stage₃ : SameOutside (connidAt txe t) (hdrEnd txe t) w₂ w₃ ∧
      (hasConnid txe = true → load w₃ (connidAt txe t) 4 = ep.srcAddr.qkey.toNat) := by
    subst hw₃
    cases withConnid : hasConnid txe
    · exact ⟨SameOutside.refl _ _ _, fun no => nomatch no⟩
    · have room := hdrEnd_of_hasConnid (t := t) withConnid
      have fits₂ : connidAt txe t + 4 ≤ w₂.length := by
        unfold sizeofReqOptConnidHdr at room
        exact Nat.le_trans (by omega) (Nat.le_trans stage₁.1.1 stage₂.1.1)
      refine ⟨?_, fun _ => ?_⟩
      · rw [room]
        exact sameOutside_store fits₂
      · rw [if_pos rfl, load_store_of_lt fits₂ (UInt32.toNat_lt _)]
  -- each field is kept by the stages behind it
  have after₁ : SameOutside (cqAt txe t) (hdrEnd txe t) w₁ w₃ :=
    (stage₂.1.mono (le_refl _) last).trans (stage₃.1.mono connid₀ (le_refl _))
  have whole : SameOutside (optStart txe t) (hdrEnd txe t) wire w₃ :=
    (stage₁.1.mono (le_refl _) (Nat.le_trans connid₀ last)).trans (after₁.mono cq₀ (le_refl _))
  have flags₃ : load w₃ 2 2 = reqFlags txe := by rw [whole.load (Or.inl (by omega)), flags]
  refine ⟨Nat.le_trans fits whole.1, ?_, ?_, ?_, ?_, ?_, ?_, ?_, ?_, ?_⟩
  · rw [whole.load (Or.inl (by omega)), type]
  · rw [flags₃, flagSet_reqFlags_raw]
  · rw [flags₃, flagSet_reqFlags_cq]
  · rw [flags₃, flagSet_reqFlags_connid]
  · intro contains
    rw [whole.load (Or.inl (countBelow contains)), count contains]
  · intro raw
    have room := cqAt_of_hasRaw (t := t) raw
    rw [efaRdmReqOptRawAddrHdrSize_eq] at room
    rw [after₁.load (Or.inl (by omega))]
    exact (stage₁.2 raw).1
  · intro raw
    have room := cqAt_of_hasRaw (t := t) raw
    rw [efaRdmReqOptRawAddrHdrSize_eq] at room
    rw [after₁.2 _ _ (Or.inl (by unfold sizeofReqOptRawAddrHdr efaEpAddrLen; omega))]
    exact (stage₁.2 raw).2
  · intro withCq
    have room := connidAt_of_remoteCqData (t := t) withCq
    unfold sizeofReqOptCqDataHdr at room
    rw [stage₃.1.load (Or.inl (by omega))]
    exact stage₂.2 withCq
  · exact stage₃.2


theorem id_lt (t : ReqPktType) : t.id < 256 := by
  cases t <;> decide

theorem efaRdmPkeInitReqHdrCommon_spec (fits : hdrEnd txe t ≤ wire.length)
    (count : efaRdmPktTypeContainsRmaIov t.id = true → load wire t.rmaIovCountOffset 4 = txe.rmaIov.length) :
    ReqHdrOn ep txe t (efaRdmPkeInitReqHdrCommon ep txe t.id wire) := by
  have four : 4 ≤ wire.length := Nat.le_trans four_le_optStart (Nat.le_trans optStart_le_hdrEnd fits)
  have base := @initReqBaseHdr_sameOutside txe wire four t.id
  refine initReqOptHdrs_spec (Nat.le_trans fits base.1) (load_initReqBaseHdr_type four (id_lt t))
    (load_initReqBaseHdr_flags four t.id) fun contains => ?_
  rw [base.load (Or.inr (four_le_rmaIovCountOffset t)), count contains]

end Common

end Libfabric.EfaRdm
