import Libfabric.Efa.ReqProofs

/-! The writers of the REQ packets, type by type, and what their packets
tell the receiver. Each writer lays out the common header with
`efa_rdm_pke_init_req_hdr_common` and stores its type's members around it:
inside the fixed header, as the `rma_iov` entries between the fixed header
and the optional headers, or as read entries and payload behind the header.
`ReqBuilt` collects what a finished packet must be, and each writer's lemma
proves it from the frame lemmas of `ReqHdrOn`. -/
namespace Libfabric.EfaRdm

open Fields ReqPktType

variable {ep : ReqEp} {txe : ReqTxe} {t : ReqPktType} {wire : Bytes} {pke : ReqPke}

/-- Where a REQ packet's payload starts by the sender's sizing: the
`max_data_offset` of `efa_rdm_txe_max_req_data_capacity`, the header and,
for a runting read, its read entries. -/
def reqDataOffset (txe : ReqTxe) (t : ReqPktType) : Nat :=
  hdrEnd txe t + if efaRdmPktTypeIsRuntread t.id then txe.iov.length * sizeofFiRmaIov else 0

/-- A REQ packet as its writer leaves it: a header the receiver reads back, a
runting read's count of read entries, a payload where the sender's sizing
puts it, and a size that covers the header and stays within the MTU. -/
structure ReqBuilt (ep : ReqEp) (txe : ReqTxe) (t : ReqPktType) (pke : ReqPke) : Prop where
  hdr : ReqHdrOn ep txe t pke.wire
  runt : efaRdmPktTypeIsRuntread t.id = true → load pke.wire 20 4 = txe.iov.length
  payload : ∀ off, pke.payloadAt = some off → off = reqDataOffset txe t
  covers : hdrEnd txe t ≤ pke.pktSize
  fits : pke.pktSize ≤ ep.mtuSize

/-- What the sender's setup gives a REQ writer: an entry of `mtu_size` bytes
that holds the header and the read entries, and counts of entries within
`EFA_RDM_IOV_LIMIT`. -/
structure ReqSetup (ep : ReqEp) (txe : ReqTxe) (t : ReqPktType) (wire : Bytes) : Prop where
  size : wire.length = ep.mtuSize
  room : hdrEnd txe t + txe.iov.length * sizeofFiRmaIov ≤ ep.mtuSize
  rmaLimit : txe.rmaIov.length ≤ efaRdmIovLimit
  iovLimit : txe.iov.length ≤ efaRdmIovLimit

theorem ReqSetup.hdrFits (setup : ReqSetup ep txe t wire) : hdrEnd txe t ≤ ep.mtuSize :=
  Nat.le_trans (Nat.le_add_right _ _) setup.room

theorem ReqSetup.long (setup : ReqSetup ep txe t wire) : ep.mtuSize ≤ wire.length :=
  Nat.le_of_eq setup.size.symm

theorem ReqSetup.baseFits (setup : ReqSetup ep txe t wire) : t.baseHdrSize ≤ wire.length := by
  have := @baseHdrSize_le_optStart txe t
  have := @optStart_le_hdrEnd txe t
  have := setup.hdrFits
  have := setup.size
  omega

theorem lt_of_le_efaRdmIovLimit {n : Nat} (limit : n ≤ efaRdmIovLimit) : n < 256 ^ 4 :=
  Nat.lt_of_le_of_lt limit (by decide)

theorem reqDataOffset_of_notRunt (notRunt : efaRdmPktTypeIsRuntread t.id = false) :
    reqDataOffset txe t = hdrEnd txe t := by
  simp [reqDataOffset, notRunt]

theorem le_sizeSub_hdrEnd (notRunt : efaRdmPktTypeIsRuntread t.id = false) {d : Nat}
    (data : d ≤ sizeSub ep.mtuSize (reqDataOffset txe t)) : d ≤ sizeSub ep.mtuSize (hdrEnd txe t) := by
  rwa [reqDataOffset_of_notRunt notRunt] at data

theorem efaRdmTxeMaxReqDataCapacity_eq (ep : ReqEp) (txe : ReqTxe) (t : ReqPktType) :
    efaRdmTxeMaxReqDataCapacity ep txe t.id = sizeSub ep.mtuSize (reqDataOffset txe t) := by
  have sized := @efaRdmPktTypeGetReqHdrSize_reqFlags txe t
  unfold reqFlags at sized
  unfold efaRdmTxeMaxReqDataCapacity reqDataOffset
  dsimp only
  rw [sized]
  split <;> rfl

/-! Pieces the writers share. -/

section Pieces

theorem ReqHdrOn.storeFixed (h : ReqHdrOn ep txe t wire) {pos w v : Nat} (base : 4 ≤ pos)
    (inside : pos + w ≤ t.baseHdrSize)
    (count : efaRdmPktTypeContainsRmaIov t.id = true → t.rmaIovCountOffset + 4 ≤ pos ∨ pos + w ≤ t.rmaIovCountOffset) :
    ReqHdrOn ep txe t (Fields.store wire pos w v) := by
  have := @baseHdrSize_le_optStart txe t
  have := @optStart_le_hdrEnd txe t
  exact h.store (by have := h.room; omega) base count (Or.inl (by omega))

theorem ReqHdrOn.storeRtm (h : ReqHdrOn ep txe t wire) (rtm : efaRdmPktTypeContainsRmaIov t.id = false)
    {pos w v : Nat} (base : 4 ≤ pos) (inside : pos + w ≤ t.baseHdrSize) :
    ReqHdrOn ep txe t (Fields.store wire pos w v) :=
  h.storeFixed base inside fun contains => by simp [rtm] at contains

theorem sameOutside_rmaEntry {pos a b c : Nat} (fits : pos + sizeofFiRmaIov ≤ wire.length) :
    SameOutside pos (pos + sizeofFiRmaIov) wire (store (store (store wire pos 8 a) (pos + 8) 8 b) (pos + 16) 8 c) := by
  unfold sizeofFiRmaIov at fits ⊢
  have len₁ : (store wire pos 8 a).length = wire.length := length_store (by omega)
  have len₂ : (store (store wire pos 8 a) (pos + 8) 8 b).length = wire.length := by
    rw [length_store (by omega), len₁]
  exact (((sameOutside_store (by omega)).mono (le_refl pos) (by omega)).trans
    ((sameOutside_store (by omega)).mono (by omega) (by omega))).trans
    ((sameOutside_store (by omega)).mono (by omega) (le_refl _))

theorem sameOutside_storeRmaIovs {pos : Nat} (iovs : List RmaIov) (fits : pos + iovs.length * sizeofFiRmaIov ≤ wire.length) :
    SameOutside pos (pos + iovs.length * sizeofFiRmaIov) wire (storeRmaIovs wire pos iovs) := by
  induction iovs generalizing pos wire with
  | nil => exact SameOutside.refl _ _ _
  | cons iov rest ih =>
    simp only [List.length_cons, Nat.succ_mul] at fits ⊢
    have entry := @sameOutside_rmaEntry wire pos iov.addr iov.len iov.key (by omega)
    simp only [storeRmaIovs]
    generalize store (store (store wire pos 8 iov.addr) (pos + 8) 8 iov.len) (pos + 16) 8 iov.key = w at entry ⊢
    have rest := @ih w (pos + sizeofFiRmaIov) (by have := entry.1; omega)
    exact (entry.mono (le_refl pos) (by omega)).trans (rest.mono (by omega) (by omega))

theorem ReqHdrOn.rmaIovs (h : ReqHdrOn ep txe t wire) (contains : efaRdmPktTypeContainsRmaIov t.id = true) :
    ReqHdrOn ep txe t (storeRmaIovs wire t.baseHdrSize txe.rmaIov) := by
  have ends : optStart txe t = t.baseHdrSize + txe.rmaIov.length * sizeofFiRmaIov := by
    simp [optStart, rmaCount, contains]
  have := @optStart_le_hdrEnd txe t
  have same := @sameOutside_storeRmaIovs wire t.baseHdrSize txe.rmaIov (by have := h.room; omega)
  rw [← ends] at same
  exact h.outside same (four_le_baseHdrSize t) (fun c => Or.inl (rmaIovCountOffset_add_le c)) (Or.inl le_rfl)

theorem sameOutside_prepareToBeRead {pos : Nat} {wire' : Bytes}
    (fits : pos + txe.iov.length * sizeofFiRmaIov ≤ wire.length) (read : efaRdmTxePrepareToBeRead txe pos wire = some wire') :
    SameOutside pos (pos + txe.iov.length * sizeofFiRmaIov) wire wire' := by
  unfold efaRdmTxePrepareToBeRead at read
  generalize txe.iov = iovs at fits read
  induction iovs generalizing pos wire with
  | nil => cases read; exact SameOutside.refl _ _ _
  | cons iov rest ih =>
    simp only [List.length_cons, Nat.succ_mul] at fits ⊢
    simp only [efaRdmTxePrepareToBeRead.go] at read
    split at read
    · cases read
    · -- a registered entry: its three members, then the rest
      rename_i key _
      have entry := @sameOutside_rmaEntry wire pos iov.base iov.len key (by omega)
      generalize store (store (store wire pos 8 iov.base) (pos + 8) 8 iov.len) (pos + 16) 8 key = w at entry read
      have rest := @ih w (pos + sizeofFiRmaIov) (by have := entry.1; omega) read
      exact (entry.mono (le_refl pos) (by omega)).trans (rest.mono (by omega) (by omega))

theorem efaRdmPkeInitPayloadFromOpe_spec {off seg d : Nat} (fits : off + d ≤ wire.length)
    (built : efaRdmPkeInitPayloadFromOpe txe off seg d wire = some pke) :
    SameOutside off (off + d) wire pke.wire ∧ pke.payloadAt = some off ∧ pke.pktSize = off + d := by
  unfold efaRdmPkeInitPayloadFromOpe at built
  split_ifs at built with empty
  · cases built
    exact ⟨SameOutside.refl _ _ _, rfl, by simp [empty]⟩
  · cases built
    have len : ((txe.data.drop seg).take d).length ≤ d := List.length_take_le _ _
    exact ⟨(sameOutside_writeAt (by omega)).mono le_rfl (by omega), rfl, rfl⟩

theorem ReqHdrOn.withPayload (h : ReqHdrOn ep txe t wire) (long : ep.mtuSize ≤ wire.length)
    (notRunt : efaRdmPktTypeIsRuntread t.id = false) {seg d : Nat} (room : hdrEnd txe t + d ≤ ep.mtuSize)
    (built : efaRdmPkeInitPayloadFromOpe txe (hdrEnd txe t) seg d wire = some pke) : ReqBuilt ep txe t pke := by
  obtain ⟨same, placed, sized⟩ := efaRdmPkeInitPayloadFromOpe_spec (by omega) built
  refine ⟨h.behind same le_rfl, fun runt => by simp [notRunt] at runt, fun off given => ?_, by omega, by omega⟩
  rw [placed] at given
  cases given
  simp [reqDataOffset, notRunt]

theorem add_le_of_le_sizeSub {a d m : Nat} (fits : a ≤ m) (small : d ≤ sizeSub m a) : a + d ≤ m := by
  have := sizeSub_le_sub fits
  omega

theorem ReqBuilt.mapWire (b : ReqBuilt ep txe t pke) {f : Bytes → Bytes}
    (hdr : ReqHdrOn ep txe t pke.wire → ReqHdrOn ep txe t (f pke.wire))
    (runt : efaRdmPktTypeIsRuntread t.id = true → load (f pke.wire) 20 4 = load pke.wire 20 4) :
    ReqBuilt ep txe t (pke.mapWire f) :=
  ⟨hdr b.hdr, fun r => (runt r).trans (b.runt r), b.payload, b.covers, b.fits⟩

end Pieces

theorem le_length_orFlags {n bits : Nat} {wire : Bytes} (long : n ≤ wire.length) :
    n ≤ (orFlags wire bits).length :=
  le_length_store_of_le long

theorem le_length_initReqBaseHdr {n : Nat} (txe : ReqTxe) (pktType : Nat) {wire : Bytes}
    (long : n ≤ wire.length) : n ≤ (initReqBaseHdr txe pktType wire).length := by
  unfold initReqBaseHdr
  dsimp only
  have fixed : n ≤ (store (store (store wire 0 1 pktType) 1 1 efaRdmProtocolVersion) 2 2 0).length :=
    le_length_store_of_le (le_length_store_of_le (le_length_store_of_le long))
  generalize store (store (store wire 0 1 pktType) 1 1 efaRdmProtocolVersion) 2 2 0 = w at fixed ⊢
  have peer : n ≤ (if efaRdmPeerNeedRawAddrHdr txe.peer = true then orFlags w efaRdmReqOptRawAddrHdr
      else if efaRdmPeerNeedConnid txe.peer = true then orFlags w efaRdmPktConnidHdr else w).length := by
    split_ifs
    all_goals first | exact fixed | exact le_length_orFlags fixed
  generalize (if efaRdmPeerNeedRawAddrHdr txe.peer = true then orFlags w efaRdmReqOptRawAddrHdr
      else if efaRdmPeerNeedConnid txe.peer = true then orFlags w efaRdmPktConnidHdr else w) = w' at peer ⊢
  split_ifs
  · exact le_length_orFlags peer
  · exact peer

theorem le_length_initReqOptHdrs {n : Nat} (ep : ReqEp) (txe : ReqTxe) {wire : Bytes}
    (long : n ≤ wire.length) : n ≤ (initReqOptHdrs ep txe wire).length := by
  unfold initReqOptHdrs
  dsimp only
  -- the raw address, the CQ data and the connid, each written over what came before
  have raw : n ≤ (if flagSet (load wire 2 2) efaRdmReqOptRawAddrHdr = true then
      Buffer.writeAt (store wire (efaRdmPkeGetReqBaseHdrSize wire) 4
        (efaRdmReqOptRawAddrHdrSize - sizeofReqOptRawAddrHdr))
        (efaRdmPkeGetReqBaseHdrSize wire + sizeofReqOptRawAddrHdr) ep.srcAddr.bytes else wire).length := by
    split
    · exact le_length_writeAt_of_le (le_length_store_of_le long)
    · exact long
  generalize (if flagSet (load wire 2 2) efaRdmReqOptRawAddrHdr = true then _ else wire) = w at raw ⊢
  generalize (if flagSet (load wire 2 2) efaRdmReqOptRawAddrHdr = true then _ else _) = cqAt
  have cq : n ≤ (if flagSet (load wire 2 2) efaRdmReqOptCqDataHdr = true then
      store w cqAt 8 txe.cqData.toNat else w).length := by
    split
    · exact le_length_store_of_le raw
    · exact raw
  generalize (if flagSet (load wire 2 2) efaRdmReqOptCqDataHdr = true then
      store w cqAt 8 txe.cqData.toNat else w) = w' at cq ⊢
  split
  · exact le_length_store_of_le cq
  · exact cq

theorem le_length_efaRdmPkeInitReqHdrCommon {n : Nat} (ep : ReqEp) (txe : ReqTxe) (pktType : Nat) {wire : Bytes}
    (long : n ≤ wire.length) : n ≤ (efaRdmPkeInitReqHdrCommon ep txe pktType wire).length :=
  le_length_initReqOptHdrs ep txe (le_length_initReqBaseHdr txe pktType long)

/-! RTM packets. -/

section Rtm

theorem otherFlags_msg : OtherFlags efaRdmReqMsg := otherFlags_two_pow (by decide) (by decide) (by decide)

theorem otherFlags_tagged : OtherFlags efaRdmReqTagged := otherFlags_two_pow (by decide) (by decide) (by decide)

theorem otherFlags_readNack : OtherFlags efaRdmReqReadNack := otherFlags_two_pow (by decide) (by decide) (by decide)

theorem rtmHdr_spec (rtm : efaRdmPktTypeContainsRmaIov t.id = false) (msgRoom : 8 ≤ t.baseHdrSize)
    (fits : hdrEnd txe t ≤ wire.length) :
    ReqHdrOn ep txe t (store (orFlags (efaRdmPkeInitReqHdrCommon ep txe t.id wire) efaRdmReqMsg) 4 4 txe.msgId) :=
  ((efaRdmPkeInitReqHdrCommon_spec fits fun c => by simp [rtm] at c).orFlags otherFlags_msg).storeRtm rtm
    (le_refl 4) msgRoom

theorem le_length_rtmHdr {n : Nat} (long : n ≤ wire.length) :
    n ≤ (store (orFlags (efaRdmPkeInitReqHdrCommon ep txe t.id wire) efaRdmReqMsg) 4 4 txe.msgId).length :=
  le_length_store_of_le (le_length_store_of_le (le_length_efaRdmPkeInitReqHdrCommon ep txe t.id long))

theorem rtmDataSize_le {seg hdrSize : Nat} {ds : Option Nat}
    (caller : ∀ d, ds = some d → d ≤ sizeSub ep.mtuSize hdrSize) :
    rtmDataSize ep txe seg ds hdrSize ≤ sizeSub ep.mtuSize hdrSize := by
  unfold rtmDataSize
  split
  · exact Nat.zero_le _
  · split
    · exact caller _ rfl
    · dsimp only
      have most := Nat.min_le_right (sizeSub txe.totalLen seg) (sizeSub ep.mtuSize hdrSize)
      split
      · split
        · exact Nat.le_trans (Nat.div_mul_le_self _ _) most
        · exact Nat.le_trans (Nat.div_mul_le_self _ _) most
      · exact most

theorem efaRdmPkeInitRtmWithPayload_spec (setup : ReqSetup ep txe t wire)
    (rtm : efaRdmPktTypeContainsRmaIov t.id = false) (notRunt : efaRdmPktTypeIsRuntread t.id = false)
    (msgRoom : 8 ≤ t.baseHdrSize) {seg : Nat} {ds : Option Nat}
    (caller : ∀ d, ds = some d → d ≤ sizeSub ep.mtuSize (hdrEnd txe t))
    (built : efaRdmPkeInitRtmWithPayload ep txe t seg ds wire = some pke) : ReqBuilt ep txe t pke := by
  have msg := @rtmHdr_spec ep txe t wire rtm msgRoom (by have := setup.hdrFits; have := setup.size; omega)
  have long := @le_length_rtmHdr ep txe t wire _ setup.long
  unfold efaRdmPkeInitRtmWithPayload at built
  dsimp only at built
  generalize store (orFlags (efaRdmPkeInitReqHdrCommon ep txe t.id wire) efaRdmReqMsg) 4 4 txe.msgId = w
    at msg long built
  -- a read NACK is one more flag
  have nack : ReqHdrOn ep txe t (if txe.readNack = true then orFlags w efaRdmReqReadNack else w) := by
    split
    · exact msg.orFlags otherFlags_readNack
    · exact msg
  have nackLong : ep.mtuSize ≤ (if txe.readNack = true then orFlags w efaRdmReqReadNack else w).length := by
    split
    · exact le_length_store_of_le long
    · exact long
  generalize (if txe.readNack = true then orFlags w efaRdmReqReadNack else w) = w' at nack nackLong built
  rw [nack.hdrSize] at built
  exact nack.withPayload nackLong notRunt (add_le_of_le_sizeSub setup.hdrFits (rtmDataSize_le caller)) built

theorem ReqBuilt.of_map {W : Option ReqPke} {f : Bytes → Bytes}
    (inner : ∀ pke, W = some pke → ReqBuilt ep txe t pke)
    (hdr : ∀ w, ReqHdrOn ep txe t w → ReqHdrOn ep txe t (f w))
    (runt : ∀ w, ReqHdrOn ep txe t w → efaRdmPktTypeIsRuntread t.id = true → load (f w) 20 4 = load w 20 4)
    (built : W.map (ReqPke.mapWire f) = some pke) : ReqBuilt ep txe t pke := by
  obtain ⟨first, firstBuilt, rfl⟩ := Option.map_eq_some_iff.mp built
  have b := inner first firstBuilt
  exact b.mapWire (hdr _) (runt _ b.hdr)

theorem ReqBuilt.of_mapHdr (notRunt : efaRdmPktTypeIsRuntread t.id = false) {W : Option ReqPke}
    {f : Bytes → Bytes} (inner : ∀ pke, W = some pke → ReqBuilt ep txe t pke)
    (built : W.map (ReqPke.mapWire f) = some pke)
    (hdr : ∀ w, ReqHdrOn ep txe t w → ReqHdrOn ep txe t (f w)) : ReqBuilt ep txe t pke :=
  ReqBuilt.of_map inner hdr (fun _ _ runt => by simp [notRunt] at runt) built

theorem rtmWithPayload_map (setup : ReqSetup ep txe t wire) (rtm : efaRdmPktTypeContainsRmaIov t.id = false)
    (notRunt : efaRdmPktTypeIsRuntread t.id = false) (msgRoom : 8 ≤ t.baseHdrSize) {seg : Nat} {ds : Option Nat}
    (caller : ∀ d, ds = some d → d ≤ sizeSub ep.mtuSize (hdrEnd txe t)) {f : Bytes → Bytes}
    (built : (efaRdmPkeInitRtmWithPayload ep txe t seg ds wire).map (ReqPke.mapWire f) = some pke)
    (hdr : ∀ w, ReqHdrOn ep txe t w → ReqHdrOn ep txe t (f w)) : ReqBuilt ep txe t pke :=
  ReqBuilt.of_mapHdr notRunt (fun _ inner => efaRdmPkeInitRtmWithPayload_spec setup rtm notRunt msgRoom caller inner)
    built hdr

theorem rtmBaseAt (h : ReqHdrOn ep txe t wire) (rtm : efaRdmPktTypeContainsRmaIov t.id = false) :
    efaRdmPkeGetReqBaseHdrSize wire = t.baseHdrSize := by
  simp [h.baseHdrSize, optStart, rmaCount, rtm]

theorem ReqHdrOn.setTag (h : ReqHdrOn ep txe t wire) (rtm : efaRdmPktTypeContainsRmaIov t.id = false)
    (tagRoom : 12 ≤ t.baseHdrSize) (tag : Nat) : ReqHdrOn ep txe t (efaRdmPkeSetRtmTag wire tag) := by
  unfold efaRdmPkeSetRtmTag
  rw [rtmBaseAt h rtm]
  exact h.storeRtm rtm (by omega) (by omega)

theorem ReqHdrOn.withTag (h : ReqHdrOn ep txe t wire) (rtm : efaRdmPktTypeContainsRmaIov t.id = false)
    (tagRoom : 12 ≤ t.baseHdrSize) : ReqHdrOn ep txe t (rtmTagged txe wire) :=
  (h.orFlags otherFlags_tagged).setTag rtm tagRoom txe.tag

theorem ReqHdrOn.load_rtmTagged (h : ReqHdrOn ep txe t wire) (rtm : efaRdmPktTypeContainsRmaIov t.id = false)
    {q c : Nat} (base : 4 ≤ q) (ahead : q + c + 8 ≤ t.baseHdrSize) :
    load (rtmTagged txe wire) q c = load wire q c := by
  have fits := h.room
  have := @baseHdrSize_le_optStart txe t
  have := @optStart_le_hdrEnd txe t
  unfold rtmTagged efaRdmPkeSetRtmTag
  rw [rtmBaseAt (h.orFlags otherFlags_tagged) rtm,
    load_store_of_apart (by rw [length_orFlags (by omega)]; omega) (Or.inr (by omega)),
    load_orFlags_of_apart (by omega) _ (Or.inl (by omega))]

/-! The RTM writers with payload. -/

theorem efaRdmPkeInitEagerMsgrtm_spec (setup : ReqSetup ep txe eagerMsgrtm wire)
    (built : efaRdmPkeInitEagerMsgrtm ep txe false wire = some pke) : ReqBuilt ep txe eagerMsgrtm pke :=
  efaRdmPkeInitRtmWithPayload_spec setup (by decide) (by decide) (by decide) (fun _ e => by cases e) built

theorem efaRdmPkeInitEagerTagrtm_spec (setup : ReqSetup ep txe eagerTagrtm wire)
    (built : efaRdmPkeInitEagerTagrtm ep txe wire = some pke) : ReqBuilt ep txe eagerTagrtm pke :=
  rtmWithPayload_map setup (by decide) (by decide) (by decide) (fun _ e => by cases e) built
    fun _ h => h.withTag (by decide) (by decide)

theorem efaRdmPkeInitDcEagerMsgrtm_spec (setup : ReqSetup ep txe dcEagerMsgrtm wire)
    (built : efaRdmPkeInitDcEagerMsgrtm ep txe wire = some pke) : ReqBuilt ep txe dcEagerMsgrtm pke :=
  rtmWithPayload_map setup (by decide) (by decide) (by decide) (fun _ e => by cases e) built
    fun _ h => h.storeRtm (by decide) (by decide) (by decide)

theorem efaRdmPkeInitDcEagerTagrtm_spec (setup : ReqSetup ep txe dcEagerTagrtm wire)
    (built : efaRdmPkeInitDcEagerTagrtm ep txe wire = some pke) : ReqBuilt ep txe dcEagerTagrtm pke :=
  rtmWithPayload_map setup (by decide) (by decide) (by decide) (fun _ e => by cases e) built
    fun _ h => (h.withTag (by decide) (by decide)).storeRtm (by decide) (by decide) (by decide)

theorem efaRdmPkeInitMediumMsgrtm_spec (setup : ReqSetup ep txe mediumMsgrtm wire) {seg ds : Nat}
    (data : ds ≤ sizeSub ep.mtuSize (hdrEnd txe mediumMsgrtm))
    (built : efaRdmPkeInitMediumMsgrtm ep txe seg ds wire = some pke) : ReqBuilt ep txe mediumMsgrtm pke :=
  rtmWithPayload_map setup (by decide) (by decide) (by decide) (fun _ e => by cases e; exact data) built
    fun _ h => (h.storeRtm (by decide) (by decide) (by decide)).storeRtm (by decide) (by decide) (by decide)

theorem efaRdmPkeInitMediumTagrtm_spec (setup : ReqSetup ep txe mediumTagrtm wire) {seg ds : Nat}
    (data : ds ≤ sizeSub ep.mtuSize (hdrEnd txe mediumTagrtm))
    (built : efaRdmPkeInitMediumTagrtm ep txe seg ds wire = some pke) : ReqBuilt ep txe mediumTagrtm pke :=
  rtmWithPayload_map setup (by decide) (by decide) (by decide) (fun _ e => by cases e; exact data) built
    fun _ h => ((h.storeRtm (by decide) (by decide) (by decide)).storeRtm (by decide) (by decide) (by decide)).withTag
      (by decide) (by decide)

theorem efaRdmPkeInitDcMediumMsgrtm_spec (setup : ReqSetup ep txe dcMediumMsgrtm wire) {seg ds : Nat}
    (data : ds ≤ sizeSub ep.mtuSize (hdrEnd txe dcMediumMsgrtm))
    (built : efaRdmPkeInitDcMediumMsgrtm ep txe seg ds wire = some pke) : ReqBuilt ep txe dcMediumMsgrtm pke :=
  rtmWithPayload_map setup (by decide) (by decide) (by decide) (fun _ e => by cases e; exact data) built
    fun _ h => ((h.storeRtm (by decide) (by decide) (by decide)).storeRtm (by decide) (by decide) (by decide)).storeRtm
      (by decide) (by decide) (by decide)

theorem efaRdmPkeInitDcMediumTagrtm_spec (setup : ReqSetup ep txe dcMediumTagrtm wire) {seg ds : Nat}
    (data : ds ≤ sizeSub ep.mtuSize (hdrEnd txe dcMediumTagrtm))
    (built : efaRdmPkeInitDcMediumTagrtm ep txe seg ds wire = some pke) : ReqBuilt ep txe dcMediumTagrtm pke :=
  rtmWithPayload_map setup (by decide) (by decide) (by decide) (fun _ e => by cases e; exact data) built
    fun _ h => ((((h.storeRtm (by decide) (by decide) (by decide)).storeRtm (by decide) (by decide)
      (by decide)).orFlags otherFlags_tagged).storeRtm (by decide) (by decide) (by decide)).setTag (by decide)
      (by decide) txe.tag

theorem efaRdmPkeInitLongctsRtmCommon_spec (setup : ReqSetup ep txe t wire)
    (rtm : efaRdmPktTypeContainsRmaIov t.id = false) (notRunt : efaRdmPktTypeIsRuntread t.id = false)
    (room : 24 ≤ t.baseHdrSize) (built : efaRdmPkeInitLongctsRtmCommon ep txe t wire = some pke) :
    ReqBuilt ep txe t pke :=
  rtmWithPayload_map setup rtm notRunt (by omega) (fun _ e => by cases e) built
    fun _ h => ((h.storeRtm rtm (by decide) (by omega)).storeRtm rtm (by decide) (by omega)).storeRtm rtm
      (by decide) (by omega)

theorem efaRdmPkeInitLongctsTagrtm_spec (setup : ReqSetup ep txe longctsTagrtm wire)
    (built : efaRdmPkeInitLongctsTagrtm ep txe wire = some pke) : ReqBuilt ep txe longctsTagrtm pke :=
  ReqBuilt.of_mapHdr (by decide)
    (fun _ inner => efaRdmPkeInitLongctsRtmCommon_spec setup (by decide) (by decide) (by decide) inner) built
    fun _ h => h.withTag (by decide) (by decide)

theorem efaRdmPkeInitDcLongctsTagrtm_spec (setup : ReqSetup ep txe dcLongctsTagrtm wire)
    (built : efaRdmPkeInitDcLongctsTagrtm ep txe wire = some pke) : ReqBuilt ep txe dcLongctsTagrtm pke :=
  ReqBuilt.of_mapHdr (by decide)
    (fun _ inner => efaRdmPkeInitLongctsRtmCommon_spec setup (by decide) (by decide) (by decide) inner) built
    fun _ h => h.withTag (by decide) (by decide)

/-! The long-read and runting-read RTMs: read entries behind the header. -/

theorem ReqHdrOn.withReadEntries (h : ReqHdrOn ep txe t wire) (long : ep.mtuSize ≤ wire.length)
    (notRunt : efaRdmPktTypeIsRuntread t.id = false)
    (room : hdrEnd txe t + txe.iov.length * sizeofFiRmaIov ≤ ep.mtuSize)
    (built : (efaRdmTxePrepareToBeRead txe (hdrEnd txe t) wire).map
      (fun wire => (⟨wire, hdrEnd txe t + txe.iov.length * sizeofFiRmaIov, none⟩ : ReqPke)) = some pke) :
    ReqBuilt ep txe t pke := by
  obtain ⟨read, readOk, rfl⟩ := Option.map_eq_some_iff.mp built
  have same := sameOutside_prepareToBeRead (by omega) readOk
  exact ⟨h.behind same le_rfl, fun runt => by simp [notRunt] at runt, fun _ empty => (by cases empty),
    Nat.le_add_right _ _, room⟩

theorem efaRdmPkeInitLongreadRtm_spec (setup : ReqSetup ep txe t wire)
    (rtm : efaRdmPktTypeContainsRmaIov t.id = false) (notRunt : efaRdmPktTypeIsRuntread t.id = false)
    (room : 24 ≤ t.baseHdrSize) (built : efaRdmPkeInitLongreadRtm ep txe t wire = some pke) :
    ReqBuilt ep txe t pke := by
  have msg := @rtmHdr_spec ep txe t wire rtm (by omega) (by have := setup.hdrFits; have := setup.size; omega)
  have long := @le_length_rtmHdr ep txe t wire _ setup.long
  unfold efaRdmPkeInitLongreadRtm at built
  dsimp only at built
  generalize store (orFlags (efaRdmPkeInitReqHdrCommon ep txe t.id wire) efaRdmReqMsg) 4 4 txe.msgId = w
    at msg long built
  have fixed : ReqHdrOn ep txe t (store (store (store w 8 8 txe.totalLen) 16 4 txe.txId) 20 4 txe.iov.length) :=
    ((msg.storeRtm rtm (by decide) (by omega)).storeRtm rtm (by decide) (by omega)).storeRtm rtm (by decide) (by omega)
  have fixedLong : ep.mtuSize ≤ (store (store (store w 8 8 txe.totalLen) 16 4 txe.txId) 20 4 txe.iov.length).length :=
    le_length_store_of_le (le_length_store_of_le (le_length_store_of_le long))
  generalize store (store (store w 8 8 txe.totalLen) 16 4 txe.txId) 20 4 txe.iov.length = w' at fixed fixedLong built
  rw [fixed.hdrSize] at built
  exact fixed.withReadEntries fixedLong notRunt setup.room built

theorem efaRdmPkeInitRuntreadRtm_spec (setup : ReqSetup ep txe t wire)
    (rtm : efaRdmPktTypeContainsRmaIov t.id = false) (runt : efaRdmPktTypeIsRuntread t.id = true)
    (room : 40 ≤ t.baseHdrSize) {seg ds : Nat} (data : ds ≤ sizeSub ep.mtuSize (reqDataOffset txe t))
    (built : efaRdmPkeInitRuntreadRtm ep txe t seg ds wire = some pke) : ReqBuilt ep txe t pke := by
  have := @baseHdrSize_le_optStart txe t
  have := @optStart_le_hdrEnd txe t
  have hdrFits := setup.hdrFits
  have msg := @rtmHdr_spec ep txe t wire rtm (by omega) (by have := setup.size; omega)
  have long := @le_length_rtmHdr ep txe t wire _ setup.long
  unfold efaRdmPkeInitRuntreadRtm at built
  dsimp only at built
  generalize store (orFlags (efaRdmPkeInitReqHdrCommon ep txe t.id wire) efaRdmReqMsg) 4 4 txe.msgId = w
    at msg long built
  have fixed : ReqHdrOn ep txe t
      (store (store (store (store w 8 8 txe.totalLen) 16 4 txe.txId) 24 8 seg) 32 8 txe.bytesRunt) :=
    (((msg.storeRtm rtm (by decide) (by omega)).storeRtm rtm (by decide) (by omega)).storeRtm rtm (by decide)
      (by omega)).storeRtm rtm (by decide) (by omega)
  have fixedLong : ep.mtuSize ≤
      (store (store (store (store w 8 8 txe.totalLen) 16 4 txe.txId) 24 8 seg) 32 8 txe.bytesRunt).length :=
    le_length_store_of_le (le_length_store_of_le (le_length_store_of_le (le_length_store_of_le long)))
  generalize store (store (store (store w 8 8 txe.totalLen) 16 4 txe.txId) 24 8 seg) 32 8 txe.bytesRunt = w'
    at fixed fixedLong built
  -- the count of read entries, which the receiver reads back to find the payload
  have counted : ReqHdrOn ep txe t (store w' 20 4 txe.iov.length) :=
    fixed.storeRtm rtm (by decide) (by omega)
  have count : load (store w' 20 4 txe.iov.length) 20 4 = txe.iov.length :=
    load_store_of_lt (by omega) (lt_of_le_efaRdmIovLimit setup.iovLimit)
  have countedLong : ep.mtuSize ≤ (store w' 20 4 txe.iov.length).length := le_length_store_of_le fixedLong
  generalize store w' 20 4 txe.iov.length = w'' at counted count countedLong built
  rw [counted.hdrSize] at built
  obtain ⟨read, readOk, payload⟩ := Option.bind_eq_some_iff.mp built
  have offset : reqDataOffset txe t = hdrEnd txe t + txe.iov.length * sizeofFiRmaIov := by
    simp [reqDataOffset, runt]
  have fits : reqDataOffset txe t + ds ≤ ep.mtuSize :=
    add_le_of_le_sizeSub (by rw [offset]; exact setup.room) data
  have same := sameOutside_prepareToBeRead (by have := setup.room; omega) readOk
  obtain ⟨samePayload, placed, sized⟩ := efaRdmPkeInitPayloadFromOpe_spec (by have := same.1; omega) payload
  refine ⟨(counted.behind same le_rfl).behind samePayload (by omega), fun _ => ?_, fun off given => ?_, by omega,
    by omega⟩
  · rw [samePayload.load (Or.inl (by omega)), same.load (Or.inl (by omega)), count]
  · rw [placed] at given
    cases given
    exact offset.symm

theorem efaRdmPkeInitRuntreadTagrtm_spec (setup : ReqSetup ep txe runtreadTagrtm wire) {seg ds : Nat}
    (data : ds ≤ sizeSub ep.mtuSize (reqDataOffset txe runtreadTagrtm))
    (built : efaRdmPkeInitRuntreadTagrtm ep txe seg ds wire = some pke) : ReqBuilt ep txe runtreadTagrtm pke :=
  ReqBuilt.of_map (fun _ inner => efaRdmPkeInitRuntreadRtm_spec setup (by decide) (by decide) (by decide) data inner)
    (fun _ h => h.withTag (by decide) (by decide)) (fun _ h _ => h.load_rtmTagged (by decide) (by decide) (by decide))
    built

end Rtm

/-! RTW, RTR and RTA packets: the count of `rma_iov` entries is stored ahead
of the common header, and the entries go behind the fixed header. -/

section Rma

theorem le_length_storeRmaIovs {n pos : Nat} (iovs : List RmaIov) (long : n ≤ wire.length) :
    n ≤ (storeRmaIovs wire pos iovs).length := by
  induction iovs generalizing pos wire with
  | nil => exact long
  | cons iov rest ih => exact ih (le_length_store_of_le (le_length_store_of_le (le_length_store_of_le long)))

theorem ReqSetup.fitsIn (setup : ReqSetup ep txe t wire) {n : Nat} (inside : n ≤ t.baseHdrSize) :
    n ≤ wire.length :=
  Nat.le_trans inside setup.baseFits

theorem ReqSetup.common (setup : ReqSetup ep txe t wire) {w : Bytes} (long : wire.length ≤ w.length)
    (count : efaRdmPktTypeContainsRmaIov t.id = true → load w t.rmaIovCountOffset 4 = txe.rmaIov.length) :
    ReqHdrOn ep txe t (efaRdmPkeInitReqHdrCommon ep txe t.id w) :=
  efaRdmPkeInitReqHdrCommon_spec (by have := setup.hdrFits; have := setup.size; omega) count

theorem ReqSetup.commonLong (setup : ReqSetup ep txe t wire) {w : Bytes} (long : wire.length ≤ w.length)
    (pktType : Nat) : ep.mtuSize ≤ (efaRdmPkeInitReqHdrCommon ep txe pktType w).length :=
  le_length_efaRdmPkeInitReqHdrCommon ep txe pktType (Nat.le_trans setup.long long)

theorem sameOutside_longRtwMembers (fits : 24 ≤ wire.length) (a b c : Nat) :
    SameOutside 8 24 wire (store (store (store wire 8 8 a) 16 4 b) 20 4 c) := by
  have s₁ : SameOutside 8 16 wire (store wire 8 8 a) := sameOutside_store (by omega)
  have s₂ : SameOutside 16 20 (store wire 8 8 a) (store (store wire 8 8 a) 16 4 b) :=
    sameOutside_store (by have := s₁.1; omega)
  have s₃ : SameOutside 20 24 (store (store wire 8 8 a) 16 4 b) (store (store (store wire 8 8 a) 16 4 b) 20 4 c) :=
    sameOutside_store (by have := s₂.1; have := s₁.1; omega)
  exact (s₁.mono le_rfl (by decide)).trans ((s₂.mono (by decide) (by decide)).trans (s₃.mono (by decide) le_rfl))

theorem efaRdmPkeInitRtwCommon_spec (h : ReqHdrOn ep txe t wire) (long : ep.mtuSize ≤ wire.length)
    (room : hdrEnd txe t ≤ ep.mtuSize) (contains : efaRdmPktTypeContainsRmaIov t.id = true)
    (notRunt : efaRdmPktTypeIsRuntread t.id = false)
    (built : efaRdmPkeInitRtwCommon ep txe t.baseHdrSize wire = some pke) : ReqBuilt ep txe t pke := by
  have iovs := h.rmaIovs contains
  have iovsLong : ep.mtuSize ≤ (storeRmaIovs wire t.baseHdrSize txe.rmaIov).length := le_length_storeRmaIovs _ long
  unfold efaRdmPkeInitRtwCommon at built
  dsimp only at built
  generalize storeRmaIovs wire t.baseHdrSize txe.rmaIov = w at iovs iovsLong built
  rw [iovs.hdrSize] at built
  exact iovs.withPayload iovsLong notRunt (add_le_of_le_sizeSub room (Nat.min_le_left _ _)) built

theorem countHdr_spec (setup : ReqSetup ep txe t wire) (at4 : t.rmaIovCountOffset = 4)
    (base : 8 ≤ t.baseHdrSize) :
    ReqHdrOn ep txe t (efaRdmPkeInitReqHdrCommon ep txe t.id (store wire 4 4 txe.rmaIov.length)) :=
  setup.common (length_le_writeAt _ _ _) fun _ => by
    rw [at4, load_store_of_lt (setup.fitsIn base) (lt_of_le_efaRdmIovLimit setup.rmaLimit)]

theorem efaRdmPkeInitEagerRtw_spec (setup : ReqSetup ep txe eagerRtw wire)
    (built : efaRdmPkeInitEagerRtw ep txe wire = some pke) : ReqBuilt ep txe eagerRtw pke :=
  efaRdmPkeInitRtwCommon_spec (countHdr_spec setup rfl (by decide))
    (setup.commonLong (length_le_writeAt _ _ _) _) setup.hdrFits (by decide) (by decide) built

theorem efaRdmPkeInitDcEagerRtw_spec (setup : ReqSetup ep txe dcEagerRtw wire)
    (built : efaRdmPkeInitDcEagerRtw ep txe wire = some pke) : ReqBuilt ep txe dcEagerRtw pke :=
  ReqBuilt.of_mapHdr (by decide)
    (fun _ inner => efaRdmPkeInitRtwCommon_spec (countHdr_spec setup rfl (by decide))
      (setup.commonLong (length_le_writeAt _ _ _) _) setup.hdrFits (by decide) (by decide) inner)
    built fun _ h => h.storeFixed (by decide) (by decide) fun _ => Or.inl (by decide)

theorem longRtwHdr_spec (setup : ReqSetup ep txe t wire) (at4 : t.rmaIovCountOffset = 4)
    (base : 24 ≤ t.baseHdrSize) (a b c : Nat) :
    ReqHdrOn ep txe t (efaRdmPkeInitReqHdrCommon ep txe t.id
      (store (store (store (store wire 4 4 txe.rmaIov.length) 8 8 a) 16 4 b) 20 4 c)) := by
  have members := @sameOutside_longRtwMembers (store wire 4 4 txe.rmaIov.length)
    (le_length_store_of_le (setup.fitsIn base)) a b c
  refine setup.common (Nat.le_trans (length_le_writeAt _ _ _) members.1) fun _ => ?_
  rw [at4, members.load (Or.inl (by decide)),
    load_store_of_lt (setup.fitsIn (by omega)) (lt_of_le_efaRdmIovLimit setup.rmaLimit)]

theorem le_length_longRtwHdr (setup : ReqSetup ep txe t wire) (base : 24 ≤ t.baseHdrSize) (a b c pktType : Nat) :
    ep.mtuSize ≤ (efaRdmPkeInitReqHdrCommon ep txe pktType
      (store (store (store (store wire 4 4 txe.rmaIov.length) 8 8 a) 16 4 b) 20 4 c)).length :=
  setup.commonLong (Nat.le_trans (length_le_writeAt _ _ _)
    (@sameOutside_longRtwMembers (store wire 4 4 txe.rmaIov.length) (le_length_store_of_le (setup.fitsIn base))
      a b c).1) pktType

theorem efaRdmPkeInitLongctsRtw_spec (setup : ReqSetup ep txe longctsRtw wire)
    (built : efaRdmPkeInitLongctsRtw ep txe wire = some pke) : ReqBuilt ep txe longctsRtw pke :=
  efaRdmPkeInitRtwCommon_spec (longRtwHdr_spec setup (by decide) (by decide) _ _ _)
    (le_length_longRtwHdr setup (by decide) _ _ _ _) setup.hdrFits (by decide) (by decide) built

theorem efaRdmPkeInitDcLongctsRtw_spec (setup : ReqSetup ep txe dcLongctsRtw wire)
    (built : efaRdmPkeInitDcLongctsRtw ep txe wire = some pke) : ReqBuilt ep txe dcLongctsRtw pke :=
  efaRdmPkeInitRtwCommon_spec (longRtwHdr_spec setup (by decide) (by decide) _ _ _)
    (le_length_longRtwHdr setup (by decide) _ _ _ _) setup.hdrFits (by decide) (by decide) built

theorem efaRdmPkeInitLongreadRtw_spec (setup : ReqSetup ep txe longreadRtw wire)
    (built : efaRdmPkeInitLongreadRtw ep txe wire = some pke) : ReqBuilt ep txe longreadRtw pke := by
  have iovs := (longRtwHdr_spec setup (by decide) (by decide) txe.totalLen txe.txId txe.iov.length).rmaIovs
    (by decide)
  have long := @le_length_storeRmaIovs _ _ longreadRtw.baseHdrSize txe.rmaIov
    (le_length_longRtwHdr setup (by decide) txe.totalLen txe.txId txe.iov.length longreadRtw.id)
  unfold efaRdmPkeInitLongreadRtw at built
  dsimp only at built
  generalize storeRmaIovs _ longreadRtw.baseHdrSize txe.rmaIov = w at iovs long built
  rw [iovs.hdrSize] at built
  exact iovs.withReadEntries long (by decide) setup.room built

theorem efaRdmPkeInitRtrCommon_spec (setup : ReqSetup ep txe t wire)
    (contains : efaRdmPktTypeContainsRmaIov t.id = true) (notRunt : efaRdmPktTypeIsRuntread t.id = false)
    (at4 : t.rmaIovCountOffset = 4) (base : t.baseHdrSize = 24) (window : Nat) :
    ReqBuilt ep txe t (efaRdmPkeInitRtrCommon ep txe t window wire) := by
  have hdr := countHdr_spec setup at4 (by omega)
  have fixed : ReqHdrOn ep txe t (store (store (store (efaRdmPkeInitReqHdrCommon ep txe t.id
      (store wire 4 4 txe.rmaIov.length)) 8 8 txe.totalLen) 16 4 txe.txId) 20 4 window) :=
    ((hdr.storeFixed (by decide) (by omega) fun _ => Or.inl (by omega)).storeFixed (by decide) (by omega)
      fun _ => Or.inl (by omega)).storeFixed (by decide) (by omega) fun _ => Or.inl (by omega)
  have iovs := fixed.rmaIovs contains
  unfold efaRdmPkeInitRtrCommon
  dsimp only
  rw [show shortRtr.baseHdrSize = t.baseHdrSize from base.symm]
  generalize storeRmaIovs _ t.baseHdrSize txe.rmaIov = w at iovs ⊢
  exact ⟨iovs, fun r => by simp [notRunt] at r, fun _ empty => (by cases empty), by rw [iovs.hdrSize],
    by rw [iovs.hdrSize]; exact setup.hdrFits⟩

theorem otherFlags_atomic : OtherFlags efaRdmReqAtomic := otherFlags_two_pow (by decide) (by decide) (by decide)

theorem sameOutside_rtaMembers (fits : 20 ≤ wire.length) (a b : Nat) :
    SameOutside 12 20 wire (store (store wire 12 4 a) 16 4 b) := by
  have s₁ : SameOutside 12 16 wire (store wire 12 4 a) := sameOutside_store (by omega)
  have s₂ : SameOutside 16 20 (store wire 12 4 a) (store (store wire 12 4 a) 16 4 b) :=
    sameOutside_store (by have := s₁.1; omega)
  exact (s₁.mono le_rfl (by decide)).trans (s₂.mono (by decide) le_rfl)

/-- `efa_rdm_pke_init_rta_common`: `msg_id`, the count and the operation
ahead of the common header, `EFA_RDM_REQ_ATOMIC`, the `rma_iov` entries, then
as much of the operands as the packet holds. The entry keeps its `mtu_size`
bytes, which the compare writer appends to. -/
theorem efaRdmPkeInitRtaCommon_spec (setup : ReqSetup ep txe t wire)
    (contains : efaRdmPktTypeContainsRmaIov t.id = true) (notRunt : efaRdmPktTypeIsRuntread t.id = false)
    (at8 : t.rmaIovCountOffset = 8) (base : t.baseHdrSize = 24) :
    ReqBuilt ep txe t (efaRdmPkeInitRtaCommon ep txe t wire) ∧
      ep.mtuSize ≤ (efaRdmPkeInitRtaCommon ep txe t wire).wire.length := by
  have counted : 20 ≤ (store (store wire 4 4 txe.msgId) 8 4 txe.rmaIov.length).length :=
    le_length_store_of_le (le_length_store_of_le (setup.fitsIn (by omega)))
  have members := @sameOutside_rtaMembers (store (store wire 4 4 txe.msgId) 8 4 txe.rmaIov.length) counted
    txe.atomicDatatype txe.atomicOp
  have long : wire.length ≤ (store (store (store (store wire 4 4 txe.msgId) 8 4 txe.rmaIov.length) 12 4
      txe.atomicDatatype) 16 4 txe.atomicOp).length :=
    Nat.le_trans (le_length_store_of_le (length_le_writeAt _ _ _)) members.1
  have hdr := setup.common long fun _ => by
    rw [at8, members.load (Or.inl (by decide)),
      load_store_of_lt (le_length_store_of_le (setup.fitsIn (by omega))) (lt_of_le_efaRdmIovLimit setup.rmaLimit)]
  have iovs := (hdr.orFlags otherFlags_atomic).rmaIovs contains
  have iovsLong := @le_length_storeRmaIovs _ _ t.baseHdrSize txe.rmaIov
    (@le_length_orFlags _ efaRdmReqAtomic _ (setup.commonLong long t.id))
  unfold efaRdmPkeInitRtaCommon
  dsimp only
  rw [show writeRta.baseHdrSize = t.baseHdrSize from base.symm]
  generalize storeRmaIovs _ t.baseHdrSize txe.rmaIov = w at iovs iovsLong ⊢
  rw [iovs.hdrSize]
  -- the operands: as many bytes as the MTU leaves behind the header
  have fits := add_le_of_le_sizeSub setup.hdrFits (List.length_take_le (sizeSub ep.mtuSize (hdrEnd txe t)) txe.data)
  have same : SameOutside (hdrEnd txe t) (hdrEnd txe t + (txe.data.take (sizeSub ep.mtuSize (hdrEnd txe t))).length)
      w (Buffer.writeAt w (hdrEnd txe t) (txe.data.take (sizeSub ep.mtuSize (hdrEnd txe t)))) :=
    sameOutside_writeAt (by omega)
  refine ⟨⟨iovs.behind same le_rfl, fun r => by simp [notRunt] at r, fun off given => ?_, Nat.le_add_right _ _, fits⟩,
    Nat.le_trans iovsLong same.1⟩
  cases given
  exact (reqDataOffset_of_notRunt notRunt).symm

theorem ReqBuilt.rtaId (b : ReqBuilt ep txe t pke) (notRunt : efaRdmPktTypeIsRuntread t.id = false)
    (at8 : t.rmaIovCountOffset = 8) (base : t.baseHdrSize = 24) :
    ReqBuilt ep txe t (pke.mapWire fun wire => store wire 20 4 txe.txId) :=
  b.mapWire (fun h => h.storeFixed (by decide) (by omega) fun _ => Or.inl (by omega))
    fun r => by simp [notRunt] at r

theorem efaRdmPkeInitDcWriteRta_spec (setup : ReqSetup ep txe dcWriteRta wire) :
    ReqBuilt ep txe dcWriteRta (efaRdmPkeInitDcWriteRta ep txe wire) :=
  (efaRdmPkeInitRtaCommon_spec setup (by decide) (by decide) (by decide) (by decide)).1.rtaId (by decide)
    (by decide) (by decide)

theorem efaRdmPkeInitFetchRta_spec (setup : ReqSetup ep txe fetchRta wire) :
    ReqBuilt ep txe fetchRta (efaRdmPkeInitFetchRta ep txe wire) :=
  (efaRdmPkeInitRtaCommon_spec setup (by decide) (by decide) (by decide) (by decide)).1.rtaId (by decide)
    (by decide) (by decide)

theorem efaRdmPkeInitCompareRta_spec (setup : ReqSetup ep txe compareRta wire) :
    ReqBuilt ep txe compareRta (efaRdmPkeInitCompareRta ep txe wire) := by
  obtain ⟨b, long⟩ := efaRdmPkeInitRtaCommon_spec setup (by decide) (by decide) (by decide) (by decide)
  have withId := b.rtaId (by decide) (by decide) (by decide)
  unfold efaRdmPkeInitCompareRta
  dsimp only
  generalize efaRdmPkeInitRtaCommon ep txe compareRta wire = common at b long withId ⊢
  have fits := add_le_of_le_sizeSub b.fits
    (List.length_take_le (sizeSub ep.mtuSize common.pktSize) txe.compareData)
  have idLong : ep.mtuSize ≤ (store common.wire 20 4 txe.txId).length := le_length_store_of_le long
  have same : SameOutside common.pktSize
      (common.pktSize + (txe.compareData.take (sizeSub ep.mtuSize common.pktSize)).length)
      (store common.wire 20 4 txe.txId)
      (Buffer.writeAt (store common.wire 20 4 txe.txId) common.pktSize
        (txe.compareData.take (sizeSub ep.mtuSize common.pktSize))) :=
    sameOutside_writeAt (by omega)
  exact ⟨withId.hdr.behind same b.covers, fun r => absurd r (by decide), b.payload,
    Nat.le_trans b.covers (Nat.le_add_right _ _), fits⟩

end Rma

/-! Every REQ packet the sender builds. -/

/-- `efa_rdm_pke_fill_data` builds a packet of the type it is asked for, for
every REQ type it has a writer for: with a data size within the sender's
capacity, and with a header, which the zero-header eager message of a peer
that receives into its user QP does not have. -/
theorem efaRdmPkeFillData_built (setup : ReqSetup ep txe t wire)
    (header : t = eagerMsgrtm → efaRdmPeerExpectsZeroHdrDataTransfer txe.peer = false)
    {dataOffset dataSize : Nat} (data : dataSize ≤ sizeSub ep.mtuSize (reqDataOffset txe t))
    (built : efaRdmPkeFillData ep txe t dataOffset dataSize wire = some pke) : ReqBuilt ep txe t pke := by
  cases t with
  | eagerMsgrtm =>
    simp only [efaRdmPkeFillData, header rfl] at built
    exact efaRdmPkeInitEagerMsgrtm_spec setup built
  | eagerTagrtm => exact efaRdmPkeInitEagerTagrtm_spec setup built
  | mediumMsgrtm => exact efaRdmPkeInitMediumMsgrtm_spec setup (le_sizeSub_hdrEnd (by decide) data) built
  | mediumTagrtm => exact efaRdmPkeInitMediumTagrtm_spec setup (le_sizeSub_hdrEnd (by decide) data) built
  | longctsMsgrtm => exact efaRdmPkeInitLongctsRtmCommon_spec setup (by decide) (by decide) (by decide) built
  | longctsTagrtm => exact efaRdmPkeInitLongctsTagrtm_spec setup built
  | eagerRtw => exact efaRdmPkeInitEagerRtw_spec setup built
  | longctsRtw => exact efaRdmPkeInitLongctsRtw_spec setup built
  | shortRtr =>
    cases built
    exact efaRdmPkeInitRtrCommon_spec setup (by decide) (by decide) (by decide) (by decide) _
  | longctsRtr =>
    cases built
    exact efaRdmPkeInitRtrCommon_spec setup (by decide) (by decide) (by decide) (by decide) _
  | writeRta =>
    cases built
    exact (efaRdmPkeInitRtaCommon_spec setup (by decide) (by decide) (by decide) (by decide)).1
  | fetchRta =>
    cases built
    exact efaRdmPkeInitFetchRta_spec setup
  | compareRta =>
    cases built
    exact efaRdmPkeInitCompareRta_spec setup
  | longreadMsgrtm => exact efaRdmPkeInitLongreadRtm_spec setup (by decide) (by decide) (by decide) built
  | longreadTagrtm =>
    exact ReqBuilt.of_mapHdr (by decide)
      (fun _ inner => efaRdmPkeInitLongreadRtm_spec setup (by decide) (by decide) (by decide) inner) built
      fun _ h => h.withTag (by decide) (by decide)
  | longreadRtw => exact efaRdmPkeInitLongreadRtw_spec setup built
  | dcEagerMsgrtm => exact efaRdmPkeInitDcEagerMsgrtm_spec setup built
  | dcEagerTagrtm => exact efaRdmPkeInitDcEagerTagrtm_spec setup built
  | dcMediumMsgrtm => exact efaRdmPkeInitDcMediumMsgrtm_spec setup (le_sizeSub_hdrEnd (by decide) data) built
  | dcMediumTagrtm => exact efaRdmPkeInitDcMediumTagrtm_spec setup (le_sizeSub_hdrEnd (by decide) data) built
  | dcLongctsMsgrtm => exact efaRdmPkeInitLongctsRtmCommon_spec setup (by decide) (by decide) (by decide) built
  | dcLongctsTagrtm => exact efaRdmPkeInitDcLongctsTagrtm_spec setup built
  | dcEagerRtw => exact efaRdmPkeInitDcEagerRtw_spec setup built
  | dcLongctsRtw => exact efaRdmPkeInitDcLongctsRtw_spec setup built
  | dcWriteRta =>
    cases built
    exact efaRdmPkeInitDcWriteRta_spec setup
  | runtreadMsgrtm => exact efaRdmPkeInitRuntreadRtm_spec setup (by decide) (by decide) (by decide) data built
  | runtreadTagrtm => exact efaRdmPkeInitRuntreadTagrtm_spec setup data built
  -- the types no writer builds: `-FI_EINVAL`
  | readRtr | runtctsMsgrtm | runtctsTagrtm | runtctsRtw | runtreadRtw => cases built

/-- What the receiver reads back from a REQ packet `pke` of type `t`: the
payload where the writer put it, at the offset the sender's capacity was
computed from (`efa_rdm_pkt_type_get_req_hdr_size`, and the read entries of a
runting read), a packet within the MTU, and the CQ data, connection id and
raw address the sender wrote. -/
structure ReqDecoded (ep : ReqEp) (txe : ReqTxe) (t : ReqPktType) (pke : ReqPke) : Prop where
  payload : ∀ off, pke.payloadAt = some off → efaRdmPkeGetPayloadOffset false pke.wire = off
  offset : efaRdmPkeGetPayloadOffset false pke.wire =
    efaRdmPktTypeGetReqHdrSize t.id (reqFlags txe) txe.rmaIov.length +
      if efaRdmPktTypeIsRuntread t.id then txe.iov.length * sizeofFiRmaIov else 0
  capacity : efaRdmTxeMaxReqDataCapacity ep txe t.id = sizeSub ep.mtuSize (efaRdmPkeGetPayloadOffset false pke.wire)
  fits : pke.pktSize ≤ ep.mtuSize
  cqData : txe.remoteCqData = true → efaRdmPkeGetReqCqData pke.wire = txe.cqData.toNat
  connid : (efaRdmPkeGetReqConnidPtr pke.wire).map (load pke.wire · 4) =
    if hasRaw txe || hasConnid txe then some ep.srcAddr.qkey.toNat else none
  rawAddr : (efaRdmPkeGetReqRawAddr pke.wire).map (fun p => (pke.wire.drop p).take efaEpAddrLen) =
    if hasRaw txe then some ep.srcAddr.bytes else none

theorem ReqBuilt.payloadOffset (b : ReqBuilt ep txe t pke) :
    efaRdmPkeGetPayloadOffset false pke.wire = reqDataOffset txe t := by
  rw [b.hdr.payloadOffset, reqDataOffset]
  split
  · rename_i runt
    rw [b.runt runt]
  · rfl

theorem ReqBuilt.decoded (b : ReqBuilt ep txe t pke) : ReqDecoded ep txe t pke where
  payload off given := by rw [b.payloadOffset, b.payload off given]
  offset := by rw [b.payloadOffset, reqDataOffset, efaRdmPktTypeGetReqHdrSize_reqFlags]
  capacity := by rw [b.payloadOffset, efaRdmTxeMaxReqDataCapacity_eq]
  fits := b.fits
  cqData := b.hdr.cqDataGet
  connid := b.hdr.connidGet
  rawAddr := b.hdr.rawAddrGet

theorem efaRdmPkeFillData_decoded (setup : ReqSetup ep txe t wire)
    (header : t = eagerMsgrtm → efaRdmPeerExpectsZeroHdrDataTransfer txe.peer = false)
    {dataOffset dataSize : Nat} (data : dataSize ≤ efaRdmTxeMaxReqDataCapacity ep txe t.id)
    (built : efaRdmPkeFillData ep txe t dataOffset dataSize wire = some pke) : ReqDecoded ep txe t pke := by
  rw [efaRdmTxeMaxReqDataCapacity_eq] at data
  exact (efaRdmPkeFillData_built setup header data built).decoded

/-- A sender whose peer has not handshaken yet, on 128-byte packets: every
header carries the raw address. -/
def rawAddrEp : ReqEp := ⟨128, ⟨List.replicate 16 1, 0, 0, 7, 0, rfl⟩, false, 0⟩

/-- Sixteen bytes with remote CQ data. -/
def cqDataTxe : ReqTxe :=
  { peer := ⟨false, false, false⟩, remoteCqData := true, cqData := 5, readNack := false, msgId := 1, txId := 2,
    tag := 0, totalLen := 16, bytesRunt := 0, window := 0, atomicDatatype := 0, atomicOp := 0, rmaIov := [],
    iov := [], cuda := false, data := List.replicate 16 1, compareData := [] }

theorem efaRdmPkeFillData_decoded_medium :
    ReqSetup rawAddrEp cqDataTxe mediumMsgrtm (List.replicate 128 0) ∧
      ReqDecoded rawAddrEp cqDataTxe mediumMsgrtm
        ((efaRdmPkeFillData rawAddrEp cqDataTxe mediumMsgrtm 0 16 (List.replicate 128 0)).getD ⟨[], 0, none⟩) :=
  have setup : ReqSetup rawAddrEp cqDataTxe mediumMsgrtm (List.replicate 128 0) :=
    ⟨by simp [rawAddrEp], by decide, by decide, by decide⟩
  have built : efaRdmPkeFillData rawAddrEp cqDataTxe mediumMsgrtm 0 16 (List.replicate 128 0) =
      some ((efaRdmPkeFillData rawAddrEp cqDataTxe mediumMsgrtm 0 16 (List.replicate 128 0)).getD ⟨[], 0, none⟩) :=
    rfl
  ⟨setup, efaRdmPkeFillData_decoded setup (fun e => by cases e) (by decide) built⟩

end Libfabric.EfaRdm
