import Libfabric.Errno
import Libfabric.Ofi
import Libfabric.Lib.Fields

/-! The op headers of a received rxd packet (`rxd_proto.h`, `rxd_cq.c`).
Behind the 16-byte base header come a tag header, a CQ-data header, a SAR
header unless the packet is `RXD_INLINE`, the `iov_count` RMA entries of an
RMA or atomic, and an atomic header. `rxd_unpack_hdrs` walks them from the
flags and the type, and only then compares the walk's end with the packet's
size. Offsets count from the base header, whose 16 bytes are read first; the
entry pools are taken to have room. -/
namespace Libfabric

/-! `ofi_mr_verify` (`util_mr_map.c`) and the access it is asked for. -/

def fiRecv : Nat := 2 ^ 10
def fiRemoteRead : Nat := 2 ^ 12
def fiRemoteWrite : Nat := 2 ^ 13
/-- `FI_ATOMIC_READ` of `enum fi_op`. -/
def fiAtomicRead : Nat := 10

/-- `ofi_rx_mr_flags`, by op; the ops it leaves out have `0`. -/
def ofiRxMrFlags : Nat → Nat
  | 0 | 1 => fiRecv
  | 2 => fiRemoteRead
  | 4 | 6 => fiRemoteWrite
  | 7 | 8 => fiRemoteWrite ||| fiRemoteRead
  | _ => 0

def ofiRxMrRegFlags (op atomicOp : Nat) : Nat :=
  if atomicOp = fiAtomicRead then fiRemoteRead else ofiRxMrFlags op

/-- What `ofi_mr_map_verify` reads of a registration (`struct fi_mr_attr`):
its `access`, its `offset`, and `mr_iov[0]`. -/
structure FiMrAttr where
  access : Nat
  offset : Nat
  iovBase : Nat
  iovLen : Nat
  deriving DecidableEq, Repr

/-- `ofi_mr_map_verify` without a `context` to fill: the registration of `key`
must grant every bit of `access`, and the `len` bytes from `*io_addr +
offset` must lie in its `mr_iov[0]`. The address stored back to `*io_addr`,
or the error. -/
def ofiMrMapVerify (map : Nat → Option FiMrAttr) (ioAddr len key access : Nat) : Except Int Nat :=
  match map key with
  | none => .error (-fiEinval)
  | some attr =>
    if access &&& attr.access ≠ access then .error (-fiEacces)
    else
      let addr := (ioAddr + attr.offset) % 2 ^ 64
      if addr < attr.iovBase ∨ (attr.iovBase + attr.iovLen) % 2 ^ 64 < (addr + len) % 2 ^ 64 then .error (-fiEacces)
      else .ok addr

def ofiMrVerify (map : Nat → Option FiMrAttr) (len addr key access : Nat) : Except Int Nat :=
  ofiMrMapVerify map addr len key access

namespace Rxd

open Fields

/-! Wire constants. -/

def rxdMsg : Nat := 0
def rxdTagged : Nat := 1
def rxdReadReq : Nat := 2
def rxdWrite : Nat := 4
def rxdAtomic : Nat := 6
def rxdAtomicFetch : Nat := 7
def rxdAtomicCompare : Nat := 8

def rxdRemoteCqData : Nat := 2 ^ 0
def rxdTagHdr : Nat := 2 ^ 4
def rxdInline : Nat := 2 ^ 5

def rxdIovLimit : Nat := 4

def sizeofRxdBaseHdr : Nat := 16
def sizeofRxdTagHdr : Nat := 8
def sizeofRxdDataHdr : Nat := 8
/-- `sizeof(struct rxd_sar_hdr)`: `size`, `num_segs`, `tx_id`, `iov_count` at 20, and padding. -/
def sizeofRxdSarHdr : Nat := 24
def sizeofOfiRmaIov : Nat := 24
def sizeofRxdAtomHdr : Nat := 8

/-! `rxd_unpack_hdrs`. -/

/-- The headers `rxd_unpack_hdrs` found, as offsets, `none` for `NULL`, and
the message behind them. -/
structure RxdHdrs where
  tagHdr : Option Nat
  dataHdr : Option Nat
  sarHdr : Option Nat
  rmaHdr : Option Nat
  atomHdr : Option Nat
  msg : Nat
  msgSize : Nat
  deriving DecidableEq, Repr

/-- What `rxd_unpack_hdrs` leaves: the fields it read behind the base
header, as offset and width in order, and its headers or `-FI_EINVAL`. -/
structure Unpacked where
  reads : List (Nat × Nat)
  result : Except Int RxdHdrs
  deriving Repr

/-- A header the flags or the type may leave out: at `ptr` when present, with
`ptr` then stepping over its `size` bytes, and `NULL` otherwise. -/
def optHdr (present : Bool) (ptr size : Nat) : Option Nat × Nat :=
  if present then (some ptr, ptr + size) else (none, ptr)

/-- `rxd_unpack_hdrs` of a packet of `pktSize` bytes: the headers in their
order, the SAR header's `iov_count` sizing the RMA header, and then the check
that the walk ended inside the packet. -/
def rxdUnpackHdrs (pktSize : Nat) (pkt : Bytes) : Unpacked :=
  let flags := load pkt 2 2
  let type := load pkt 1 1
  let (tagHdr, ptr) := optHdr (flagSet flags rxdTagHdr) sizeofRxdBaseHdr sizeofRxdTagHdr
  let (dataHdr, ptr) := optHdr (flagSet flags rxdRemoteCqData) ptr sizeofRxdDataHdr
  -- the SAR header, its `iov_count` read as the count of RMA entries
  let sar : Option (Option Nat × Nat × Nat × List (Nat × Nat)) :=
    if !flagSet flags rxdInline then
      some (some ptr, load pkt (ptr + 20) 1, ptr + sizeofRxdSarHdr, [(ptr + 20, 1)])
    else if type = rxdReadReq ∨ type = rxdAtomicFetch then none
    else some (none, 1, ptr, [])
  match sar with
  | none => ⟨[], .error (-fiEinval)⟩
  | some (sarHdr, rmaCount, ptr, reads) =>
    let isRma := decide (rxdReadReq ≤ type ∧ type ≤ rxdAtomicCompare)
    let (rmaHdr, ptr) := optHdr isRma ptr (sizeofOfiRmaIov * rmaCount)
    let (atomHdr, ptr) := optHdr (isRma && decide (rxdAtomic ≤ type)) ptr sizeofRxdAtomHdr
    if pktSize < ptr then ⟨reads, .error (-fiEinval)⟩
    else ⟨reads, .ok ⟨tagHdr, dataHdr, sarHdr, rmaHdr, atomHdr, ptr, pktSize - ptr⟩⟩

/-! `rxd_verify_iov` and `rxd_unpack_init_rx`. -/

/-- `rxd_verify_iov` for a packet of type `type`: entry `i` of the RMA header
at `rmaAt` is checked by `ofi_mr_verify` and goes to `iov[i]`, and a rejected
entry then stops the loop with `-FI_EACCES`. Its stores to `iov`, as index,
address and length in order, and its result. -/
def rxdVerifyIov (map : Nat → Option FiMrAttr) (pkt : Bytes) (rmaAt count type : Nat) :
    List (Nat × Nat × Nat) × Int :=
  go 0 count []
where
  go (i : Nat) : Nat → List (Nat × Nat × Nat) → List (Nat × Nat × Nat) × Int
    | 0, iov => (iov, 0)
    | left + 1, iov =>
      let entryAt := rmaAt + sizeofOfiRmaIov * i
      let addr := load pkt entryAt 8
      let len := load pkt (entryAt + 8) 8
      match ofiMrVerify map len addr (load pkt (entryAt + 16) 8) (ofiRxMrRegFlags type 0) with
      | .error _ => (iov ++ [(i, addr, len)], -fiEacces)
      | .ok addr => go (i + 1) left (iov ++ [(i, addr, len)])

inductive RxdRx where
  /-- `rxd_unpack_hdrs` failed. -/
  | rejected (err : Int)
  /-- a message, for `rxd_match_rx` -/
  | matched (hdrs : RxdHdrs)
  /-- a header the path reads through is `NULL` -/
  | nullHdr
  /-- the RMA entries went through `rxd_verify_iov`: its stores to the `iovec`
  array of `RXD_IOV_LIMIT` entries, and its result -/
  | verified (iov : List (Nat × Nat × Nat)) (ret : Int)
  deriving DecidableEq, Repr

/-- `rxd_unpack_init_rx`: a read request (`rxd_rma_read_entry_init`) and a
fetching atomic (`rxd_rx_atomic_fetch`) take the count of entries from the
SAR header; every other type (`rxd_rma_rx_entry_init`) from the SAR header
when there is one, else one entry. -/
def rxdUnpackInitRx (map : Nat → Option FiMrAttr) (pktSize : Nat) (pkt : Bytes) : RxdRx :=
  match (rxdUnpackHdrs pktSize pkt).result with
  | .error err => .rejected err
  | .ok hdrs =>
    let type := load pkt 1 1
    let withEntries (count : Nat) : RxdRx :=
      match hdrs.rmaHdr with
      | none => if count = 0 then .verified [] 0 else .nullHdr
      | some rmaAt =>
        let (iov, ret) := rxdVerifyIov map pkt rmaAt count type
        .verified iov ret
    if type = rxdMsg ∨ type = rxdTagged then .matched hdrs
    else if type = rxdReadReq ∨ type = rxdAtomicFetch ∨ type = rxdAtomicCompare then
      match hdrs.sarHdr with
      | none => .nullHdr
      | some sarAt => withEntries (load pkt (sarAt + 20) 1)
    else withEntries ((hdrs.sarHdr.map fun sarAt => load pkt (sarAt + 20) 1).getD 1)

/-! ## What an accepted packet's headers are -/

/-- Where the SAR header of a packet with these flags starts: behind the base
header and the tag and CQ-data headers the flags announce. -/
def rxdSarAt (flags : Nat) : Nat :=
  sizeofRxdBaseHdr + (if flagSet flags rxdTagHdr then sizeofRxdTagHdr else 0) +
    if flagSet flags rxdRemoteCqData then sizeofRxdDataHdr else 0

/-- The headers lie in the packet one after the other, behind the base
header and ahead of the message, and the message is the rest of the packet. -/
structure HdrsWithin (pktSize : Nat) (hdrs : RxdHdrs) : Prop where
  tag : ∀ off, hdrs.tagHdr = some off → sizeofRxdBaseHdr ≤ off ∧ off + sizeofRxdTagHdr ≤ hdrs.msg
  data : ∀ off, hdrs.dataHdr = some off → sizeofRxdBaseHdr ≤ off ∧ off + sizeofRxdDataHdr ≤ hdrs.msg
  sar : ∀ off, hdrs.sarHdr = some off → sizeofRxdBaseHdr ≤ off ∧ off + sizeofRxdSarHdr ≤ hdrs.msg
  rma : ∀ off, hdrs.rmaHdr = some off → sizeofRxdBaseHdr ≤ off ∧ off ≤ hdrs.msg
  atom : ∀ off, hdrs.atomHdr = some off → sizeofRxdBaseHdr ≤ off ∧ off + sizeofRxdAtomHdr ≤ hdrs.msg
  msg : hdrs.msg ≤ pktSize
  msgSize : hdrs.msgSize = pktSize - hdrs.msg

theorem le_optHdr (present : Bool) (ptr size : Nat) : ptr ≤ (optHdr present ptr size).2 := by
  unfold optHdr
  split <;> simp

theorem optHdr_snd (present : Bool) (ptr size : Nat) :
    (optHdr present ptr size).2 = ptr + if present then size else 0 := by
  unfold optHdr
  split <;> simp

theorem optHdr_at {present : Bool} {ptr size off : Nat} (h : (optHdr present ptr size).1 = some off) :
    off = ptr ∧ off + size = (optHdr present ptr size).2 := by
  unfold optHdr at h ⊢
  split at h <;> simp_all

section Unpack

variable {pktSize : Nat} {pkt : Bytes} {hdrs : RxdHdrs}

theorem rxdUnpackHdrs_ok (accepted : (rxdUnpackHdrs pktSize pkt).result = .ok hdrs) : HdrsWithin pktSize hdrs := by
  unfold rxdUnpackHdrs at accepted
  dsimp only at accepted
  generalize load pkt 1 1 = type at accepted
  generalize load pkt 2 2 = flags at accepted
  -- the tag and CQ-data headers
  have tagLe := le_optHdr (flagSet flags rxdTagHdr) sizeofRxdBaseHdr sizeofRxdTagHdr
  have tagAt := @optHdr_at (flagSet flags rxdTagHdr) sizeofRxdBaseHdr sizeofRxdTagHdr
  generalize optHdr (flagSet flags rxdTagHdr) sizeofRxdBaseHdr sizeofRxdTagHdr = tag at accepted tagLe tagAt
  obtain ⟨tagHdr, p₀⟩ := tag
  dsimp only at accepted tagLe tagAt
  have dataLe := le_optHdr (flagSet flags rxdRemoteCqData) p₀ sizeofRxdDataHdr
  have dataAt := @optHdr_at (flagSet flags rxdRemoteCqData) p₀ sizeofRxdDataHdr
  generalize optHdr (flagSet flags rxdRemoteCqData) p₀ sizeofRxdDataHdr = data at accepted dataLe dataAt
  obtain ⟨dataHdr, p₁⟩ := data
  dsimp only at accepted dataLe dataAt
  -- the SAR header, or `-FI_EINVAL` for an inline read request or fetch
  split at accepted
  · cases accepted
  rename_i sarHdr rmaCount p₂ reads sarEq
  have sarAt : p₁ ≤ p₂ ∧ ∀ off, sarHdr = some off → off = p₁ ∧ off + sizeofRxdSarHdr = p₂ := by
    split at sarEq
    · cases sarEq
      exact ⟨Nat.le_add_right _ _, fun off h => by cases h; exact ⟨rfl, rfl⟩⟩
    · split at sarEq
      · cases sarEq
      · cases sarEq
        exact ⟨le_rfl, fun off h => by cases h⟩
  -- the RMA entries and the atomic header
  generalize decide (rxdReadReq ≤ type ∧ type ≤ rxdAtomicCompare) = isRma at accepted
  have rmaLe := le_optHdr isRma p₂ (sizeofOfiRmaIov * rmaCount)
  have rmaAt := @optHdr_at isRma p₂ (sizeofOfiRmaIov * rmaCount)
  generalize optHdr isRma p₂ (sizeofOfiRmaIov * rmaCount) = rma at accepted rmaLe rmaAt
  obtain ⟨rmaHdr, p₃⟩ := rma
  dsimp only at accepted rmaLe rmaAt
  have atomAt := @optHdr_at (isRma && decide (rxdAtomic ≤ type)) p₃ sizeofRxdAtomHdr
  have atomLe := le_optHdr (isRma && decide (rxdAtomic ≤ type)) p₃ sizeofRxdAtomHdr
  generalize optHdr (isRma && decide (rxdAtomic ≤ type)) p₃ sizeofRxdAtomHdr = atom at accepted atomLe atomAt
  obtain ⟨atomHdr, p₄⟩ := atom
  dsimp only at accepted atomLe atomAt
  -- the size check
  split at accepted
  · cases accepted
  rename_i fits
  cases accepted
  have base : sizeofRxdBaseHdr ≤ p₀ := tagLe
  refine ⟨fun off h => ?_, fun off h => ?_, fun off h => ?_, fun off h => ?_, fun off h => ?_, ?_, rfl⟩
  · have := tagAt h
    dsimp only
    omega
  · have := dataAt h
    dsimp only
    omega
  · have := sarAt.2 off h
    dsimp only
    omega
  · have := rmaAt h
    dsimp only
    omega
  · have := atomAt h
    dsimp only
    omega
  · dsimp only
    omega


/-- Without `RXD_INLINE` the one field read behind the base header is the SAR
header's `iov_count`, and it is read before the walk is compared with the
packet's size. -/
theorem rxdUnpackHdrs_reads (sar : flagSet (load pkt 2 2) rxdInline = false) :
    (rxdUnpackHdrs pktSize pkt).reads = [(rxdSarAt (load pkt 2 2) + 20, 1)] := by
  unfold rxdUnpackHdrs
  dsimp only
  rw [sar]
  simp only [Bool.not_false, if_true, optHdr_snd, apply_ite Unpacked.reads, ite_self, rxdSarAt]

theorem rxdUnpackHdrs_reads_past_end (sar : flagSet (load pkt 2 2) rxdInline = false)
    (short : pktSize ≤ sizeofRxdBaseHdr + 20) : ∃ read ∈ (rxdUnpackHdrs pktSize pkt).reads, pktSize ≤ read.1 := by
  rw [rxdUnpackHdrs_reads sar]
  refine ⟨_, List.mem_singleton_self _, ?_⟩
  have : sizeofRxdBaseHdr ≤ rxdSarAt (load pkt 2 2) := by unfold rxdSarAt; omega
  dsimp only
  omega

end Unpack

/-! ## The RMA entries -/

/-- Entry `i` of the RMA header at `rmaAt` of a packet of type `type` passes
`ofi_mr_verify`. -/
def rmaEntryPasses (map : Nat → Option FiMrAttr) (pkt : Bytes) (rmaAt type i : Nat) : Bool :=
  let entryAt := rmaAt + sizeofOfiRmaIov * i
  match ofiMrVerify map (load pkt (entryAt + 8) 8) (load pkt entryAt 8) (load pkt (entryAt + 16) 8)
      (ofiRxMrRegFlags type 0) with
  | .ok _ => true
  | .error _ => false

section Verify

variable {map : Nat → Option FiMrAttr} {pkt : Bytes} {rmaAt type : Nat}

theorem prefix_rxdVerifyIov_go (i left : Nat) (iov : List (Nat × Nat × Nat)) :
    iov <+: (rxdVerifyIov.go map pkt rmaAt type i left iov).1 := by
  induction left generalizing i iov with
  | zero => exact List.prefix_refl iov
  | succ left ih =>
    unfold rxdVerifyIov.go
    dsimp only
    split
    · exact List.prefix_append _ _
    · exact (List.prefix_append _ _).trans (ih _ _)

theorem mem_rxdVerifyIov_go (i left j : Nat) (iov : List (Nat × Nat × Nat)) (start : i ≤ j) (below : j < i + left)
    (passed : ∀ m, i ≤ m → m < j → rmaEntryPasses map pkt rmaAt type m = true) :
    j ∈ (rxdVerifyIov.go map pkt rmaAt type i left iov).1.map Prod.fst := by
  induction left generalizing i iov with
  | zero => omega
  | succ left ih =>
    unfold rxdVerifyIov.go
    dsimp only
    by_cases here : j = i
    · -- the store to `iov[i]` comes before its check
      subst here
      have stored : j ∈ (iov ++ [(j, load pkt (rmaAt + sizeofOfiRmaIov * j) 8,
          load pkt (rmaAt + sizeofOfiRmaIov * j + 8) 8)]).map Prod.fst := by simp
      split
      · exact stored
      · rename_i addr _
        have : j ∈ (iov ++ [(j, addr, load pkt (rmaAt + sizeofOfiRmaIov * j + 8) 8)]).map Prod.fst := by simp
        exact ((prefix_rxdVerifyIov_go _ _ _).map Prod.fst).subset this
    · -- entry `i` passed, so the loop goes on to `i + 1`
      have pass := passed i le_rfl (by omega)
      unfold rmaEntryPasses at pass
      split
      · rename_i rejected
        simp only [rejected, Bool.false_eq_true] at pass
      · exact ih (i + 1) _ (by omega) (by omega) fun m lo hi => passed m (by omega) hi

end Verify

/-- A packet `rxd_unpack_hdrs` accepts, of an RMA or atomic type, with a SAR
header whose `iov_count` is above `RXD_IOV_LIMIT` and whose first
`RXD_IOV_LIMIT` entries pass the key check: `rxd_unpack_init_rx` stores to
`iov[RXD_IOV_LIMIT]`, past the end of the array. -/
theorem rxdUnpackInitRx_stores_past_limit {map : Nat → Option FiMrAttr} {pktSize : Nat} {pkt : Bytes}
    {hdrs : RxdHdrs} {sarAt rmaAt : Nat} (accepted : (rxdUnpackHdrs pktSize pkt).result = .ok hdrs)
    (op : rxdReadReq ≤ load pkt 1 1) (sar : hdrs.sarHdr = some sarAt) (rma : hdrs.rmaHdr = some rmaAt)
    (many : rxdIovLimit < load pkt (sarAt + 20) 1)
    (passed : ∀ i < rxdIovLimit, rmaEntryPasses map pkt rmaAt (load pkt 1 1) i = true) :
    ∃ iov ret, rxdUnpackInitRx map pktSize pkt = .verified iov ret ∧ rxdIovLimit ∈ iov.map Prod.fst := by
  have stores : rxdIovLimit ∈ (rxdVerifyIov map pkt rmaAt (load pkt (sarAt + 20) 1) (load pkt 1 1)).1.map Prod.fst :=
    mem_rxdVerifyIov_go 0 _ _ [] (Nat.zero_le _) (by omega) fun m _ hi => passed m hi
  have notMsg : ¬(load pkt 1 1 = rxdMsg ∨ load pkt 1 1 = rxdTagged) := by
    unfold rxdMsg rxdTagged rxdReadReq at *
    omega
  unfold rxdUnpackInitRx
  rw [accepted]
  dsimp only
  rw [if_neg notMsg, sar, rma]
  split
  · exact ⟨_, _, rfl, stores⟩
  · exact ⟨_, _, rfl, stores⟩

/-- A 160-byte `RXD_WRITE` packet with no flags, a SAR header with
`iov_count = 5`, and five RMA entries. -/
def fiveEntryWrite : Bytes := [0, 4, 0, 0] ++ List.replicate 32 0 ++ [5] ++ List.replicate 123 0

/-- A map in which every key is a remote-writable registration of the
bytes from address `0`, as many as `len`. -/
def writableMap (len : Nat) : Nat → Option FiMrAttr := fun _ => some ⟨fiRemoteWrite, 0, 0, len⟩

/-- With every key passing, the write's fifth entry is stored to `iov[4]`. -/
theorem rxdUnpackInitRx_stores_past_limit_write :
    (rxdUnpackHdrs 160 fiveEntryWrite).result = .ok ⟨none, none, some 16, some 40, none, 160, 0⟩ ∧
      rxdReadReq ≤ load fiveEntryWrite 1 1 ∧ rxdIovLimit < load fiveEntryWrite (16 + 20) 1 ∧
      (∀ i < rxdIovLimit, rmaEntryPasses (writableMap 0) fiveEntryWrite 40 (load fiveEntryWrite 1 1) i = true) ∧
      ∃ iov ret, rxdUnpackInitRx (writableMap 0) 160 fiveEntryWrite = .verified iov ret ∧
        rxdIovLimit ∈ iov.map Prod.fst :=
  have passed : ∀ i < rxdIovLimit, rmaEntryPasses (writableMap 0) fiveEntryWrite 40 (load fiveEntryWrite 1 1) i = true := by
    decide
  ⟨rfl, by decide, by decide, passed,
    rxdUnpackInitRx_stores_past_limit rfl (by decide) rfl rfl (by decide) passed⟩

example : rxdUnpackInitRx (writableMap 0) 160 fiveEntryWrite =
    .verified [(0, 0, 0), (1, 0, 0), (2, 0, 0), (3, 0, 0), (4, 0, 0)] 0 := by decide

example : (rxdUnpackHdrs 16 (List.replicate 16 0)).reads = [(36, 1)] := by decide

end Rxd

end Libfabric
