import Libfabric.Efa.Req
import Libfabric.Errno

/-! The split of a send into packets, `efa_rdm_ope_prepare_to_post_send`
(`efa_rdm_ope.c`). A CTSDATA window goes out in packets of
`max_data_payload_size` bytes, as many as are free; a medium message or a runt
in near-equal packets aligned to the buffer's memory alignment, the remainder
folded into the last one or sent as one more. The size vector is kept with the
list of indices stored to, so that a store past its end shows; a division by
zero, which traps, is `none`. -/
namespace Libfabric.EfaRdm

open ReqPktType

/-! The packet kinds and sizes the split reads. -/

def efaRdmPktTypeIsMedium (pktType : Nat) : Bool :=
  pktType == mediumTagrtm.id || pktType == mediumMsgrtm.id || pktType == dcMediumMsgrtm.id ||
    pktType == dcMediumTagrtm.id

def efaRdmRuntPktBegin : Nat := 142

def efaRdmRuntPktEnd : Nat := 148

def efaRdmPktTypeIsRunt (pktType : Nat) : Bool := efaRdmRuntPktBegin ≤ pktType && pktType < efaRdmRuntPktEnd

def efaRdmEpDefaultMemoryAlignment : Nat := 8

/-- `efa_rdm_ep_get_memory_alignment`; `cuda` for a buffer of the CUDA interface. -/
def efaRdmEpGetMemoryAlignment (ep : ReqEp) (cuda : Bool) : Nat :=
  if ep.sendrecvInOrderAligned128Bytes then efaRdmEpInOrderAlignment
  else if cuda then efaRdmEpCudaMemoryAlignment
  else efaRdmEpDefaultMemoryAlignment

/-- `efa_rdm_ope_mulreq_total_data_size`: the whole message for a medium
packet type, the runt (as `efa_rdm_txe_set_runt_size` left it) otherwise. -/
def efaRdmOpeMulreqTotalDataSize (txe : ReqTxe) (pktType : Nat) : Nat :=
  if efaRdmPktTypeIsMedium pktType then txe.totalLen else txe.bytesRunt

/-! The size vector. -/

/-- `pkt_entry_data_size_vec` as the split sees it: the value at each index,
and the indices stored to, in order. -/
structure SizeVec where
  size : Nat → Nat
  stores : List Nat

def SizeVec.set (vec : SizeVec) (i n : Nat) : SizeVec :=
  ⟨Function.update vec.size i n, vec.stores ++ [i]⟩

def SizeVec.fill (vec : SizeVec) (n : Nat) : Nat → SizeVec
  | 0 => vec
  | cnt + 1 => (vec.fill n cnt).set cnt n

/-- The first `cnt` sizes. -/
def SizeVec.sizes (vec : SizeVec) (cnt : Nat) : List Nat := (List.range cnt).map vec.size

/-- What the split leaves: its return value, `*pkt_entry_cnt` and the size vector. -/
structure Prepared where
  ret : Int
  cnt : Nat
  vec : SizeVec

/-! `efa_rdm_ope_prepare_to_post_send`. -/

/-- The CTSDATA branch: full packets, then what is left of the window, in as
many packets as there are free. -/
def prepareCtsdata (window maxDataPayloadSize available : Nat) (vec : SizeVec) : Option Prepared :=
  if maxDataPayloadSize = 0 then none
  else
    let cnt := min (sizeAdd (sizeSub window 1 / maxDataPayloadSize) 1) available
    let vec := vec.fill maxDataPayloadSize (cnt - 1)
    -- `int remainder`, and `MIN` compares it as a `size_t`
    let remainder := int32Of (sizeSub window ((cnt - 1) * maxDataPayloadSize))
    some ⟨0, cnt, vec.set (cnt - 1) (min (sizeOfInt remainder) maxDataPayloadSize)⟩

/-- The medium and runt branch: `total` bytes in packets that hold at most
`maxDataSize` each, all `alignment`-aligned but the last. The count is
checked against the free packets before the split and again after it, when
the size of the packet the remainder may add has already been stored. -/
def prepareMulreq (total maxDataSize alignment available : Nat) (vec : SizeVec) : Option Prepared :=
  if maxDataSize = 0 then none
  else
    let cnt := sizeAdd (sizeSub total 1 / maxDataSize) 1
    if cnt > available then some ⟨-fiEagain, cnt, vec⟩
    else if cnt = 0 then none
    else
      -- near-equal packets, then each cut to the alignment: `& ~(memory_alignment - 1)`
      let single := sizeAdd (sizeSub total 1 / cnt) 1
      let single := single &&& (sizeMax ^^^ sizeSub alignment 1)
      if single = 0 then none
      else
        let cnt := total / single
        let vec := vec.fill single cnt
        let remainder := total - cnt * single
        if single + remainder ≤ maxDataSize then
          let last := sizeSub cnt 1
          let vec := vec.set last (sizeAdd (vec.size last) remainder)
          some ⟨if cnt ≤ available then 0 else -fiEagain, cnt, vec⟩
        else
          let vec := vec.set cnt remainder
          some ⟨if cnt + 1 ≤ available then 0 else -fiEagain, cnt + 1, vec⟩

/-- `efa_rdm_ope_prepare_to_post_send`: `available` is
`efa_rdm_ep_get_available_tx_pkts`, `cnt` the `*pkt_entry_cnt` it starts
from. A packet type that is neither CTSDATA nor medium nor runt goes out as
one packet with the size `-1`. -/
def efaRdmOpePrepareToPostSend (ep : ReqEp) (txe : ReqTxe) (pktType available maxDataPayloadSize cnt : Nat)
    (vec : SizeVec) : Option Prepared :=
  if available = 0 then some ⟨-fiEagain, cnt, vec⟩
  else if pktType = efaRdmCtsdataPkt then prepareCtsdata txe.window maxDataPayloadSize available vec
  else if efaRdmPktTypeIsMedium pktType || efaRdmPktTypeIsRunt pktType then
    prepareMulreq (efaRdmOpeMulreqTotalDataSize txe pktType) (efaRdmTxeMaxReqDataCapacity ep txe pktType)
      (efaRdmEpGetMemoryAlignment ep txe.cuda) available vec
  else some ⟨0, 1, vec.set 0 sizeMax⟩

/-- The segments `efa_rdm_ope_post_send` gives the packets, as offset and
size: from `bytes_sent` on, each right after the one before. -/
def postSendSegments : Nat → List Nat → List (Nat × Nat)
  | _, [] => []
  | offset, size :: sizes => (offset, size) :: postSendSegments (offset + size) sizes

/-! ## What a split must be -/

/-- A split of `total` bytes into packets of at most `cap` bytes each, all
but the last a multiple of `align`: no packet is empty and the sizes add up
to the total. -/
structure ExactSplit (total cap align : Nat) (sizes : List Nat) : Prop where
  pos : ∀ s ∈ sizes, 0 < s
  le : ∀ s ∈ sizes, s ≤ cap
  aligned : ∀ s ∈ sizes.dropLast, align ∣ s
  sum : sizes.sum = total

theorem exactSplit_replicate_append {c n last cap align : Nat} (pos : 0 < n) (le : n ≤ cap)
    (aligned : align ∣ n) (lastPos : 0 < last) (lastLe : last ≤ cap) :
    ExactSplit (c * n + last) cap align (List.replicate c n ++ [last]) where
  pos s mem := by
    rcases List.mem_append.mp mem with inner | tail
    · rw [List.eq_of_mem_replicate inner]; exact pos
    · rw [List.mem_singleton.mp tail]; exact lastPos
  le s mem := by
    rcases List.mem_append.mp mem with inner | tail
    · rw [List.eq_of_mem_replicate inner]; exact le
    · rw [List.mem_singleton.mp tail]; exact lastLe
  aligned s mem := by
    rw [List.dropLast_concat] at mem
    rw [List.eq_of_mem_replicate mem]
    exact aligned
  sum := by simp [List.sum_replicate]

/-! ## The size vector -/

namespace SizeVec

@[simp] theorem size_set (vec : SizeVec) (i n j : Nat) :
    (vec.set i n).size j = if j = i then n else vec.size j := Function.update_apply ..

@[simp] theorem stores_set (vec : SizeVec) (i n : Nat) : (vec.set i n).stores = vec.stores ++ [i] := rfl

theorem size_fill (vec : SizeVec) (n j : Nat) : ∀ cnt, (vec.fill n cnt).size j = if j < cnt then n else vec.size j
  | 0 => by simp [fill]
  | cnt + 1 => by
    rw [fill, size_set, size_fill vec n j cnt]
    by_cases here : j = cnt
    · simp [here]
    · by_cases below : j < cnt
      · simp [here, below, Nat.lt_succ_of_lt below]
      · simp [here, below, show ¬j < cnt + 1 by omega]

theorem stores_fill (vec : SizeVec) (n : Nat) : ∀ cnt, (vec.fill n cnt).stores = vec.stores ++ List.range cnt
  | 0 => by simp [fill]
  | cnt + 1 => by rw [fill, stores_set, stores_fill vec n cnt, List.range_succ, List.append_assoc]

theorem sizes_succ (vec : SizeVec) (cnt : Nat) : vec.sizes (cnt + 1) = vec.sizes cnt ++ [vec.size cnt] := by
  simp [sizes, List.range_succ]

theorem sizes_congr {vec vec' : SizeVec} {cnt : Nat} (same : ∀ j < cnt, vec'.size j = vec.size j) :
    vec'.sizes cnt = vec.sizes cnt :=
  List.map_congr_left fun j mem => same j (List.mem_range.mp mem)

theorem sizes_fill (vec : SizeVec) (n cnt : Nat) : (vec.fill n cnt).sizes cnt = List.replicate cnt n := by
  induction cnt with
  | zero => rfl
  | succ cnt ih =>
    rw [sizes_succ, List.replicate_succ', ← ih, size_fill, if_pos (Nat.lt_succ_self cnt)]
    congr 1
    exact sizes_congr fun j below => by rw [size_fill, size_fill, if_pos below, if_pos (by omega)]

theorem sizes_fill_set (vec : SizeVec) (n cnt m : Nat) :
    ((vec.fill n cnt).set cnt m).sizes (cnt + 1) = List.replicate cnt n ++ [m] := by
  rw [sizes_succ, size_set, if_pos rfl, ← sizes_fill vec n cnt]
  congr 1
  exact sizes_congr fun j below => by rw [size_set, if_neg (Nat.ne_of_lt below)]

theorem sizes_fill_set_last (vec : SizeVec) (n cnt m : Nat) :
    ((vec.fill n (cnt + 1)).set cnt m).sizes (cnt + 1) = List.replicate cnt n ++ [m] := by
  rw [← sizes_fill_set vec n cnt m]
  exact sizes_congr fun j _ => by
    simp only [fill, size_set]
    split <;> rfl

end SizeVec

/-! ## The medium and runt split -/

section Mulreq

variable {total maxDataSize k available : Nat} {vec : SizeVec} {out : Prepared}

theorem of_ite_eagain_eq_zero {p : Prop} [Decidable p] (ok : (if p then (0 : Int) else -fiEagain) = 0) : p := by
  by_cases h : p
  · exact h
  · simp [h, fiEagain, eagain] at ok

theorem mulreq_cnt_eq (pos : 0 < total) (fits : total < 2 ^ 64) :
    sizeAdd (sizeSub total 1 / maxDataSize) 1 = (total - 1) / maxDataSize + 1 := by
  have below : (total - 1) / maxDataSize ≤ total - 1 := Nat.div_le_self _ _
  rw [sizeSub_of_le (show 1 ≤ total from pos) fits, sizeAdd_of_lt (by omega)]

theorem mulreq_single_le (cap : 0 < maxDataSize) :
    (total - 1) / ((total - 1) / maxDataSize + 1) + 1 ≤ maxDataSize := by
  have : (total - 1) / ((total - 1) / maxDataSize + 1) < maxDataSize :=
    (Nat.div_lt_iff_lt_mul (Nat.succ_pos _)).mpr (Nat.lt_mul_div_succ _ cap)
  omega

theorem alignDown_eq {single : Nat} (fits : single < 2 ^ 64) (small : k < 64) :
    single &&& (sizeMax ^^^ sizeSub (2 ^ k) 1) = single / 2 ^ k * 2 ^ k := by
  rw [sizeSub_of_le Nat.one_le_two_pow (Nat.pow_lt_pow_right (by decide) small)]
  exact Bits.and_not_low_bits fits

theorem mem_stores_fill_set {vec : SizeVec} {n c i m j : Nat} (mem : j ∈ ((vec.fill n c).set i m).stores) :
    j ∈ vec.stores ∨ j < c ∨ j = i := by
  rw [SizeVec.stores_set, SizeVec.stores_fill] at mem
  simp only [List.mem_append, List.mem_range, List.mem_singleton] at mem
  rcases mem with (old | below) | last
  · exact .inl old
  · exact .inr (.inl below)
  · exact .inr (.inr last)

/-- The size the medium and runt split gives its packets: the near-equal
part of the total over the packets of `maxDataSize` bytes it needs, aligned down. -/
def mulreqSingle (total maxDataSize align : Nat) : Nat :=
  ((total - 1) / ((total - 1) / maxDataSize + 1) + 1) / align * align

/-- The medium and runt split without `size_t` wrapping, once the first count
fits the free packets. -/
def mulreqSplit (total maxDataSize align available : Nat) (vec : SizeVec) : Option Prepared :=
  let single := mulreqSingle total maxDataSize align
  if single = 0 then none
  else
    let cnt := total / single
    if single + total % single ≤ maxDataSize then
      some ⟨if cnt ≤ available then 0 else -fiEagain, cnt, (vec.fill single cnt).set (cnt - 1) (single + total % single)⟩
    else some ⟨if cnt + 1 ≤ available then 0 else -fiEagain, cnt + 1, (vec.fill single cnt).set cnt (total % single)⟩

theorem mulreqSingle_le_cap (cap : 0 < maxDataSize) (align : Nat) : mulreqSingle total maxDataSize align ≤ maxDataSize :=
  Nat.le_trans (Nat.div_mul_le_self _ _) (mulreq_single_le cap)

theorem mulreqSingle_le_total (pos : 0 < total) (maxDataSize align : Nat) : mulreqSingle total maxDataSize align ≤ total := by
  have := Nat.div_le_self (total - 1) ((total - 1) / maxDataSize + 1)
  have := Nat.div_mul_le_self ((total - 1) / ((total - 1) / maxDataSize + 1) + 1) align
  unfold mulreqSingle
  omega

theorem dvd_mulreqSingle (total maxDataSize align : Nat) : align ∣ mulreqSingle total maxDataSize align :=
  Nat.dvd_mul_left _ _

theorem mulreq_parts {s : Nat} (sPos : 0 < s) (sLe : s ≤ total) :
    0 < total / s ∧ total = total / s * s + total % s ∧ total % s < s ∧ s ≤ total / s * s := by
  have cPos : 0 < total / s := Nat.div_pos sLe sPos
  refine ⟨cPos, ?_, Nat.mod_lt _ sPos, Nat.le_mul_of_pos_left s cPos⟩
  rw [Nat.mul_comm]
  exact (Nat.div_add_mod total s).symm

theorem prepareMulreq_eq (pos : 0 < total) (fits : total < 2 ^ 64) (small : k < 64) (cap : 0 < maxDataSize)
    (free : (total - 1) / maxDataSize + 1 ≤ available) :
    prepareMulreq total maxDataSize (2 ^ k) available vec = mulreqSplit total maxDataSize (2 ^ k) available vec := by
  have single0_fits : (total - 1) / ((total - 1) / maxDataSize + 1) + 1 ≤ total := by
    have := Nat.div_le_self (total - 1) ((total - 1) / maxDataSize + 1)
    omega
  simp only [prepareMulreq, mulreqSplit]
  rw [if_neg (Nat.pos_iff_ne_zero.mp cap), mulreq_cnt_eq pos fits, if_neg (Nat.not_lt_of_le free),
    if_neg (Nat.succ_ne_zero _), mulreq_cnt_eq pos fits, alignDown_eq (by omega) small]
  have sLe := mulreqSingle_le_total pos maxDataSize (2 ^ k)
  unfold mulreqSingle at sLe ⊢
  generalize ((total - 1) / ((total - 1) / maxDataSize + 1) + 1) / 2 ^ k * 2 ^ k = s at sLe ⊢
  by_cases sZero : s = 0
  · rw [if_pos sZero, if_pos sZero]
  rw [if_neg sZero, if_neg sZero]
  obtain ⟨cPos, split, -, sLeCs⟩ := mulreq_parts (Nat.pos_of_ne_zero sZero) sLe
  rw [show total - total / s * s = total % s by omega]
  by_cases fold : s + total % s ≤ maxDataSize
  · -- the last packet: `vec[cnt - 1] += remainder` after the loop stored `s` there
    rw [if_pos fold, if_pos fold, sizeSub_of_le (show 1 ≤ total / s from cPos)
      (Nat.lt_of_le_of_lt (Nat.div_le_self total s) fits), SizeVec.size_fill,
      if_pos (show total / s - 1 < total / s by omega), sizeAdd_of_lt (show s + total % s < 2 ^ 64 by omega)]
  · rw [if_neg fold, if_neg fold]

/-- When the medium or runt split returns `0`, it made between one and
`available` packets that split the total exactly, and stored to no index at
or past the count. -/
theorem prepareMulreq_ok (pos : 0 < total) (fits : total < 2 ^ 64) (small : k < 64)
    (built : prepareMulreq total maxDataSize (2 ^ k) available vec = some out) (ok : out.ret = 0) :
    0 < out.cnt ∧ out.cnt ≤ available ∧ ExactSplit total maxDataSize (2 ^ k) (out.vec.sizes out.cnt) ∧
      ∀ i ∈ out.vec.stores, i ∈ vec.stores ∨ i < out.cnt := by
  have cap : 0 < maxDataSize := by
    rcases Nat.eq_zero_or_pos maxDataSize with zero | cap
    · simp [prepareMulreq, zero] at built
    · exact cap
  have free : (total - 1) / maxDataSize + 1 ≤ available := by
    by_contra crowded
    simp only [prepareMulreq, if_neg (Nat.pos_iff_ne_zero.mp cap), mulreq_cnt_eq pos fits,
      if_pos (Nat.lt_of_not_le crowded)] at built
    cases built
    simp [fiEagain, eagain] at ok
  rw [prepareMulreq_eq pos fits small cap free] at built
  have sLeCap := @mulreqSingle_le_cap total maxDataSize cap (2 ^ k)
  have sLe := mulreqSingle_le_total pos maxDataSize (2 ^ k)
  have aligned := dvd_mulreqSingle total maxDataSize (2 ^ k)
  simp only [mulreqSplit] at built
  generalize mulreqSingle total maxDataSize (2 ^ k) = s at built sLeCap sLe aligned
  by_cases sZero : s = 0
  · rw [if_pos sZero] at built
    cases built
  rw [if_neg sZero] at built
  obtain ⟨cPos, split, remLt, sLeCs⟩ := mulreq_parts (Nat.pos_of_ne_zero sZero) sLe
  by_cases fold : s + total % s ≤ maxDataSize
  · -- the remainder folded into the last packet
    rw [if_pos fold] at built
    obtain ⟨c, hc⟩ : ∃ c, total / s = c + 1 := ⟨total / s - 1, by omega⟩
    rw [hc, Nat.add_sub_cancel] at built
    cases built
    dsimp only at ok ⊢
    refine ⟨by omega, of_ite_eagain_eq_zero ok, ?_, ?_⟩
    · rw [SizeVec.sizes_fill_set_last]
      have whole : total = c * s + (s + total % s) := by rw [hc, Nat.succ_mul] at split; omega
      conv => arg 1; rw [whole]
      exact exactSplit_replicate_append (by omega) sLeCap aligned (by omega) fold
    · intro i mem
      rcases mem_stores_fill_set mem with old | below | last
      · exact .inl old
      · exact .inr (by omega)
      · exact .inr (by omega)
  · -- one more packet for the remainder
    rw [if_neg fold] at built
    cases built
    dsimp only at ok ⊢
    refine ⟨by omega, of_ite_eagain_eq_zero ok, ?_, ?_⟩
    · rw [SizeVec.sizes_fill_set]
      conv => arg 1; rw [split]
      exact exactSplit_replicate_append (by omega) sLeCap aligned (by omega) (by omega)
    · intro i mem
      rcases mem_stores_fill_set mem with old | below | last
      · exact .inl old
      · exact .inr (by omega)
      · exact .inr (by omega)

theorem prepareMulreq_eq_none_of_unaligned (pos : 0 < total) (fits : total < 2 ^ 64) (small : k < 64)
    (cap : 0 < maxDataSize) (free : (total - 1) / maxDataSize + 1 ≤ available)
    (unaligned : mulreqSingle total maxDataSize (2 ^ k) = 0) :
    prepareMulreq total maxDataSize (2 ^ k) available vec = none := by
  rw [prepareMulreq_eq pos fits small cap free]
  simp [mulreqSplit, unaligned]

/-- When the remainder does not fit the last packet, the split stores it at
index `total / s`, one past its packets of `s` bytes, before it checks the
new count against the free packets. -/
theorem prepareMulreq_stores_remainder (pos : 0 < total) (fits : total < 2 ^ 64) (small : k < 64)
    (cap : 0 < maxDataSize) (free : (total - 1) / maxDataSize + 1 ≤ available)
    (aligned : 0 < mulreqSingle total maxDataSize (2 ^ k))
    (spill : maxDataSize < mulreqSingle total maxDataSize (2 ^ k) + total % mulreqSingle total maxDataSize (2 ^ k)) :
    ∃ out, prepareMulreq total maxDataSize (2 ^ k) available vec = some out ∧
      total / mulreqSingle total maxDataSize (2 ^ k) ∈ out.vec.stores ∧
      out.cnt = total / mulreqSingle total maxDataSize (2 ^ k) + 1 := by
  rw [prepareMulreq_eq pos fits small cap free]
  simp only [mulreqSplit, if_neg (Nat.pos_iff_ne_zero.mp aligned), if_neg (Nat.not_le_of_lt spill)]
  exact ⟨_, rfl, by simp, rfl⟩


/-- The failing input: a 17800-byte medium message, 8900 bytes of payload a
packet, 128-byte alignment and two free packets. The aligned size is 8832,
two packets of it leave 136 bytes that do not fit the last one, and the
split stores the third size at index 2. -/
theorem prepareMulreq_stores_remainder_inOrder :
    mulreqSingle 17800 8900 (2 ^ 7) = 8832 ∧
      ∃ out, prepareMulreq 17800 8900 (2 ^ 7) 2 ⟨fun _ => 0, []⟩ = some out ∧ 2 ∈ out.vec.stores ∧ out.cnt = 3 := by
  have single : mulreqSingle 17800 8900 (2 ^ 7) = 8832 := by decide
  have stored := @prepareMulreq_stores_remainder 17800 8900 7 2 ⟨fun _ => 0, []⟩ (by decide) (by decide) (by decide)
    (by decide) (by decide) (by decide) (by decide)
  rw [single] at stored
  exact ⟨single, stored⟩

end Mulreq

/-- An endpoint with 128-byte in-order alignment and an MTU of 8928 bytes. -/
def inOrderEp : ReqEp := ⟨8928, ⟨List.replicate 16 0, 0, 0, 0, 0, rfl⟩, true, 32⟩

/-- A 17800-byte message to a peer that has handshaken: a medium packet
carries a 24-byte header and the 4-byte connection id. -/
def mediumTxe : ReqTxe :=
  { peer := ⟨true, false, false⟩, remoteCqData := false, cqData := 0, readNack := false, msgId := 0, txId := 0,
    tag := 0, totalLen := 17800, bytesRunt := 0, window := 0, atomicDatatype := 0, atomicOp := 0, rmaIov := [],
    iov := [], cuda := false, data := [], compareData := [] }

example : efaRdmTxeMaxReqDataCapacity inOrderEp mediumTxe mediumMsgrtm.id = 8900 := by decide

example : (efaRdmOpePrepareToPostSend inOrderEp mediumTxe mediumMsgrtm.id 2 8900 0 ⟨fun _ => 0, []⟩).map
    (fun out => (out.ret, out.cnt, out.vec.stores)) = some (-fiEagain, 3, [0, 1, 2]) := by decide

/-! ## The CTSDATA split -/

section Ctsdata

variable {window m available : Nat} {vec : SizeVec} {out : Prepared}

theorem prepareCtsdata_ok (pos : 0 < window) (fits : window < 2 ^ 31) (payload : 0 < m) (free : 0 < available)
    (built : prepareCtsdata window m available vec = some out) :
    out.ret = 0 ∧ out.cnt = min ((window - 1) / m + 1) available ∧
      ExactSplit (min window (available * m)) m 1 (out.vec.sizes out.cnt) ∧
      ∀ i ∈ out.vec.stores, i ∈ vec.stores ∨ i < out.cnt := by
  simp only [prepareCtsdata, if_neg (Nat.pos_iff_ne_zero.mp payload), mulreq_cnt_eq pos (by omega)] at built
  cases built
  dsimp only
  -- `q` full packets hold all of the window but its last byte
  have lo : (window - 1) / m * m ≤ window - 1 := Nat.div_mul_le_self _ _
  have hi : window - 1 < m * ((window - 1) / m + 1) := Nat.lt_mul_div_succ _ payload
  generalize (window - 1) / m = q at lo hi ⊢
  obtain ⟨c, hc⟩ : ∃ c, min (q + 1) available = c + 1 := ⟨min (q + 1) available - 1, by omega⟩
  rw [hc, Nat.add_sub_cancel]
  refine ⟨rfl, rfl, ?_, ?_⟩
  · rw [SizeVec.sizes_fill_set]
    have step : (q + 1) * m = q * m + m := Nat.succ_mul q m
    have cLe : c * m ≤ q * m := Nat.mul_le_mul_right m (show c ≤ q by omega)
    -- what is left of the window fits an `int`
    have rem : sizeOfInt (int32Of (sizeSub window (c * m))) = window - c * m := by
      rw [sizeSub_of_le (by omega) (by omega), sizeOfInt_int32Of (by omega)]
    rw [rem]
    rw [Nat.mul_comm] at hi
    have whole : min window (available * m) = c * m + min (window - c * m) m := by
      by_cases full : q + 1 ≤ available
      · -- every packet the window needs is free: the last one takes the rest
        have more : (q + 1) * m ≤ available * m := Nat.mul_le_mul_right m full
        have : c = q := by omega
        subst this
        omega
      · -- the free packets run out first: all of them are full
        have avail : available * m = c * m + m := by rw [show available = c + 1 by omega, Nat.succ_mul]
        have short : available ≤ q := by omega
        have fewer : available * m ≤ q * m := Nat.mul_le_mul_right m short
        omega
    rw [whole]
    exact exactSplit_replicate_append payload le_rfl (Nat.one_dvd _) (by omega) (Nat.min_le_right _ _)
  · intro i mem
    rcases mem_stores_fill_set mem with old | below | last
    · exact .inl old
    · exact .inr (by omega)
    · exact .inr (by omega)

/-- Past `2 ^ 31` the `int` keeps the low bits of what is left: one free
packet of 8 bytes for a window of `2 ^ 32 + 5` carries 5 bytes. -/
example : (prepareCtsdata (2 ^ 32 + 5) 8 1 ⟨fun _ => 0, []⟩).map (fun out => out.vec.sizes out.cnt) = some [5] := by
  decide

end Ctsdata

/-! ## The segments -/

theorem bounds_of_mem_postSendSegments {offset : Nat} {sizes : List Nat} {seg : Nat × Nat}
    (mem : seg ∈ postSendSegments offset sizes) : offset ≤ seg.1 ∧ seg.1 + seg.2 ≤ offset + sizes.sum := by
  induction sizes generalizing offset with
  | nil => simp [postSendSegments] at mem
  | cons size sizes ih =>
    rcases List.mem_cons.mp mem with first | later
    · subst first
      simp only [List.sum_cons]
      omega
    · have := ih later
      simp only [List.sum_cons]
      omega

/-- The segments of `efa_rdm_ope_post_send` tile `[offset, offset + sizes.sum)`:
each ends where the next begins, and a byte lies in one of them exactly when
it lies in that range. -/
theorem postSendSegments_tile (offset : Nat) (sizes : List Nat) :
    (postSendSegments offset sizes).Pairwise (fun a b => a.1 + a.2 ≤ b.1) ∧
      ∀ b, (∃ seg ∈ postSendSegments offset sizes, seg.1 ≤ b ∧ b < seg.1 + seg.2) ↔
        offset ≤ b ∧ b < offset + sizes.sum := by
  induction sizes generalizing offset with
  | nil => simp [postSendSegments]
  | cons size sizes ih =>
    obtain ⟨ordered, cover⟩ := ih (offset + size)
    refine ⟨List.pairwise_cons.mpr ⟨fun seg mem => (bounds_of_mem_postSendSegments mem).1, ordered⟩, fun b => ?_⟩
    simp only [postSendSegments, List.mem_cons, List.sum_cons]
    constructor
    · rintro ⟨seg, first | later, lo, hi⟩
      · subst first
        simp only at lo hi
        omega
      · have := (cover b).mp ⟨seg, later, lo, hi⟩
        omega
    · rintro ⟨lo, hi⟩
      by_cases here : b < offset + size
      · exact ⟨(offset, size), .inl rfl, lo, here⟩
      · obtain ⟨seg, later, inside⟩ := (cover b).mpr ⟨by omega, by omega⟩
        exact ⟨seg, .inr later, inside⟩

end Libfabric.EfaRdm
