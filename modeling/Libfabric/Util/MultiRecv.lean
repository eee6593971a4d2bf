import Libfabric.Ofi

/-! The multi-receive buffers of the shared receive context (`util_srx.c`).
A buffer posted with `FI_MULTI_RECV` is the owner entry; every message it
takes gets a sub-receive cut from the front of the owner's `iov[0]`, and
`util_adjust_multi_recv` moves the owner's base past it and shrinks its
length. Messages already waiting are taken when the buffer is posted
(`util_generic_mrecv` through `util_unexp_mrecv`), later ones through
`util_process_multi_recv` from `util_match_msg` or `util_get_msg`. Lengths
are `size_t` and the base a `uintptr_t`, so both wrap modulo `2 ^ 64`. -/
namespace Libfabric.Util

/-- Of an entry's `fi_peer_rx_entry`, what the accounting reads and writes:
`iov[0]` and `msg_size`. A multi-receive buffer has one segment. -/
structure MrecvIov where
  iovBase : Nat
  iovLen : Nat
  msgSize : Nat
  deriving DecidableEq, Repr

section Model

variable (minMultiRecvSize : Nat)

/-- `util_adjust_multi_recv`: whether what is left is below
`min_multi_recv_size`, and the owner after. `left` is not checked against the
length taken. -/
def utilAdjustMultiRecv (rx : MrecvIov) (len : Nat) : Bool × MrecvIov :=
  let left := sizeSub rx.iovLen len
  (decide (left < minMultiRecvSize), ⟨sizeAdd rx.iovBase len, left, left⟩)

/-- `util_process_multi_recv` for a message of `msgSize` bytes: the
sub-receive `util_get_recv_entry` builds on the owner's `iov` (its `msg_size`
is the length of that `iov`), whether the owner leaves its queue, and the
owner after. -/
def utilProcessMultiRecv (owner : MrecvIov) (msgSize : Nat) : MrecvIov × Bool × MrecvIov :=
  let sub : MrecvIov := ⟨owner.iovBase, owner.iovLen, owner.iovLen⟩
  let adjusted := utilAdjustMultiRecv minMultiRecvSize owner msgSize
  (sub, adjusted.1, adjusted.2)

/-- The multi-receive branch of `util_match_msg`, which then cuts the
sub-receive's `msg_size` to the message. `util_get_msg` keeps it as it is. -/
def utilMatchMsgMrecv (owner : MrecvIov) (msgSize : Nat) : MrecvIov × Bool × MrecvIov :=
  let r := utilProcessMultiRecv minMultiRecvSize owner msgSize
  ({ r.1 with msgSize := min r.1.msgSize msgSize }, r.2)

/-- `util_unexp_mrecv` for an unexpected message of `msgSize` bytes: the
sub-receive gets the front of the buffer, cut to the message. -/
def utilUnexpMrecv (mrecv : MrecvIov) (msgSize : Nat) : MrecvIov × Bool × MrecvIov :=
  let len := min mrecv.iovLen msgSize
  let rx : MrecvIov := ⟨mrecv.iovBase, len, len⟩
  let adjusted := utilAdjustMultiRecv minMultiRecvSize mrecv rx.msgSize
  (rx, adjusted.1, adjusted.2)

/-- The loop of `util_generic_mrecv` over the unexpected messages
`util_search_unexp_msg` hands it in turn, with `start_msg` returning 0: the
sub-receives, whether the owner then goes on its queue, and the owner. -/
def mrecvUnexpLoop (owner : MrecvIov) : List Nat → List MrecvIov × Bool × MrecvIov
  | [] => ([], true, owner)
  | msgSize :: rest =>
      let r := utilUnexpMrecv minMultiRecvSize owner msgSize
      if r.2.1 then ([r.1], false, r.2.2)
      else
        let after := mrecvUnexpLoop r.2.2 rest
        (r.1 :: after.1, after.2)

def utilGenericMrecv (base len : Nat) (unexp : List Nat) : List MrecvIov × Bool × MrecvIov :=
  mrecvUnexpLoop minMultiRecvSize ⟨base, len, len⟩ unexp

end Model

/-! ## What is assigned of a buffer -/

def Accounted (base len taken : Nat) (owner : MrecvIov) : Prop :=
  taken ≤ len ∧ owner = ⟨sizeAdd base taken, len - taken, len - taken⟩

section Accounting

variable {minMultiRecvSize base len taken : Nat} {owner : MrecvIov}

theorem Accounted.adjust (h : Accounted base len taken owner) (hlen : len < 2 ^ 64) {n : Nat}
    (hn : n ≤ owner.iovLen) :
    Accounted base len (taken + n) (utilAdjustMultiRecv minMultiRecvSize owner n).2 ∧
      ((utilAdjustMultiRecv minMultiRecvSize owner n).1 = true ↔ len - (taken + n) < minMultiRecvSize) := by
  obtain ⟨htaken, rfl⟩ := h
  simp only at hn
  have hleft : sizeSub (len - taken) n = len - (taken + n) := by
    simp only [sizeSub]
    omega
  have hbase : sizeAdd (sizeAdd base taken) n = sizeAdd base (taken + n) := by
    simp only [sizeAdd]
    omega
  simp only [utilAdjustMultiRecv, hleft, hbase]
  exact ⟨⟨by omega, rfl⟩, decide_eq_true_iff⟩

theorem Accounted.unexp (h : Accounted base len taken owner) (hlen : len < 2 ^ 64) (msgSize : Nat) :
    let r := utilUnexpMrecv minMultiRecvSize owner msgSize
    r.1 = ⟨sizeAdd base taken, min (len - taken) msgSize, min (len - taken) msgSize⟩ ∧
      Accounted base len (taken + min (len - taken) msgSize) r.2.2 ∧
      (r.2.1 = true ↔ len - (taken + min (len - taken) msgSize) < minMultiRecvSize) := by
  have hiov : owner.iovLen = len - taken := by rw [h.2]
  have hbase : owner.iovBase = sizeAdd base taken := by rw [h.2]
  have hstep := @Accounted.adjust minMultiRecvSize base len taken owner h hlen (min (len - taken) msgSize)
    (by rw [hiov]; exact Nat.min_le_left _ _)
  refine ⟨by simp only [utilUnexpMrecv, hiov, hbase], ?_⟩
  simpa only [utilUnexpMrecv, hiov] using hstep

theorem Accounted.process (h : Accounted base len taken owner) (hlen : len < 2 ^ 64) {msgSize : Nat}
    (hfits : msgSize ≤ len - taken) :
    let r := utilProcessMultiRecv minMultiRecvSize owner msgSize
    r.1 = ⟨sizeAdd base taken, len - taken, len - taken⟩ ∧
      Accounted base len (taken + msgSize) r.2.2 ∧
      (r.2.1 = true ↔ len - (taken + msgSize) < minMultiRecvSize) := by
  have hiov : owner.iovLen = len - taken := by rw [h.2]
  have hbase : owner.iovBase = sizeAdd base taken := by rw [h.2]
  have hstep := @Accounted.adjust minMultiRecvSize base len taken owner h hlen msgSize
    (by rw [hiov]; exact hfits)
  refine ⟨by simp only [utilProcessMultiRecv, hiov, hbase], ?_⟩
  simpa only [utilProcessMultiRecv] using hstep

/-- `subs` are the pieces of the buffer at `base` from `taken` on, each right
after the one before, ending at `taken'`. -/
def Consecutive (base : Nat) : Nat → List MrecvIov → Nat → Prop
  | taken, [], taken' => taken' = taken
  | taken, sub :: rest, taken' =>
      sub = ⟨sizeAdd base taken, sub.msgSize, sub.msgSize⟩ ∧ Consecutive base (taken + sub.msgSize) rest taken'

/-- The messages waiting when a buffer is posted take consecutive pieces of
it; the owner stays out of its queue exactly when the last of them left less
than `min_multi_recv_size`. -/
theorem Accounted.unexpLoop (h : Accounted base len taken owner) (hlen : len < 2 ^ 64) (sizes : List Nat) :
    let r := mrecvUnexpLoop minMultiRecvSize owner sizes
    ∃ taken', Accounted base len taken' r.2.2 ∧ Consecutive base taken r.1 taken' ∧
      (r.2.1 = false ↔ r.1 ≠ [] ∧ len - taken' < minMultiRecvSize) := by
  induction sizes generalizing taken owner with
  | nil => exact ⟨taken, h, rfl, by simp [mrecvUnexpLoop]⟩
  | cons msgSize rest ih =>
    obtain ⟨hsub, hnext, hdone⟩ := @Accounted.unexp minMultiRecvSize base len taken owner h hlen msgSize
    have hpiece : (utilUnexpMrecv minMultiRecvSize owner msgSize).1 =
        ⟨sizeAdd base taken, (utilUnexpMrecv minMultiRecvSize owner msgSize).1.msgSize,
          (utilUnexpMrecv minMultiRecvSize owner msgSize).1.msgSize⟩ := by
      rw [hsub]
    have hsize : (utilUnexpMrecv minMultiRecvSize owner msgSize).1.msgSize = min (len - taken) msgSize := by
      rw [hsub]
    simp only [mrecvUnexpLoop]
    split
    case isTrue done =>
      refine ⟨_, hnext, ⟨hpiece, by rw [hsize]; rfl⟩, ?_⟩
      simpa using hdone.mp done
    case isFalse more =>
      obtain ⟨taken', hacc, hcons, hposted⟩ := ih hnext
      refine ⟨taken', hacc, ⟨hpiece, by rw [hsize]; exact hcons⟩, ?_⟩
      -- with no message after this one, nothing more was taken and the owner is queued
      by_cases hlast :
          (mrecvUnexpLoop minMultiRecvSize (utilUnexpMrecv minMultiRecvSize owner msgSize).2.2 rest).1 = []
      · have hsame : taken' = taken + min (len - taken) msgSize := by
          rw [hlast] at hcons
          exact hcons
        rw [hsame]
        simp only [hlast, ne_eq, not_true_eq_false, false_and, iff_false] at hposted
        simp only [hposted, ne_eq, reduceCtorEq, not_false_eq_true, true_and, Bool.true_eq_false, false_iff]
        exact fun hlt => more (hdone.mpr hlt)
      · simp only [ne_eq, hlast, not_false_eq_true, true_and] at hposted
        simpa only [ne_eq, reduceCtorEq, not_false_eq_true, true_and] using hposted

theorem utilGenericMrecv_accounts {base : Nat} (hbase : base < 2 ^ 64) (hlen : len < 2 ^ 64)
    (sizes : List Nat) :
    let r := utilGenericMrecv minMultiRecvSize base len sizes
    ∃ taken', Accounted base len taken' r.2.2 ∧ Consecutive base 0 r.1 taken' ∧
      (r.2.1 = false ↔ r.1 ≠ [] ∧ len - taken' < minMultiRecvSize) := by
  have hstart : Accounted base len 0 ⟨base, len, len⟩ := by
    refine ⟨Nat.zero_le _, ?_⟩
    simp only [sizeAdd, Nat.add_zero, Nat.mod_eq_of_lt hbase, Nat.sub_zero]
  exact hstart.unexpLoop hlen sizes

end Accounting

/-- A buffer of `len` bytes posted with no message waiting is queued whole.
A message longer than `len` then reaches it through `util_match_msg` or
`util_get_msg`: `util_adjust_multi_recv` takes `msgSize` bytes from `len`, so
the owner's length wraps to `2 ^ 64 - (msgSize - len)`, larger than the
buffer, its base moves past the end, and it stays on its queue. -/
theorem utilProcessMultiRecv_wraps_owner (minMultiRecvSize base : Nat) {len msgSize : Nat}
    (hlong : len < msgSize) (hsize : msgSize < 2 ^ 64) (hmin : minMultiRecvSize ≤ 2 ^ 64 - (msgSize - len)) :
    utilGenericMrecv minMultiRecvSize base len [] = ([], true, ⟨base, len, len⟩) ∧
      utilProcessMultiRecv minMultiRecvSize ⟨base, len, len⟩ msgSize =
        (⟨base, len, len⟩, false,
          ⟨sizeAdd base msgSize, 2 ^ 64 - (msgSize - len), 2 ^ 64 - (msgSize - len)⟩) ∧
      len < 2 ^ 64 - (msgSize - len) := by
  have hleft : sizeSub len msgSize = 2 ^ 64 - (msgSize - len) := by
    simp only [sizeSub]
    omega
  refine ⟨rfl, ?_, by omega⟩
  simp only [utilProcessMultiRecv, utilAdjustMultiRecv, hleft]
  simp only [Prod.mk.injEq, true_and, and_true, decide_eq_false_iff_not, Nat.not_lt]
  exact hmin

theorem utilProcessMultiRecv_wraps_owner_sample :
    utilGenericMrecv 64 4096 1000 [] = ([], true, ⟨4096, 1000, 1000⟩) ∧
      utilProcessMultiRecv 64 ⟨4096, 1000, 1000⟩ 1500 =
        (⟨4096, 1000, 1000⟩, false, ⟨sizeAdd 4096 1500, 2 ^ 64 - (1500 - 1000), 2 ^ 64 - (1500 - 1000)⟩) ∧
      1000 < 2 ^ 64 - (1500 - 1000) :=
  utilProcessMultiRecv_wraps_owner 64 4096 (by decide) (by decide) (by decide)

end Libfabric.Util
