import Libfabric.Efa.Reorder
import Libfabric.Lib.Mex

/-! In-order, exactly-once delivery through the EFA reorder buffer. After `e`
messages were handed to `efa_rdm_pke_proc_rtm_rta`, the log is `0, ..., e - 1`,
and every other id that arrived sits either in its slot `id % win_size` of the
window `[e, e + win_size)` or, further ahead, once in the overflow list. The
serial comparison only tells new ids from old ones within half the id space,
so arrivals are required to stay less than `2^31` ids ahead of the delivered
prefix. -/
namespace Libfabric.EfaRdm

open Mex

/-- The allocations succeed and every message is processed without error. -/
def idealEnv (size : Nat) : Env :=
  { recvwinSize := size, pktAlloc := fun _ => true, procRtmRta := fun _ => true }

/-! ### How the reorder path classifies an id `d` ahead of the expected one -/

section Classify

variable {rq : Robuf} {b e d : Nat}

theorem isExp_iff (expected : rq.expMsgId = e % 2 ^ 32) (id : e + d < 2 ^ 32) :
    rq.isExp (e + d) = true ↔ d = 0 := by
  rw [Recvwin.isExp, expected, beq_iff_eq, Nat.mod_eq_of_lt (by omega)]
  omega

theorem idValid_iff (short : b ≤ 31) (size : rq.winSize = 2 ^ b)
    (expected : rq.expMsgId = e % 2 ^ 32) (near : d < 2 ^ 31) :
    rq.idValid (e + d) = true ↔ d < 2 ^ b ∧ (0 < d ∨ 2 ^ b < 2 ^ 31) := by
  have window : 2 ^ b ≤ 2 ^ (32 - 1) := Nat.pow_le_pow_right (by omega) (by omega)
  have distance : Serial.sub 32 (e + d) rq.expMsgId = d := by
    rw [expected, Serial.sub_mod_right, Serial.sub_add_left, Nat.mod_eq_of_lt (by omega)]
  rw [Recvwin.idValid, size, Serial.inRange_iff (by omega) window, distance]
  simp only [Nat.reduceSub, Nat.reducePow] at window ⊢
  omega

theorem idProcessed_eq (expected : rq.expMsgId = e % 2 ^ 32) (near : d < 2 ^ 31) :
    rq.idProcessed (e + d) = false := by
  have back := Serial.sub_add_right (w := 32) e (d := d) (by omega)
  rw [← Serial.sub_mod_left] at back
  rw [Recvwin.idProcessed, expected, Bool.eq_false_iff, ne_eq, Serial.gt_iff (by omega), back]
  rcases Nat.eq_zero_or_pos d with rfl | positive
  · simp
  · rw [Nat.mod_eq_of_lt (by omega)]
    omega

end Classify

/-! ### The invariant -/

/-- The receive state of a peer for the ids `arrived` so far, with `e`
messages handed on; overflowed ids are at least `low`. -/
structure Layout (b : Nat) (arrived : List Nat) (low : Nat) (peer : Peer) : Prop where
  log : peer.procLog = List.range peer.procLog.length
  delivered : ∀ i < peer.procLog.length, i ∈ arrived
  expected : peer.robuf.expMsgId = peer.procLog.length % 2 ^ 32
  size : peer.robuf.winSize = 2 ^ b
  aligned : peer.robuf.rcnt % 2 ^ b = peer.robuf.expMsgId % 2 ^ b
  slots : ∀ j, peer.robuf.buf j = [] ∨ ∃ x, peer.robuf.buf j = [x] ∧ x ∈ arrived ∧
    peer.procLog.length ≤ x ∧ x < peer.procLog.length + 2 ^ b ∧ x % 2 ^ b = j
  overflow : ∀ x ∈ peer.overflowPkeList, x ∈ arrived ∧ low ≤ x ∧
    x < peer.procLog.length + 2 ^ 31 ∧ 2 ^ b < 2 ^ 31
  nodup : peer.overflowPkeList.Nodup
  apart : ∀ x ∈ peer.overflowPkeList, peer.robuf.buf (x % 2 ^ b) ≠ [x]
  placed : ∀ x ∈ arrived, peer.procLog.length ≤ x →
    peer.robuf.buf (x % 2 ^ b) = [x] ∨ x ∈ peer.overflowPkeList

/-- The overflow bound between window advances: the next multiple of the
window above the delivered count. -/
def nextBoundary (b e : Nat) : Nat := 2 ^ b * (e / 2 ^ b + 1)

theorem le_nextBoundary (b e : Nat) : e < nextBoundary b e := by
  have := Nat.lt_div_mul_add (a := e) (Nat.two_pow_pos b)
  unfold nextBoundary
  rw [Nat.mul_add, Nat.mul_one, Nat.mul_comm]
  omega

theorem eq_of_slot {b e x y : Nat} (lx : e ≤ x) (hx : x < e + 2 ^ b) (ly : e ≤ y)
    (hy : y < e + 2 ^ b) (same : x % 2 ^ b = y % 2 ^ b) : x = y := by
  have rx := Nat.div_add_mod x (2 ^ b)
  have ry := Nat.div_add_mod y (2 ^ b)
  have qx : x / 2 ^ b ≤ y / 2 ^ b + 1 := by
    have := Nat.div_le_div_right (c := 2 ^ b) (show x ≤ y + 2 ^ b by omega)
    rwa [Nat.add_div_right _ (Nat.two_pow_pos b)] at this
  have qy : y / 2 ^ b ≤ x / 2 ^ b + 1 := by
    have := Nat.div_le_div_right (c := 2 ^ b) (show y ≤ x + 2 ^ b by omega)
    rwa [Nat.add_div_right _ (Nat.two_pow_pos b)] at this
  rw [same] at rx
  generalize x / 2 ^ b = qx' at *
  generalize y / 2 ^ b = qy' at *
  rcases Nat.lt_trichotomy qx' qy' with lower | equal | higher
  · have : qy' = qx' + 1 := by omega
    subst this
    rw [Nat.mul_add, Nat.mul_one] at ry
    omega
  · subst equal
    omega
  · have : qx' = qy' + 1 := by omega
    subst this
    rw [Nat.mul_add, Nat.mul_one] at rx
    omega

theorem nextBoundary_of_dvd {b e : Nat} (boundary : 2 ^ b ∣ e + 1) :
    nextBoundary b e = e + 1 ∧ nextBoundary b (e + 1) = e + 1 + 2 ^ b := by
  have step : (e + 1) / 2 ^ b = e / 2 ^ b + 1 := by
    rw [Nat.succ_div, if_pos boundary]
  have whole := Nat.mul_div_cancel' boundary
  unfold nextBoundary
  constructor
  · rw [← step, whole]
  · rw [Nat.mul_add, whole, Nat.mul_one]

theorem nextBoundary_succ {b e : Nat} (inner : ¬ 2 ^ b ∣ e + 1) :
    nextBoundary b (e + 1) = nextBoundary b e := by
  unfold nextBoundary
  rw [Nat.succ_div, if_neg inner, Nat.add_zero]

theorem Layout.congr {b low : Nat} {arrived arrived' : List Nat} {peer : Peer}
    (layout : Layout b arrived low peer) (same : ∀ x, x ∈ arrived ↔ x ∈ arrived') :
    Layout b arrived' low peer where
  log := layout.log
  delivered i below := (same i).mp (layout.delivered i below)
  expected := layout.expected
  size := layout.size
  aligned := layout.aligned
  slots j := by
    rcases layout.slots j with empty | ⟨x, slot, member, rest⟩
    · exact .inl empty
    · exact .inr ⟨x, slot, (same x).mp member, rest⟩
  overflow x parked := by
    obtain ⟨member, rest⟩ := layout.overflow x parked
    exact ⟨(same x).mp member, rest⟩
  nodup := layout.nodup
  apart := layout.apart
  placed x member := layout.placed x ((same x).mpr member)

section Steps

variable {b low : Nat} {arrived : List Nat} {peer : Peer}

theorem Layout.holds (layout : Layout b arrived low peer) {j y : Nat} {rest : List Nat}
    (slot : peer.robuf.buf j = y :: rest) :
    rest = [] ∧ y ∈ arrived ∧ peer.procLog.length ≤ y ∧ y < peer.procLog.length + 2 ^ b ∧
      y % 2 ^ b = j := by
  rcases layout.slots j with empty | ⟨x, full, member, low, high, index⟩
  · rw [empty] at slot
    cases slot
  · rw [full, List.cons.injEq] at slot
    obtain ⟨rfl, rfl⟩ := slot
    exact ⟨rfl, member, low, high, index⟩

theorem Layout.slot_unique (layout : Layout b arrived low peer) {x y : Nat}
    (lower : peer.procLog.length ≤ x) (upper : x < peer.procLog.length + 2 ^ b)
    (slot : peer.robuf.buf (x % 2 ^ b) = [y]) : y = x := by
  obtain ⟨-, -, low, high, index⟩ := layout.holds slot
  exact eq_of_slot low high lower upper index

theorem Layout.consume (layout : Layout b arrived low peer) (short : b ≤ 31)
    (arrived' : List Nat) (grow : ∀ x ∈ arrived, x ∈ arrived')
    (fresh : ∀ x ∈ arrived', x ∈ arrived ∨ x = peer.procLog.length)
    (present : peer.procLog.length ∈ arrived') :
    Layout b arrived' low
      { peer with robuf := peer.robuf.advance.setSlot (peer.procLog.length % 2 ^ b) [],
                  procLog := peer.procLog ++ [peer.procLog.length] } := by
  have count : (peer.procLog ++ [peer.procLog.length]).length = peer.procLog.length + 1 :=
    List.length_append
  constructor <;> simp only [count, Recvwin.setSlot_buf, Recvwin.advance_buf,
    Recvwin.setSlot_expMsgId, Recvwin.setSlot_winSize, Recvwin.setSlot_rcnt]
  case log =>
    rw [List.range_succ, ← layout.log]
  case delivered =>
    intro i below
    rcases Nat.lt_or_ge i peer.procLog.length with old | new
    · exact grow i (layout.delivered i old)
    · rwa [show i = peer.procLog.length by omega]
  case expected =>
    rw [Recvwin.advance_expMsgId, layout.expected, Nat.mod_add_mod]
  case size => exact layout.size
  case aligned => exact Recvwin.advance_aligned (by omega) layout.aligned
  case slots =>
    intro j
    by_cases cleared : j = peer.procLog.length % 2 ^ b
    · left
      rw [cleared, Function.update_self]
    · rw [Function.update_of_ne cleared]
      rcases layout.slots j with empty | ⟨x, full, member, lower, upper, index⟩
      · exact .inl empty
      · have later : x ≠ peer.procLog.length := fun same => cleared (by rw [← index, same])
        exact .inr ⟨x, full, grow x member, by omega, by omega, index⟩
  case overflow =>
    intro x parked
    obtain ⟨member, lower, upper, narrow⟩ := layout.overflow x parked
    exact ⟨grow x member, lower, by omega, narrow⟩
  case nodup => exact layout.nodup
  case apart =>
    intro x parked
    by_cases cleared : x % 2 ^ b = peer.procLog.length % 2 ^ b
    · rw [cleared, Function.update_self]
      exact List.cons_ne_nil x [] |>.symm
    · rw [Function.update_of_ne cleared]
      exact layout.apart x parked
  case placed =>
    intro x member later
    have old : x ∈ arrived := (fresh x member).resolve_right (by omega)
    rcases layout.placed x old (by omega) with slot | parked
    · left
      have upper := (layout.holds slot).2.2.2.1
      have moved : x % 2 ^ b ≠ peer.procLog.length % 2 ^ b := fun same =>
        absurd (eq_of_slot (Nat.le_refl _) (by omega) (by omega) upper same.symm) (by omega)
      rw [Function.update_of_ne moved, slot]
    · exact .inr parked

end Steps

/-! ### Moving overflowed entries into the window -/

section Move

variable {b e : Nat}

theorem setSlot_self (rq : Robuf) {idx : Nat} {slot : Slot} (same : rq.buf idx = slot) :
    rq.setSlot idx slot = rq := by
  cases rq
  simp only [Recvwin.setSlot, Recvwin.mk.injEq, true_and]
  exact Function.update_eq_self_iff.mpr same.symm

theorem moveOverflowPkes_frame (rq : Robuf) (pkes : List Nat) :
    (moveOverflowPkes rq pkes).1 = { rq with buf := (moveOverflowPkes rq pkes).1.buf } := by
  induction pkes generalizing rq with
  | nil => rfl
  | cons x rest ih =>
      simp only [moveOverflowPkes]
      split
      · rw [ih, peerRecvwinQueueOrAppendPke_eq]
        rfl
      · exact ih rq

theorem idValid_of_overflow {rq : Robuf} (short : b ≤ 31) (size : rq.winSize = 2 ^ b)
    (expected : rq.expMsgId = e % 2 ^ 32) {x : Nat} (lower : e ≤ x) (near : x < e + 2 ^ 31)
    (narrow : 2 ^ b < 2 ^ 31) : rq.idValid x = true ↔ x < e + 2 ^ b := by
  obtain ⟨d, rfl⟩ : ∃ d, x = e + d := ⟨x - e, by omega⟩
  rw [idValid_iff short size expected (by omega)]
  omega

theorem moveOverflowPkes_spec (short : b ≤ 31) (pkes : List Nat) (nodup : pkes.Nodup)
    (rq : Robuf) (size : rq.winSize = 2 ^ b) (aligned : rq.rcnt % 2 ^ b = rq.expMsgId % 2 ^ b)
    (expected : rq.expMsgId = e % 2 ^ 32)
    (range : ∀ x ∈ pkes, e ≤ x ∧ x < e + 2 ^ 31 ∧ 2 ^ b < 2 ^ 31)
    (vacant : ∀ x ∈ pkes, x < e + 2 ^ b → rq.buf (x % 2 ^ b) = []) :
    (moveOverflowPkes rq pkes).2 = pkes.filter (fun x => ¬ x < e + 2 ^ b) ∧
      (∀ j, (∀ x ∈ pkes, x < e + 2 ^ b → x % 2 ^ b ≠ j) →
        (moveOverflowPkes rq pkes).1.buf j = rq.buf j) ∧
      ∀ x ∈ pkes, x < e + 2 ^ b → (moveOverflowPkes rq pkes).1.buf (x % 2 ^ b) = [x] := by
  induction pkes generalizing rq with
  | nil => simp [moveOverflowPkes]
  | cons x rest ih =>
      obtain ⟨outside, nodup⟩ := List.nodup_cons.mp nodup
      obtain ⟨lower, near, narrow⟩ := range x List.mem_cons_self
      have range' : ∀ y ∈ rest, e ≤ y ∧ y < e + 2 ^ 31 ∧ 2 ^ b < 2 ^ 31 :=
        fun y member => range y (List.mem_cons_of_mem x member)
      simp only [moveOverflowPkes]
      split
      · rename_i valid
        have inside := (idValid_of_overflow short size expected lower near narrow).mp valid
        -- the entry is alone in its slot, which no later entry shares
        have index : rq.msgIdx x = x % 2 ^ b := by
          have := Recvwin.msgIdx_eq (by omega) size aligned expected (e := e) (d := x - e) (by omega)
          rwa [Nat.add_sub_cancel' lower] at this
        have queued : peerRecvwinQueueOrAppendPke rq x = rq.setSlot (x % 2 ^ b) [x] := by
          rw [peerRecvwinQueueOrAppendPke_eq, Recvwin.getMsg, index,
            vacant x List.mem_cons_self inside, List.nil_append]
        have distinct : ∀ y ∈ rest, y < e + 2 ^ b → y % 2 ^ b ≠ x % 2 ^ b := by
          intro y member below same
          obtain ⟨low, -, -⟩ := range' y member
          exact outside (eq_of_slot low below lower inside same ▸ member)
        obtain ⟨kept, untouched, filled⟩ := ih nodup (rq.setSlot (x % 2 ^ b) [x]) size aligned
          expected range' (by
            intro y member below
            rw [Recvwin.setSlot_buf, Function.update_of_ne (distinct y member below)]
            exact vacant y (List.mem_cons_of_mem x member) below)
        rw [queued]
        refine ⟨?_, ?_, ?_⟩
        · rw [kept, List.filter_cons_of_neg (by simpa using inside)]
        · intro j missed
          rw [untouched j (fun y member => missed y (List.mem_cons_of_mem x member)),
            Recvwin.setSlot_buf, Function.update_of_ne (missed x List.mem_cons_self inside).symm]
        · intro y member below
          rcases List.mem_cons.mp member with rfl | later
          · rw [untouched _ (fun z member' below' => distinct z member' below'),
              Recvwin.setSlot_buf, Function.update_self]
          · exact filled y later below
      · rename_i invalid
        have beyond : ¬ x < e + 2 ^ b :=
          fun inside => invalid ((idValid_of_overflow short size expected lower near narrow).mpr inside)
        obtain ⟨kept, untouched, filled⟩ := ih nodup rq size aligned expected range'
          (fun y member => vacant y (List.mem_cons_of_mem x member))
        refine ⟨?_, ?_, ?_⟩
        · rw [Prod.map_snd, kept, List.filter_cons_of_pos (by simpa using beyond)]
        · intro j missed
          exact untouched j (fun y member => missed y (List.mem_cons_of_mem x member))
        · intro y member below
          rcases List.mem_cons.mp member with rfl | later
          · exact absurd below beyond
          · exact filled y later below

theorem Layout.move {arrived : List Nat} {peer : Peer} (short : b ≤ 31)
    (layout : Layout b arrived peer.procLog.length peer) :
    Layout b arrived (peer.procLog.length + 2 ^ b) (peerMoveOverflowPkeToRecvwin peer) := by
  have range : ∀ x ∈ peer.overflowPkeList, peer.procLog.length ≤ x ∧
      x < peer.procLog.length + 2 ^ 31 ∧ 2 ^ b < 2 ^ 31 := by
    intro x parked
    obtain ⟨-, lower, near, narrow⟩ := layout.overflow x parked
    exact ⟨lower, near, narrow⟩
  have vacant : ∀ x ∈ peer.overflowPkeList, x < peer.procLog.length + 2 ^ b →
      peer.robuf.buf (x % 2 ^ b) = [] := by
    intro x parked inside
    rcases layout.slots (x % 2 ^ b) with empty | ⟨y, slot, -⟩
    · exact empty
    · have same := layout.slot_unique (range x parked).1 inside slot
      exact absurd (same ▸ slot) (layout.apart x parked)
  obtain ⟨kept, untouched, filled⟩ := moveOverflowPkes_spec short peer.overflowPkeList
    layout.nodup peer.robuf layout.size layout.aligned layout.expected range vacant
  have frame := moveOverflowPkes_frame peer.robuf peer.overflowPkeList
  -- the slot of a moved entry, or else the old slot
  have moved : ∀ j, (∃ x ∈ peer.overflowPkeList, x < peer.procLog.length + 2 ^ b ∧
      x % 2 ^ b = j ∧ (moveOverflowPkes peer.robuf peer.overflowPkeList).1.buf j = [x]) ∨
      (moveOverflowPkes peer.robuf peer.overflowPkeList).1.buf j = peer.robuf.buf j := by
    intro j
    by_cases hit : ∃ x ∈ peer.overflowPkeList, x < peer.procLog.length + 2 ^ b ∧ x % 2 ^ b = j
    · obtain ⟨x, parked, inside, rfl⟩ := hit
      exact .inl ⟨x, parked, inside, rfl, filled x parked inside⟩
    · right
      apply untouched
      intro x parked inside same
      exact hit ⟨x, parked, inside, same⟩
  constructor <;> simp only [peerMoveOverflowPkeToRecvwin]
  case log => exact layout.log
  case delivered => exact layout.delivered
  case expected => rw [frame]; exact layout.expected
  case size => rw [frame]; exact layout.size
  case aligned => rw [frame]; exact layout.aligned
  case slots =>
    intro j
    rcases moved j with ⟨x, parked, inside, rfl, slot⟩ | same
    · exact .inr ⟨x, slot, (layout.overflow x parked).1, (range x parked).1, inside, rfl⟩
    · rw [same]
      exact layout.slots j
  case overflow =>
    intro x member
    rw [kept, List.mem_filter, decide_eq_true_eq] at member
    obtain ⟨parked, beyond⟩ := member
    obtain ⟨old, -, near, narrow⟩ := layout.overflow x parked
    exact ⟨old, by omega, near, narrow⟩
  case nodup =>
    rw [kept]
    exact layout.nodup.filter _
  case apart =>
    intro x member
    rw [kept, List.mem_filter, decide_eq_true_eq] at member
    obtain ⟨parked, beyond⟩ := member
    rcases moved (x % 2 ^ b) with ⟨y, -, inside, -, slot⟩ | same
    · rw [slot]
      intro equal
      rw [List.cons.injEq] at equal
      omega
    · rw [same]
      exact layout.apart x parked
  case placed =>
    intro x member lower
    rcases layout.placed x member lower with slot | parked
    · left
      rcases moved (x % 2 ^ b) with ⟨y, parked, inside, index, -⟩ | same
      · have upper := (layout.holds slot).2.2.2.1
        have equal := eq_of_slot (range y parked).1 inside lower upper index
        exact absurd (equal ▸ slot) (layout.apart y parked)
      · rw [same, slot]
    · by_cases inside : x < peer.procLog.length + 2 ^ b
      · exact .inl (filled x parked inside)
      · right
        rw [kept, List.mem_filter, decide_eq_true_eq]
        exact ⟨parked, inside⟩

/-- The overflow test after an advance from `e` to `e + 1` restores the bound
of the next boundary: at a boundary by moving, elsewhere because the boundary
did not change. -/
theorem Layout.checkOverflow {arrived : List Nat} {peer : Peer} (env : Env) (short : b ≤ 31)
    (windowed : env.recvwinSize = 2 ^ b) (count : peer.procLog.length = e + 1)
    (layout : Layout b arrived (nextBoundary b e) peer) :
    Layout b arrived (nextBoundary b (e + 1)) (checkOverflow env peer) := by
  have divides : 2 ^ b ∣ 2 ^ 32 := Nat.pow_dvd_pow 2 (by omega)
  have test : (peer.robuf.expMsgId % env.recvwinSize == 0) = true ↔ 2 ^ b ∣ e + 1 := by
    rw [layout.expected, windowed, count, Nat.mod_mod_of_dvd _ divides, Nat.dvd_iff_mod_eq_zero,
      beq_iff_eq]
  unfold EfaRdm.checkOverflow
  by_cases boundary : 2 ^ b ∣ e + 1
  · obtain ⟨here, there⟩ := nextBoundary_of_dvd boundary
    rw [here, ← count] at layout
    rw [if_pos (test.mpr boundary), there, ← count]
    exact layout.move short
  · rw [if_neg (fun hit => boundary (test.mp hit)), nextBoundary_succ boundary]
    exact layout

end Move

/-! ### Draining and receiving -/

/-- The state between packets: overflowed ids lie beyond the next window
boundary, and the head slot is empty, so nothing deliverable waits. -/
def Settled (b : Nat) (arrived : List Nat) (peer : Peer) : Prop :=
  Layout b arrived (nextBoundary b peer.procLog.length) peer ∧
    peer.robuf.buf (peer.procLog.length % 2 ^ b) = []

section Receive

variable {b low : Nat} {arrived : List Nat} {peer : Peer}

theorem Layout.cirqueRindex_eq (short : b ≤ 31) (layout : Layout b arrived low peer) :
    peer.robuf.cirqueRindex = peer.procLog.length % 2 ^ b := by
  have divides : 2 ^ b ∣ 2 ^ 32 := Nat.pow_dvd_pow 2 (by omega)
  rw [Recvwin.cirqueRindex_eq layout.size, layout.aligned, layout.expected,
    Nat.mod_mod_of_dvd _ divides]

theorem Layout.procHead (short : b ≤ 31) {e msgId : Nat} {rest : List Nat}
    (count : peer.procLog.length = e) (layout : Layout b arrived (nextBoundary b e) peer)
    (head : peer.robuf.peek = msgId :: rest) :
    msgId = e ∧
      Layout b arrived (nextBoundary b (e + 1)) (procHead (idealEnv (2 ^ b)) peer msgId) := by
  rw [Recvwin.peek, layout.cirqueRindex_eq short] at head
  obtain ⟨-, member, lower, upper, index⟩ := layout.holds head
  have same : msgId = e := by
    rw [← count]
    exact eq_of_slot lower upper (Nat.le_refl _) (by omega) index
  subst same
  refine ⟨rfl, ?_⟩
  have consumed := layout.consume short arrived (fun _ member => member)
    (fun _ member => .inl member) (count ▸ member)
  unfold EfaRdm.procHead
  rw [Recvwin.getNextMsg, layout.cirqueRindex_eq short]
  rw [← count] at consumed ⊢
  exact consumed.checkOverflow (idealEnv (2 ^ b)) short rfl (by simp)

theorem drain_settled (short : b ≤ 31) (peer : Peer)
    (layout : Layout b arrived (nextBoundary b peer.procLog.length) peer) :
    Settled b arrived (peerProcPendingItemsInRobuf (idealEnv (2 ^ b)) peer) := by
  fun_induction peerProcPendingItemsInRobuf (idealEnv (2 ^ b)) peer with
  | case1 peer head =>
      refine ⟨layout, ?_⟩
      rwa [Recvwin.peek, layout.cirqueRindex_eq short] at head
  | case2 peer msgId rest head _ ih =>
      obtain ⟨-, next⟩ := layout.procHead short rfl head
      have count : (procHead (idealEnv (2 ^ b)) peer msgId).procLog.length =
          peer.procLog.length + 1 := by
        simp
      exact ih (count ▸ next)
  | case3 peer msgId rest head failed => simp [idealEnv] at failed

theorem Layout.queue (layout : Layout b arrived low peer) {x : Nat} (fresh : x ∉ arrived)
    (lower : peer.procLog.length ≤ x) (upper : x < peer.procLog.length + 2 ^ b) :
    Layout b (arrived ++ [x]) low { peer with robuf := peer.robuf.setSlot (x % 2 ^ b) [x] } := by
  have grow : ∀ y ∈ arrived, y ∈ arrived ++ [x] := fun y member => List.mem_append_left _ member
  have other : ∀ y ∈ arrived, y % 2 ^ b = x % 2 ^ b →
      peer.procLog.length ≤ y → y < peer.procLog.length + 2 ^ b → False :=
    fun y member same low high => fresh (eq_of_slot low high lower upper same ▸ member)
  constructor <;> simp only [Recvwin.setSlot_buf, Recvwin.setSlot_expMsgId,
    Recvwin.setSlot_winSize, Recvwin.setSlot_rcnt]
  case log => exact layout.log
  case delivered => exact fun i below => grow i (layout.delivered i below)
  case expected => exact layout.expected
  case size => exact layout.size
  case aligned => exact layout.aligned
  case slots =>
    intro j
    by_cases filled : j = x % 2 ^ b
    · subst filled
      rw [Function.update_self]
      exact .inr ⟨x, rfl, List.mem_append_right _ List.mem_cons_self, lower, upper, rfl⟩
    · rw [Function.update_of_ne filled]
      rcases layout.slots j with empty | ⟨y, slot, member, rest⟩
      · exact .inl empty
      · exact .inr ⟨y, slot, grow y member, rest⟩
  case overflow =>
    intro y parked
    obtain ⟨member, rest⟩ := layout.overflow y parked
    exact ⟨grow y member, rest⟩
  case nodup => exact layout.nodup
  case apart =>
    intro y parked
    by_cases filled : y % 2 ^ b = x % 2 ^ b
    · rw [filled, Function.update_self]
      intro same
      rw [List.cons.injEq] at same
      exact fresh (same.1 ▸ (layout.overflow y parked).1)
    · rw [Function.update_of_ne filled]
      exact layout.apart y parked
  case placed =>
    intro y member later
    rcases List.mem_append.mp member with old | new
    · rcases layout.placed y old later with slot | parked
      · obtain ⟨-, -, low, high, -⟩ := layout.holds slot
        have apartSlot : y % 2 ^ b ≠ x % 2 ^ b := fun same => other y old same later high
        exact .inl (by rw [Function.update_of_ne apartSlot, slot])
      · exact .inr parked
    · rw [List.mem_singleton.mp new, Function.update_self]
      exact .inl rfl

theorem Layout.park (layout : Layout b arrived low peer) {x : Nat} (fresh : x ∉ arrived)
    (beyond : peer.procLog.length + 2 ^ b ≤ x) (near : x < peer.procLog.length + 2 ^ 31)
    (bound : low ≤ x) :
    Layout b (arrived ++ [x]) low { peer with overflowPkeList := x :: peer.overflowPkeList } := by
  have grow : ∀ y ∈ arrived, y ∈ arrived ++ [x] := fun y member => List.mem_append_left _ member
  have arrivedNew : x ∈ arrived ++ [x] := List.mem_append_right _ List.mem_cons_self
  constructor
  case log => exact layout.log
  case delivered => exact fun i below => grow i (layout.delivered i below)
  case expected => exact layout.expected
  case size => exact layout.size
  case aligned => exact layout.aligned
  case slots =>
    intro j
    rcases layout.slots j with empty | ⟨y, slot, member, rest⟩
    · exact .inl empty
    · exact .inr ⟨y, slot, grow y member, rest⟩
  case overflow =>
    intro y parked
    rcases List.mem_cons.mp parked with rfl | old
    · exact ⟨arrivedNew, bound, near, by omega⟩
    · obtain ⟨member, rest⟩ := layout.overflow y old
      exact ⟨grow y member, rest⟩
  case nodup =>
    exact List.nodup_cons.mpr ⟨fun parked => fresh (layout.overflow x parked).1, layout.nodup⟩
  case apart =>
    intro y parked
    rcases List.mem_cons.mp parked with rfl | old
    · intro slot
      exact fresh (layout.holds slot).2.1
    · exact layout.apart y old
  case placed =>
    intro y member later
    rcases List.mem_append.mp member with old | new
    · rcases layout.placed y old later with slot | parked
      · exact .inl slot
      · exact .inr (List.mem_cons_of_mem x parked)
    · exact .inr (List.mem_singleton.mp new ▸ List.mem_cons_self)

theorem Settled.handle (short : b ≤ 31) (settled : Settled b arrived peer) {x : Nat}
    (fresh : x ∉ arrived) (id : x < 2 ^ 32) (near : x < peer.procLog.length + 2 ^ 31) :
    Settled b (arrived ++ [x]) (pkeHandleRtmRtaRecv (idealEnv (2 ^ b)) peer x) := by
  obtain ⟨layout, idle⟩ := settled
  have ahead : peer.procLog.length ≤ x :=
    Nat.le_of_not_lt fun below => fresh (layout.delivered x below)
  obtain ⟨d, rfl⟩ : ∃ d, x = peer.procLog.length + d := ⟨x - peer.procLog.length, by omega⟩
  have valid := idValid_iff short layout.size layout.expected (d := d) (by omega)
  have exp := isExp_iff layout.expected (d := d) id
  rcases Nat.eq_zero_or_pos d with rfl | positive
  · -- the expected message: process it, slide, test the boundary, drain
    have reorder : peerReorderMsg (idealEnv (2 ^ b)) peer (peer.procLog.length + 0) =
        (.expected, peer) := by
      rw [peerReorderMsg, if_pos (exp.mpr rfl)]
    have slid : peer.robuf.slide = peer.robuf.advance.setSlot (peer.procLog.length % 2 ^ b) [] :=
      (setSlot_self peer.robuf.advance idle).symm
    have consumed := layout.consume short (arrived ++ [peer.procLog.length + 0])
      (fun y member => List.mem_append_left _ member)
      (fun y member => (List.mem_append.mp member).imp_right List.mem_singleton.mp)
      (List.mem_append_right _ List.mem_cons_self)
    have checked := consumed.checkOverflow (idealEnv (2 ^ b)) short rfl List.length_append
    unfold pkeHandleRtmRtaRecv
    rw [reorder]
    dsimp only
    rw [slid]
    exact drain_settled short _ (by simpa using checked)
  · rcases Nat.lt_or_ge d (2 ^ b) with inside | beyond
    · -- inside the window: queue it in its slot
      have distinct : (peer.procLog.length + d) % 2 ^ b ≠ peer.procLog.length % 2 ^ b := by
        intro same
        have := eq_of_slot (b := b) (e := peer.procLog.length) (by omega) (by omega)
          (Nat.le_refl _) (by omega) same
        omega
      have index := Recvwin.msgIdx_eq (by omega) layout.size layout.aligned layout.expected
        (e := peer.procLog.length) (d := d) (by omega)
      have vacant : peer.robuf.buf ((peer.procLog.length + d) % 2 ^ b) = [] := by
        rcases layout.slots ((peer.procLog.length + d) % 2 ^ b) with empty | ⟨y, slot, -⟩
        · exact empty
        · have same := layout.slot_unique ahead (by omega) slot
          exact absurd (same ▸ (layout.holds slot).2.1) fresh
      have queued : peerRecvwinQueueOrAppendPke peer.robuf (peer.procLog.length + d) =
          peer.robuf.setSlot ((peer.procLog.length + d) % 2 ^ b) [peer.procLog.length + d] := by
        rw [peerRecvwinQueueOrAppendPke_eq, Recvwin.getMsg, index, vacant, List.nil_append]
      have reorder : peerReorderMsg (idealEnv (2 ^ b)) peer (peer.procLog.length + d) =
          (.queued,
            { peer with robuf := (peerRecvwinQueueOrAppendPke peer.robuf (peer.procLog.length + d)) }) := by
        have accepted : peer.robuf.idValid (peer.procLog.length + d) = true :=
          valid.mpr ⟨inside, .inl positive⟩
        rw [peerReorderMsg, if_neg (by rw [exp]; omega), if_neg (by rw [accepted]; decide)]
        rfl
      unfold pkeHandleRtmRtaRecv
      rw [reorder]
      dsimp only
      rw [queued]
      refine ⟨layout.queue fresh ahead (by omega), ?_⟩
      simp only [Recvwin.setSlot_buf]
      rw [Function.update_of_ne distinct.symm]
      exact idle
    · -- beyond the window: park it in the overflow list
      have reorder : peerReorderMsg (idealEnv (2 ^ b)) peer (peer.procLog.length + d) =
          (.queued, { peer with overflowPkeList :=
            (peer.procLog.length + d) :: peer.overflowPkeList }) := by
        have rejected : peer.robuf.idValid (peer.procLog.length + d) = false :=
          Bool.eq_false_iff.mpr fun accepted => absurd (valid.mp accepted).1 (by omega)
        rw [peerReorderMsg, if_neg (by rw [exp]; omega), if_pos (by rw [rejected]; decide),
          if_neg (by simp [idProcessed_eq layout.expected (d := d) (by omega)])]
        rfl
      have bound : nextBoundary b peer.procLog.length ≤ peer.procLog.length + d := by
        have := Nat.div_mul_le_self peer.procLog.length (2 ^ b)
        unfold nextBoundary
        rw [Nat.mul_add, Nat.mul_one, Nat.mul_comm]
        omega
      unfold pkeHandleRtmRtaRecv
      rw [reorder]
      exact ⟨layout.park fresh (by omega) near bound, idle⟩

end Receive

/-! ### Whole runs -/

/-- Every packet arrives less than `2^31` ids ahead of the longest prefix
`0, ..., k - 1` of the ids that arrived before it. -/
def arrivesNear (arrived : List Nat) : List Nat → Bool
  | [] => true
  | x :: rest => decide (x < mex arrived + 2 ^ 31) && arrivesNear (arrived ++ [x]) rest

/-- Message `id` is held exactly once: alone in its slot
`(rindex + (id - exp_msg_id)) & size_mask` and not in the overflow list, or once
in the overflow list and not in its slot; and no other slot holds it. -/
def heldOnce (peer : Peer) (id : Nat) : Prop :=
  (peer.robuf.getMsg id = [id] ∧ id ∉ peer.overflowPkeList ∨
      id ∉ peer.robuf.getMsg id ∧ peer.overflowPkeList.count id = 1) ∧
    ∀ j, j ≠ peer.robuf.msgIdx id → id ∉ peer.robuf.buf j

section Run

variable {b : Nat} {arrived : List Nat} {peer : Peer}

theorem layout_init (b low : Nat) : Layout b [] low (peerInit (2 ^ b)) where
  log := rfl
  delivered _ below := absurd below (Nat.not_lt_zero _)
  expected := rfl
  size := rfl
  aligned := rfl
  slots _ := .inl rfl
  overflow _ parked := absurd parked List.not_mem_nil
  nodup := List.nodup_nil
  apart _ parked := absurd parked List.not_mem_nil
  placed _ member := absurd member List.not_mem_nil

theorem settled_init (b : Nat) : Settled b [] (peerInit (2 ^ b)) := ⟨layout_init b _, rfl⟩

theorem Settled.mex_eq (settled : Settled b arrived peer) : mex arrived = peer.procLog.length := by
  obtain ⟨layout, idle⟩ := settled
  refine mex_eq_of layout.delivered fun present => ?_
  rcases layout.placed _ present (Nat.le_refl _) with slot | parked
  · rw [idle] at slot
    cases slot
  · have := (layout.overflow _ parked).2.1
    have := le_nextBoundary b peer.procLog.length
    omega

theorem Settled.run (short : b ≤ 31) (arrivals : List Nat) (settled : Settled b arrived peer)
    (distinct : (arrived ++ arrivals).Nodup) (ids : ∀ x ∈ arrivals, x < 2 ^ 32)
    (near : arrivesNear arrived arrivals = true) :
    Settled b (arrived ++ arrivals) (arrivals.foldl (pkeHandleRtmRtaRecv (idealEnv (2 ^ b))) peer) := by
  induction arrivals generalizing arrived peer with
  | nil => simpa using settled
  | cons x rest ih =>
      simp only [arrivesNear, Bool.and_eq_true, decide_eq_true_eq] at near
      have fresh : x ∉ arrived := fun member =>
        (List.nodup_append.mp distinct).2.2 x member x List.mem_cons_self rfl
      have next := settled.handle short fresh (ids x List.mem_cons_self)
        (settled.mex_eq ▸ near.1)
      rw [List.foldl_cons, show arrived ++ x :: rest = (arrived ++ [x]) ++ rest by simp]
      exact ih next (by simpa using distinct) (fun y member => ids y (List.mem_cons_of_mem x member))
        near.2

theorem Settled.heldOnce (short : b ≤ 31) (settled : Settled b arrived peer) {x : Nat}
    (member : x ∈ arrived) (id : x < 2 ^ 32) (later : peer.procLog.length ≤ x) :
    heldOnce peer x := by
  obtain ⟨layout, -⟩ := settled
  have index : peer.robuf.msgIdx x = x % 2 ^ b := by
    have := Recvwin.msgIdx_eq (by omega) layout.size layout.aligned layout.expected
      (e := peer.procLog.length) (d := x - peer.procLog.length) (by omega)
    rwa [Nat.add_sub_cancel' later] at this
  refine ⟨?_, ?_⟩
  · rw [Recvwin.getMsg, index]
    rcases layout.placed x member later with slot | parked
    · exact .inl ⟨slot, fun parked => layout.apart x parked slot⟩
    · refine .inr ⟨fun inSlot => ?_, List.count_eq_one_of_mem layout.nodup parked⟩
      rcases layout.slots (x % 2 ^ b) with empty | ⟨y, slot, -⟩
      · rw [empty] at inSlot
        cases inSlot
      · rw [slot, List.mem_singleton] at inSlot
        exact layout.apart x parked (inSlot ▸ slot)
  · intro j other inSlot
    rcases layout.slots j with empty | ⟨y, slot, -, -, -, owner⟩
    · rw [empty] at inSlot
      cases inSlot
    · rw [slot, List.mem_singleton] at inSlot
      exact other (by rw [index, ← owner, inSlot])

end Run

/-- Delivery through the reorder buffer is in order and exactly once, for a
power-of-two window of at most `2^31` slots, distinct 32-bit ids arriving in any
order less than `2^31` ahead of the delivered prefix, successful allocations and
processing: the ids handed to `efa_rdm_pke_proc_rtm_rta` are `0, ..., k - 1` for
the longest prefix `k` that arrived, and every later id is held exactly once. -/
theorem recvRun_delivers_in_order {b : Nat} (short : b ≤ 31) (arrivals : List Nat)
    (distinct : arrivals.Nodup) (ids : ∀ x ∈ arrivals, x < 2 ^ 32)
    (near : arrivesNear [] arrivals = true) :
    (recvRun (idealEnv (2 ^ b)) arrivals).procLog = List.range (mex arrivals) ∧
      ∀ x ∈ arrivals, mex arrivals ≤ x → heldOnce (recvRun (idealEnv (2 ^ b)) arrivals) x := by
  have settled := (settled_init b).run short arrivals (by simpa using distinct) ids near
  simp only [List.nil_append] at settled
  have prefixLength := settled.mex_eq
  refine ⟨?_, fun x member later => settled.heldOnce short member (ids x member) (by omega)⟩
  rw [prefixLength]
  exact settled.1.log

theorem recvRun_delivers_in_order_sample :
    (0 ≤ 31 ∧ [2, 0, 1, 7].Nodup ∧ (∀ x ∈ [2, 0, 1, 7], x < 2 ^ 32) ∧
      arrivesNear [] [2, 0, 1, 7] = true) ∧
    (recvRun (idealEnv (2 ^ 0)) [2, 0, 1, 7]).procLog = List.range (mex [2, 0, 1, 7]) := by
  have facts : 0 ≤ 31 ∧ [2, 0, 1, 7].Nodup ∧ (∀ x ∈ [2, 0, 1, 7], x < 2 ^ 32) ∧
      arrivesNear [] [2, 0, 1, 7] = true := by decide
  exact ⟨facts, (recvRun_delivers_in_order facts.1 [2, 0, 1, 7] facts.2.1 facts.2.2.1
    facts.2.2.2).1⟩

/-- A packet more than `2^31` ids ahead of the expected one reads as already
processed and is dropped: nothing holds it afterwards. -/
theorem recvRun_drops_far_ahead :
    [2 ^ 31 + 1].Nodup ∧ (∀ x ∈ [2 ^ 31 + 1], x < 2 ^ 32) ∧ mex [2 ^ 31 + 1] ≤ 2 ^ 31 + 1 ∧
      ¬ heldOnce (recvRun (idealEnv 1) [2 ^ 31 + 1]) (2 ^ 31 + 1) := by
  have dropped : recvRun (idealEnv 1) [2 ^ 31 + 1] = peerInit 1 := by rfl
  refine ⟨by decide, by decide, by decide, ?_⟩
  rw [dropped]
  rintro ⟨held, -⟩
  simp [peerInit, Recvwin.getMsg] at held

end Libfabric.EfaRdm
