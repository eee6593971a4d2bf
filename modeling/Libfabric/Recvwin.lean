import Libfabric.Lib.Serial

/-! The sliding receive window of `ofi_recvwin.h` with `id_type = uint32_t`.
A circular array of `win_size` slots, read from the read counter of the
underlying circular queue, orders messages by their 32-bit id: the message
`exp_msg_id + d` lives `d` slots after the read position. -/
namespace Libfabric

/-- `OFI_DECL_RECVWIN_BUF(entrytype, name, uint32_t)`: the expected id, the
window size, and of the `pending` circular queue its read counter `rcnt` and
its slots. The queue's `size` is `win_size` and its mask `win_size - 1`. -/
structure Recvwin (α : Type) where
  expMsgId : Nat
  winSize : Nat
  rcnt : Nat
  buf : Nat → α

namespace Recvwin

variable {α : Type}

/-- `ofi_cirque_rindex`: `rcnt & size_mask`. -/
def cirqueRindex (rq : Recvwin α) : Nat := rq.rcnt &&& (rq.winSize - 1)

/-- The slot of message `id`, as `ofi_recvwin_queue_msg` and
`ofi_recvwin_get_msg` compute it: `(rindex + (id - exp_msg_id)) & size_mask`. -/
def msgIdx (rq : Recvwin α) (id : Nat) : Nat :=
  (rq.cirqueRindex + Serial.sub 32 id rq.expMsgId) &&& (rq.winSize - 1)

/-- `ofi_recvwin_id_valid_uint32_t`: `ofi_val32_inrange(exp_msg_id, win_size, id)`. -/
def idValid (rq : Recvwin α) (id : Nat) : Bool := Serial.inRange 32 rq.expMsgId rq.winSize id

/-- `ofi_recvwin_id_processed_uint32_t`: `ofi_val32_gt(exp_msg_id, id)`. -/
def idProcessed (rq : Recvwin α) (id : Nat) : Bool := Serial.gt 32 rq.expMsgId id

def isExp (rq : Recvwin α) (id : Nat) : Bool := rq.expMsgId == id

/-- `ofi_recvwin_queue_msg`: store the entry in the message's slot. The
`ofi_cirque_commit` that follows only moves the write counter, which nothing
on the receive path reads. -/
def queueMsg (rq : Recvwin α) (msg : α) (id : Nat) : Recvwin α :=
  { rq with buf := Function.update rq.buf (rq.msgIdx id) msg }

def getMsg (rq : Recvwin α) (id : Nat) : α := rq.buf (rq.msgIdx id)

/-- `*ofi_recvwin_peek(rq)`: the head slot. -/
def peek (rq : Recvwin α) : α := rq.buf rq.cirqueRindex

/-- `ofi_recvwin_exp_inc` together with the read-counter step that every
advance of the window makes (`ofi_cirque_discard` or `ofi_cirque_remove`);
`exp_msg_id` wraps at `2^32` and the `size_t` counter at `2^64`. -/
def advance (rq : Recvwin α) : Recvwin α :=
  { rq with expMsgId := (rq.expMsgId + 1) % 2 ^ 32, rcnt := (rq.rcnt + 1) % 2 ^ 64 }

/-- `ofi_recvwin_slide`: advance past the head slot without touching it. -/
def slide (rq : Recvwin α) : Recvwin α := rq.advance

/-- `ofi_recvwin_get_next_msg`: advance, returning the head slot's index.
Its test `ofi_cirque_head(pending)` is a pointer into the array and never
`NULL`, so the window always advances. -/
def getNextMsg (rq : Recvwin α) : Nat × Recvwin α := (rq.cirqueRindex, rq.advance)

/-- Overwrite one slot, as `*slot = NULL` does after `ofi_recvwin_get_next_msg`. -/
def setSlot (rq : Recvwin α) (idx : Nat) (msg : α) : Recvwin α :=
  { rq with buf := Function.update rq.buf idx msg }

@[simp] theorem queueMsg_expMsgId (rq : Recvwin α) (msg : α) (id : Nat) :
    (rq.queueMsg msg id).expMsgId = rq.expMsgId := rfl
@[simp] theorem queueMsg_winSize (rq : Recvwin α) (msg : α) (id : Nat) :
    (rq.queueMsg msg id).winSize = rq.winSize := rfl
@[simp] theorem queueMsg_rcnt (rq : Recvwin α) (msg : α) (id : Nat) :
    (rq.queueMsg msg id).rcnt = rq.rcnt := rfl
@[simp] theorem setSlot_expMsgId (rq : Recvwin α) (idx : Nat) (msg : α) :
    (rq.setSlot idx msg).expMsgId = rq.expMsgId := rfl
@[simp] theorem setSlot_winSize (rq : Recvwin α) (idx : Nat) (msg : α) :
    (rq.setSlot idx msg).winSize = rq.winSize := rfl
@[simp] theorem setSlot_rcnt (rq : Recvwin α) (idx : Nat) (msg : α) :
    (rq.setSlot idx msg).rcnt = rq.rcnt := rfl
@[simp] theorem setSlot_buf (rq : Recvwin α) (idx : Nat) (msg : α) :
    (rq.setSlot idx msg).buf = Function.update rq.buf idx msg := rfl
@[simp] theorem advance_winSize (rq : Recvwin α) : rq.advance.winSize = rq.winSize := rfl
@[simp] theorem advance_buf (rq : Recvwin α) : rq.advance.buf = rq.buf := rfl
@[simp] theorem advance_expMsgId (rq : Recvwin α) :
    rq.advance.expMsgId = (rq.expMsgId + 1) % 2 ^ 32 := rfl
@[simp] theorem advance_rcnt (rq : Recvwin α) : rq.advance.rcnt = (rq.rcnt + 1) % 2 ^ 64 := rfl

theorem queueMsg_buf (rq : Recvwin α) (msg : α) (id : Nat) :
    (rq.queueMsg msg id).buf = Function.update rq.buf (rq.msgIdx id) msg := rfl

/-! With a power-of-two window the mask is a remainder, and while the read
counter and the expected id agree modulo the window, message `id` lives in
slot `id % win_size`, whatever the wraps of either counter. -/

section Slots

variable {b : Nat} {rq : Recvwin α}

theorem cirqueRindex_eq (size : rq.winSize = 2 ^ b) : rq.cirqueRindex = rq.rcnt % 2 ^ b := by
  rw [cirqueRindex, size, Nat.and_two_pow_sub_one_eq_mod]

theorem cirqueRindex_lt (size : rq.winSize = 2 ^ b) : rq.cirqueRindex < 2 ^ b := by
  rw [cirqueRindex_eq size]
  exact Nat.mod_lt _ (Nat.two_pow_pos b)

/-- The slot formula of `ofi_recvwin_queue_msg` places message `id` at
`id % win_size` when the counters agree modulo the window and `id` is at most
one word ahead of the expected id. -/
theorem msgIdx_eq (short : b ≤ 32) (size : rq.winSize = 2 ^ b)
    (aligned : rq.rcnt % 2 ^ b = rq.expMsgId % 2 ^ b) {e d : Nat} (expected : rq.expMsgId = e % 2 ^ 32)
    (ahead : d < 2 ^ 32) : rq.msgIdx (e + d) = (e + d) % 2 ^ b := by
  have divides : 2 ^ b ∣ 2 ^ 32 := Nat.pow_dvd_pow 2 short
  have distance : Serial.sub 32 (e + d) rq.expMsgId = d := by
    rw [expected, Serial.sub_mod_right, Serial.sub_add_left, Nat.mod_eq_of_lt ahead]
  rw [msgIdx, distance, cirqueRindex_eq size, size, Nat.and_two_pow_sub_one_eq_mod, aligned,
    expected, Nat.mod_mod_of_dvd _ divides, Nat.mod_add_mod]

theorem advance_aligned (short : b ≤ 32) (aligned : rq.rcnt % 2 ^ b = rq.expMsgId % 2 ^ b) :
    rq.advance.rcnt % 2 ^ b = rq.advance.expMsgId % 2 ^ b := by
  have word : 2 ^ b ∣ 2 ^ 32 := Nat.pow_dvd_pow 2 short
  have counter : 2 ^ b ∣ 2 ^ 64 := Nat.pow_dvd_pow 2 (by omega)
  rw [advance_rcnt, advance_expMsgId, Nat.mod_mod_of_dvd _ word, Nat.mod_mod_of_dvd _ counter,
    Nat.add_mod, aligned, ← Nat.add_mod]

end Slots

end Recvwin

end Libfabric
