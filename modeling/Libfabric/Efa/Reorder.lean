import Mathlib.Data.Finset.Card
import Mathlib.Order.Interval.Finset.Nat
import Libfabric.Recvwin

/-! The EFA RDM receive path for RTM and RTA packets (`efa_rdm_peer.c`,
`efa_rdm_pke_rtm.c`). Each peer owns a reorder buffer of
`efa_env.recvwin_size` slots and an overflow list for messages that arrive
more than a window ahead. A packet is processed when its message id is the
expected one; otherwise it waits, and every advance of the window drains the
buffer from its head. Packets are modelled by their message id. -/
namespace Libfabric.EfaRdm

/-- A reorder-buffer slot: `NULL` as `[]`, otherwise the message ids of the
packet entry and of the entries `efa_rdm_pke_append` chained after it. -/
abbrev Slot := List Nat

abbrev Robuf := Recvwin Slot

/-- The parts of `struct efa_rdm_peer` the receive path reads and writes,
and the message ids handed to `efa_rdm_pke_proc_rtm_rta`, in order. -/
structure Peer where
  robuf : Robuf
  overflowPkeList : List Nat
  procLog : List Nat

/-- `efa_env.recvwin_size`, and the outcomes of the callees the reorder path
only tests: whether the buffer pools supply the out-of-order entries for a
message (`ofi_buf_alloc(ep->overflow_pke_pool)`, `efa_rdm_pke_get_ooo_pke`),
and whether `efa_rdm_pke_proc_rtm_rta` returns 0 on it. -/
structure Env where
  recvwinSize : Nat
  pktAlloc : Nat → Bool
  procRtmRta : Nat → Bool

/-- The return codes of `efa_rdm_peer_reorder_msg`: 0, 1, `-FI_EALREADY`, `-FI_ENOMEM`. -/
inductive ReorderRet where
  | expected
  | queued
  | already
  | noMem
  deriving DecidableEq, Repr

/-- The robuf part of `efa_rdm_peer_construct` (`efa_recvwin_buf_alloc`),
with every slot `NULL`. -/
def peerInit (size : Nat) : Peer :=
  { robuf := { expMsgId := 0, winSize := size, rcnt := 0, buf := fun _ => [] }
    overflowPkeList := []
    procLog := [] }

def peerRecvwinQueueOrAppendPke (robuf : Robuf) (msgId : Nat) : Robuf :=
  let cur := robuf.getMsg msgId
  if cur.isEmpty then robuf.queueMsg [msgId] msgId
  else robuf.queueMsg (cur ++ [msgId]) msgId

/-- `efa_rdm_peer_reorder_msg` for a packet without `EFA_RDM_REQ_READ_NACK`. -/
def peerReorderMsg (env : Env) (peer : Peer) (msgId : Nat) : ReorderRet × Peer :=
  if peer.robuf.isExp msgId then (.expected, peer)
  else if !peer.robuf.idValid msgId then
    if peer.robuf.idProcessed msgId then (.already, peer)
    -- the window is too small: park the entry at the head of the overflow list
    else if env.pktAlloc msgId then
      (.queued, { peer with overflowPkeList := msgId :: peer.overflowPkeList })
    else (.noMem, peer)
  else if env.pktAlloc msgId then
    (.queued, { peer with robuf := peerRecvwinQueueOrAppendPke peer.robuf msgId })
  else (.noMem, peer)

/-- The loop of `efa_rdm_peer_move_overflow_pke_to_recvwin` over the overflow
list from its head: entries now inside the window move to their slot, the rest
stay in order. -/
def moveOverflowPkes (robuf : Robuf) : List Nat → Robuf × List Nat
  | [] => (robuf, [])
  | msgId :: rest =>
      if robuf.idValid msgId then moveOverflowPkes (peerRecvwinQueueOrAppendPke robuf msgId) rest
      else Prod.map id (List.cons msgId) (moveOverflowPkes robuf rest)

def peerMoveOverflowPkeToRecvwin (peer : Peer) : Peer :=
  let moved := moveOverflowPkes peer.robuf peer.overflowPkeList
  { peer with robuf := moved.1, overflowPkeList := moved.2 }

/-- The test that follows each advance of the window, in both
`efa_rdm_pke_handle_rtm_rta_recv` and the drain loop:
`if (exp_msg_id % efa_env.recvwin_size == 0) efa_rdm_peer_move_overflow_pke_to_recvwin(peer)`. -/
def checkOverflow (env : Env) (peer : Peer) : Peer :=
  if peer.robuf.expMsgId % env.recvwinSize == 0 then peerMoveOverflowPkeToRecvwin peer else peer

/-- The body of the drain loop after the head entry `msgId` was handed to
`efa_rdm_pke_proc_rtm_rta`: `*ofi_recvwin_get_next_msg(robuf) = NULL`, then
the overflow test. -/
def procHead (env : Env) (peer : Peer) (msgId : Nat) : Peer :=
  let next := peer.robuf.getNextMsg
  checkOverflow env
    { peer with robuf := next.2.setSlot next.1 [], procLog := peer.procLog ++ [msgId] }

@[simp] theorem checkOverflow_procLog (env : Env) (peer : Peer) :
    (checkOverflow env peer).procLog = peer.procLog := by
  unfold checkOverflow
  split <;> rfl

@[simp] theorem procHead_procLog (env : Env) (peer : Peer) (msgId : Nat) :
    (procHead env peer msgId).procLog = peer.procLog ++ [msgId] := by
  simp [procHead]

/-! The drain loop ends because each pass empties an occupied slot, and moving
overflowed entries in never occupies more slots than it takes off the list. -/

/-- The occupied slots among the indices the mask can produce. -/
def occupied (robuf : Robuf) : Nat :=
  ((Finset.range (robuf.winSize - 1 + 1)).filter (fun j => robuf.buf j ≠ [])).card

theorem occupied_setSlot_nil {robuf : Robuf} {idx : Nat} (inside : idx ≤ robuf.winSize - 1)
    (full : robuf.buf idx ≠ []) : occupied (robuf.setSlot idx []) < occupied robuf := by
  unfold occupied
  apply Finset.card_lt_card
  rw [Finset.ssubset_iff_of_subset]
  · refine ⟨idx, ?_, ?_⟩
    · rw [Finset.mem_filter, Finset.mem_range]
      exact ⟨by omega, full⟩
    · rw [Finset.mem_filter]
      simp
  · intro j member
    rw [Finset.mem_filter] at member ⊢
    by_cases same : j = idx
    · subst same
      simp at member
    · exact ⟨member.1, by simpa [Function.update_of_ne same] using member.2⟩

theorem occupied_setSlot (robuf : Robuf) (idx : Nat) (slot : Slot) :
    occupied (robuf.setSlot idx slot) ≤ occupied robuf + 1 := by
  unfold occupied
  calc _ ≤ (insert idx ((Finset.range (robuf.winSize - 1 + 1)).filter
          (fun j => robuf.buf j ≠ []))).card := by
        apply Finset.card_le_card
        intro j member
        rw [Finset.mem_filter] at member
        rw [Finset.mem_insert, Finset.mem_filter]
        by_cases same : j = idx
        · exact .inl same
        · exact .inr ⟨member.1, by simpa [Function.update_of_ne same] using member.2⟩
    _ ≤ _ := Finset.card_insert_le _ _

theorem peerRecvwinQueueOrAppendPke_eq (robuf : Robuf) (msgId : Nat) :
    peerRecvwinQueueOrAppendPke robuf msgId =
      robuf.setSlot (robuf.msgIdx msgId) (robuf.getMsg msgId ++ [msgId]) := by
  unfold peerRecvwinQueueOrAppendPke
  dsimp only
  split
  · rename_i empty
    rw [List.isEmpty_iff.mp empty]
    rfl
  · rfl

theorem moveOverflowPkes_measure (robuf : Robuf) (pkes : List Nat) :
    occupied (moveOverflowPkes robuf pkes).1 + (moveOverflowPkes robuf pkes).2.length ≤
      occupied robuf + pkes.length := by
  induction pkes generalizing robuf with
  | nil => simp [moveOverflowPkes]
  | cons msgId rest ih =>
      simp only [moveOverflowPkes]
      split
      · have step := ih (peerRecvwinQueueOrAppendPke robuf msgId)
        have grown := occupied_setSlot robuf (robuf.msgIdx msgId) (robuf.getMsg msgId ++ [msgId])
        rw [← peerRecvwinQueueOrAppendPke_eq] at grown
        simp only [List.length_cons]
        omega
      · have step := ih robuf
        simp only [Prod.map_fst, id_eq, Prod.map_snd, List.length_cons]
        omega

theorem checkOverflow_measure (env : Env) (peer : Peer) :
    occupied (checkOverflow env peer).robuf + (checkOverflow env peer).overflowPkeList.length ≤
      occupied peer.robuf + peer.overflowPkeList.length := by
  unfold checkOverflow
  split
  · exact moveOverflowPkes_measure peer.robuf peer.overflowPkeList
  · exact Nat.le_refl _

theorem procHead_measure (env : Env) {peer : Peer} {msgId : Nat} {rest : List Nat}
    (head : peer.robuf.peek = msgId :: rest) :
    occupied (procHead env peer msgId).robuf + (procHead env peer msgId).overflowPkeList.length <
      occupied peer.robuf + peer.overflowPkeList.length := by
  have inside : peer.robuf.cirqueRindex ≤ peer.robuf.advance.winSize - 1 := Nat.and_le_right
  have full : peer.robuf.advance.buf peer.robuf.cirqueRindex ≠ [] := by
    simp only [Recvwin.advance_buf]
    rw [← Recvwin.peek, head]
    exact List.cons_ne_nil _ _
  have emptied := occupied_setSlot_nil inside full
  have checked := checkOverflow_measure env
    { peer with robuf := peer.robuf.advance.setSlot peer.robuf.cirqueRindex [],
                procLog := peer.procLog ++ [msgId] }
  have same : occupied peer.robuf.advance = occupied peer.robuf := rfl
  simp only [procHead, Recvwin.getNextMsg] at checked ⊢
  omega

/-- `efa_rdm_peer_proc_pending_items_in_robuf`: process head entries while
the head slot is occupied, stopping after the first error. -/
def peerProcPendingItemsInRobuf (env : Env) (peer : Peer) : Peer :=
  match _head : peer.robuf.peek with
  | [] => peer
  | msgId :: _ =>
      if env.procRtmRta msgId then peerProcPendingItemsInRobuf env (procHead env peer msgId)
      else procHead env peer msgId
termination_by occupied peer.robuf + peer.overflowPkeList.length
decreasing_by exact procHead_measure env _head

/-- `efa_rdm_pke_handle_rtm_rta_recv` for an RTM or RTA packet that starts a
message: reorder it, and when it is the expected one process it, slide the
window, and drain. -/
def pkeHandleRtmRtaRecv (env : Env) (peer : Peer) (msgId : Nat) : Peer :=
  match peerReorderMsg env peer msgId with
  | (.expected, peer) =>
      peerProcPendingItemsInRobuf env
        (checkOverflow env { peer with robuf := peer.robuf.slide, procLog := peer.procLog ++ [msgId] })
  | (_, peer) => peer

/-- A peer that receives `arrivals` in that order, from a fresh peer. -/
def recvRun (env : Env) (arrivals : List Nat) : Peer :=
  arrivals.foldl (pkeHandleRtmRtaRecv env) (peerInit env.recvwinSize)

end Libfabric.EfaRdm
