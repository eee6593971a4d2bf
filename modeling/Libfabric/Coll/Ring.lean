import Libfabric.Coll.Blocks

/-! The ring of `coll_do_allgather`. At pass `i` a rank sends right the block
it received at pass `i - 1`, its own block at the first pass, and receives
from the left the block `i + 1` places left of its own; after `n - 1` passes
it holds every block. -/
namespace Libfabric.Coll.Blocks

/-- The rank left of `a` on a ring of `n`: `(numranks + a - 1) % numranks`. -/
def ringPred (n a : Nat) : Nat := (n + a - 1) % n

section Ring

variable {n : Nat}

theorem ringPred_lt (hn : 0 < n) (a : Nat) : ringPred n a < n := Nat.mod_lt _ hn

theorem ringPred_of_pos {a : Nat} (pos : 0 < a) (ha : a < n) : ringPred n a = a - 1 := by
  rw [ringPred, show n + a - 1 = a - 1 + n by omega, Nat.add_mod_right, Nat.mod_eq_of_lt (by omega)]

theorem ringPred_zero (hn : 0 < n) : ringPred n 0 = n - 1 := by
  rw [ringPred, Nat.add_zero, Nat.mod_eq_of_lt (by omega)]

theorem ringPred_succ_mod {a : Nat} (ha : a < n) : ringPred n ((a + 1) % n) = a := by
  by_cases last : a + 1 = n
  · rw [last, Nat.mod_self, ringPred_zero (by omega)]
    omega
  · rw [Nat.mod_eq_of_lt (by omega), ringPred_of_pos (by omega) (by omega), Nat.add_sub_cancel]

theorem succ_mod_ringPred {a : Nat} (ha : a < n) : (ringPred n a + 1) % n = a := by
  by_cases zero : a = 0
  · subst zero
    rw [ringPred_zero (by omega), Nat.sub_add_cancel (by omega), Nat.mod_self]
  · rw [ringPred_of_pos (by omega) ha, Nat.sub_add_cancel (by omega), Nat.mod_eq_of_lt ha]

theorem iterate_ringPred_lt {k : Nat} (hk : k < n) (i : Nat) : (ringPred n)^[i] k < n := by
  induction i with
  | zero => exact hk
  | succ i _ =>
      rw [Function.iterate_succ_apply']
      exact ringPred_lt (by omega) _

theorem iterate_ringPred_of_le {k i : Nat} (hk : k < n) (hi : i ≤ k) : (ringPred n)^[i] k = k - i := by
  induction i with
  | zero => rfl
  | succ i ih =>
      rw [Function.iterate_succ_apply', ih (by omega), ringPred_of_pos (by omega) (by omega)]
      omega

theorem iterate_ringPred_past {k t : Nat} (hk : k < n) (ht : t < n) :
    (ringPred n)^[k + 1 + t] k = n - 1 - t := by
  induction t with
  | zero =>
      rw [Nat.add_zero, Function.iterate_succ_apply', iterate_ringPred_of_le hk (Nat.le_refl k), Nat.sub_self,
        ringPred_zero (by omega), Nat.sub_zero]
  | succ t ih =>
      rw [← Nat.add_assoc, Function.iterate_succ_apply', ih (by omega), ringPred_of_pos (by omega) (by omega)]
      omega

theorem iterate_ringPred_eq {k i : Nat} (hk : k < n) (hi : i < n) :
    (ringPred n)^[i] k = if i ≤ k then k - i else n + k - i := by
  split
  · exact iterate_ringPred_of_le hk ‹_›
  · obtain ⟨t, rfl⟩ : ∃ t, i = k + 1 + t := ⟨i - k - 1, by omega⟩
    rw [iterate_ringPred_past hk (by omega)]
    omega

theorem iterate_ringPred_inj {k i j : Nat} (hk : k < n) (hi : i < n) (hj : j < n)
    (same : (ringPred n)^[i] k = (ringPred n)^[j] k) : i = j := by
  rw [iterate_ringPred_eq hk hi, iterate_ringPred_eq hk hj] at same
  split at same <;> split at same <;> omega

theorem exists_iterate_ringPred {k b : Nat} (hk : k < n) (hb : b < n) :
    ∃ i < n, (ringPred n)^[i] k = b := by
  by_cases below : b ≤ k
  · exact ⟨k - b, by omega, by rw [iterate_ringPred_of_le hk (by omega)]; omega⟩
  · exact ⟨n + k - b, by omega, by rw [iterate_ringPred_eq hk (by omega), if_neg (by omega)]; omega⟩

theorem blocks_apart {b b' : Nat} (count : Nat) (other : b ≠ b') :
    b * count + count ≤ b' * count ∨ b' * count + count ≤ b * count := by
  rcases Nat.lt_or_gt_of_ne other with lt | gt
  · exact .inl (by rw [← Nat.succ_mul]; exact Nat.mul_le_mul_right count lt)
  · exact .inr (by rw [← Nat.succ_mul]; exact Nat.mul_le_mul_right count gt)

theorem block_inside {b : Nat} (count : Nat) (hb : b < n) : b * count + count ≤ n * count := by
  rw [← Nat.succ_mul]
  exact Nat.mul_le_mul_right count hb

end Ring

/-! ## One rank's passes -/

section Rank

variable {α : Type} {n count k : Nat}

/-- What the ring has put in block `j` places left of a rank: its own block,
then the block received at pass `j - 1`. -/
def ringHeld (own : List α) (got : Nat → List α) (j : Nat) : List α := if j = 0 then own else got (j - 1)

/-- Rank `k` after the copy of its own block and `t` passes, `got j` being
what it received at pass `j`. -/
structure RingAt (n count k : Nat) (own : List α) (got : Nat → List α) (t : Nat)
    (s : RankRun AllgatherBuf α) : Prop where
  length : (s.bufs .result).length = n * count
  blocks : ∀ j ≤ t, readPtr s.bufs ⟨.result, (ringPred n)^[j] k * count⟩ count = ringHeld own got j
  sent : s.sent ((k + 1) % n) = (List.range t).map (ringHeld own got)
  quiet : ∀ a, a ≠ (k + 1) % n → s.sent a = []
  taken : s.taken (ringPred n k) = t

theorem ringAt_copy (hk : k < n) (small : count < 2 ^ 31) (inbox : Nat → List (List α)) {init : AllgatherBuf → List α}
    (own : (init .buf).length = count) (room : (init .result).length = n * count) (got : Nat → List α) :
    RingAt n count k (init .buf) got 0
      (runWork inbox (.start init) (collSchedCopy ⟨.buf, 0⟩ ⟨.result, k * count⟩ count true).work) := by
  have copied : readPtr init ⟨.buf, 0⟩ count = init .buf := by
    show ((init .buf).drop 0).take count = init .buf
    rw [List.drop_zero, List.take_of_length_le (by omega)]
  have fits : k * count + (readPtr init ⟨.buf, 0⟩ count).length ≤ (init .result).length := by
    rw [copied, own, room]
    exact block_inside count hk
  rw [runWork_collSchedCopy inbox _ small]
  refine ⟨?_, fun j hj => ?_, rfl, fun _ _ => rfl, rfl⟩
  · simp only [RankRun.start]
    rw [length_writePtr fits, room]
  · obtain rfl : j = 0 := by omega
    have read := @readPtr_writePtr_self AllgatherBuf α _ init ⟨.result, k * count⟩ _ fits
    rw [copied, own] at read
    simpa [RankRun.start, ringHeld, copied] using read

theorem RingAt.pass {inbox : Nat → List (List α)} {own : List α} {got : Nat → List α} {t : Nat}
    {s : RankRun AllgatherBuf α} (at_ : RingAt n count k own got t s) (hk : k < n) (small : count < 2 ^ 31)
    (more : t + 1 < n) (msg : ((inbox (ringPred n k)).getD t []).take count = got t) (sized : (got t).length = count)
    (collId : Nat) :
    RingAt n count k own got (t + 1)
      (runQueue inbox s
        [collSchedSend collId k ((k + 1) % n) ⟨.result, (ringPred n)^[t] k * count⟩ count false,
          collSchedRecv collId (ringPred n k) ⟨.result, (ringPred n)^[t + 1] k * count⟩ count true]) := by
  have next : (ringPred n)^[t + 1] k < n := iterate_ringPred_lt hk (t + 1)
  have fits : (ringPred n)^[t + 1] k * count + (got t).length ≤ (s.bufs .result).length := by
    rw [sized, at_.length]
    exact block_inside count next
  simp only [runQueue_cons, runQueue_nil, runWork_collSchedSend _ _ small, runWork_collSchedRecv _ _ small,
    at_.taken, msg]
  refine ⟨?_, fun j hj => ?_, ?_, fun a other => ?_, by simp⟩
  · rw [length_writePtr fits, at_.length]
  · rcases Nat.lt_or_ge j (t + 1) with earlier | last
    · -- a block placed at an earlier pass lies beside the one written now
      have other : (ringPred n)^[j] k ≠ (ringPred n)^[t + 1] k := fun same => by
        have := iterate_ringPred_inj hk (by omega) more same
        omega
      have apart : (ringPred n)^[j] k * count + count ≤ (ringPred n)^[t + 1] k * count ∨
          (ringPred n)^[t + 1] k * count + (got t).length ≤ (ringPred n)^[j] k * count := by
        rw [sized]
        exact blocks_apart count other
      rw [readPtr_writePtr_of_apart fits (.inr apart)]
      exact at_.blocks j (by omega)
    · obtain rfl : j = t + 1 := by omega
      have read := @readPtr_writePtr_self AllgatherBuf α _ s.bufs ⟨.result, (ringPred n)^[t + 1] k * count⟩ _ fits
      rw [sized] at read
      rw [read]
      simp [ringHeld]
  · simp only [Function.update_self, at_.sent, at_.blocks t (Nat.le_refl t), List.range_succ, List.map_append,
      List.map_cons, List.map_nil]
  · simp only [Function.update_of_ne other, at_.quiet a other]

theorem RingAt.loop {inbox : Nat → List (List α)} {own : List α} {got : Nat → List α} {t steps : Nat}
    {s : RankRun AllgatherBuf α} (at_ : RingAt n count k own got t s) (hk : k < n) (small : count < 2 ^ 31)
    (within : t + steps < n)
    (msgs : ∀ j, t ≤ j → j < t + steps → ((inbox (ringPred n k)).getD j []).take count = got j)
    (sized : ∀ j, t ≤ j → j < t + steps → (got j).length = count) (collId : Nat) :
    RingAt n count k own got (t + steps)
      (runQueue inbox s (allgatherLoop collId k n count (ringPred n k) ((k + 1) % n) .result steps
        ((ringPred n)^[t] k) ((ringPred n)^[t + 1] k))) := by
  induction steps generalizing t s with
  | zero => simpa [allgatherLoop] using at_
  | succ steps ih =>
      have first := at_.pass hk small (by omega) (msgs t (Nat.le_refl t) (by omega))
        (sized t (Nat.le_refl t) (by omega)) collId
      have rest := ih first (by omega) (fun j lo hi => msgs j (by omega) (by omega))
        (fun j lo hi => sized j (by omega) (by omega))
      have further : (n + (ringPred n)^[t + 1] k - 1) % n = (ringPred n)^[t + 1 + 1] k :=
        (Function.iterate_succ_apply' (ringPred n) (t + 1) k).symm
      rw [Nat.add_right_comm] at rest
      rw [allgatherLoop, further, show ∀ (a b : CollItem AllgatherBuf) rest, a :: b :: rest = [a, b] ++ rest from
        fun _ _ _ => rfl, runQueue_append]
      exact rest

theorem ringAt_collEpAllgather (hk : k < n) (small : count < 2 ^ 31) (inbox : Nat → List (List α))
    {init : AllgatherBuf → List α}
    (own : (init .buf).length = count) (room : (init .result).length = n * count) {got : Nat → List α}
    (msgs : ∀ j < n - 1, ((inbox (ringPred n k)).getD j []).take count = got j)
    (sized : ∀ j < n - 1, (got j).length = count) (collId : Nat) :
    RingAt n count k (init .buf) got (n - 1) (runQueue inbox (.start init) (collEpAllgather n k collId count)) := by
  have passes : RingAt n count k (init .buf) got (0 + (n - 1))
      (runQueue inbox (runWork inbox (.start init) (collSchedCopy ⟨.buf, 0⟩ ⟨.result, k * count⟩ count true).work)
        (allgatherLoop collId k n count (ringPred n k) ((k + 1) % n) .result (n - 1)
          ((ringPred n)^[0] k) ((ringPred n)^[0 + 1] k))) :=
    (ringAt_copy hk small inbox own room got).loop hk small (by omega) (fun j _ hi => msgs j (by omega))
      (fun j _ hi => sized j (by omega)) collId
  rw [Nat.zero_add] at passes
  rw [collEpAllgather, collDoAllgather, runQueue_append, runQueue_cons]
  exact passes

end Rank

/-! ## The whole ring -/

section Exchange

variable {α : Type} {n collId count : Nat}

/-- The elements an allgather's buffers hold: `count` in `buf`, and a block
for every rank in `result`. -/
def allgatherAlloc (n count : Nat) : AllgatherBuf → Nat
  | .buf => count
  | .result => n * count

theorem sendCountsTo_allgatherLoop {B : Type} (small : count < 2 ^ 31) (k left right : Nat) (result : B)
    (steps cur next dst : Nat) :
    sendCountsTo (allgatherLoop collId k n count left right result steps cur next) dst =
      if dst = right then List.replicate steps count else [] := by
  induction steps generalizing cur next with
  | zero => by_cases here : dst = right <;> simp [allgatherLoop, sendCountsTo, here]
  | succ steps ih =>
      rw [allgatherLoop, sendCountsTo_cons, sendCountsTo_cons, ih]
      by_cases here : dst = right
      · subst here
        simp [collSchedSend, collSchedRecv, CollWork.sendTo, List.replicate_succ, sizeOfInt_int32Of small]
      · simp [collSchedSend, collSchedRecv, CollWork.sendTo, here, Ne.symm here]

theorem sendCountsTo_collEpAllgather (small : count < 2 ^ 31) (k dst : Nat) :
    sendCountsTo (collEpAllgather n k collId count) dst =
      if dst = (k + 1) % n then List.replicate (n - 1) count else [] := by
  rw [collEpAllgather, collDoAllgather, sendCountsTo_append, sendCountsTo_cons, sendCountsTo_allgatherLoop small]
  simp [collSchedCopy, collSchedComp, CollWork.sendTo, sendCountsTo]

theorem queueInside_allgatherLoop {k left right steps cur next : Nat} (small : count < 2 ^ 31) (hcur : cur < n)
    (hnext : next < n) (hn : 0 < n) : QueueInside (allgatherAlloc n count) (allgatherLoop collId k n count left right .result steps cur next) := by
  induction steps generalizing cur next with
  | zero => simp [allgatherLoop, QueueInside]
  | succ steps ih =>
      intro e mem
      simp only [allgatherLoop, List.mem_cons] at mem
      rcases mem with rfl | rfl | rest
      · simp only [collSchedSend, CollWork.reads, CollWork.writes, Inside, sizeOfInt_int32Of small]
        exact ⟨block_inside count hcur, trivial⟩
      · simp only [collSchedRecv, CollWork.reads, CollWork.writes, Inside, sizeOfInt_int32Of small]
        exact ⟨trivial, block_inside count hnext⟩
      · exact ih hnext (ringPred_lt hn next) e rest

theorem queueInside_collEpAllgather {k : Nat} (hk : k < n) (small : count < 2 ^ 31) :
    QueueInside (allgatherAlloc n count) (collEpAllgather n k collId count) := by
  have hn : 0 < n := by omega
  refine QueueInside.append ?_ (by simp [QueueInside, collSchedComp, CollWork.reads, CollWork.writes, Inside])
  intro e mem
  rcases List.mem_cons.mp mem with rfl | rest
  · simp only [collSchedCopy, CollWork.reads, CollWork.writes, Inside, sizeOfInt_int32Of small]
    exact ⟨by simp [allgatherAlloc], block_inside count hk⟩
  · exact queueInside_allgatherLoop small hk (ringPred_lt hn k) hn e rest

/-- What rank `k` takes from its left at pass `j` of an exchange. -/
def ringGot {init : Nat → AllgatherBuf → List α}
    (ex : Exchange n (fun k => collEpAllgather n k collId count) init) (k j : Nat) : List α :=
  ((ex.inbox k (ringPred n k)).getD j []).take count

section Fixed

variable {init : Nat → AllgatherBuf → List α} (ex : Exchange n (fun k => collEpAllgather n k collId count) init)
  (small : count < 2 ^ 31)
include small

theorem exchange_inbox_lengths (own : ∀ k < n, (init k .buf).length = count)
    (room : ∀ k < n, (init k .result).length = n * count) {k : Nat} (hk : k < n) :
    (ex.inbox k (ringPred n k)).map List.length = List.replicate (n - 1) count := by
  have hn : 0 < n := by omega
  have left := ringPred_lt hn k
  have sized : ∀ b, ((RankRun.start (init (ringPred n k))).bufs b).length = allgatherAlloc n count b := by
    intro b
    cases b
    · exact own _ left
    · exact room _ left
  have inside : QueueInside (allgatherAlloc n count) (collEpAllgather n (ringPred n k) collId count) :=
    queueInside_collEpAllgather left small
  obtain ⟨-, sent⟩ := runQueue_lengths (ex.inbox (ringPred n k)) inside sized
  rw [← ex.delivered k (ringPred n k) hk left, sent k, sendCountsTo_collEpAllgather small,
    if_pos (succ_mod_ringPred hk).symm]
  rfl

theorem ringGot_length (own : ∀ k < n, (init k .buf).length = count)
    (room : ∀ k < n, (init k .result).length = n * count) {k j : Nat} (hk : k < n) (hj : j < n - 1) :
    (ringGot ex k j).length = count := by
  have lengths := exchange_inbox_lengths ex small own room hk
  have inside : j < (ex.inbox k (ringPred n k)).length := by
    rw [← List.length_map List.length, lengths, List.length_replicate]
    exact hj
  have entry : ((ex.inbox k (ringPred n k))[j]).length = count := by
    have := congrArg (·[j]?) lengths
    simp only [List.getElem?_map, List.getElem?_eq_getElem inside, List.getElem?_replicate, hj, if_true,
      Option.map_some, Option.some.injEq] at this
    exact this
  rw [ringGot, List.getD_eq_getElem _ _ inside, List.length_take, entry, Nat.min_self]

theorem ringAt_final (own : ∀ k < n, (init k .buf).length = count)
    (room : ∀ k < n, (init k .result).length = n * count) {k : Nat} (hk : k < n) :
    RingAt n count k (init k .buf) (ringGot ex k) (n - 1) (ex.final k) :=
  ringAt_collEpAllgather hk small (ex.inbox k) (own k hk) (room k hk) (fun _ _ => rfl)
    (fun _ hj => ringGot_length ex small own room hk hj) collId

theorem ringGot_eq_ringHeld (own : ∀ k < n, (init k .buf).length = count)
    (room : ∀ k < n, (init k .result).length = n * count) {k j : Nat} (hk : k < n) (hj : j < n - 1) :
    ringGot ex k j = ringHeld (init (ringPred n k) .buf) (ringGot ex (ringPred n k)) j := by
  have left : ringPred n k < n := ringPred_lt (by omega) k
  have sent : (ex.final (ringPred n k)).sent k =
      (List.range (n - 1)).map (ringHeld (init (ringPred n k) .buf) (ringGot ex (ringPred n k))) := by
    have := (ringAt_final ex small own room left).sent
    rwa [succ_mod_ringPred hk] at this
  have held : (ringHeld (init (ringPred n k) .buf) (ringGot ex (ringPred n k)) j).length = count := by
    unfold ringHeld
    split
    · exact own _ left
    · exact ringGot_length ex small own room left (by omega)
  rw [ringGot, ← ex.delivered k (ringPred n k) hk left]
  change (((ex.final (ringPred n k)).sent k).getD j []).take count = _
  rw [sent, List.getD_eq_getElem?_getD, List.getElem?_map, List.getElem?_range hj, Option.map_some,
    Option.getD_some, List.take_of_length_le (by omega)]

theorem ringGot_eq (own : ∀ k < n, (init k .buf).length = count)
    (room : ∀ k < n, (init k .result).length = n * count) (j : Nat) :
    ∀ k < n, j < n - 1 → ringGot ex k j = init ((ringPred n)^[j + 1] k) .buf := by
  induction j with
  | zero =>
      intro k hk hj
      rw [ringGot_eq_ringHeld ex small own room hk hj]
      rfl
  | succ j ih =>
      intro k hk hj
      rw [ringGot_eq_ringHeld ex small own room hk hj, ringHeld, if_neg (Nat.succ_ne_zero j), Nat.add_sub_cancel,
        ih (ringPred n k) (ringPred_lt (by omega) k) (by omega), Function.iterate_succ_apply _ (j + 1)]

theorem exchange_blocks (own : ∀ k < n, (init k .buf).length = count)
    (room : ∀ k < n, (init k .result).length = n * count) {k b : Nat} (hk : k < n) (hb : b < n) :
    readPtr (ex.final k).bufs ⟨.result, b * count⟩ count = init b .buf := by
  obtain ⟨i, hi, rfl⟩ := exists_iterate_ringPred hk hb
  rw [(ringAt_final ex small own room hk).blocks i (by omega), ringHeld]
  split
  · rename_i first
    subst first
    rfl
  · rw [ringGot_eq ex small own room (i - 1) k hk (by omega), Nat.sub_add_cancel (by omega)]

end Fixed

theorem exchange_exists {init : Nat → AllgatherBuf → List α} (small : count < 2 ^ 31)
    (own : ∀ k < n, (init k .buf).length = count)
    (room : ∀ k < n, (init k .result).length = n * count) :
    Nonempty (Exchange n (fun k => collEpAllgather n k collId count) init) := by
  let inbox : Nat → Nat → List (List α) := fun k a =>
    if a = ringPred n k then (List.range (n - 1)).map (fun j => init ((ringPred n)^[j] a) .buf) else []
  have run : ∀ b < n, RingAt n count b (init b .buf) (fun j => init ((ringPred n)^[j + 1] b) .buf) (n - 1)
      (runQueue (inbox b) (.start (init b)) (collEpAllgather n b collId count)) := by
    intro b hb
    refine ringAt_collEpAllgather hb small (inbox b) (own b hb) (room b hb) (fun j hj => ?_)
      (fun j _ => own _ (iterate_ringPred_lt hb _)) collId
    simp only [inbox, if_pos rfl]
    rw [List.getD_eq_getElem?_getD, List.getElem?_map, List.getElem?_range hj, Option.map_some, Option.getD_some,
      ← Function.iterate_succ_apply, List.take_of_length_le (Nat.le_of_eq (own _ (iterate_ringPred_lt hb _)))]
  refine ⟨⟨inbox, fun a b ha hb => ?_⟩⟩
  by_cases right : a = (b + 1) % n
  · subst right
    rw [(run b hb).sent]
    simp only [inbox, if_pos (ringPred_succ_mod hb).symm]
    apply List.map_congr_left
    intro j _
    unfold ringHeld
    split
    · rename_i first
      subst first
      rfl
    · rename_i later
      show init ((ringPred n)^[j - 1 + 1] b) .buf = _
      rw [Nat.sub_add_cancel (Nat.pos_of_ne_zero later)]
  · rw [(run b hb).quiet a right]
    simp only [inbox]
    rw [if_neg]
    intro from_left
    apply right
    rw [from_left, succ_mod_ringPred ha]

end Exchange

end Libfabric.Coll.Blocks
