import Libfabric.Coll.Allreduce
import Libfabric.Lib.Doubling
import Mathlib.Data.List.Nodup

/-! The work queues that `coll_ep_allreduce` schedules, rank by rank. A rank
of `n` plays one of three roles: the even rank of a pair below `2 * rem`
(send, then wait for the total), the odd rank of such a pair (fold in the
neighbour, double, send the total back), or a rank from `2 * rem` (double).
This module puts each queue in that form and proves what the run needs of
it: whom each rank sends to and receives from, that every ordered pair
agrees on it, that an entry that does not fence is a receive followed by
its round's send, and that the rounds of the receives a rank waits on come
before those of its sends. -/
namespace Libfabric.Coll

open Doubling

/-! ## Sizes -/

theorem rounddownPowerOfTwo_eq {n : Nat} (hn : 0 < n) : rounddownPowerOfTwo n = 2 ^ Nat.log2 n := by
  unfold rounddownPowerOfTwo roundupPowerOfTwo
  by_cases hsmall : n < 2
  · obtain rfl : n = 1 := by omega
    decide
  · simp only [if_neg hsmall]
    have hlo : 2 ^ Nat.log2 (n - 1) ≤ n - 1 := Nat.log2_self_le (by omega)
    have hhi : n - 1 < 2 ^ (Nat.log2 (n - 1) + 1) := Nat.lt_log2_self
    have hpow : 2 ^ (Nat.log2 (n - 1) + 1) = 2 ^ Nat.log2 (n - 1) * 2 := by rw [Nat.pow_succ]
    by_cases hbig : 2 ^ (Nat.log2 (n - 1) + 1) > n
    · have hlog : Nat.log2 n = Nat.log2 (n - 1) := (Nat.log2_eq_iff (by omega)).mpr ⟨by omega, hbig⟩
      rw [if_pos hbig, hlog, hpow, Nat.mul_div_cancel _ (by decide)]
    · have hlog : Nat.log2 n = Nat.log2 (n - 1) + 1 :=
        (Nat.log2_eq_iff (by omega)).mpr ⟨by omega, by rw [Nat.pow_succ]; omega⟩
      rw [if_neg hbig, hlog]

/-- The sizes of an allreduce over `n` ranks: `pof2 = 2 ^ K` and `rem = n - pof2`. -/
structure CollSizes (n : Nat) where
  K : Nat
  rem : Nat
  pof2_eq : rounddownPowerOfTwo n = 2 ^ K
  n_eq : n = 2 ^ K + rem
  rem_lt : rem < 2 ^ K

/-- Every group of at least one rank has its sizes. -/
def CollSizes.of {n : Nat} (hn : 0 < n) : CollSizes n where
  K := Nat.log2 n
  rem := n - 2 ^ Nat.log2 n
  pof2_eq := rounddownPowerOfTwo_eq hn
  n_eq := by have := Nat.log2_self_le (Nat.pos_iff_ne_zero.mp hn); omega
  rem_lt := by
    have := @Nat.lt_log2_self n
    rw [Nat.pow_succ] at this
    omega

section Roles

variable {n : Nat} (S : CollSizes n)

theorem CollSizes.sub_pof2 : n - 2 ^ S.K = S.rem := by
  have := S.n_eq
  omega

theorem CollSizes.rem_eq : n - rounddownPowerOfTwo n = S.rem := by
  rw [S.pof2_eq, S.sub_pof2]

theorem CollSizes.two_rem_lt : 2 * S.rem < n := by
  have := S.n_eq
  have := S.rem_lt
  omega

theorem collNewId_eq (r : Nat) :
    collNewId n r = if r < 2 * S.rem then (if r % 2 = 0 then none else some (r / 2))
      else some (r - S.rem) := by
  simp only [collNewId, S.rem_eq]

theorem collNewId_eq_none_iff {r : Nat} : collNewId n r = none ↔ r < 2 * S.rem ∧ r % 2 = 0 := by
  rw [collNewId_eq S]
  split_ifs <;> simp_all

theorem collNewId_lt {r j : Nat} (hr : r < n) (h : collNewId n r = some j) : j < 2 ^ S.K := by
  have := S.n_eq
  have := S.rem_lt
  rw [collNewId_eq S] at h
  split_ifs at h <;> simp only [Option.some.injEq] at h <;> omega

theorem collRemote_of_collNewId {r j : Nat} (h : collNewId n r = some j) : collRemote S.rem j = r := by
  rw [collNewId_eq S] at h
  unfold collRemote
  split_ifs at h <;> simp only [Option.some.injEq] at h <;> split_ifs <;> omega

theorem collNewId_collRemote (j : Nat) : collNewId n (collRemote S.rem j) = some j := by
  rw [collNewId_eq S]
  unfold collRemote
  split_ifs <;> first | omega | (congr 1; omega)

theorem collRemote_lt {j : Nat} (hj : j < 2 ^ S.K) : collRemote S.rem j < n := by
  have := S.n_eq
  unfold collRemote
  split_ifs <;> omega

theorem eq_collRemote_iff {b j : Nat} : b = collRemote S.rem j ↔ collNewId n b = some j := by
  constructor
  · rintro rfl
    exact collNewId_collRemote S j
  · intro h
    exact (collRemote_of_collNewId S h).symm

end Roles

/-! ## The queue of each role -/

section Queues

variable (collId count : Nat)

/-- The doubling rounds of rank `r` of new id `j`: one pass per bit below `2 ^ K`. -/
def collRounds (rem K r j : Nat) : List UtilCollWorkItem :=
  (List.range K).flatMap fun k => doublingRound collId r count rem j (2 ^ k)

theorem doublingLoop_eq (rem K r j : Nat) :
    ∀ fuel k, K - k ≤ fuel → doublingLoop collId r count rem (2 ^ K) j (2 ^ k) fuel =
      (List.range' k (K - k)).flatMap fun i => doublingRound collId r count rem j (2 ^ i)
  | 0, k, hfuel => by
    rw [show K - k = 0 by omega]
    rfl
  | fuel + 1, k, hfuel => by
    unfold doublingLoop
    by_cases hk : k < K
    · have hmask : 2 ^ k < 2 ^ K := Nat.pow_lt_pow_right (by decide) hk
      have hshift : 2 ^ k <<< 1 = 2 ^ (k + 1) := by rw [Nat.shiftLeft_eq, Nat.pow_one, Nat.pow_succ]
      rw [if_pos hmask, hshift, doublingLoop_eq rem K r j fuel (k + 1) (by omega),
        show K - k = K - (k + 1) + 1 by omega, List.range'_succ, List.flatMap_cons]
    · have hmask : ¬ 2 ^ k < 2 ^ K := fun h => hk ((Nat.pow_lt_pow_iff_right (by decide)).mp h)
      rw [if_neg hmask, show K - k = 0 by omega]
      rfl

theorem doublingLoop_collRounds (rem K r j : Nat) :
    doublingLoop collId r count rem (2 ^ K) j 1 (2 ^ K) = collRounds collId count rem K r j := by
  have hfuel : K - 0 ≤ 2 ^ K := (Nat.sub_zero K).symm ▸ (Nat.lt_two_pow_self).le
  rw [← Nat.pow_zero 2, doublingLoop_eq collId count rem K r j (2 ^ K) 0 hfuel,
    Nat.sub_zero, ← List.range_eq_range', collRounds]

variable {n : Nat} (S : CollSizes n) {r : Nat}

theorem collEpAllreduce_even (hr : r < 2 * S.rem) (heven : r % 2 = 0) :
    collEpAllreduce n r collId count =
      [collSchedSend collId r count (r + 1) .result true,
        collSchedRecv collId count (r + 1) .result true, collSchedComp] := by
  have hid : collNewId n r = none := (collNewId_eq_none_iff S).mpr ⟨hr, heven⟩
  simp only [collEpAllreduce, collDoAllreduce, S.pof2_eq, hid, S.sub_pof2, if_pos hr, heven,
    if_true, ne_eq, not_true_eq_false, if_false]
  rfl

theorem collEpAllreduce_odd (hr : r < 2 * S.rem) (hodd : r % 2 = 1) :
    collEpAllreduce n r collId count =
      [collSchedRecv collId count (r - 1) .tmp true, collSchedReduce .tmp .result true] ++
        collRounds collId count S.rem S.K r (r / 2) ++
          [collSchedSend collId r count (r - 1) .result true, collSchedComp] := by
  have hid : collNewId n r = some (r / 2) := by
    rw [collNewId_eq S, if_pos hr, if_neg (by omega)]
  have hne : r % 2 ≠ 0 := by omega
  simp only [collEpAllreduce, collDoAllreduce, S.pof2_eq, hid, S.sub_pof2, if_pos hr, hne, if_false,
    ne_eq, not_false_eq_true, if_true, doublingLoop_collRounds, List.append_assoc]
  rfl

theorem collEpAllreduce_upper (hr : 2 * S.rem ≤ r) :
    collEpAllreduce n r collId count = collRounds collId count S.rem S.K r (r - S.rem) ++ [collSchedComp] := by
  have hid : collNewId n r = some (r - S.rem) := by
    rw [collNewId_eq S, if_neg (by omega)]
  have hlt : ¬ r < 2 * S.rem := by omega
  simp only [collEpAllreduce, collDoAllreduce, S.pof2_eq, hid, S.sub_pof2, if_neg hlt,
    doublingLoop_collRounds, List.nil_append, List.append_nil]

end Queues

/-! ## Partners -/

/-- The rank a send goes to. -/
def WorkItem.sendDst : WorkItem → Option Nat
  | .send x => some x.remoteRank
  | _ => none

/-- The rank a receive comes from. -/
def WorkItem.recvSrc : WorkItem → Option Nat
  | .recv x => some x.remoteRank
  | _ => none

/-- The ranks a queue sends to, in order. -/
def sendDsts (queue : List UtilCollWorkItem) : List Nat := queue.filterMap (·.work.sendDst)

/-- The ranks a queue receives from, in order. -/
def recvSrcs (queue : List UtilCollWorkItem) : List Nat := queue.filterMap (·.work.recvSrc)

@[simp] theorem sendDsts_append (l l' : List UtilCollWorkItem) :
    sendDsts (l ++ l') = sendDsts l ++ sendDsts l' := List.filterMap_append

@[simp] theorem recvSrcs_append (l l' : List UtilCollWorkItem) :
    recvSrcs (l ++ l') = recvSrcs l ++ recvSrcs l' := List.filterMap_append

theorem sendDsts_flatMap {α : Type} (l : List α) (f : α → List UtilCollWorkItem) :
    sendDsts (l.flatMap f) = l.flatMap fun a => sendDsts (f a) := List.filterMap_flatMap

theorem recvSrcs_flatMap {α : Type} (l : List α) (f : α → List UtilCollWorkItem) :
    recvSrcs (l.flatMap f) = l.flatMap fun a => recvSrcs (f a) := List.filterMap_flatMap

/-- The partners of new id `j`, round by round. -/
def collPartners (rem K j : Nat) : List Nat := (List.range K).map fun k => collRemote rem (j ^^^ 2 ^ k)

section Partners

variable (collId count : Nat)

theorem sendDsts_doublingRound (rem r j mask : Nat) :
    sendDsts (doublingRound collId r count rem j mask) = [collRemote rem (j ^^^ mask)] := by
  simp only [doublingRound]
  split_ifs <;> rfl

theorem recvSrcs_doublingRound (rem r j mask : Nat) :
    recvSrcs (doublingRound collId r count rem j mask) = [collRemote rem (j ^^^ mask)] := by
  simp only [doublingRound]
  split_ifs <;> rfl

theorem sendDsts_collRounds (rem K r j : Nat) :
    sendDsts (collRounds collId count rem K r j) = collPartners rem K j := by
  simp only [collRounds, sendDsts_flatMap, sendDsts_doublingRound, collPartners, List.map_eq_flatMap]

theorem recvSrcs_collRounds (rem K r j : Nat) :
    recvSrcs (collRounds collId count rem K r j) = collPartners rem K j := by
  simp only [collRounds, recvSrcs_flatMap, recvSrcs_doublingRound, collPartners, List.map_eq_flatMap]

variable {n : Nat} (S : CollSizes n)

theorem mem_collPartners {b j : Nat} :
    b ∈ collPartners S.rem S.K j ↔ ∃ k < S.K, collNewId n b = some (j ^^^ 2 ^ k) := by
  simp only [collPartners, List.mem_map, List.mem_range, eq_comm (b := b), eq_collRemote_iff S]

theorem collPartners_nodup (j : Nat) : (collPartners S.rem S.K j).Nodup := by
  refine List.Nodup.map_on (fun k _ k' _ same => ?_) List.nodup_range
  have hid := congrArg (collNewId n) same
  rw [collNewId_collRemote S, collNewId_collRemote S, Option.some.injEq] at hid
  exact xor_two_pow_inj hid

theorem not_mem_collPartners {b j : Nat} (hb : collNewId n b = none) : b ∉ collPartners S.rem S.K j := by
  rw [mem_collPartners S]
  rintro ⟨k, -, hk⟩
  rw [hb] at hk
  cases hk

/-- Rank `a` sends to rank `b`: an even rank to its odd neighbour in the
pre-step, the odd rank back in the post-step, or two ranks whose new ids
differ in one bit below `pof2`. -/
def CollSends (a b : Nat) : Prop :=
  (collNewId n a = none ∧ b = a + 1) ∨ (collNewId n b = none ∧ a = b + 1) ∨
    ∃ j k, collNewId n a = some j ∧ k < S.K ∧ collNewId n b = some (j ^^^ 2 ^ k)

theorem partner_iff {a b j' : Nat} (hb : collNewId n b = some j') :
    (∃ j k, collNewId n a = some j ∧ k < S.K ∧ collNewId n b = some (j ^^^ 2 ^ k)) ↔
      a ∈ collPartners S.rem S.K j' := by
  rw [mem_collPartners S, hb]
  constructor
  · rintro ⟨j, k, ha, hk, hj⟩
    refine ⟨k, hk, ?_⟩
    rw [ha, Option.some.injEq] at *
    rw [hj, Nat.xor_xor_cancel_right]
  · rintro ⟨k, hk, ha⟩
    exact ⟨_, k, ha, hk, by rw [Nat.xor_xor_cancel_right]⟩

theorem partner_iff_sender {a b j : Nat} (ha : collNewId n a = some j) :
    (∃ j k, collNewId n a = some j ∧ k < S.K ∧ collNewId n b = some (j ^^^ 2 ^ k)) ↔
      b ∈ collPartners S.rem S.K j := by
  rw [mem_collPartners S, ha]
  constructor
  · rintro ⟨j, k, hj, hk, hb⟩
    cases hj
    exact ⟨k, hk, hb⟩
  · rintro ⟨k, hk, hb⟩
    exact ⟨j, k, rfl, hk, hb⟩

theorem mem_sendDsts {a b : Nat} :
    b ∈ sendDsts (collEpAllreduce n a collId count) ↔ CollSends S a b := by
  unfold CollSends
  by_cases h2 : a < 2 * S.rem
  · rcases Nat.mod_two_eq_zero_or_one a with heven | hodd
    · have hid : collNewId n a = none := (collNewId_eq_none_iff S).mpr ⟨h2, heven⟩
      rw [collEpAllreduce_even collId count S h2 heven, hid]
      show b ∈ [a + 1] ↔ _
      have hpost : ¬ (collNewId n b = none ∧ a = b + 1) := by
        rw [collNewId_eq_none_iff S]
        omega
      simp only [List.mem_singleton, true_and, hpost, reduceCtorEq, false_and,
        exists_false, or_false]
    · have hid : collNewId n a = some (a / 2) := by
        rw [collNewId_eq S, if_pos h2, if_neg (by omega)]
      rw [collEpAllreduce_odd collId count S h2 hodd, partner_iff_sender S hid, hid, sendDsts_append,
        sendDsts_append, sendDsts_collRounds]
      have hpost : collNewId n b = none ∧ a = b + 1 ↔ b = a - 1 := by
        rw [collNewId_eq_none_iff S]
        omega
      show b ∈ [] ++ collPartners S.rem S.K (a / 2) ++ [a - 1] ↔ _
      simp only [List.nil_append, List.mem_append, List.mem_singleton, hpost, reduceCtorEq,
        false_and, false_or, or_comm]
  · have hid : collNewId n a = some (a - S.rem) := by
      rw [collNewId_eq S, if_neg h2]
    rw [collEpAllreduce_upper collId count S (by omega), partner_iff_sender S hid, hid,
      sendDsts_append, sendDsts_collRounds]
    have hpost : ¬ (collNewId n b = none ∧ a = b + 1) := by
      rw [collNewId_eq_none_iff S]
      omega
    show b ∈ collPartners S.rem S.K (a - S.rem) ++ [] ↔ _
    simp only [List.append_nil, hpost, reduceCtorEq, false_and, false_or]

theorem mem_recvSrcs {a b : Nat} :
    a ∈ recvSrcs (collEpAllreduce n b collId count) ↔ CollSends S a b := by
  unfold CollSends
  by_cases h2 : b < 2 * S.rem
  · rcases Nat.mod_two_eq_zero_or_one b with heven | hodd
    · have hid : collNewId n b = none := (collNewId_eq_none_iff S).mpr ⟨h2, heven⟩
      rw [collEpAllreduce_even collId count S h2 heven, hid]
      show a ∈ [b + 1] ↔ _
      have hpre : ¬ (collNewId n a = none ∧ b = a + 1) := by
        rw [collNewId_eq_none_iff S]
        omega
      simp only [List.mem_singleton, true_and, hpre, false_or, reduceCtorEq, and_false,
        exists_false, or_false]
    · have hid : collNewId n b = some (b / 2) := by
        rw [collNewId_eq S, if_pos h2, if_neg (by omega)]
      rw [collEpAllreduce_odd collId count S h2 hodd, partner_iff S hid, hid, recvSrcs_append,
        recvSrcs_append, recvSrcs_collRounds]
      have hpre : collNewId n a = none ∧ b = a + 1 ↔ a = b - 1 := by
        rw [collNewId_eq_none_iff S]
        omega
      show a ∈ [b - 1] ++ collPartners S.rem S.K (b / 2) ++ [] ↔ _
      simp only [List.append_nil, List.mem_append, List.mem_singleton, hpre, reduceCtorEq,
        false_and, false_or]
  · have hid : collNewId n b = some (b - S.rem) := by
      rw [collNewId_eq S, if_neg h2]
    rw [collEpAllreduce_upper collId count S (by omega), partner_iff S hid, hid, recvSrcs_append,
      recvSrcs_collRounds]
    have hpre : ¬ (collNewId n a = none ∧ b = a + 1) := by
      rw [collNewId_eq_none_iff S]
      omega
    show a ∈ collPartners S.rem S.K (b - S.rem) ++ [] ↔ _
    simp only [List.append_nil, hpre, reduceCtorEq, false_and, false_or]

end Partners

/-- What each entry of rank `r`'s queue carries: it waits; a send goes out of
`result` tagged with `r`; a receive is tagged with its source; both carry
`count` as the `int` of the work item, between ranks of the group. -/
def EntryOk (n collId count r : Nat) (e : UtilCollWorkItem) : Prop :=
  e.state = .waiting ∧
    match e.work with
    | .send x => x.tag = collFormTag collId r ∧ x.buf = .result ∧ x.count = int32Of count ∧ x.remoteRank < n
    | .recv x => x.tag = collFormTag collId x.remoteRank ∧ x.count = int32Of count ∧ x.remoteRank < n
    | _ => True

section Entries

variable (collId count : Nat) {n : Nat} (S : CollSizes n)

theorem entryOk_doublingRound {r j mask : Nat} (hremote : collRemote S.rem (j ^^^ mask) < n) :
    ∀ e ∈ doublingRound collId r count S.rem j mask, EntryOk n collId count r e := by
  simp only [doublingRound]
  split_ifs <;>
    simp [EntryOk, collSchedRecv, collSchedSend, collSchedReduce, collSchedCopy, hremote]

theorem entryOk_collRounds {r j : Nat} (hj : j < 2 ^ S.K) :
    ∀ e ∈ collRounds collId count S.rem S.K r j, EntryOk n collId count r e := by
  intro e he
  obtain ⟨k, hk, he⟩ := List.mem_flatMap.mp he
  exact entryOk_doublingRound collId count S
    (collRemote_lt S (xor_two_pow_lt hj (List.mem_range.mp hk))) e he

include S in
theorem entryOk_collEpAllreduce {r : Nat} (hr : r < n) :
    ∀ e ∈ collEpAllreduce n r collId count, EntryOk n collId count r e := by
  have hlt := S.two_rem_lt
  by_cases h2 : r < 2 * S.rem
  · rcases Nat.mod_two_eq_zero_or_one r with heven | hodd
    · rw [collEpAllreduce_even collId count S h2 heven]
      simp [EntryOk, collSchedRecv, collSchedSend, collSchedComp]
      omega
    · have hj : r / 2 < 2 ^ S.K := by have := S.rem_lt; omega
      rw [collEpAllreduce_odd collId count S h2 hodd]
      simp only [List.forall_mem_append]
      refine ⟨⟨?_, entryOk_collRounds collId count S hj⟩, ?_⟩ <;>
        simp [EntryOk, collSchedRecv, collSchedSend, collSchedReduce, collSchedComp] <;> omega
  · have hj : r - S.rem < 2 ^ S.K := by have := S.n_eq; omega
    rw [collEpAllreduce_upper collId count S (by omega)]
    simp only [List.forall_mem_append]
    exact ⟨entryOk_collRounds collId count S hj, by simp [EntryOk, collSchedComp]⟩

end Entries

section Counts

variable (collId count : Nat) {n : Nat} (S : CollSizes n)
include S

theorem sendDsts_nodup (a : Nat) : (sendDsts (collEpAllreduce n a collId count)).Nodup := by
  by_cases h2 : a < 2 * S.rem
  · rcases Nat.mod_two_eq_zero_or_one a with heven | hodd
    · rw [collEpAllreduce_even collId count S h2 heven]
      exact List.nodup_singleton _
    · rw [collEpAllreduce_odd collId count S h2 hodd, sendDsts_append, sendDsts_append,
        sendDsts_collRounds]
      have hback : collNewId n (a - 1) = none := (collNewId_eq_none_iff S).mpr ⟨by omega, by omega⟩
      show ([] ++ collPartners S.rem S.K (a / 2) ++ [a - 1]).Nodup
      rw [List.nil_append, List.nodup_append]
      refine ⟨collPartners_nodup S _, List.nodup_singleton _, ?_⟩
      rintro b hb c hc rfl
      rw [List.mem_singleton] at hc
      exact not_mem_collPartners S (hc ▸ hback) hb
  · rw [collEpAllreduce_upper collId count S (by omega), sendDsts_append, sendDsts_collRounds]
    exact (List.append_nil _).symm ▸ collPartners_nodup S _

theorem recvSrcs_nodup (b : Nat) : (recvSrcs (collEpAllreduce n b collId count)).Nodup := by
  by_cases h2 : b < 2 * S.rem
  · rcases Nat.mod_two_eq_zero_or_one b with heven | hodd
    · rw [collEpAllreduce_even collId count S h2 heven]
      exact List.nodup_singleton _
    · rw [collEpAllreduce_odd collId count S h2 hodd, recvSrcs_append, recvSrcs_append,
        recvSrcs_collRounds]
      have hback : collNewId n (b - 1) = none := (collNewId_eq_none_iff S).mpr ⟨by omega, by omega⟩
      show ([b - 1] ++ collPartners S.rem S.K (b / 2) ++ []).Nodup
      rw [List.append_nil, List.nodup_append]
      refine ⟨List.nodup_singleton _, collPartners_nodup S _, ?_⟩
      rintro c hc a ha rfl
      rw [List.mem_singleton] at hc
      exact not_mem_collPartners S (hc ▸ hback) ha
  · rw [collEpAllreduce_upper collId count S (by omega), recvSrcs_append, recvSrcs_collRounds]
    exact (List.append_nil _).symm ▸ collPartners_nodup S _

/-- The counts of the sends a work queue makes to rank `b`, in order. -/
def sendCounts (queue : List UtilCollWorkItem) (b : Nat) : List Int :=
  queue.filterMap fun e =>
    match e.work with
    | .send x => if x.remoteRank = b then some x.count else none
    | _ => none

/-- The counts of the receives a work queue posts from rank `a`, in order. -/
def recvCounts (queue : List UtilCollWorkItem) (a : Nat) : List Int :=
  queue.filterMap fun e =>
    match e.work with
    | .recv x => if x.remoteRank = a then some x.count else none
    | _ => none

omit S in
theorem sendCounts_eq_replicate {c : Int} {b : Nat} :
    ∀ queue : List UtilCollWorkItem, (∀ e ∈ queue, ∀ x, e.work = .send x → x.count = c) →
      sendCounts queue b = List.replicate ((sendDsts queue).count b) c
  | [], _ => rfl
  | e :: rest, hc => by
    have ih := @sendCounts_eq_replicate c b rest fun e' he' => hc e' (List.mem_cons_of_mem e he')
    simp only [sendCounts, sendDsts, List.filterMap_cons] at ih ⊢
    cases hw : e.work
    case send x =>
      have hx := hc e List.mem_cons_self x hw
      by_cases hb : x.remoteRank = b
      · simp [hb, WorkItem.sendDst, ih, hx, List.replicate_succ]
      · simp [hb, WorkItem.sendDst, ih]
    all_goals simp [WorkItem.sendDst, ih]

omit S in
theorem recvCounts_eq_replicate {c : Int} {a : Nat} :
    ∀ queue : List UtilCollWorkItem, (∀ e ∈ queue, ∀ x, e.work = .recv x → x.count = c) →
      recvCounts queue a = List.replicate ((recvSrcs queue).count a) c
  | [], _ => rfl
  | e :: rest, hc => by
    have ih := @recvCounts_eq_replicate c a rest fun e' he' => hc e' (List.mem_cons_of_mem e he')
    simp only [recvCounts, recvSrcs, List.filterMap_cons] at ih ⊢
    cases hw : e.work
    case recv x =>
      have hx := hc e List.mem_cons_self x hw
      by_cases ha : x.remoteRank = a
      · simp [ha, WorkItem.recvSrc, ih, hx, List.replicate_succ]
      · simp [ha, WorkItem.recvSrc, ih]
    all_goals simp [WorkItem.recvSrc, ih]

theorem sendCounts_eq_recvCounts {a b : Nat} (ha : a < n) (hb : b < n) :
    sendCounts (collEpAllreduce n a collId count) b = recvCounts (collEpAllreduce n b collId count) a := by
  have hsend : ∀ e ∈ collEpAllreduce n a collId count, ∀ x, e.work = .send x → x.count = int32Of count := by
    intro e he x hx
    have hok := (entryOk_collEpAllreduce collId count S ha e he).2
    rw [hx] at hok
    exact hok.2.2.1
  have hrecv : ∀ e ∈ collEpAllreduce n b collId count, ∀ x, e.work = .recv x → x.count = int32Of count := by
    intro e he x hx
    have hok := (entryOk_collEpAllreduce collId count S hb e he).2
    rw [hx] at hok
    exact hok.2.1
  rw [sendCounts_eq_replicate _ hsend, recvCounts_eq_replicate _ hrecv]
  congr 1
  by_cases hab : CollSends S a b
  · rw [List.count_eq_one_of_mem (sendDsts_nodup collId count S a) ((mem_sendDsts collId count S).mpr hab),
      List.count_eq_one_of_mem (recvSrcs_nodup collId count S b) ((mem_recvSrcs collId count S).mpr hab)]
  · rw [List.count_eq_zero_of_not_mem (mt (mem_sendDsts collId count S).mp hab),
      List.count_eq_zero_of_not_mem (mt (mem_recvSrcs collId count S).mp hab)]

end Counts

/-! ## Fences -/

/-- The entry after one that does not fence: `e` receives into `tmp_buf` and
`e'` is the fencing send of the same round, to the same rank. -/
def OpensRound (e e' : UtilCollWorkItem) : Prop :=
  ∃ x y, e.work = .recv x ∧ x.buf = .tmp ∧ e'.work = .send y ∧ y.remoteRank = x.remoteRank ∧
    e'.fence = true

/-- Every entry of a queue that does not fence opens a round, and the last
entry fences. -/
def Paired : List UtilCollWorkItem → Prop
  | [] => True
  | [e] => e.fence = true
  | e :: e' :: rest => (e.fence = false → OpensRound e e') ∧ Paired (e' :: rest)

theorem Paired.append : ∀ {l l' : List UtilCollWorkItem}, Paired l → Paired l' → Paired (l ++ l')
  | [], _, _, h' => h'
  | [_], [], h, _ => h
  | [_], _ :: _, h, h' => ⟨fun hf => absurd (h.symm.trans hf) Bool.noConfusion, h'⟩
  | _ :: _ :: _, _, h, h' => ⟨h.1, Paired.append h.2 h'⟩

theorem Paired.flatMap {α : Type} {f : α → List UtilCollWorkItem} :
    ∀ {l : List α}, (∀ a ∈ l, Paired (f a)) → Paired (l.flatMap f)
  | [], _ => trivial
  | a :: l, h => by
    rw [List.flatMap_cons]
    exact (h a List.mem_cons_self).append (Paired.flatMap fun b hb => h b (List.mem_cons_of_mem a hb))

theorem Paired.next : ∀ {l : List UtilCollWorkItem} {q : Nat} {e : UtilCollWorkItem}, Paired l →
    l[q]? = some e → e.fence = false → ∃ e', l[q + 1]? = some e' ∧ OpensRound e e'
  | [_], 0, _, h, he, hf => by
    cases he
    exact absurd (h.symm.trans hf) Bool.noConfusion
  | _ :: _ :: _, 0, _, h, he, hf => by
    cases he
    exact ⟨_, rfl, h.1 hf⟩
  | _ :: e' :: rest, q + 1, _, h, he, hf => @Paired.next (e' :: rest) q _ h.2 he hf

theorem paired_doublingRound (collId r count rem j mask : Nat) :
    Paired (doublingRound collId r count rem j mask) := by
  simp only [doublingRound]
  split_ifs <;>
    simp [Paired, OpensRound, collSchedRecv, collSchedSend, collSchedReduce, collSchedCopy]

theorem paired_collEpAllreduce {n : Nat} (S : CollSizes n) (collId count r : Nat) :
    Paired (collEpAllreduce n r collId count) := by
  have hrounds : ∀ j, Paired (collRounds collId count S.rem S.K r j) := fun j =>
    Paired.flatMap fun _ _ => paired_doublingRound ..
  by_cases h2 : r < 2 * S.rem
  · rcases Nat.mod_two_eq_zero_or_one r with heven | hodd
    · rw [collEpAllreduce_even collId count S h2 heven]
      simp [Paired, collSchedSend, collSchedRecv, collSchedComp]
    · rw [collEpAllreduce_odd collId count S h2 hodd]
      refine Paired.append (Paired.append ?_ (hrounds _)) ?_ <;>
        simp [Paired, collSchedSend, collSchedRecv, collSchedReduce, collSchedComp]
  · rw [collEpAllreduce_upper collId count S (by omega)]
    exact (hrounds _).append (by simp [Paired, collSchedComp])

/-! ## Rounds -/

section Levels

variable {n : Nat} (S : CollSizes n)

/-- The round of the message from `src` to `dst`: `0` in the pre-step, `k + 1`
in doubling round `k`, and `K + 1` in the post-step. Both ends of a message
agree on it. -/
def msgLevel (src dst : Nat) : Nat :=
  match collNewId n src, collNewId n dst with
  | none, _ => 0
  | some _, none => S.K + 1
  | some j, some j' => Nat.log2 (j ^^^ j') + 1

/-- In rank `r`'s queue, a receive that comes before a send waits on an
earlier round than the send's, or opens the send's round. -/
def LevelOrdered (r : Nat) (queue : List UtilCollWorkItem) : Prop :=
  queue.Pairwise fun e e' => ∀ u v, e.work.recvSrc = some u → e'.work.sendDst = some v →
    msgLevel S u r < msgLevel S r v ∨ (u = v ∧ e.fence = false)

theorem msgLevel_of_none {u : Nat} (hu : collNewId n u = none) (r : Nat) : msgLevel S u r = 0 := by
  simp only [msgLevel, hu]

theorem msgLevel_pos {r j : Nat} (hr : collNewId n r = some j) (v : Nat) : 0 < msgLevel S r v := by
  cases hv : collNewId n v <;> simp only [msgLevel, hr, hv] <;> omega

theorem msgLevel_post {r j v : Nat} (hr : collNewId n r = some j) (hv : collNewId n v = none) :
    msgLevel S r v = S.K + 1 := by
  simp only [msgLevel, hr, hv]

theorem msgLevel_partner_recv {r j : Nat} (hr : collNewId n r = some j) (k : Nat) :
    msgLevel S (collRemote S.rem (j ^^^ 2 ^ k)) r = k + 1 := by
  simp only [msgLevel, collNewId_collRemote S, hr]
  rw [Nat.xor_comm, log2_xor_partner]

theorem msgLevel_partner_send {r j : Nat} (hr : collNewId n r = some j) (k : Nat) :
    msgLevel S r (collRemote S.rem (j ^^^ 2 ^ k)) = k + 1 := by
  simp only [msgLevel, collNewId_collRemote S, hr, log2_xor_partner]

theorem mem_recvSrcs_of_mem {l : List UtilCollWorkItem} {e : UtilCollWorkItem} {u : Nat}
    (he : e ∈ l) (hu : e.work.recvSrc = some u) : u ∈ recvSrcs l :=
  List.mem_filterMap.mpr ⟨e, he, hu⟩

theorem mem_sendDsts_of_mem {l : List UtilCollWorkItem} {e : UtilCollWorkItem} {v : Nat}
    (he : e ∈ l) (hv : e.work.sendDst = some v) : v ∈ sendDsts l :=
  List.mem_filterMap.mpr ⟨e, he, hv⟩

variable {S}

theorem LevelOrdered.append {r : Nat} {l l' : List UtilCollWorkItem} (h : LevelOrdered S r l)
    (h' : LevelOrdered S r l')
    (hlt : ∀ u ∈ recvSrcs l, ∀ v ∈ sendDsts l', msgLevel S u r < msgLevel S r v) :
    LevelOrdered S r (l ++ l') :=
  List.pairwise_append.mpr ⟨h, h', fun _ he _ he' u v hu hv =>
    Or.inl (hlt u (mem_recvSrcs_of_mem he hu) v (mem_sendDsts_of_mem he' hv))⟩

theorem LevelOrdered.flatMap {α : Type} {r : Nat} {f : α → List UtilCollWorkItem} {l : List α}
    (h : ∀ a ∈ l, LevelOrdered S r (f a))
    (hlt : l.Pairwise fun a a' => ∀ u ∈ recvSrcs (f a), ∀ v ∈ sendDsts (f a'),
      msgLevel S u r < msgLevel S r v) :
    LevelOrdered S r (l.flatMap f) :=
  List.pairwise_flatMap.mpr ⟨h, hlt.imp fun hk _ he _ he' u v hu hv =>
    Or.inl (hk u (mem_recvSrcs_of_mem he hu) v (mem_sendDsts_of_mem he' hv))⟩

variable (S) (collId count : Nat)

theorem levelOrdered_doublingRound (r j mask : Nat) :
    LevelOrdered S r (doublingRound collId r count S.rem j mask) := by
  simp only [doublingRound]
  split_ifs <;>
    simp [LevelOrdered, collSchedRecv, collSchedSend, collSchedReduce, collSchedCopy,
      WorkItem.recvSrc, WorkItem.sendDst]

theorem levelOrdered_collRounds {r j : Nat} (hr : collNewId n r = some j) :
    LevelOrdered S r (collRounds collId count S.rem S.K r j) := by
  refine LevelOrdered.flatMap (fun _ _ => levelOrdered_doublingRound S collId count r j _) ?_
  refine List.pairwise_lt_range.imp fun {k k'} hkk' u hu v hv => ?_
  rw [recvSrcs_doublingRound, List.mem_singleton] at hu
  rw [sendDsts_doublingRound, List.mem_singleton] at hv
  rw [hu, hv, msgLevel_partner_recv S hr, msgLevel_partner_send S hr]
  omega

theorem levelOrdered_collEpAllreduce (r : Nat) :
    LevelOrdered S r (collEpAllreduce n r collId count) := by
  by_cases h2 : r < 2 * S.rem
  · rcases Nat.mod_two_eq_zero_or_one r with heven | hodd
    · rw [collEpAllreduce_even collId count S h2 heven]
      simp [LevelOrdered, collSchedSend, collSchedRecv, collSchedComp, WorkItem.recvSrc,
        WorkItem.sendDst]
    · have hid : collNewId n r = some (r / 2) := by
        rw [collNewId_eq S, if_pos h2, if_neg (by omega)]
      have hback : collNewId n (r - 1) = none := (collNewId_eq_none_iff S).mpr ⟨by omega, by omega⟩
      rw [collEpAllreduce_odd collId count S h2 hodd]
      refine LevelOrdered.append (LevelOrdered.append ?_ (levelOrdered_collRounds S collId count hid) ?_)
        ?_ ?_
      · simp [LevelOrdered, collSchedRecv, collSchedReduce, WorkItem.sendDst]
      · intro u hu v _
        have hu' : u = r - 1 := List.mem_singleton.mp hu
        rw [hu', msgLevel_of_none S hback]
        exact msgLevel_pos S hid v
      · simp [LevelOrdered, collSchedSend, collSchedComp, WorkItem.recvSrc]
      · intro u hu v hv
        have hv' : v = r - 1 := List.mem_singleton.mp hv
        rw [hv', msgLevel_post S hid hback]
        rw [recvSrcs_append, recvSrcs_collRounds, List.mem_append] at hu
        rcases hu with hu | hu
        · rw [List.mem_singleton.mp hu, msgLevel_of_none S hback]
          omega
        · obtain ⟨k, hk, rfl⟩ := List.mem_map.mp hu
          rw [msgLevel_partner_recv S hid]
          have := List.mem_range.mp hk
          omega
  · have hid : collNewId n r = some (r - S.rem) := by
      rw [collNewId_eq S, if_neg h2]
    rw [collEpAllreduce_upper collId count S (by omega)]
    refine LevelOrdered.append (levelOrdered_collRounds S collId count hid) ?_ ?_
    · simp [LevelOrdered]
    · intro u _ v hv
      exact absurd hv List.not_mem_nil

end Levels

end Libfabric.Coll
