import Libfabric.Coll.Tree

/-! `coll_ep_broadcast`: a scatter of `chunk_cnt`-element chunks of `buf`
followed by an allgather of the chunks back into `buf`. `chunk_cnt` is
`count` shared in `numranks` rounded up, so the allgather fills `numranks`
chunks of `buf`, past its `count` elements whenever `numranks` does not
divide `count`; and a rank whose chunk would start more than a chunk past
`count` sets its own `chunk_cnt` to `0`, which its neighbours do not. -/
namespace Libfabric.Coll.Blocks

section Chunks

variable {n count : Nat}

theorem collEpBroadcastChunkCnt_zero (count n : Nat) : collEpBroadcastChunkCnt count n 0 = (count + n - 1) / n := by
  simp [collEpBroadcastChunkCnt]

theorem lt_mul_chunk (hn : 0 < n) (uneven : count % n ≠ 0) : count < n * ((count + n - 1) / n) := by
  have split := Nat.div_add_mod count n
  have rest : count % n < n := Nat.mod_lt count hn
  have up : (count + n - 1) / n = count / n + 1 := by
    have shape : count + n - 1 = (count % n + n - 1) + n * (count / n) := by omega
    have carry : (count % n + n - 1) / n = 1 :=
      Nat.div_eq_of_lt_le (show 1 * n ≤ count % n + n - 1 by omega) (show count % n + n - 1 < (1 + 1) * n by omega)
    rw [shape, Nat.add_mul_div_left _ _ hn, carry, Nat.add_comm]
  rw [up, Nat.mul_succ]
  omega

theorem int32Of_one : int32Of 1 = 1 := by decide

theorem collEpBroadcastChunkCnt_one (four : 4 ≤ n) (small : n < 2 ^ 64) :
    collEpBroadcastChunkCnt 1 n 0 = 1 ∧ collEpBroadcastChunkCnt 1 n (n - 1) = 0 := by
  have one : (1 + n - 1) / n = 1 := by
    rw [Nat.add_sub_cancel_left, Nat.div_self (by omega)]
  refine ⟨by rw [collEpBroadcastChunkCnt_zero, one], ?_⟩
  -- `chunk_cnt * local - (int) count` is `numranks - 2`, well above one chunk
  have past : ((((1 * (n - 1) : Nat) : Int) - int32Of 1) % 2 ^ 64) = (n : Int) - 2 := by
    rw [int32Of_one, Nat.one_mul, Nat.cast_sub (by omega), Nat.cast_one, show (n : Int) - 1 - 1 = n - 2 by omega]
    exact Int.emod_eq_of_lt (by omega) (by omega)
  simp only [collEpBroadcastChunkCnt, one, past]
  rw [if_pos ⟨by omega, by omega⟩]

end Chunks

/-- Software broadcast writes past `buf`. On every number of ranks that does
not divide `count`, rank `0` keeps the chunk `count` shared out rounded up,
and its allgather receives the chunk of rank `numranks - 1` into `buf` at
`(numranks - 1) * chunk_cnt`, which ends past the `count` elements of `buf`;
and with one element on four ranks or more, the last rank computes a chunk of
`0` while rank `0` computes `1`. -/
theorem collEpBroadcast_overruns_buf {n collId count root : Nat} (hn : 0 < n) (uneven : count % n ≠ 0) :
    (collEpBroadcast n 0 collId count root).1 = (count + n - 1) / n ∧
      collSchedRecv collId (n - 1) ⟨.buf, (n - 1) * ((count + n - 1) / n)⟩ ((count + n - 1) / n) true ∈
        (collEpBroadcast n 0 collId count root).2.2 ∧
      count < (n - 1) * ((count + n - 1) / n) + (count + n - 1) / n ∧
      (4 ≤ n → n < 2 ^ 64 → collEpBroadcastChunkCnt 1 n 0 = 1 ∧ collEpBroadcastChunkCnt 1 n (n - 1) = 0) := by
  have two : 2 ≤ n := by
    by_contra small
    obtain rfl : n = 1 := by omega
    exact uneven (Nat.mod_one count)
  have left : (n + 0 - 1) % n = n - 1 := by
    rw [Nat.add_zero, Nat.mod_eq_of_lt (by omega)]
  have chunk : collEpBroadcastChunkCnt count n 0 = (count + n - 1) / n := collEpBroadcastChunkCnt_zero count n
  refine ⟨chunk, ?_, ?_, fun four small => collEpBroadcastChunkCnt_one four small⟩
  · -- the receive of the first pass of the ring
    obtain ⟨steps, more⟩ : ∃ steps, n - 1 = steps + 1 := ⟨n - 2, by omega⟩
    simp only [collEpBroadcast, chunk, collDoAllgather, left, more, allgatherLoop, List.mem_append,
      List.mem_cons]
    simp
  · rw [← Nat.succ_mul, Nat.succ_eq_add_one, Nat.sub_add_cancel (by omega)]
    exact lt_mul_chunk hn uneven

theorem collEpBroadcast_overruns_buf_four :
    (0 < 4 ∧ 1 % 4 ≠ 0) ∧
      collSchedRecv 0 3 ⟨BroadcastBuf.buf, 3 * 1⟩ 1 true ∈ (collEpBroadcast 4 0 0 1 0).2.2 ∧ 1 < 3 * 1 + 1 := by
  have overrun := @collEpBroadcast_overruns_buf 4 0 1 0 (by decide) (by decide)
  exact ⟨by decide, overrun.2.1, overrun.2.2.1⟩

end Libfabric.Coll.Blocks
