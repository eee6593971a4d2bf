import Libfabric.Coll.Schedule

/-! What an allreduce computes. A queue run in order on abstract buffer values
(`seqRun`), with the contents of each received message given in closed form
(`msgVal`): an even rank sends its input, a rank of new id `j` sends its
block product of the round, and the odd rank of a pair sends the total back.
Every rank's queue then sends exactly these values and ends with the product
of all inputs in `result`. The values live in a commutative monoid; the run
of the ranks themselves only multiplies. -/
namespace Libfabric.Coll

open Doubling

variable {N : Type*} [CommMonoid N]

/-- One entry on abstract buffers, where `recvVal src` is the contents of the
message from `src`: a receive fills its buffer, a reduction is
`inout = inout op in`, a copy overwrites, a send and the completion change
nothing. -/
def runWork (recvVal : Nat → N) (b : CollBuf → N) : WorkItem → CollBuf → N
  | .send _ => b
  | .recv x => Function.update b x.buf (recvVal x.remoteRank)
  | .reduce inBuf inoutBuf => Function.update b inoutBuf (b inoutBuf * b inBuf)
  | .copy inBuf outBuf => Function.update b outBuf (b inBuf)
  | .comp => b

/-- A queue run in order. -/
def seqRun (recvVal : Nat → N) (b : CollBuf → N) (queue : List UtilCollWorkItem) : CollBuf → N :=
  queue.foldl (fun b e => runWork recvVal b e.work) b

section Run

variable (recvVal : Nat → N)

@[simp] theorem seqRun_nil (b : CollBuf → N) : seqRun recvVal b [] = b := rfl

@[simp] theorem seqRun_cons (b : CollBuf → N) (e : UtilCollWorkItem) (l : List UtilCollWorkItem) :
    seqRun recvVal b (e :: l) = seqRun recvVal (runWork recvVal b e.work) l := rfl

@[simp] theorem seqRun_append (b : CollBuf → N) (l l' : List UtilCollWorkItem) :
    seqRun recvVal b (l ++ l') = seqRun recvVal (seqRun recvVal b l) l' := List.foldl_append

theorem seqRun_take_succ (b : CollBuf → N) {l : List UtilCollWorkItem} {q : Nat} {e : UtilCollWorkItem}
    (he : l[q]? = some e) : seqRun recvVal b (l.take (q + 1)) = runWork recvVal (seqRun recvVal b (l.take q)) e.work := by
  rw [List.take_add_one, he, Option.toList_some, seqRun_append, seqRun_cons, seqRun_nil]

theorem runWork_recv_tmp (b : CollBuf → N) {x : XferItem} (hx : x.buf = .tmp) :
    runWork recvVal b (.recv x) .result = b .result := by
  simp [runWork, hx]

/-- Every send of a queue run from `b` sends `value` of its destination. -/
def SendsAgree (value : Nat → N) : (CollBuf → N) → List UtilCollWorkItem → Prop
  | _, [] => True
  | b, e :: rest => (∀ y, e.work = .send y → b y.buf = value y.remoteRank) ∧
      SendsAgree value (runWork recvVal b e.work) rest

variable {recvVal}

theorem sendsAgree_append {value : Nat → N} :
    ∀ {b : CollBuf → N} {l : List UtilCollWorkItem} {l' : List UtilCollWorkItem},
      SendsAgree recvVal value b (l ++ l') ↔
        SendsAgree recvVal value b l ∧ SendsAgree recvVal value (seqRun recvVal b l) l'
  | _, [], _ => by simp [SendsAgree]
  | _, _ :: _, _ => by
    simp only [List.cons_append, SendsAgree, seqRun_cons, sendsAgree_append, and_assoc]

theorem SendsAgree.get {value : Nat → N} {e : UtilCollWorkItem} {y : XferItem}
    {l : List UtilCollWorkItem} : ∀ {b : CollBuf → N} {q : Nat},
      SendsAgree recvVal value b l → l[q]? = some e → e.work = .send y →
        seqRun recvVal b (l.take q) y.buf = value y.remoteRank := by
  induction l with
  | nil => intro _ _ _ he; cases he
  | cons e0 rest ih =>
    intro b q h he hy
    cases q with
    | zero =>
      cases he
      exact h.1 _ hy
    | succ q => exact ih h.2 he hy

end Run

/-! ## The messages -/

section Messages

variable {n : Nat} (S : CollSizes n) (x : Nat → N)

/-- What the sender of each message holds when it sends: its input in the
pre-step, its block product in a doubling round, the total in the post-step. -/
def msgVal (src dst : Nat) : N :=
  match collNewId n src, collNewId n dst with
  | none, _ => x src
  | some _, none => ∏ i ∈ Finset.range n, x i
  | some j, some j' => blockProd (pairFold x S.rem) (2 ^ S.K) (Nat.log2 (j ^^^ j')) j

theorem msgVal_pre {src : Nat} (h : collNewId n src = none) (dst : Nat) : msgVal S x src dst = x src := by
  simp only [msgVal, h]

theorem msgVal_post {src dst j : Nat} (hs : collNewId n src = some j) (hd : collNewId n dst = none) :
    msgVal S x src dst = ∏ i ∈ Finset.range n, x i := by
  simp only [msgVal, hs, hd]

theorem msgVal_partner_recv {r j : Nat} (hr : collNewId n r = some j) (k : Nat) :
    msgVal S x (collRemote S.rem (j ^^^ 2 ^ k)) r = blockProd (pairFold x S.rem) (2 ^ S.K) k (j ^^^ 2 ^ k) := by
  simp only [msgVal, collNewId_collRemote S, hr]
  rw [Nat.xor_comm, log2_xor_partner]

theorem msgVal_partner_send {r j : Nat} (hr : collNewId n r = some j) (k : Nat) :
    msgVal S x r (collRemote S.rem (j ^^^ 2 ^ k)) = blockProd (pairFold x S.rem) (2 ^ S.K) k j := by
  simp only [msgVal, collNewId_collRemote S, hr, log2_xor_partner]

theorem blockProd_pairFold_top {j : Nat} (hj : j < 2 ^ S.K) :
    blockProd (pairFold x S.rem) (2 ^ S.K) S.K j = ∏ i ∈ Finset.range n, x i := by
  rw [blockProd_top _ hj, prod_pairFold x S.rem_lt.le, ← S.n_eq]

variable (collId count : Nat)

theorem doublingRound_run {r j k : Nat} (hr : collNewId n r = some j) (b : CollBuf → N)
    (hb : b .result = blockProd (pairFold x S.rem) (2 ^ S.K) k j) :
    SendsAgree (fun s => msgVal S x s r) (msgVal S x r) b (doublingRound collId r count S.rem j (2 ^ k)) ∧
      seqRun (fun s => msgVal S x s r) b (doublingRound collId r count S.rem j (2 ^ k)) .result =
        blockProd (pairFold x S.rem) (2 ^ S.K) (k + 1) j := by
  have hrecv := msgVal_partner_recv S x hr k
  have hsend := msgVal_partner_send S x hr k
  rw [blockProd_succ]
  simp only [doublingRound]
  -- the side with the lower rank reduces into `result`, the other into `tmp_buf` and copies back
  split_ifs
  · simp [SendsAgree, runWork, collSchedRecv, collSchedSend, collSchedReduce, hb, hrecv, hsend]
  · simp [SendsAgree, runWork, collSchedRecv, collSchedSend, collSchedReduce, collSchedCopy, hb,
      hrecv, hsend, mul_comm]

theorem doublingRounds_run {r j : Nat} (hr : collNewId n r = some j) (hj : j < 2 ^ S.K) :
    ∀ k, ∀ b : CollBuf → N, b .result = pairFold x S.rem j →
      SendsAgree (fun s => msgVal S x s r) (msgVal S x r) b
          ((List.range k).flatMap fun i => doublingRound collId r count S.rem j (2 ^ i)) ∧
        seqRun (fun s => msgVal S x s r) b
            ((List.range k).flatMap fun i => doublingRound collId r count S.rem j (2 ^ i)) .result =
          blockProd (pairFold x S.rem) (2 ^ S.K) k j
  | 0, b, hb => by
    simp [SendsAgree, hb, blockProd_zero _ hj]
  | k + 1, b, hb => by
    obtain ⟨hagree, hrun⟩ := doublingRounds_run hr hj k b hb
    obtain ⟨hagree', hrun'⟩ := doublingRound_run S x collId count hr _ hrun
    rw [List.range_succ, List.flatMap_append, List.flatMap_singleton, sendsAgree_append, seqRun_append]
    exact ⟨⟨hagree, hagree'⟩, hrun'⟩

theorem collEpAllreduce_run {r : Nat} (hr : r < n) (b : CollBuf → N) (hb : b .result = x r) :
    SendsAgree (fun s => msgVal S x s r) (msgVal S x r) b (collEpAllreduce n r collId count) ∧
      seqRun (fun s => msgVal S x s r) b (collEpAllreduce n r collId count) .result =
        ∏ i ∈ Finset.range n, x i := by
  by_cases h2 : r < 2 * S.rem
  · rcases Nat.mod_two_eq_zero_or_one r with heven | hodd
    · -- the even rank: its input goes to `r + 1`, the total comes back
      have hid : collNewId n r = none := (collNewId_eq_none_iff S).mpr ⟨h2, heven⟩
      have hnext : collNewId n (r + 1) = some ((r + 1) / 2) := by
        rw [collNewId_eq S, if_pos (by omega), if_neg (by omega)]
      rw [collEpAllreduce_even collId count S h2 heven]
      simp [SendsAgree, runWork, collSchedSend, collSchedRecv, collSchedComp, hb,
        msgVal_pre S x hid, msgVal_post S x hnext hid]
    · -- the odd rank: fold in `r - 1`, double, send the total back
      have hid : collNewId n r = some (r / 2) := by
        rw [collNewId_eq S, if_pos h2, if_neg (by omega)]
      have hback : collNewId n (r - 1) = none := (collNewId_eq_none_iff S).mpr ⟨by omega, by omega⟩
      have hj : r / 2 < 2 ^ S.K := collNewId_lt S hr hid
      have hpre : SendsAgree (fun s => msgVal S x s r) (msgVal S x r) b
            [collSchedRecv collId count (r - 1) .tmp true, collSchedReduce .tmp .result true] ∧
          seqRun (fun s => msgVal S x s r) b
            [collSchedRecv collId count (r - 1) .tmp true, collSchedReduce .tmp .result true] .result =
              pairFold x S.rem (r / 2) := by
        have hpair : pairFold x S.rem (r / 2) = x (r - 1) * x r := by
          rw [pairFold, if_pos (by omega), show 2 * (r / 2) = r - 1 by omega,
            show r - 1 + 1 = r by omega]
        simp [SendsAgree, runWork, collSchedRecv, collSchedReduce, hb, msgVal_pre S x hback,
          hpair, mul_comm]
      obtain ⟨hagree, hrun⟩ := doublingRounds_run S x collId count hid hj S.K _ hpre.2
      rw [blockProd_pairFold_top S x hj] at hrun
      rw [collEpAllreduce_odd collId count S h2 hodd, sendsAgree_append, sendsAgree_append,
        seqRun_append, seqRun_append]
      have hrounds : seqRun (fun s => msgVal S x s r) (seqRun (fun s => msgVal S x s r) b
          [collSchedRecv collId count (r - 1) .tmp true, collSchedReduce .tmp .result true])
          (collRounds collId count S.rem S.K r (r / 2)) .result = ∏ i ∈ Finset.range n, x i := hrun
      refine ⟨⟨⟨hpre.1, hagree⟩, ?_⟩, ?_⟩
      · generalize seqRun _ (seqRun _ b _) (collRounds collId count S.rem S.K r (r / 2)) = B at hrounds ⊢
        simp [SendsAgree, collSchedSend, collSchedComp, hrounds, msgVal_post S x hid hback]
      · exact hrounds
  · -- a rank from `2 * rem`: its input is its starting value
    have hid : collNewId n r = some (r - S.rem) := by
      rw [collNewId_eq S, if_neg h2]
    have hj : r - S.rem < 2 ^ S.K := collNewId_lt S hr hid
    have hstart : b .result = pairFold x S.rem (r - S.rem) := by
      rw [hb, pairFold, if_neg (by omega), show r - S.rem + S.rem = r by omega]
    obtain ⟨hagree, hrun⟩ := doublingRounds_run S x collId count hid hj S.K b hstart
    rw [blockProd_pairFold_top S x hj] at hrun
    rw [collEpAllreduce_upper collId count S (by omega), sendsAgree_append, seqRun_append]
    exact ⟨⟨hagree, by simp [SendsAgree, collSchedComp]⟩, hrun⟩

end Messages

/-! ## The exchange -/

end Libfabric.Coll
