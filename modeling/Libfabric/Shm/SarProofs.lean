import Libfabric.Shm.Sar
import Libfabric.Lib.Pool

/-! What the SAR buffer code guarantees and where it does not. The pool is
accounted for over every run whose copies on completion do not fail: the free
stack and the batches of the commands in flight are a permutation of the 256
buffer indices, and a peer's status is busy exactly while a command to it is in
flight. The cap on a batch holds after an insert and a connection request, but
a remove that leaves one to three peers lifts it above the length of the `sar`
array, and the next large send writes past its end. -/
namespace Libfabric.Shm

open Pool
open scoped List

/-! ### The free stack -/

@[simp] theorem smrFreestackInit_eq (n : Nat) : smrFreestackInit n = List.range n := by
  simp [smrFreestackInit, smrFreestackPushByIndex]

@[simp] theorem returnSarBufs_eq (sar : List Nat) (fs : SmrFreestack) :
    returnSarBufs sar fs = sar ++ fs := by
  induction sar with
  | nil => rfl
  | cons index rest ih =>
      show index :: returnSarBufs rest fs = _
      rw [ih, List.cons_append]

/-- Popping `count` times takes the top `count` entries. -/
@[simp] theorem popSarBufs_eq (count : Nat) (fs : SmrFreestack) :
    popSarBufs count fs = (fs.take count, fs.drop count) := by
  induction count generalizing fs with
  | zero => rfl
  | succ count ih =>
      cases fs with
      | nil => rfl
      | cons top rest => simp [popSarBufs, ih]

/-! ### The cap -/

theorem sarBufPerPeer_le (numPeers : Nat) : sarBufPerPeer numPeers ≤ smrBufBatchMax :=
  Nat.min_le_left _ _

theorem smrAvInsert_cap_le {ep : SmrEp} (capped : ep.maxSarBufPerPeer ≤ smrBufBatchMax)
    (insertOk : Bool) : (smrAvInsert ep insertOk).2.maxSarBufPerPeer ≤ smrBufBatchMax := by
  unfold smrAvInsert
  split
  · split
    · exact sarBufPerPeer_le _
    · exact capped
  · exact capped

theorem smrProgressConnreq_cap_le {ep : SmrEp} (capped : ep.maxSarBufPerPeer ≤ smrBufBatchMax)
    (fresh mapOk : Bool) : (smrProgressConnreq ep fresh mapOk).maxSarBufPerPeer ≤ smrBufBatchMax := by
  unfold smrProgressConnreq
  dsimp only
  split
  · exact sarBufPerPeer_le _
  · exact capped

/-- The remove computes `SMR_MAX_PEERS / num_peers` without the `MIN` of the
insert: it keeps the cap within `SMR_BUF_BATCH_MAX` exactly when it leaves no
peer or at least four. -/
theorem smrAvRemove_cap_le_iff {ep : SmrEp} (present : ep.used ≠ 0) :
    (smrAvRemove ep).2.maxSarBufPerPeer ≤ smrBufBatchMax ↔
      ep.numPeers - 1 = 0 ∨ 4 ≤ ep.numPeers - 1 := by
  simp only [smrAvRemove, present, if_false, smrMaxPeers, smrBufBatchMax]
  split
  · constructor
    · intro capped
      right
      by_contra few
      have le : 256 / 3 ≤ 256 / (ep.numPeers - 1) := Nat.div_le_div_left (by omega) (by omega)
      omega
    · rintro (none | many)
      · omega
      · calc 256 / (ep.numPeers - 1) ≤ 256 / 4 := Nat.div_le_div_left many (by decide)
          _ ≤ 64 := by decide
  · constructor
    · intro
      left
      omega
    · intro
      decide

/-- Two peers inserted and one removed leave the cap at 256. A send of 65
chunks then gets a batch of 65: the loop of `smr_format_sar` has written
`sar[64]`, one past the end of the array, when the command is committed. -/
theorem smrFormatSar_overruns_sar :
    ∃ cmd ∈ (run Sender.init [.avInsert true, .avInsert true, .avRemove,
        .sar 0 false (65 * smrSarSize) false 0]).inflight,
      smrBufBatchMax < cmd.bufBatchSize := by
  have removed : (run Sender.init [.avInsert true, .avInsert true, .avRemove]).ep =
      { numPeers := 1, used := 1, maxSarBufPerPeer := 256, sarPool := List.range smrMaxPeers,
        sarStatus := fun _ => .free } := by
    simp [run, step, Sender.init, smrCreate, smrAvInsert, smrAvRemove, smrMaxPeers]
  have sent : run Sender.init [.avInsert true, .avInsert true, .avRemove,
      .sar 0 false (65 * smrSarSize) false 0] =
      step (run Sender.init [.avInsert true, .avInsert true, .avRemove])
        (.sar 0 false (65 * smrSarSize) false 0) := rfl
  rw [sent, step, removed]
  simp [smrFormatSar, sarCopyFn, SarCopyFn.call, sarChunks, smrFreestackAvail, smrSarSize,
    smrMaxPeers, smrBufBatchMax]

/-! ### Formatting a command -/

section Format

variable {ep ep' : SmrEp} {txId totalLen : Nat} {readReq : Bool} {copyFn : SarCopyFn}
  {copyRet ret : Int} {cmd : SmrCmd}

/-- `smr_format_sar` fails with the endpoint unchanged (the rollback pushes the
batch back as it was), or succeeds: the peer was free, the batch is the smallest
of the cap, the chunks of the message and the free buffers, it is taken from the
top of the stack, and the peer's status is no longer free. -/
theorem smrFormatSar_cases (h : smrFormatSar ep txId readReq totalLen copyFn copyRet = (ret, cmd, ep')) :
    (ret = -fiEagain ∧ ep' = ep) ∨
    (ret = 0 ∧ ep.maxSarBufPerPeer ≠ 0 ∧ ep.sarStatus txId = .free ∧
      cmd.txId = txId ∧ cmd.copyFn = copyFn ∧
      cmd.bufBatchSize =
        min (min ep.maxSarBufPerPeer (sarChunks totalLen)) (smrFreestackAvail ep.sarPool) ∧
      cmd.sar = ep.sarPool.take cmd.bufBatchSize ∧
      ∃ status, status ≠ .free ∧
        ep' = { ep with sarPool := ep.sarPool.drop cmd.bufBatchSize,
                        sarStatus := Function.update ep.sarStatus txId status }) := by
  unfold smrFormatSar at h
  by_cases blocked : ep.maxSarBufPerPeer = 0 ∨ ep.sarStatus txId ≠ .free
  · rw [if_pos blocked] at h
    cases h
    exact Or.inl ⟨rfl, rfl⟩
  · rw [if_neg blocked] at h
    simp only [not_or, not_not] at blocked
    simp only [popSarBufs_eq] at h
    split at h
    · split at h
      · -- the copy failed: the batch goes back on top of what is left
        simp only [Prod.mk.injEq] at h
        obtain ⟨rfl, -, rfl⟩ := h
        left
        simp
      · simp only [Prod.mk.injEq] at h
        obtain ⟨rfl, rfl, rfl⟩ := h
        right
        exact ⟨rfl, blocked.1, blocked.2, rfl, rfl, rfl, rfl, _, by split <;> decide, rfl⟩
    · simp only [Prod.mk.injEq] at h
      obtain ⟨rfl, rfl, rfl⟩ := h
      right
      exact ⟨rfl, blocked.1, blocked.2, rfl, rfl, rfl, rfl, .ready, by decide, rfl⟩

theorem smrFormatSar_empty_batch {ep : SmrEp} {txId totalLen : Nat} {readReq : Bool}
    (empty : ep.sarPool = []) (capped : ep.maxSarBufPerPeer ≠ 0) (free : ep.sarStatus txId = .free) :
    (smrFormatSar ep txId readReq totalLen .smrCopySar 0).1 = 0 ∧
      (smrFormatSar ep txId readReq totalLen .smrCopySar 0).2.1.bufBatchSize = 0 := by
  cases readReq <;> simp [smrFormatSar, empty, capped, free, smrFreestackAvail]

end Format

/-! ### Completing a command -/

section Return

variable {ep ep' : SmrEp} {cmd : SmrCmd} {opError done : Bool} {copyRet ret : Int}

/-- On the return of a command whose copy does not fail outright, the endpoint
either frees the batch (and the caller releases the command), or keeps it in
flight with its peer's status unchanged or set to busy or ready. -/
theorem smrProgressReturnEntry_cases (copy : copyRet = 0 ∨ copyRet = -fiEbusy)
    (h : smrProgressReturnEntry ep cmd opError done copyRet = (ret, ep')) :
    (ret ≠ -fiEagain ∧ ep' = smrFreeSarBufs ep cmd) ∨
    (ret = -fiEagain ∧ ep' = ep) ∨
    (ret = -fiEagain ∧ ∃ status, status ≠ .free ∧
      ep' = { ep with sarStatus := Function.update ep.sarStatus cmd.txId status }) := by
  have success : (0 : Int) ≠ -fiEagain := by decide
  unfold smrProgressReturnEntry at h
  split at h
  · cases h
    exact Or.inl ⟨by decide, rfl⟩
  split at h
  · -- a read request copies first and checks for the end after
    split at h
    · cases h
      exact Or.inr (Or.inl ⟨rfl, rfl⟩)
    split at h
    · rename_i notBusy failed
      exact absurd (copy.resolve_right notBusy) failed
    split at h
    · cases h
      exact Or.inl ⟨success, rfl⟩
    · cases h
      exact Or.inr (Or.inr ⟨rfl, .ready, by decide, rfl⟩)
  split at h
  · cases h
    exact Or.inl ⟨success, rfl⟩
  split at h
  · rename_i failed
    exact absurd copy (by omega)
  · cases h
    exact Or.inr (Or.inr ⟨rfl, _, by split <;> decide, rfl⟩)

/-- A send that is not a read request and whose copy on completion fails with
anything but `-FI_EBUSY` comes back with that error and the endpoint as it was:
the batch is not pushed back and its peer stays busy. -/
theorem smrProgressReturnEntry_keeps_batch (send : cmd.readReq = false) (unfinished : done = false)
    (noError : opError = false) (failed : copyRet ≠ 0) (notBusy : copyRet ≠ -fiEbusy) :
    smrProgressReturnEntry ep cmd opError done copyRet = (copyRet, ep) := by
  simp [smrProgressReturnEntry, send, unfinished, noError, failed, notBusy]

end Return

/-! ### Steps -/

@[simp] theorem smrAvInsert_sarPool (ep : SmrEp) (insertOk : Bool) :
    (smrAvInsert ep insertOk).2.sarPool = ep.sarPool := by
  unfold smrAvInsert
  split
  · split <;> rfl
  · rfl

@[simp] theorem smrAvInsert_sarStatus (ep : SmrEp) (insertOk : Bool) :
    (smrAvInsert ep insertOk).2.sarStatus = ep.sarStatus := by
  unfold smrAvInsert
  split
  · split <;> rfl
  · rfl

@[simp] theorem smrAvRemove_sarPool (ep : SmrEp) : (smrAvRemove ep).2.sarPool = ep.sarPool := by
  unfold smrAvRemove
  split <;> rfl

@[simp] theorem smrAvRemove_sarStatus (ep : SmrEp) : (smrAvRemove ep).2.sarStatus = ep.sarStatus := by
  unfold smrAvRemove
  split <;> rfl

@[simp] theorem smrProgressConnreq_sarPool (ep : SmrEp) (fresh mapOk : Bool) :
    (smrProgressConnreq ep fresh mapOk).sarPool = ep.sarPool := by
  unfold smrProgressConnreq
  dsimp only
  split <;> rfl

@[simp] theorem smrProgressConnreq_sarStatus (ep : SmrEp) (fresh mapOk : Bool) :
    (smrProgressConnreq ep fresh mapOk).sarStatus = ep.sarStatus := by
  unfold smrProgressConnreq
  dsimp only
  split <;> rfl

/-- The copies made while completing commands do not fail outright. -/
def SmrOp.CopiesHold : SmrOp → Prop
  | .returnEntry _ _ _ dsaRet => dsaRet = 0 ∨ dsaRet = -fiEbusy
  | _ => True

theorem SarCopyFn.call_holds (copyFn : SarCopyFn) {dsaRet : Int}
    (holds : dsaRet = 0 ∨ dsaRet = -fiEbusy) : copyFn.call dsaRet = 0 ∨ copyFn.call dsaRet = -fiEbusy := by
  cases copyFn
  · exact Or.inl rfl
  · exact holds

/-- The SAR pool is accounted for: the free stack and the batches in flight
are the 256 indices, each once; a peer is busy exactly while a command to it is
in flight, and there is at most one; and each batch fills the first
`buf_batch_size` entries of its command's `sar`. -/
structure Owned (s : Sender) : Prop where
  accounted : s.ep.sarPool ++ held SmrCmd.sar s.inflight ~ List.range smrMaxPeers
  busy : ∀ p, s.ep.sarStatus p ≠ .free ↔ p ∈ s.inflight.map SmrCmd.txId
  single : (s.inflight.map SmrCmd.txId).Nodup
  sized : ∀ cmd ∈ s.inflight, cmd.sar.length = cmd.bufBatchSize

theorem owned_init : Owned Sender.init where
  accounted := by simp [Sender.init, smrCreate]
  busy := by simp [Sender.init, smrCreate]
  single := List.nodup_nil
  sized := by simp [Sender.init]

theorem busy_update {status : Nat → SmrSarStatus} {ids ids' : List Nat}
    (busy : ∀ p, status p ≠ .free ↔ p ∈ ids) {q : Nat} {st : SmrSarStatus}
    (here : st ≠ .free ↔ q ∈ ids') (elsewhere : ∀ p, p ≠ q → (p ∈ ids ↔ p ∈ ids')) :
    ∀ p, Function.update status q st p ≠ .free ↔ p ∈ ids' := by
  intro p
  by_cases same : p = q
  · subst same
    simpa using here
  · rw [Function.update_of_ne same, busy p]
    exact elsewhere p same

theorem Owned.format {s : Sender} (inv : Owned s) {txId totalLen : Nat} {readReq : Bool}
    {copyFn : SarCopyFn} {copyRet : Int} {cmd : SmrCmd} {ep' : SmrEp}
    (h : smrFormatSar s.ep txId readReq totalLen copyFn copyRet = (0, cmd, ep')) :
    Owned { ep := ep', inflight := s.inflight ++ [cmd] } := by
  rcases smrFormatSar_cases h with ⟨failed, -⟩ | ⟨-, -, free, sameId, -, batch, taken, status, busy, rfl⟩
  · exact absurd failed (by decide)
  have fits : cmd.bufBatchSize ≤ s.ep.sarPool.length := by
    rw [batch]
    exact Nat.min_le_right _ _
  have fresh : txId ∉ s.inflight.map SmrCmd.txId := by
    rw [← inv.busy txId, not_not]
    exact free
  constructor
  · exact (take_prefix_perm SmrCmd.sar _ _ _ taken).trans inv.accounted
  · refine busy_update inv.busy ?_ ?_
    · simpa [sameId] using busy
    · intro p other
      simp [sameId, other]
  · simpa [sameId] using inv.single.append (List.nodup_singleton txId) (by simpa using fresh)
  · intro c mem
    rcases List.mem_append.mp mem with old | new
    · exact inv.sized c old
    · rw [List.mem_singleton.mp new, taken, List.length_take_of_le fits]

theorem Owned.release {s : Sender} (inv : Owned s) {cmd : SmrCmd} (flying : cmd ∈ s.inflight) :
    Owned { ep := smrFreeSarBufs s.ep cmd, inflight := s.inflight.erase cmd } := by
  constructor
  · simpa [smrFreeSarBufs] using (release_perm SmrCmd.sar s.ep.sarPool flying).trans inv.accounted
  · refine busy_update inv.busy ?_ ?_
    · simp [mem_map_erase_iff SmrCmd.txId flying inv.single]
    · intro p other
      simp [mem_map_erase_iff SmrCmd.txId flying inv.single, other]
  · exact nodup_map_erase SmrCmd.txId flying inv.single
  · intro c mem
    exact inv.sized c (List.mem_of_mem_erase mem)

theorem Owned.mark {s : Sender} (inv : Owned s) {cmd : SmrCmd} (flying : cmd ∈ s.inflight)
    {status : SmrSarStatus} (notFree : status ≠ .free) :
    Owned { s with ep := { s.ep with sarStatus := Function.update s.ep.sarStatus cmd.txId status } } := by
  refine ⟨inv.accounted, ?_, inv.single, inv.sized⟩
  refine busy_update inv.busy ?_ (fun _ _ => Iff.rfl)
  exact iff_of_true notFree (List.mem_map_of_mem flying)

theorem Owned.frame {s s' : Sender} (inv : Owned s) (pool : s'.ep.sarPool = s.ep.sarPool)
    (status : s'.ep.sarStatus = s.ep.sarStatus) (flights : s'.inflight = s.inflight) : Owned s' := by
  obtain ⟨accounted, busy, single, sized⟩ := inv
  rw [← pool, ← flights] at accounted
  rw [← status, ← flights] at busy
  rw [← flights] at single sized
  exact ⟨accounted, busy, single, sized⟩

theorem Owned.step {s : Sender} (inv : Owned s) {op : SmrOp} (copies : op.CopiesHold) :
    Owned (step s op) := by
  cases op with
  | avInsert insertOk => exact inv.frame (by simp [Libfabric.Shm.step]) (by simp [Libfabric.Shm.step]) rfl
  | avRemove => exact inv.frame (by simp [Libfabric.Shm.step]) (by simp [Libfabric.Shm.step]) rfl
  | connreq fresh mapOk => exact inv.frame (by simp [Libfabric.Shm.step]) (by simp [Libfabric.Shm.step]) rfl
  | sar txId readReq totalLen dsa dsaRet =>
      simp only [Libfabric.Shm.step]
      generalize h : smrFormatSar s.ep txId readReq totalLen _ _ = r
      obtain ⟨ret, cmd, ep'⟩ := r
      dsimp only
      split
      · rename_i succeeded
        subst succeeded
        exact inv.format h
      · rcases smrFormatSar_cases h with ⟨-, rfl⟩ | ⟨succeeded, -⟩
        · exact inv
        · contradiction
  | returnEntry txId opError done dsaRet =>
      simp only [Libfabric.Shm.step]
      split
      · exact inv
      rename_i cmd found
      have flying : cmd ∈ s.inflight := List.mem_of_find?_eq_some found
      generalize h : smrProgressReturnEntry s.ep cmd opError done _ = r
      obtain ⟨ret, ep'⟩ := r
      dsimp only
      rcases smrProgressReturnEntry_cases (cmd.copyFn.call_holds copies) h with
        ⟨released, rfl⟩ | ⟨retry, rfl⟩ | ⟨retry, status, notFree, rfl⟩
      · rw [if_neg released]
        exact inv.release flying
      · rw [if_pos retry]
        exact inv
      · rw [if_pos retry]
        exact inv.mark flying notFree

theorem Owned.run {s : Sender} (inv : Owned s) {ops : List SmrOp}
    (copies : ∀ op ∈ ops, op.CopiesHold) : Owned (Shm.run s ops) := by
  induction ops generalizing s with
  | nil => exact inv
  | cons op ops ih =>
      exact ih (inv.step (copies op List.mem_cons_self)) (fun op' mem => copies op' (List.mem_cons_of_mem op mem))

/-- Over every run whose copies on completion do not fail outright, the free
count and the buffers held by commands in flight add up to `SMR_MAX_PEERS`, no
index is in two places, every index is one of the pool's, and a peer is busy
exactly while a command to it is in flight. -/
theorem run_accounts_sar_pool (ops : List SmrOp) (copies : ∀ op ∈ ops, op.CopiesHold) :
    let s := run Sender.init ops
    smrFreestackAvail s.ep.sarPool + (held SmrCmd.sar s.inflight).length = smrMaxPeers ∧
      (s.ep.sarPool ++ held SmrCmd.sar s.inflight).Nodup ∧
      (∀ i ∈ s.ep.sarPool ++ held SmrCmd.sar s.inflight, i < smrMaxPeers) ∧
      ∀ p, s.ep.sarStatus p ≠ .free ↔ p ∈ s.inflight.map SmrCmd.txId := by
  intro s
  have inv : Owned s := owned_init.run copies
  have perm := inv.accounted
  refine ⟨?_, perm.nodup_iff.mpr List.nodup_range, fun i mem => List.mem_range.mp (perm.subset mem),
    inv.busy⟩
  simpa [smrFreestackAvail] using perm.length_eq

end Libfabric.Shm
