import Libfabric.Bsock

/-! The buffered socket keeps both byte streams intact. On the send side, the
bytes the socket accepted followed by those still queued in `sq` are exactly
the bytes the calls report as taken; on the receive side, the bytes the calls
deliver followed by those staged in `rq` are exactly the start of the incoming
stream. Each call is specified by an inversion lemma on its result, and both
invariants are carried along any sequence of calls. -/
namespace Libfabric

open Buffer

namespace Sockapi

variable (api : Sockapi)

@[simp] theorem length_streamFrom (start n : Nat) : (api.streamFrom start n).length = n := by
  simp [streamFrom]

@[simp] theorem streamFrom_zero (start : Nat) : api.streamFrom start 0 = [] := rfl

theorem streamFrom_add (start n k : Nat) :
    api.streamFrom start (n + k) = api.streamFrom start n ++ api.streamFrom (start + n) k := by
  simp [streamFrom, List.range_add, Function.comp_def, Nat.add_assoc]

theorem streamPrefix_add (n k : Nat) :
    api.streamPrefix (n + k) = api.streamPrefix n ++ api.streamFrom n k := by
  rw [streamPrefix, streamFrom_add, Nat.zero_add]
  rfl

end Sockapi

namespace Bsock

variable {api : Sockapi} {bsock bsock' : Bsock} {sock sock' : Socket} {ret : Int} {len : Nat}

/-- `ofi_bsock_flush` moves bytes from the front of `sq` to the socket, so what
the socket accepted followed by the queue does not change; it reports 0 only
once the queue is empty. -/
theorem flush_spec (valid : bsock.sq.Valid) (h : flush api bsock sock = (ret, bsock', sock')) :
    sock'.accepted ++ bsock'.sq.contents = sock.accepted ++ bsock.sq.contents ∧ bsock'.sq.Valid ∧
      bsock'.rq = bsock.rq ∧ sock'.received = sock.received ∧ (ret = 0 → bsock'.sq.readable = 0) := by
  unfold flush at h
  split at h
  · rename_i empty
    cases h
    exact ⟨rfl, valid, rfl, rfl, fun _ => empty⟩
  · have offered : (bsock.sq.data.drop bsock.sq.head).take bsock.sq.readable = bsock.sq.contents := rfl
    have taken := api.send_le sock.calls bsock.sq.contents.length
    have length := valid.length_contents
    simp only [Sockapi.sendBytes, offered] at h
    split at h
    · -- the socket failed: it took nothing
      rename_i failed
      cases h
      rw [Int.toNat_of_nonpos (Int.le_of_lt failed), List.take_zero, List.append_nil]
      exact ⟨rfl, valid, rfl, rfl, fun _ => by omega⟩
    · rename_i sent
      cases h
      obtain ⟨valid', rest⟩ :=
        valid.consume (n := (api.send sock.calls bsock.sq.contents.length).toNat) (by omega)
      refine ⟨by rw [rest, List.append_assoc, List.take_append_drop], valid', rfl, rfl, ?_⟩
      split
      · intro zero
        simp [fiEagain, eagain] at zero
      · rename_i idle
        intro _
        simpa only [tosend, not_not] using idle

/-- `enqueue` appends `offer` to any valid queue with room for it. -/
def Enqueues (enqueue : Byteq → Byteq) (offer : Bytes) : Prop :=
  ∀ q : Byteq, q.Valid → offer.length ≤ q.writeable →
    (enqueue q).Valid ∧ (enqueue q).contents = q.contents ++ offer

theorem enqueues_write (buf : Bytes) : Enqueues (fun sq => sq.write buf) buf :=
  fun _ valid fits => valid.write fits

theorem enqueues_writev (iov : List Bytes) : Enqueues (fun sq => sq.writev iov) iov.flatten :=
  fun _ valid fits => valid.writev fits

section Send

variable {enqueue : Byteq → Byteq} {offer : Bytes}

theorem sendDirect_spec (enqueues : Enqueues enqueue offer) (valid : bsock.sq.Valid)
    (empty : bsock.sq.readable = 0) (complete : api.SendsComplete)
    (h : sendDirect api enqueue offer bsock sock = (ret, len, bsock', sock')) :
    sock'.accepted ++ bsock'.sq.contents = sock.accepted ++ offer.take len ∧ bsock'.sq.Valid ∧
      bsock'.rq = bsock.rq ∧ sock'.received = sock.received := by
  have nothing := Byteq.contents_eq_nil empty
  rw [sendDirect] at h
  dsimp only [Sockapi.sendBytes] at h
  split at h
  · cases h
    exact ⟨by rw [nothing, List.append_nil], valid, rfl, rfl⟩
  · split at h
    · rename_i failed
      have none : (api.send sock.calls offer.length).toNat = 0 :=
        Int.toNat_of_nonpos (Int.le_of_lt failed)
      split at h
      · exact absurd ‹_› (complete sock.calls offer.length)
      · split at h
        · -- would block: the whole request goes to the queue
          rename_i blocked
          cases h
          obtain ⟨valid', queued⟩ := enqueues bsock.sq valid (Nat.le_of_lt blocked.2)
          refine ⟨?_, valid', rfl, rfl⟩
          rw [queued, nothing, none, List.take_zero, List.append_nil, List.nil_append,
            List.take_length]
        · cases h
          exact ⟨by rw [nothing, none, List.append_nil], valid, rfl, rfl⟩
    · cases h
      exact ⟨by rw [nothing, List.append_nil], valid, rfl, rfl⟩

theorem sendWith_spec (enqueues : Enqueues enqueue offer) (valid : bsock.sq.Valid)
    (complete : api.SendsComplete)
    (h : sendWith api enqueue offer bsock sock = (ret, len, bsock', sock')) :
    sock'.accepted ++ bsock'.sq.contents = sock.accepted ++ bsock.sq.contents ++ offer.take len ∧
      bsock'.sq.Valid ∧ bsock'.rq = bsock.rq ∧ sock'.received = sock.received := by
  rw [sendWith] at h
  dsimp only at h
  by_cases pending : bsock.tosend ≠ 0
  · rw [if_pos pending] at h
    by_cases fits : offer.length < bsock.sq.writeable
    · -- room behind the queued bytes: append, then flush
      rw [if_pos fits] at h
      obtain ⟨queuedValid, queued⟩ := enqueues bsock.sq valid (Nat.le_of_lt fits)
      generalize flushed : flush api { bsock with sq := enqueue bsock.sq } sock = result at h
      obtain ⟨err, bsock₁, sock₁⟩ := result
      cases h
      obtain ⟨kept, valid₁, rq₁, received₁, -⟩ := flush_spec queuedValid flushed
      refine ⟨?_, valid₁, rq₁, received₁⟩
      rw [kept, List.take_length]
      simp only [queued, List.append_assoc]
    · rw [if_neg fits] at h
      generalize flushed : flush api bsock sock = result at h
      obtain ⟨err, bsock₁, sock₁⟩ := result
      obtain ⟨kept, valid₁, rq₁, received₁, drained⟩ := flush_spec valid flushed
      by_cases failed : err ≠ 0
      · rw [if_pos failed] at h
        cases h
        exact ⟨by rw [kept, List.take_zero, List.append_nil], valid₁, rq₁, received₁⟩
      · -- flushed out: send the request directly
        rw [if_neg failed] at h
        have empty := drained (not_not.mp failed)
        obtain ⟨sent, valid', rq', received'⟩ := sendDirect_spec enqueues valid₁ empty complete h
        rw [Byteq.contents_eq_nil empty, List.append_nil] at kept
        exact ⟨by rw [sent, kept], valid', rq'.trans rq₁, received'.trans received₁⟩
  · rw [if_neg pending] at h
    have empty : bsock.sq.readable = 0 := not_not.mp pending
    obtain ⟨sent, valid', rq', received'⟩ := sendDirect_spec enqueues valid empty complete h
    exact ⟨by rw [sent, Byteq.contents_eq_nil empty, List.append_nil], valid', rq', received'⟩

end Send

theorem sendv_spec (valid : bsock.sq.Valid) (complete : api.SendsComplete) {iov : List Bytes}
    (h : sendv api bsock sock iov = (ret, len, bsock', sock')) :
    sock'.accepted ++ bsock'.sq.contents = sock.accepted ++ bsock.sq.contents ++ iov.flatten.take len ∧
      bsock'.sq.Valid ∧ bsock'.rq = bsock.rq ∧ sock'.received = sock.received := by
  unfold sendv at h
  split at h
  · rename_i seg
    simpa using sendWith_spec (enqueues_write seg) valid complete h
  · exact sendWith_spec (enqueues_writev iov) valid complete h

theorem recvOut_spec {β : Type} {bytes avail : Nat} {buf buf' : β} {ret₀ : Int}
    (h : recvOut ret₀ bytes avail buf bsock sock = (ret, len, buf', bsock', sock')) :
    len = bytes ∧ buf' = buf ∧ sock' = sock ∧ bsock'.rq = bsock.rq ∧ bsock'.sq = bsock.sq := by
  unfold recvOut at h
  split at h
  · cases h
    exact ⟨rfl, rfl, rfl, rfl, rfl⟩
  · split at h <;> cases h <;> exact ⟨rfl, rfl, rfl, rfl, rfl⟩

theorem refill_eq {rq : Byteq} {got : Bytes} {ret₀ : Int} (count : ret₀.toNat = got.length) :
    refill rq got ret₀ = rq.write got := by
  rw [refill, count]
  rfl

theorem refill_spec {rq : Byteq} (valid : rq.Valid) {ret₀ : Int} (room : ret₀ ≤ rq.writeable)
    (start : Nat) :
    (refill rq (api.streamFrom start ret₀.toNat) ret₀).Valid ∧
      (refill rq (api.streamFrom start ret₀.toNat) ret₀).contents =
        rq.contents ++ api.streamFrom start ret₀.toNat := by
  rw [refill_eq (Sockapi.length_streamFrom api start _).symm]
  exact valid.write (by simp only [Sockapi.length_streamFrom]; omega)

section Recv

variable {buf buf' : Bytes}

/-- `ofi_bsock_recv` hands over the staged bytes and then the next `n` bytes of
the stream, in order: what was staged followed by those `n` bytes is what it
delivers followed by what it leaves staged. -/
theorem recv_spec (valid : bsock.rq.Valid)
    (h : recv api bsock sock buf = (ret, len, buf', bsock', sock')) :
    ∃ n, sock'.received = sock.received + n ∧
      bsock.rq.contents ++ api.streamFrom sock.received n = buf'.take len ++ bsock'.rq.contents ∧
      bsock'.rq.Valid ∧ bsock'.sq = bsock.sq ∧ sock'.accepted = sock.accepted := by
  obtain ⟨count, copiedEq, valid₁, rest₁, -⟩ := valid.read buf.length
  have length := valid.length_contents
  rw [recv] at h
  dsimp only at h
  generalize staged : bsock.rq.read buf.length = first at h count copiedEq valid₁ rest₁
  obtain ⟨bytes, copied, rq₁⟩ := first
  dsimp only at h count copiedEq valid₁ rest₁
  have within : bytes ≤ buf.length := by omega
  have copiedLength : copied.length = bytes := by
    rw [copiedEq, List.length_take]
    omega
  -- the first copy leaves the caller's buffer starting with the staged bytes
  have front : (writeAt buf 0 copied).take bytes = copied := take_writeAt_zero buf copiedLength
  have frontLength : (writeAt buf 0 copied).length = buf.length :=
    length_writeAt (by omega)
  have staged₁ : bsock.rq.contents = copied ++ rq₁.contents := by
    rw [copiedEq, rest₁, List.take_append_drop]
  by_cases filled : bytes ≠ 0 ∧ bytes = buf.length
  · -- the staged bytes fill the request
    rw [if_pos filled] at h
    cases h
    refine ⟨0, rfl, ?_, valid₁, rfl, rfl⟩
    rw [← filled.2, front, staged₁]
    simp
  rw [if_neg filled] at h
  by_cases small : buf.length - bytes < rq₁.size / 2
  · -- a small request: refill the queue from the socket, then copy
    rw [if_pos small] at h
    dsimp only [Sockapi.recvBytes] at h
    by_cases nothing : api.recv sock.calls rq₁.writeable ≤ 0
    · simp only [nothing, if_true] at h
      obtain ⟨rfl, rfl, rfl, rq', sq'⟩ := recvOut_spec h
      refine ⟨0, by simp [Int.toNat_of_nonpos nothing], ?_, rq' ▸ valid₁, sq', rfl⟩
      rw [front, rq', staged₁]
      simp
    simp only [nothing, if_false] at h
    obtain ⟨valid₂, refilled⟩ := refill_spec valid₁ (api.recv_le sock.calls rq₁.writeable) sock.received
    generalize fresh : api.streamFrom sock.received (api.recv sock.calls rq₁.writeable).toNat = got
      at h valid₂ refilled
    obtain ⟨count₂, copiedEq₂, valid₃, rest₃, -⟩ := valid₂.read (buf.length - bytes)
    have length₂ := valid₂.length_contents
    generalize again : (refill rq₁ got (api.recv sock.calls rq₁.writeable)).read (buf.length - bytes) =
      second at h count₂ copiedEq₂ valid₃ rest₃
    obtain ⟨more, copied₂, rq₃⟩ := second
    dsimp only at h count₂ copiedEq₂ valid₃ rest₃
    cases h
    refine ⟨_, rfl, ?_, valid₃, rfl, rfl⟩
    have copiedLength₂ : copied₂.length = more := by
      rw [copiedEq₂, List.length_take]
      omega
    dsimp only
    rw [fresh, take_writeAt (by omega) copiedLength₂, front, rest₃, copiedEq₂, List.append_assoc,
      List.take_append_drop, refilled, staged₁, List.append_assoc]
  · -- a large request: read the rest directly into the caller's buffer
    rw [if_neg small] at h
    dsimp only [Sockapi.recvBytes] at h
    by_cases got : api.recv sock.calls (buf.length - bytes) > 0
    · simp only [got, if_true] at h
      cases h
      have room := api.recv_le sock.calls (buf.length - bytes)
      -- the request outran the staged bytes, so none are left behind
      have drained : rq₁.contents = [] := by
        rw [rest₁]
        exact List.drop_eq_nil_of_le (by omega)
      refine ⟨_, rfl, ?_, valid₁, rfl, rfl⟩
      dsimp only
      rw [take_writeAt (by omega) (api.length_streamFrom _ _), front, staged₁, drained]
      simp
    · simp only [got, if_false] at h
      obtain ⟨rfl, rfl, rfl, rq', sq'⟩ := recvOut_spec h
      refine ⟨0, by simp [Int.toNat_of_nonpos (Int.not_lt.mp got)], ?_, rq' ▸ valid₁, sq', rfl⟩
      rw [front, rq', staged₁]
      simp

end Recv

section Recvv

variable {iov iov' : List Bytes}

theorem length_flatten_of_map_length {iov iov' : List Bytes}
    (same : iov'.map List.length = iov.map List.length) : iov'.flatten.length = iov.flatten.length := by
  rw [List.length_flatten, List.length_flatten, same]

/-- `ofi_bsock_recvv` after the staged bytes: with the queue drained and the
first `bytes` of the segments holding them, the call delivers those bytes and
then the next `n` bytes of the stream. -/
theorem recvvRefill_spec {bytes rest : Nat} (valid : bsock.rq.Valid) (drained : bsock.rq.readable = 0)
    (within : bytes ≤ iov.flatten.length)
    (h : recvvRefill api bsock sock iov bytes rest = (ret, len, iov', bsock', sock')) :
    ∃ n, sock'.received = sock.received + n ∧
      iov.flatten.take bytes ++ api.streamFrom sock.received n = iov'.flatten.take len ++ bsock'.rq.contents ∧
      bsock'.rq.Valid ∧ bsock'.sq = bsock.sq ∧ sock'.accepted = sock.accepted := by
  have empty := Byteq.contents_eq_nil drained
  rw [recvvRefill] at h
  dsimp only [Sockapi.recvBytes] at h
  by_cases small : rest < bsock.rq.size / 2
  · rw [if_pos small] at h
    by_cases nothing : api.recv sock.calls bsock.rq.writeable ≤ 0
    · simp only [nothing, if_true] at h
      obtain ⟨rfl, rfl, rfl, rq', sq'⟩ := recvOut_spec h
      refine ⟨0, by simp [Int.toNat_of_nonpos nothing], ?_, rq' ▸ valid, sq', rfl⟩
      simp [rq', empty]
    simp only [nothing, if_false] at h
    obtain ⟨valid₂, refilled⟩ := refill_spec valid (api.recv_le sock.calls bsock.rq.writeable)
      sock.received
    generalize fresh : api.streamFrom sock.received (api.recv sock.calls bsock.rq.writeable).toNat = got
      at h valid₂ refilled
    obtain ⟨count, flat, shape, valid₃, rest₃, -⟩ := valid₂.readv iov bytes
    generalize again : (refill bsock.rq got (api.recv sock.calls bsock.rq.writeable)).readv iov bytes =
      second at h count flat shape valid₃ rest₃
    obtain ⟨more, iov₂, rq₃⟩ := second
    dsimp only at h count flat shape valid₃ rest₃
    cases h
    refine ⟨_, rfl, ?_, valid₃, rfl, rfl⟩
    have length₂ := valid₂.length_contents
    have copied : ((refill bsock.rq got (api.recv sock.calls bsock.rq.writeable)).contents.take
        more).length = more := by
      rw [List.length_take]
      omega
    dsimp only
    rw [fresh, flat, take_writeAt within copied, rest₃, List.append_assoc, List.take_append_drop,
      refilled, empty, List.nil_append]
  · rw [if_neg small] at h
    by_cases staged : bytes ≠ 0
    · -- a large request with bytes already copied returns them at once
      rw [if_pos staged] at h
      cases h
      exact ⟨0, rfl, by simp [empty], valid, rfl, rfl⟩
    rw [if_neg staged] at h
    have none : bytes = 0 := not_not.mp staged
    by_cases got : api.recv sock.calls iov.flatten.length > 0
    · simp only [got, if_true] at h
      cases h
      have room := api.recv_le sock.calls iov.flatten.length
      have fits : (api.streamFrom sock.received (api.recv sock.calls iov.flatten.length).toNat).take
          (iov.flatten.length - 0) =
            api.streamFrom sock.received (api.recv sock.calls iov.flatten.length).toNat := by
        rw [List.take_of_length_le (by simp only [Sockapi.length_streamFrom]; omega)]
      refine ⟨_, rfl, ?_, valid, rfl, rfl⟩
      rw [flatten_scatter, fits, take_writeAt_zero _ (api.length_streamFrom _ _), none, empty]
      simp
    · simp only [got, if_false] at h
      have nothing : (api.recv sock.calls iov.flatten.length).toNat = 0 :=
        Int.toNat_of_nonpos (Int.not_lt.mp got)
      obtain ⟨rfl, rfl, rfl, rq', sq'⟩ := recvOut_spec h
      refine ⟨0, by rw [nothing], ?_, rq' ▸ valid, sq', rfl⟩
      simp [rq', empty]

theorem recvv_spec (valid : bsock.rq.Valid)
    (h : recvv api bsock sock iov = (ret, len, iov', bsock', sock')) :
    ∃ n, sock'.received = sock.received + n ∧
      bsock.rq.contents ++ api.streamFrom sock.received n = iov'.flatten.take len ++ bsock'.rq.contents ∧
      bsock'.rq.Valid ∧ bsock'.sq = bsock.sq ∧ sock'.accepted = sock.accepted := by
  unfold recvv at h
  split at h
  · -- one segment: `ofi_bsock_recv`
    rename_i seg
    generalize received : recv api bsock sock seg = result at h
    obtain ⟨ret₁, len₁, seg₁, bsock₁, sock₁⟩ := result
    cases h
    simpa using recv_spec valid received
  · rw [recvvSegments] at h
    dsimp only at h
    have length := valid.length_contents
    by_cases staged : bsock.rq.readable ≠ 0
    · rw [if_pos staged] at h
      obtain ⟨count, flat, shape, valid₁, rest₁, -⟩ := valid.readv iov 0
      generalize first : bsock.rq.readv iov 0 = result at h count flat shape valid₁ rest₁
      obtain ⟨bytes, iov₁, rq₁⟩ := result
      dsimp only at h count flat shape valid₁ rest₁
      have copied : (bsock.rq.contents.take bytes).length = bytes := by
        rw [List.length_take]
        omega
      have front : iov₁.flatten.take bytes = bsock.rq.contents.take bytes := by
        rw [flat, take_writeAt_zero _ copied]
      by_cases filled : bytes = iov.flatten.length
      · -- the staged bytes fill the segments
        rw [if_pos filled] at h
        cases h
        refine ⟨0, rfl, ?_, valid₁, rfl, rfl⟩
        rw [← filled, front, rest₁, List.take_append_drop]
        simp
      · rw [if_neg filled] at h
        -- the segments outran the staged bytes, so the queue is drained
        have drained : rq₁.readable = 0 := by
          rw [← valid₁.length_contents, rest₁, List.length_drop]
          omega
        have within : bytes ≤ iov₁.flatten.length := by
          rw [length_flatten_of_map_length shape]
          omega
        obtain ⟨n, received, stream, valid', sq', accepted'⟩ :=
          recvvRefill_spec valid₁ drained within h
        refine ⟨n, received, ?_, valid', sq', accepted'⟩
        rw [← stream, front, List.take_of_length_le (by omega)]
    · rw [if_neg staged] at h
      have empty := Byteq.contents_eq_nil (not_not.mp staged)
      obtain ⟨n, received, stream, valid', sq', accepted'⟩ :=
        recvvRefill_spec valid (not_not.mp staged) (Nat.zero_le _) h
      refine ⟨n, received, ?_, valid', sq', accepted'⟩
      simpa [empty] using stream

end Recvv

/-- The bytes a call reports as taken from its caller: the first `*len` bytes
of a send's data. -/
def Op.sent : Op → Reply → Bytes
  | .send _, reply | .sendv _, reply => reply.buf.take reply.len
  | _, _ => []

/-- The bytes a call delivers to its caller: the first `*len` bytes of a
receive's buffer. -/
def Op.delivered : Op → Reply → Bytes
  | .recv _, reply | .recvv _, reply => reply.buf.take reply.len
  | _, _ => []

def sentBytes (ops : List Op) (replies : List Reply) : Bytes :=
  (List.zipWith Op.sent ops replies).flatten

def deliveredBytes (ops : List Op) (replies : List Reply) : Bytes :=
  (List.zipWith Op.delivered ops replies).flatten

/-- Both streams are intact: what the socket accepted followed by `sq` is what
the calls took, and what the calls delivered followed by `rq` is the start of
the incoming stream; both queues are valid. -/
structure Streams (api : Sockapi) (taken delivered : Bytes) (bsock : Bsock) (sock : Socket) :
    Prop where
  sent : sock.accepted ++ bsock.sq.contents = taken
  received : delivered ++ bsock.rq.contents = api.streamPrefix sock.received
  sqValid : bsock.sq.Valid
  rqValid : bsock.rq.Valid

theorem streams_init (api : Sockapi) (sbufSize rbufSize : Int) :
    Streams api [] [] (init sbufSize rbufSize) Socket.fresh where
  sent := Byteq.contents_eq_nil rfl
  received := Byteq.contents_eq_nil rfl
  sqValid := Byteq.valid_init sbufSize
  rqValid := Byteq.valid_init rbufSize

variable {taken delivered : Bytes}

theorem Streams.sendSide (inv : Streams api taken delivered bsock sock) {data : Bytes}
    (sent : sock'.accepted ++ bsock'.sq.contents = sock.accepted ++ bsock.sq.contents ++ data)
    (valid : bsock'.sq.Valid) (rq : bsock'.rq = bsock.rq) (received : sock'.received = sock.received) :
    Streams api (taken ++ data) delivered bsock' sock' where
  sent := by rw [sent, inv.sent]
  received := by rw [rq, received, inv.received]
  sqValid := valid
  rqValid := rq ▸ inv.rqValid

theorem Streams.recvSide (inv : Streams api taken delivered bsock sock) {data : Bytes} {n : Nat}
    (received : sock'.received = sock.received + n)
    (stream : bsock.rq.contents ++ api.streamFrom sock.received n = data ++ bsock'.rq.contents)
    (valid : bsock'.rq.Valid) (sq : bsock'.sq = bsock.sq) (accepted : sock'.accepted = sock.accepted) :
    Streams api taken (delivered ++ data) bsock' sock' where
  sent := by rw [sq, accepted, inv.sent]
  received := by
    rw [received, Sockapi.streamPrefix_add, ← inv.received, List.append_assoc, List.append_assoc,
      stream]
  sqValid := sq ▸ inv.sqValid
  rqValid := valid

theorem Streams.call (inv : Streams api taken delivered bsock sock) (complete : api.SendsComplete)
    {op : Op} {reply : Reply} (h : call api bsock sock op = (reply, bsock', sock')) :
    Streams api (taken ++ op.sent reply) (delivered ++ op.delivered reply) bsock' sock' := by
  cases op with
  | send buf =>
      rw [Bsock.call] at h
      generalize result : send api bsock sock buf = r at h
      obtain ⟨ret, len, bsock₁, sock₁⟩ := r
      cases h
      obtain ⟨sent, valid, rq, received⟩ := sendWith_spec (enqueues_write buf) inv.sqValid complete result
      simpa [Op.sent, Op.delivered] using inv.sendSide sent valid rq received
  | sendv iov =>
      rw [Bsock.call] at h
      generalize result : sendv api bsock sock iov = r at h
      obtain ⟨ret, len, bsock₁, sock₁⟩ := r
      cases h
      obtain ⟨sent, valid, rq, received⟩ := sendv_spec inv.sqValid complete result
      simpa [Op.sent, Op.delivered] using inv.sendSide sent valid rq received
  | flush =>
      rw [Bsock.call] at h
      generalize result : flush api bsock sock = r at h
      obtain ⟨ret, bsock₁, sock₁⟩ := r
      cases h
      obtain ⟨kept, valid, rq, received, -⟩ := flush_spec inv.sqValid result
      simpa [Op.sent, Op.delivered] using
        inv.sendSide (show _ = _ ++ [] by rw [kept, List.append_nil]) valid rq received
  | recv buf =>
      rw [Bsock.call] at h
      generalize result : recv api bsock sock buf = r at h
      obtain ⟨ret, len, buf', bsock₁, sock₁⟩ := r
      cases h
      obtain ⟨n, received, stream, valid, sq, accepted⟩ := recv_spec inv.rqValid result
      simpa [Op.sent, Op.delivered] using inv.recvSide received stream valid sq accepted
  | recvv iov =>
      rw [Bsock.call] at h
      generalize result : recvv api bsock sock iov = r at h
      obtain ⟨ret, len, iov', bsock₁, sock₁⟩ := r
      cases h
      obtain ⟨n, received, stream, valid, sq, accepted⟩ := recvv_spec inv.rqValid result
      simpa [Op.sent, Op.delivered] using inv.recvSide received stream valid sq accepted

theorem Streams.run (inv : Streams api taken delivered bsock sock) (complete : api.SendsComplete)
    (ops : List Op) :
    Streams api (taken ++ sentBytes ops (run api ops bsock sock).replies)
      (delivered ++ deliveredBytes ops (run api ops bsock sock).replies)
      (run api ops bsock sock).bsock (run api ops bsock sock).sock := by
  induction ops generalizing taken delivered bsock sock with
  | nil => simpa [Bsock.run, sentBytes, deliveredBytes] using inv
  | cons op ops ih =>
      generalize stepped : Bsock.call api bsock sock op = first
      obtain ⟨reply, bsock₁, sock₁⟩ := first
      have next := ih (inv.call complete stepped)
      simp only [Bsock.run, stepped, sentBytes, deliveredBytes, List.zipWith_cons_cons,
        List.flatten_cons, List.append_assoc] at next ⊢
      exact next

/-- From `ofi_bsock_init`, over any sequence of sends, flushes and receives
against a socket that completes its sends: the bytes the socket accepted
followed by those still queued in `sq` are the first `*len` bytes of each
send, in order; the bytes the receives delivered followed by those staged in
`rq` are the start of the incoming stream, so the delivered bytes are a prefix
of it; and `rq` keeps `head <= tail <= size`. -/
theorem run_preserves_streams (api : Sockapi) (complete : api.SendsComplete)
    (sbufSize rbufSize : Int) (ops : List Op) :
    let r := run api ops (init sbufSize rbufSize) Socket.fresh
    r.sock.accepted ++ r.bsock.sq.contents = sentBytes ops r.replies ∧
      deliveredBytes ops r.replies ++ r.bsock.rq.contents = api.streamPrefix r.sock.received ∧
      r.bsock.rq.head ≤ r.bsock.rq.tail ∧ r.bsock.rq.tail ≤ r.bsock.rq.size := by
  intro r
  have inv := (streams_init api sbufSize rbufSize).run complete ops
  simp only [List.nil_append] at inv
  exact ⟨inv.sent, inv.received, inv.rqValid.ordered, inv.rqValid.bounded⟩

/-- A socket that takes and delivers everything at once. -/
def eagerSockapi : Sockapi where
  send _ len := len
  recv _ room := room
  stream i := (i % 256 : Nat).toUInt8
  send_le _ _ := Int.le_refl _
  recv_le _ _ := Int.le_refl _

theorem run_preserves_streams_eager :
    eagerSockapi.SendsComplete ∧
      let r := run eagerSockapi [.send [1, 2, 3], .recv [0, 0], .flush] (init 64 64) Socket.fresh
      r.sock.accepted ++ r.bsock.sq.contents = sentBytes [.send [1, 2, 3], .recv [0, 0], .flush] r.replies ∧
        deliveredBytes [.send [1, 2, 3], .recv [0, 0], .flush] r.replies ++ r.bsock.rq.contents =
          eagerSockapi.streamPrefix r.sock.received ∧
        r.bsock.rq.head ≤ r.bsock.rq.tail ∧ r.bsock.rq.tail ≤ r.bsock.rq.size := by
  have complete : eagerSockapi.SendsComplete := fun _ len => by
    simp only [eagerSockapi, ofiEinprogressUring]
    omega
  exact ⟨complete, run_preserves_streams eagerSockapi complete 64 64 _⟩

end Bsock

end Libfabric
