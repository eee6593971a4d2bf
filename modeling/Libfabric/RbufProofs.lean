import Libfabric.Rbuf
import Libfabric.Lib.Ring

/-! The ring buffer of `ofi_rbuf.h` is a byte FIFO. `ByteFifo` says what it is
for: reads take committed bytes from the front, writes gather behind them
until a commit hands them on or an abort drops them. `Holds` ties a ring to
such a queue: seen from `rcnt` through `List.rotate`, the array starts with
the committed bytes and then the uncommitted ones, and the `size_t` distances
between the counters are their lengths. Every call that keeps the caller's
contract keeps `Holds` and hands back what the queue does. -/
namespace Libfabric

open Buffer

/-- A queue of committed bytes, and the bytes written since the last commit
or abort. -/
structure ByteFifo where
  committed : Bytes
  pending : Bytes

namespace ByteFifo

open OfiRingbuf (Op Out)

def call (q : ByteFifo) : Op → Out × ByteFifo
  | .write src => (.none, ⟨q.committed, q.pending ++ src⟩)
  | .commit => (.none, ⟨q.committed ++ q.pending, []⟩)
  | .abort => (.none, ⟨q.committed, []⟩)
  | .peek len => (.bytes (q.committed.take len), q)
  | .read len => (.bytes (q.committed.take len), ⟨q.committed.drop len, q.pending⟩)
  | .discard len => (.count (min q.committed.length len), ⟨q.committed.drop len, q.pending⟩)

def run (q : ByteFifo) : List Op → List Out × ByteFifo
  | [] => ([], q)
  | op :: ops =>
      let rest := run (call q op).2 ops
      ((call q op).1 :: rest.1, rest.2)

end ByteFifo

namespace OfiRingbuf

/-! ## The shape `ofi_rbinit` gives -/

/-- A power-of-two size of at most `2 ^ 63` with its mask, an array of that
size, and counters that are `size_t` values. -/
structure Shape (rb : OfiRingbuf) : Prop where
  pow2 : ∃ k, k ≤ 63 ∧ rb.size = 2 ^ k
  mask : rb.sizeMask = rb.size - 1
  length : rb.buf.length = rb.size
  rcnt_lt : rb.rcnt < 2 ^ 64
  wcnt_lt : rb.wcnt < 2 ^ 64
  wpos_lt : rb.wpos < 2 ^ 64

namespace Shape

variable {rb : OfiRingbuf} (hs : rb.Shape)
include hs

theorem size_pos : 0 < rb.size := by
  obtain ⟨k, -, hk⟩ := hs.pow2
  rw [hk]
  exact Nat.two_pow_pos k

theorem size_le : rb.size ≤ 2 ^ 63 := by
  obtain ⟨k, hk63, hk⟩ := hs.pow2
  rw [hk]
  exact Nat.pow_le_pow_right (by decide) hk63

theorem size_dvd : rb.size ∣ 2 ^ 64 := by
  obtain ⟨k, hk63, hk⟩ := hs.pow2
  rw [hk]
  exact Nat.pow_dvd_pow 2 (by omega)

theorem mask_eq (c : Nat) : c &&& rb.sizeMask = c % rb.size := by
  obtain ⟨k, -, hk⟩ := hs.pow2
  rw [hs.mask, hk, Nat.and_two_pow_sub_one_eq_mod]

theorem rotate_sizeAdd (c n : Nat) : rb.buf.rotate (sizeAdd c n) = rb.buf.rotate (c + n) :=
  Ring.rotate_mod_of_dvd (hs.length ▸ hs.size_dvd) (c + n)

end Shape

theorem ofiRbpeek_eq {rb : OfiRingbuf} (hs : rb.Shape) (len : Nat) :
    ofiRbpeek rb len = Ring.read rb.buf (rb.rcnt % rb.size) len := by
  rw [ofiRbpeek, Ring.read, hs.mask_eq, hs.length]

theorem ofiRbwrite_buf_eq {rb : OfiRingbuf} (hs : rb.Shape) (src : Bytes) :
    (ofiRbwrite rb src).buf = Ring.write rb.buf (rb.wpos % rb.size) src := by
  rw [ofiRbwrite, Ring.write, hs.mask_eq, hs.length]

/-! ## The ring holds a queue -/

/-- `rb` holds the queue `q`. -/
structure Holds (rb : OfiRingbuf) (q : ByteFifo) : Prop where
  shape : rb.Shape
  used : ofiRbused rb = q.committed.length
  uncommitted : sizeSub rb.wpos rb.wcnt = q.pending.length
  fits : q.committed.length + q.pending.length ≤ rb.size
  contents : (rb.buf.rotate rb.rcnt).take (q.committed.length + q.pending.length) =
    q.committed ++ q.pending

theorem holds_init {size : Nat} {rb : OfiRingbuf} (h : ofiRbinit size = .ok rb) :
    rb.Holds ⟨[], []⟩ := by
  unfold ofiRbinit at h
  split at h
  case isTrue => cases h
  case isFalse hsize =>
    cases h
    obtain ⟨k, hk, hle, hlt⟩ := roundupPowerOfTwo_spec (n := size) (by omega)
    have hk63 : k ≤ 63 := by
      by_contra hbig
      have : 2 ^ 64 ≤ 2 ^ k := Nat.pow_le_pow_right (by decide) (by omega)
      simp only [sizeMax] at hsize
      omega
    exact {
      shape := ⟨⟨k, hk63, hk⟩, rfl, List.length_replicate, Nat.two_pow_pos 64, Nat.two_pow_pos 64,
        Nat.two_pow_pos 64⟩
      used := sizeSub_self 0
      uncommitted := sizeSub_self 0
      fits := Nat.zero_le _
      contents := rfl }

namespace Holds

variable {rb : OfiRingbuf} {q : ByteFifo} (h : rb.Holds q)
include h

/-! The counters, read back from the lengths. -/

theorem avail_eq : ofiRbavail rb = rb.size - q.committed.length := by
  have hle := h.shape.size_le
  have hfits := h.fits
  simp only [ofiRbavail, h.used, sizeSub]
  omega

theorem wpos_eq : rb.wpos = sizeAdd rb.rcnt (q.committed.length + q.pending.length) := by
  have hused := h.used
  have hunc := h.uncommitted
  have hle := h.shape.size_le
  have hfits := h.fits
  have := h.shape.rcnt_lt
  have := h.shape.wcnt_lt
  have := h.shape.wpos_lt
  simp only [ofiRbused, sizeSub, sizeAdd] at hused hunc ⊢
  omega

/-! One lemma per call. -/

theorem peek {len : Nat} (hlen : len ≤ q.committed.length) : ofiRbpeek rb len = q.committed.take len := by
  have hs := h.shape
  have hfits := h.fits
  have hroom : len ≤ rb.buf.length := by rw [hs.length]; omega
  have hview : (rb.buf.rotate rb.rcnt).take len = q.committed.take len := by
    calc (rb.buf.rotate rb.rcnt).take len
        = ((rb.buf.rotate rb.rcnt).take (q.committed.length + q.pending.length)).take len := by
          rw [List.take_take, Nat.min_eq_left (by omega)]
      _ = q.committed.take len := by rw [h.contents, List.take_append_of_le_length hlen]
  rw [ofiRbpeek_eq hs, ← hs.length, Ring.read_mod (hs.length ▸ hs.size_pos) hroom, hview]

theorem write {src : Bytes} (ok : CallOk rb (.write src)) :
    (ofiRbwrite rb src).Holds ⟨q.committed, q.pending ++ src⟩ := by
  have hs := h.shape
  have hroom : q.committed.length + q.pending.length + src.length ≤ rb.size := by
    simp only [CallOk, h.avail_eq, h.uncommitted] at ok
    have := h.fits
    omega
  -- from `rcnt`, the write lands right behind the uncommitted bytes
  have hbuf : (ofiRbwrite rb src).buf.rotate rb.rcnt =
      writeAt (rb.buf.rotate rb.rcnt) (q.committed.length + q.pending.length) src := by
    rw [ofiRbwrite_buf_eq hs, h.wpos_eq, sizeAdd, Nat.mod_mod_of_dvd _ hs.size_dvd, ← hs.length,
      Ring.rotate_write_mod (hs.length ▸ hs.size_pos) (by rw [hs.length]; omega)]
  refine ⟨⟨hs.pow2, hs.mask, ?_, hs.rcnt_lt, hs.wcnt_lt, sizeAdd_lt _ _⟩, h.used, ?_, ?_, ?_⟩
  case refine_1 =>
    have hp : rb.wpos % rb.size ≤ rb.buf.length := by
      rw [hs.length]
      exact (Nat.mod_lt _ hs.size_pos).le
    rw [ofiRbwrite_buf_eq hs, Ring.length_write hp (by rw [hs.length]; omega), hs.length, ofiRbwrite_size]
  case refine_2 =>
    have hunc := h.uncommitted
    have := hs.wcnt_lt
    have := hs.wpos_lt
    have := hs.size_le
    simp only [ofiRbwrite_wpos, ofiRbwrite_wcnt, sizeSub, sizeAdd, List.length_append] at hunc ⊢
    omega
  case refine_3 =>
    simp only [List.length_append, ofiRbwrite_size]
    omega
  case refine_4 =>
    have hinside : q.committed.length + q.pending.length ≤ (rb.buf.rotate rb.rcnt).length := by
      rw [List.length_rotate, hs.length]; omega
    simp only [List.length_append, ← Nat.add_assoc, ofiRbwrite_rcnt]
    rw [hbuf, take_writeAt hinside rfl, h.contents, List.append_assoc]

theorem commit : (ofiRbcommit rb).Holds ⟨q.committed ++ q.pending, []⟩ := by
  have hs := h.shape
  have hfits := h.fits
  refine ⟨⟨hs.pow2, hs.mask, hs.length, hs.rcnt_lt, hs.wpos_lt, hs.wpos_lt⟩, ?_, sizeSub_self _, ?_, ?_⟩
  case refine_1 =>
    have hused := h.used
    have hunc := h.uncommitted
    have := hs.rcnt_lt
    have := hs.wcnt_lt
    have := hs.wpos_lt
    have := hs.size_le
    simp only [ofiRbcommit_wcnt, ofiRbcommit_rcnt, ofiRbused, sizeSub, List.length_append] at hused hunc ⊢
    omega
  case refine_2 =>
    simpa only [List.length_append, List.length_nil, Nat.add_zero, ofiRbcommit_size] using hfits
  case refine_3 =>
    simpa only [List.length_append, List.length_nil, Nat.add_zero, List.append_nil, ofiRbcommit_buf,
      ofiRbcommit_rcnt] using h.contents

theorem abort : (ofiRbabort rb).Holds ⟨q.committed, []⟩ := by
  have hs := h.shape
  refine ⟨⟨hs.pow2, hs.mask, hs.length, hs.rcnt_lt, hs.wcnt_lt, hs.wcnt_lt⟩, h.used, sizeSub_self _, ?_, ?_⟩
  case refine_1 =>
    have := h.fits
    simp only [List.length_nil, ofiRbabort_size]
    omega
  case refine_2 =>
    have hcut : q.committed.length ≤ q.committed.length + q.pending.length := Nat.le_add_right _ _
    rw [List.length_nil, Nat.add_zero, List.append_nil, ofiRbabort_buf, ofiRbabort_rcnt,
      ← Nat.min_eq_left hcut, ← List.take_take, h.contents, List.take_left]

theorem advance {n : Nat} (hn : n ≤ q.committed.length) :
    ({ rb with rcnt := sizeAdd rb.rcnt n } : OfiRingbuf).Holds ⟨q.committed.drop n, q.pending⟩ := by
  have hs := h.shape
  have hfits := h.fits
  refine ⟨⟨hs.pow2, hs.mask, hs.length, sizeAdd_lt _ _, hs.wcnt_lt, hs.wpos_lt⟩, ?_, h.uncommitted, ?_, ?_⟩
  case refine_1 =>
    have hused := h.used
    have := hs.rcnt_lt
    have := hs.wcnt_lt
    have := hs.size_le
    simp only [ofiRbused, sizeSub, sizeAdd, List.length_drop] at hused ⊢
    omega
  case refine_2 =>
    simp only [List.length_drop]
    omega
  case refine_3 =>
    -- the rest of the view from `rcnt + n` is the view from `rcnt` without its first `n` bytes
    have hrest : n + (q.committed.length - n + q.pending.length) = q.committed.length + q.pending.length := by
      omega
    simp only [List.length_drop]
    rw [hs.rotate_sizeAdd, Ring.take_rotate_add (by rw [hs.length]; omega), List.take_drop, hrest,
      h.contents, List.drop_append_of_le_length hn]

theorem call {op : Op} (ok : CallOk rb op) :
    (OfiRingbuf.call rb op).1 = (q.call op).1 ∧ (OfiRingbuf.call rb op).2.Holds (q.call op).2 := by
  cases op with
  | write src => exact ⟨rfl, h.write ok⟩
  | commit => exact ⟨rfl, h.commit⟩
  | abort => exact ⟨rfl, h.abort⟩
  | peek len =>
    have hlen : len ≤ q.committed.length := h.used ▸ ok
    exact ⟨congrArg Out.bytes (h.peek hlen), h⟩
  | read len =>
    have hlen : len ≤ q.committed.length := h.used ▸ ok
    exact ⟨congrArg Out.bytes (h.peek hlen), h.advance hlen⟩
  | discard len =>
    -- the ring drops `min used len` bytes; dropping `len` from the queue is the same
    have hdrop : q.committed.drop (min q.committed.length len) = q.committed.drop len := by
      rcases Nat.le_total q.committed.length len with hge | hle
      · rw [Nat.min_eq_left hge, List.drop_length, List.drop_eq_nil_of_le hge]
      · rw [Nat.min_eq_right hle]
    have hadv := h.advance (Nat.min_le_left q.committed.length len)
    rw [hdrop] at hadv
    refine ⟨?_, ?_⟩
    · simp only [OfiRingbuf.call, ofiRbdiscard, ByteFifo.call, h.used]
    · simpa only [OfiRingbuf.call, ofiRbdiscard, ByteFifo.call, h.used] using hadv

omit h in
theorem run {rb : OfiRingbuf} {q : ByteFifo} (h : rb.Holds q) {ops : List Op} (ok : rb.RunOk ops) :
    (rb.run ops).1 = (q.run ops).1 ∧ (rb.run ops).2.Holds (q.run ops).2 := by
  induction ops generalizing rb q with
  | nil => exact ⟨rfl, h⟩
  | cons op ops ih =>
    obtain ⟨hop, hrest⟩ := ok
    obtain ⟨hout, hnext⟩ := h.call hop
    obtain ⟨houts, hend⟩ := ih hnext hrest
    simp only [OfiRingbuf.run, ByteFifo.run]
    exact ⟨by rw [hout, houts], hend⟩

end Holds

theorem RunOk.take {rb : OfiRingbuf} {ops : List Op} (ok : rb.RunOk ops) (k : Nat) :
    rb.RunOk (ops.take k) := by
  induction ops generalizing rb k with
  | nil => simp [RunOk]
  | cons op ops ih =>
    cases k with
    | zero => trivial
    | succ k => exact ⟨ok.1, ih ok.2 k⟩

/-- From any size `ofi_rbinit` accepts, every sequence of calls that keeps
the caller's contract hands back what the byte FIFO does, and after every
prefix of it `wcnt - rcnt` is at most `size`. -/
theorem run_refines_fifo {size : Nat} {rb : OfiRingbuf} (hinit : ofiRbinit size = .ok rb)
    {ops : List Op} (ok : rb.RunOk ops) :
    (rb.run ops).1 = (ByteFifo.run ⟨[], []⟩ ops).1 ∧
      ∀ k, ofiRbused (rb.run (ops.take k)).2 ≤ (rb.run (ops.take k)).2.size := by
  refine ⟨((holds_init hinit).run ok).1, fun k => ?_⟩
  have hk := ((holds_init hinit).run (ok.take k)).2
  rw [hk.used]
  have := hk.fits
  omega

/-- A ring of four bytes: the second write and the peek after it wrap past the
end of the array. -/
theorem run_refines_fifo_wrap :
    (OfiRingbuf.run ⟨4, 3, 0, 0, 0, [0, 0, 0, 0]⟩ [.write [1, 2, 3], .commit, .read 2,
        .write [4, 5, 6], .commit, .peek 4, .discard 1, .read 3, .write [7], .abort]).1 =
      (ByteFifo.run ⟨[], []⟩ [.write [1, 2, 3], .commit, .read 2, .write [4, 5, 6], .commit,
        .peek 4, .discard 1, .read 3, .write [7], .abort]).1 ∧
    ∀ k, ofiRbused (OfiRingbuf.run ⟨4, 3, 0, 0, 0, [0, 0, 0, 0]⟩ ([.write [1, 2, 3], .commit,
        .read 2, .write [4, 5, 6], .commit, .peek 4, .discard 1, .read 3, .write [7],
        .abort].take k)).2 ≤
      (OfiRingbuf.run ⟨4, 3, 0, 0, 0, [0, 0, 0, 0]⟩ ([.write [1, 2, 3], .commit, .read 2,
        .write [4, 5, 6], .commit, .peek 4, .discard 1, .read 3, .write [7],
        .abort].take k)).2.size :=
  run_refines_fifo (rfl : ofiRbinit 3 = .ok ⟨4, 3, 0, 0, 0, [0, 0, 0, 0]⟩) (by decide)

example : (OfiRingbuf.run ⟨4, 3, 0, 0, 0, [0, 0, 0, 0]⟩ [.write [1, 2, 3], .commit, .read 2,
    .write [4, 5, 6], .commit, .peek 4, .discard 1, .read 3, .write [7], .abort]).1 =
      [.none, .none, .bytes [1, 2], .none, .none, .bytes [3, 4, 5, 6], .count 1, .bytes [4, 5, 6],
        .none, .none] := by
  decide

end OfiRingbuf

end Libfabric
