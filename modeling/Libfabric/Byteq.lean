import Libfabric.Lib.Buffer
import Libfabric.Ofi

/-! The byte queue of `ofi_net.h` that stages a buffered socket's traffic, and
the copy into an I/O vector it reads through (`ofi_copy_iov_buf`). The bytes
from `head` to `tail` are queued: reads take them from `head`, writes append at
`tail`, and a queue read empty starts again from offset 0. -/
namespace Libfabric

open Buffer

def ofiByteqSize : Nat := 9000

/-- `struct ofi_byteq`; `data` is the array of `OFI_BYTEQ_SIZE` bytes. The
`unsigned int` offsets stay below the array size, so they never wrap. -/
structure Byteq where
  size : Nat
  head : Nat
  tail : Nat
  data : Bytes

/-- `ofi_iov_bytes_to_copy` for a segment of `iovLen` bytes: the count to copy
into it, and the `size` and `offset` left for the next segment. -/
def ofiIovBytesToCopy (iovLen size offset : Nat) : Nat × Nat × Nat :=
  if offset > iovLen then (0, size, offset - iovLen)
  else
    let len := min (iovLen - offset) size
    (len, size - len, 0)

/-- The loop of `ofi_copy_iov_buf` in the direction `OFI_COPY_BUF_TO_IOV`, from
one segment on, with `done` bytes of `buf` copied so far. -/
def copyIovBufLoop (buf : Bytes) : List Bytes → Nat → Nat → Nat → List Bytes × Nat
  | [], _, _, done => ([], done)
  | seg :: rest, offset, bufsize, done =>
      if bufsize = 0 then (seg :: rest, done)
      else
        let (len, bufsize', offset') := ofiIovBytesToCopy seg.length bufsize offset
        if len = 0 then Prod.map (List.cons seg) id (copyIovBufLoop buf rest offset' bufsize' done)
        else
          Prod.map (List.cons (writeAt seg offset ((buf.drop done).take len))) id
            (copyIovBufLoop buf rest offset' bufsize' (done + len))

/-- `ofi_copy_iov_buf(iov, cnt, offset, buf, bufsize, OFI_COPY_BUF_TO_IOV)`:
the segments after the copy, and the count copied. -/
def ofiCopyIovBuf (iov : List Bytes) (offset : Nat) (buf : Bytes) (bufsize : Nat) :
    List Bytes × Nat :=
  copyIovBufLoop buf iov offset bufsize 0

namespace Byteq

/-- `ofi_byteq_init`: the size is clamped to `[0, OFI_BYTEQ_SIZE]` and the
array zeroed. -/
def init (size : Int) : Byteq where
  size := if size > ofiByteqSize then ofiByteqSize else if size ≥ 0 then size.toNat else 0
  head := 0
  tail := 0
  data := List.replicate ofiByteqSize 0

def discard (q : Byteq) : Byteq := { q with head := 0, tail := 0 }

def readable (q : Byteq) : Nat := q.tail - q.head

def writeable (q : Byteq) : Nat := q.size - q.tail

def consume (q : Byteq) (bytes : Nat) : Byteq :=
  if bytes = q.readable then q.discard else { q with head := q.head + bytes }

def add (q : Byteq) (bytes : Nat) : Byteq := { q with tail := q.tail + bytes }

/-- `ofi_byteq_read`: the count read, the bytes it copies to the caller's
buffer, and the queue after. -/
def read (q : Byteq) (len : Nat) : Nat × Bytes × Byteq :=
  let avail := q.readable
  if avail = 0 then (0, [], q)
  else if len < avail then (len, (q.data.drop q.head).take len, { q with head := q.head + len })
  else (avail, (q.data.drop q.head).take avail, q.discard)

/-- `ofi_byteq_write`: `memcpy` at `tail`, then `ofi_byteq_add`. -/
def write (q : Byteq) (buf : Bytes) : Byteq :=
  ({ q with data := writeAt q.data q.tail buf }).add buf.length

def writev (q : Byteq) (iov : List Bytes) : Byteq :=
  match iov with
  | [seg] => q.write seg
  | _ => iov.foldl (fun q seg =>
      { q with data := writeAt q.data q.tail seg, tail := q.tail + seg.length }) q

/-- `ofi_byteq_readv`: the count read, the segments after the copy, and the
queue after. -/
def readv (q : Byteq) (iov : List Bytes) (offset : Nat) : Nat × List Bytes × Byteq :=
  match iov, offset with
  | [seg], 0 =>
      let (len, bytes, q) := q.read seg.length
      (len, [writeAt seg 0 bytes], q)
  | _, _ =>
      let avail := q.readable
      if avail = 0 then (0, iov, q)
      else
        let (iov, len) := ofiCopyIovBuf iov offset (q.data.drop q.head) avail
        (len, iov, if len < avail then { q with head := q.head + len } else q.discard)

/-- The queued bytes, from `head` to `tail`. -/
def contents (q : Byteq) : Bytes := (q.data.drop q.head).take q.readable

/-- What keeps the offsets inside the array: `head <= tail <= size <= OFI_BYTEQ_SIZE`. -/
structure Valid (q : Byteq) : Prop where
  ordered : q.head ≤ q.tail
  bounded : q.tail ≤ q.size
  capped : q.size ≤ ofiByteqSize
  allocated : q.data.length = ofiByteqSize

theorem valid_init (size : Int) : (init size).Valid where
  ordered := Nat.le_refl 0
  bounded := Nat.zero_le _
  capped := by
    simp only [init]
    split
    · exact Nat.le_refl _
    · split <;> omega
  allocated := List.length_replicate

variable {q : Byteq}

theorem Valid.length_contents (valid : q.Valid) : q.contents.length = q.readable := by
  have room : q.tail ≤ q.data.length := valid.allocated ▸ Nat.le_trans valid.bounded valid.capped
  simp only [contents, readable, List.length_take, List.length_drop]
  omega

theorem contents_eq_nil (empty : q.readable = 0) : q.contents = [] := by
  simp [contents, empty]

theorem Valid.discard (valid : q.Valid) : q.discard.Valid where
  ordered := Nat.le_refl 0
  bounded := Nat.zero_le _
  capped := valid.capped
  allocated := valid.allocated

@[simp] theorem contents_discard (q : Byteq) : q.discard.contents = [] :=
  contents_eq_nil (Nat.sub_self 0)

@[simp] theorem discard_size (q : Byteq) : q.discard.size = q.size := rfl

theorem contents_advance (q : Byteq) (n : Nat) :
    ({ q with head := q.head + n } : Byteq).contents = q.contents.drop n := by
  simp only [contents, readable, List.drop_take, List.drop_drop]
  congr 1
  omega

theorem Valid.advance (valid : q.Valid) {n : Nat} (within : n ≤ q.readable) :
    ({ q with head := q.head + n } : Byteq).Valid where
  ordered := by
    show q.head + n ≤ q.tail
    have := valid.ordered
    simp only [readable] at within
    omega
  bounded := valid.bounded
  capped := valid.capped
  allocated := valid.allocated

theorem Valid.consume (valid : q.Valid) {n : Nat} (within : n ≤ q.readable) :
    (q.consume n).Valid ∧ (q.consume n).contents = q.contents.drop n := by
  unfold Byteq.consume
  split
  · rename_i all
    subst all
    refine ⟨valid.discard, ?_⟩
    rw [contents_discard, List.drop_eq_nil_of_le (valid.length_contents ▸ Nat.le_refl _)]
  · exact ⟨valid.advance within, contents_advance q n⟩

theorem Valid.write (valid : q.Valid) {buf : Bytes} (fits : buf.length ≤ q.writeable) :
    (q.write buf).Valid ∧ (q.write buf).contents = q.contents ++ buf := by
  have ordered := valid.ordered
  have bounded := valid.bounded
  have room : q.tail + buf.length ≤ q.data.length := by
    have := valid.allocated ▸ valid.capped
    simp only [writeable] at fits
    omega
  refine ⟨⟨?_, ?_, valid.capped, ?_⟩, ?_⟩
  · show q.head ≤ q.tail + buf.length
    omega
  · show q.tail + buf.length ≤ q.size
    simp only [writeable] at fits
    omega
  · show (writeAt q.data q.tail buf).length = ofiByteqSize
    rw [length_writeAt room, valid.allocated]
  · have inside : q.tail ≤ q.data.length := by omega
    have span : q.head + (q.tail + buf.length - q.head) = q.tail + buf.length := by omega
    have old : q.head + (q.tail - q.head) = q.tail := by omega
    simp only [contents, Byteq.write, add, readable]
    rw [List.take_drop, List.take_drop, span, old, take_writeAt inside rfl,
      List.drop_append_of_le_length (by simp only [List.length_take]; omega)]

theorem writev_loop (iov : List Bytes) (q : Byteq) :
    iov.foldl (fun q seg =>
      ({ q with data := writeAt q.data q.tail seg, tail := q.tail + seg.length } : Byteq)) q =
      iov.foldl Byteq.write q := rfl

theorem Valid.foldl_write (valid : q.Valid) {iov : List Bytes}
    (fits : iov.flatten.length ≤ q.writeable) :
    (iov.foldl Byteq.write q).Valid ∧
      (iov.foldl Byteq.write q).contents = q.contents ++ iov.flatten := by
  induction iov generalizing q with
  | nil => exact ⟨valid, by simp⟩
  | cons seg rest ih =>
      rw [List.flatten_cons, List.length_append] at fits
      obtain ⟨written, appended⟩ := valid.write (show seg.length ≤ q.writeable by omega)
      have room : rest.flatten.length ≤ (q.write seg).writeable := by
        simp only [writeable, Byteq.write, add] at fits ⊢
        omega
      obtain ⟨valid', contents'⟩ := ih written room
      refine ⟨valid', ?_⟩
      rw [List.foldl_cons, contents', appended, List.flatten_cons, List.append_assoc]

theorem Valid.writev (valid : q.Valid) {iov : List Bytes} (fits : iov.flatten.length ≤ q.writeable) :
    (q.writev iov).Valid ∧ (q.writev iov).contents = q.contents ++ iov.flatten := by
  unfold Byteq.writev
  split
  · rename_i seg
    simpa using valid.write (show seg.length ≤ q.writeable by simpa using fits)
  · rw [writev_loop]
    exact valid.foldl_write fits

theorem Valid.read (valid : q.Valid) (len : Nat) :
    (q.read len).1 = min len q.readable ∧ (q.read len).2.1 = q.contents.take (q.read len).1 ∧
      (q.read len).2.2.Valid ∧ (q.read len).2.2.contents = q.contents.drop (q.read len).1 ∧
      (q.read len).2.2.size = q.size := by
  have length := valid.length_contents
  unfold Byteq.read
  dsimp only
  split
  · rename_i empty
    simp [contents_eq_nil empty, empty, valid]
  · split
    · rename_i short
      refine ⟨(Nat.min_eq_left (Nat.le_of_lt short)).symm, ?_, valid.advance (Nat.le_of_lt short),
        contents_advance q len, rfl⟩
      simp only [contents, List.take_take, Nat.min_eq_left (Nat.le_of_lt short)]
    · rename_i long
      refine ⟨(Nat.min_eq_right (by omega)).symm, ?_, valid.discard, ?_, rfl⟩
      · show q.contents = q.contents.take q.readable
        rw [List.take_of_length_le (by omega)]
      · rw [contents_discard, List.drop_eq_nil_of_le (by omega)]

theorem copyIovBufLoop_eq (buf : Bytes) (iov : List Bytes) (offset bufsize done : Nat) :
    copyIovBufLoop buf iov offset bufsize done =
      (scatter iov offset ((buf.drop done).take bufsize),
        done + min bufsize (iov.flatten.length - offset)) := by
  induction iov generalizing offset bufsize done with
  | nil => simp [copyIovBufLoop, scatter]
  | cons seg rest ih =>
      simp only [copyIovBufLoop, ofiIovBytesToCopy, List.flatten_cons, List.length_append]
      by_cases empty : bufsize = 0
      · simp [empty]
      · rw [if_neg empty]
        split
        · -- the offset lies past this segment: skip it
          rename_i past
          simp only [if_true, ih, Prod.map, id, scatter, if_pos past]
          congr 2
          omega
        · rename_i within
          simp only [scatter, if_neg (Nat.not_lt.mpr (Nat.le_of_not_lt within)), List.take_take]
          split
          · -- the offset is exactly the end of this segment
            rename_i nothing
            have atEnd : seg.length - offset = 0 := by omega
            simp only [ih, Prod.map, id, atEnd, Nat.zero_min, List.take_zero, writeAt_nil,
              List.drop_zero, Nat.sub_zero]
            congr 2
            omega
          · rename_i copied
            simp only [ih, Prod.map, id, Prod.mk.injEq]
            refine ⟨?_, by omega⟩
            congr 2
            rw [List.drop_take, List.drop_drop]
            rcases Nat.le_total (seg.length - offset) bufsize with fitsIn | overflows
            · rw [Nat.min_eq_left fitsIn]
            · rw [Nat.min_eq_right overflows, Nat.sub_self, Nat.sub_eq_zero_of_le overflows,
                List.take_zero, List.take_zero]

theorem ofiCopyIovBuf_eq (iov : List Bytes) (offset : Nat) (buf : Bytes) (bufsize : Nat) :
    ofiCopyIovBuf iov offset buf bufsize =
      (scatter iov offset (buf.take bufsize), min bufsize (iov.flatten.length - offset)) := by
  simp [ofiCopyIovBuf, copyIovBufLoop_eq]

theorem Valid.readv (valid : q.Valid) (iov : List Bytes) (offset : Nat) :
    let r := q.readv iov offset
    r.1 = min q.readable (iov.flatten.length - offset) ∧
      r.2.1.flatten = writeAt iov.flatten offset (q.contents.take r.1) ∧
      r.2.1.map List.length = iov.map List.length ∧
      r.2.2.Valid ∧ r.2.2.contents = q.contents.drop r.1 ∧ r.2.2.size = q.size := by
  have length := valid.length_contents
  unfold Byteq.readv
  dsimp only
  split
  · -- one segment and no offset: `ofi_byteq_read`
    rename_i seg
    obtain ⟨count, bytes, valid', rest, size⟩ := valid.read seg.length
    have fits : 0 + (q.contents.take (q.read seg.length).1).length ≤ seg.length := by
      simp only [List.length_take, count]
      omega
    simp only [List.flatten_cons, List.flatten_nil, List.append_nil, Nat.sub_zero, List.map_cons,
      List.map_nil, bytes, valid', rest, size, length_writeAt fits, and_self, and_true]
    rw [count, Nat.min_comm]
  · split
    · rename_i empty
      simp [empty, contents_eq_nil empty, valid]
    · rename_i avail
      have copied := ofiCopyIovBuf_eq iov offset (q.data.drop q.head) q.readable
      have taken : (q.data.drop q.head).take q.readable = q.contents := rfl
      have trimmed : q.contents.take (min q.readable (iov.flatten.length - offset)) =
          q.contents.take (iov.flatten.length - offset) := by
        rw [← length, Nat.min_comm, ← List.take_take, List.take_of_length_le (Nat.le_refl _)]
      rw [taken] at copied
      simp only [copied]
      refine ⟨trivial, by rw [flatten_scatter, trimmed], map_length_scatter _ _ _, ?_⟩
      split
      · exact ⟨valid.advance (by omega), contents_advance q _, rfl⟩
      · refine ⟨valid.discard, ?_, rfl⟩
        rw [contents_discard, List.drop_eq_nil_of_le (by omega)]

end Byteq

end Libfabric
