import Libfabric.Byteq
import Libfabric.Errno
import Libfabric.Ofi

/-! The I/O vector helpers of `iov.c` and `ofi_iov.h`. A `struct iovec` and a
`struct fi_rma_iov` are both a run of bytes from a start address; the
consume, copy and locate helpers come in pairs that differ only in the
segment type (and in the descriptor array an `iovec` carries), so each pair is
one definition over the segment's length and its cut, applied to the two
types. Pointer arithmetic does not wrap; the locate helpers add lengths in
`size_t`, which does. -/
namespace Libfabric

open Buffer

structure Iovec where
  iovBase : Nat
  iovLen : Nat
  deriving DecidableEq, Repr

structure FiRmaIov where
  addr : Nat
  len : Nat
  key : Nat
  deriving DecidableEq, Repr

def Iovec.slice (iov : Iovec) (off len : Nat) : Iovec := ⟨iov.iovBase + off, len⟩

def FiRmaIov.slice (iov : FiRmaIov) (off len : Nat) : FiRmaIov := ⟨iov.addr + off, len, iov.key⟩

section Segments

variable {σ : Type} (segLen : σ → Nat) (slice : σ → Nat → Nat → σ)

/-- The loop of the consume helpers: drop whole segments while `to_consume`
covers them. The count dropped and what is left to consume, or `none` once no
segment is left. -/
def consumeLoop : List σ → Nat → Nat → Option (Nat × Nat)
  | [], _, _ => none
  | seg :: rest, dropped, toConsume =>
      if toConsume ≥ segLen seg then consumeLoop rest (dropped + 1) (toConsume - segLen seg)
      else some (dropped, toConsume)

/-- The body shared by `ofi_consume_iov_desc` and `ofi_consume_rma_iov`: the
count of segments moved out, and the segments left, the first one cut by what
is left to consume. One segment is cut directly. -/
def consumeSegs (segs : List σ) (toConsume : Nat) : Nat × List σ :=
  match segs with
  | [seg] => if segLen seg = toConsume then (0, []) else (0, [slice seg toConsume (segLen seg - toConsume)])
  | _ =>
      match consumeLoop segLen segs 0 toConsume with
      | none => (segs.length, [])
      | some (dropped, left) =>
          match segs.drop dropped with
          | [] => (dropped, [])
          | seg :: rest => (dropped, slice seg left (segLen seg - left) :: rest)

/-- The loop of the copy helpers from source segment `j` with `len` bytes to
go: the destination entries written, and the cursor it returns with, or
`none` for `-FI_ETOOSMALL`. -/
def copySegsLoop : List σ → Nat → Nat → Nat → List σ × Option (Nat × Nat)
  | [], _, _, _ => ([], none)
  | seg :: rest, j, offset, len =>
      if len ≤ segLen seg - offset then
        ([slice seg offset len], some (if len = segLen seg - offset then (j + 1, 0) else (j, offset + len)))
      else
        let r := copySegsLoop rest (j + 1) 0 (len - (segLen seg - offset))
        (slice seg offset (segLen seg - offset) :: r.1, r.2)

/-- The body shared by `ofi_copy_iov_desc` and `ofi_copy_rma_iov`: the return
code, the destination entries written, and the cursor `(*index, *offset)`
after. A failing call has set `*offset` to 0 if its loop ran. -/
def copySegs (src : List σ) (index offset len : Nat) : Int × List σ × Nat × Nat :=
  let r := copySegsLoop segLen slice (src.drop index) index offset len
  match r.2 with
  | some (index', offset') => (0, r.1, index', offset')
  | none => (-fiEtoosmall, r.1, index, if index < src.length then 0 else offset)

/-- A caller's copies out of one source, each from the cursor the one before
left: each call's return code and destination entries. -/
def copyRun (src : List σ) : Nat → Nat → List Nat → List (Int × List σ)
  | _, _, [] => []
  | index, offset, len :: lens =>
      let r := copySegs segLen slice src index offset len
      (r.1, r.2.1) :: copyRun src r.2.2.1 r.2.2.2 lens

end Segments

/-- `ofi_consume_iov_desc`: the `iovec`s left, and the descriptor array, moved
with them unless no segment is left. -/
def ofiConsumeIovDesc {D : Type} (iov : List Iovec) (desc : Option (List D)) (toConsume : Nat) :
    List Iovec × Option (List D) :=
  let r := consumeSegs Iovec.iovLen Iovec.slice iov toConsume
  (r.2, if r.2 = [] then desc else desc.map (·.drop r.1))

def ofiConsumeRmaIov (rmaIov : List FiRmaIov) (toConsume : Nat) : List FiRmaIov :=
  (consumeSegs FiRmaIov.len FiRmaIov.slice rmaIov toConsume).2

def ofiTruncateIov : List Iovec → Nat → Int × List Iovec
  | [], newSize => (if newSize ≠ 0 then -fiEtrunc else 0, [])
  | seg :: rest, newSize =>
      if newSize ≤ seg.iovLen then (0, [⟨seg.iovBase, newSize⟩])
      else
        let r := ofiTruncateIov rest (newSize - seg.iovLen)
        (r.1, seg :: r.2)

/-- `ofi_copy_iov_desc`: the return code, the destination `iovec`s and
descriptors written (`dst_desc[i] = src_desc[*index + i]`), and the cursor. -/
def ofiCopyIovDesc {D : Type} (src : List Iovec) (srcDesc : Option (List D)) (index offset len : Nat) :
    (Int × List Iovec × Nat × Nat) × Option (List D) :=
  let r := copySegs Iovec.iovLen Iovec.slice src index offset len
  (r, srcDesc.map fun ds => (ds.drop index).take r.2.1.length)

def ofiCopyRmaIov (src : List FiRmaIov) (index offset len : Nat) : Int × List FiRmaIov × Nat × Nat :=
  copySegs FiRmaIov.len FiRmaIov.slice src index offset len

/-! ## Locating an offset -/

/-- The loop of `ofi_iov_locate` and `ofi_rma_iov_locate` over the segment
lengths from segment `i`, with `curoffset` the `size_t` sum of the lengths
before it. -/
def iovLocateLoop (offset : Nat) : List Nat → Nat → Nat → Option (Nat × Nat)
  | [], _, _ => none
  | len :: rest, i, curoffset =>
      if offset ≥ curoffset ∧ offset < sizeAdd curoffset len then some (i, offset - curoffset)
      else iovLocateLoop offset rest (i + 1) (sizeAdd curoffset len)

/-- The body of both locate helpers: the segment and the offset in it, or
`none` for `-FI_EINVAL`. -/
def iovLocate (lens : List Nat) (offset : Nat) : Option (Nat × Nat) :=
  match lens with
  | [len] => if offset ≥ len then none else some (0, offset)
  | _ => iovLocateLoop offset lens 0 0

def ofiIovLocate (iov : List Iovec) (offset : Nat) : Option (Nat × Nat) :=
  iovLocate (iov.map Iovec.iovLen) offset

def ofiRmaIovLocate (rmaIov : List FiRmaIov) (offset : Nat) : Option (Nat × Nat) :=
  iovLocate (rmaIov.map FiRmaIov.len) offset

/-! ## Copies between a buffer and segments

Here a segment is the list of its bytes, as in `ofiCopyIovBuf`. -/

/-- The loop of `ofi_copy_iov_buf` in the direction `OFI_COPY_IOV_TO_BUF`,
with `done` bytes copied into `buf` so far. -/
def copyIovToBufLoop : List Bytes → Nat → Nat → Bytes → Nat → Bytes × Nat
  | [], _, _, buf, done => (buf, done)
  | seg :: rest, offset, bufsize, buf, done =>
      if bufsize = 0 then (buf, done)
      else
        let (len, bufsize', offset') := ofiIovBytesToCopy seg.length bufsize offset
        if len = 0 then copyIovToBufLoop rest offset' bufsize' buf done
        else copyIovToBufLoop rest offset' bufsize' (writeAt buf done ((seg.drop offset).take len)) (done + len)

/-- `ofi_copy_iov_buf(iov, cnt, offset, buf, bufsize, OFI_COPY_IOV_TO_BUF)`:
the buffer after the copy, and the count copied. -/
def ofiCopyIovBufToBuf (iov : List Bytes) (offset : Nat) (buf : Bytes) (bufsize : Nat) : Bytes × Nat :=
  copyIovToBufLoop iov offset bufsize buf 0

def ofiCopyToIov (iov : List Bytes) (iovOffset : Nat) (buf : Bytes) (bufsize : Nat) : List Bytes × Nat :=
  match iov with
  | [seg] =>
      let size := if iovOffset > seg.length then 0 else min bufsize (seg.length - iovOffset)
      ([writeAt seg iovOffset (buf.take size)], size)
  | _ => ofiCopyIovBuf iov iovOffset buf bufsize

def ofiCopyFromIov (buf : Bytes) (bufsize : Nat) (iov : List Bytes) (iovOffset : Nat) : Bytes × Nat :=
  match iov with
  | [seg] =>
      let size := if iovOffset > seg.length then 0 else min bufsize (seg.length - iovOffset)
      (writeAt buf 0 ((seg.drop iovOffset).take size), size)
  | _ => ofiCopyIovBufToBuf iov iovOffset buf bufsize

end Libfabric
