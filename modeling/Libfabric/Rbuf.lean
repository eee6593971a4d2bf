import Libfabric.Errno
import Libfabric.Ofi
import Libfabric.Lib.Buffer

/-! The simple byte ring buffer of `ofi_rbuf.h`. `rcnt`, `wcnt` and `wpos` are
free-running `size_t` counters: the bytes from `rcnt` to `wcnt` are committed
and can be read, those from `wcnt` to `wpos` are written but not committed.
A counter's cell is the counter masked by `size_mask`; a write or a read that
runs past the end of the array is split into two `memcpy`s. -/
namespace Libfabric

open Buffer

/-- `struct ofi_ringbuf`; `buf` is the array of `size` bytes. -/
structure OfiRingbuf where
  size : Nat
  sizeMask : Nat
  rcnt : Nat
  wcnt : Nat
  wpos : Nat
  buf : Bytes

/-- `ofi_rbinit`, with `calloc` succeeding. -/
def ofiRbinit (size : Nat) : Except Int OfiRingbuf :=
  if size = 0 ∨ size > sizeMax / 2 then .error (-einval)
  else
    let size := roundupPowerOfTwo size
    .ok { size, sizeMask := size - 1, rcnt := 0, wcnt := 0, wpos := 0, buf := List.replicate size 0 }

def ofiRbreset (rb : OfiRingbuf) : OfiRingbuf := { rb with rcnt := 0, wcnt := 0, wpos := 0 }

def ofiRbfull (rb : OfiRingbuf) : Bool := sizeSub rb.wcnt rb.rcnt ≥ rb.size

def ofiRbempty (rb : OfiRingbuf) : Bool := rb.wcnt == rb.rcnt

def ofiRbused (rb : OfiRingbuf) : Nat := sizeSub rb.wcnt rb.rcnt

def ofiRbavail (rb : OfiRingbuf) : Nat := sizeSub rb.size (ofiRbused rb)

/-- `ofi_rbwrite` of the bytes `src`. `endlen` cannot wrap: a masked counter
is below `size`. -/
@[simps] def ofiRbwrite (rb : OfiRingbuf) (src : Bytes) : OfiRingbuf :=
  let endlen := rb.size - (rb.wpos &&& rb.sizeMask)
  let buf :=
    if src.length ≤ endlen then writeAt rb.buf (rb.wpos &&& rb.sizeMask) src
    else writeAt (writeAt rb.buf (rb.wpos &&& rb.sizeMask) (src.take endlen)) 0 (src.drop endlen)
  { rb with buf, wpos := sizeAdd rb.wpos src.length }

@[simps] def ofiRbcommit (rb : OfiRingbuf) : OfiRingbuf := { rb with wcnt := rb.wpos }

@[simps] def ofiRbabort (rb : OfiRingbuf) : OfiRingbuf := { rb with wpos := rb.wcnt }

/-- `ofi_rbpeek`: the `len` bytes it copies out. -/
def ofiRbpeek (rb : OfiRingbuf) (len : Nat) : Bytes :=
  let endlen := rb.size - (rb.rcnt &&& rb.sizeMask)
  if len ≤ endlen then (rb.buf.drop (rb.rcnt &&& rb.sizeMask)).take len
  else (rb.buf.drop (rb.rcnt &&& rb.sizeMask)).take endlen ++ rb.buf.take (len - endlen)

def ofiRbread (rb : OfiRingbuf) (len : Nat) : Bytes × OfiRingbuf :=
  (ofiRbpeek rb len, { rb with rcnt := sizeAdd rb.rcnt len })

/-- `ofi_rbdiscard`: the count dropped, and the ring after. -/
def ofiRbdiscard (rb : OfiRingbuf) (len : Nat) : Nat × OfiRingbuf :=
  let usedLen := min (ofiRbused rb) len
  (usedLen, { rb with rcnt := sizeAdd rb.rcnt usedLen })

namespace OfiRingbuf

/-- The calls on a ring buffer after `ofi_rbinit`. -/
inductive Op where
  | write (src : Bytes)
  | commit
  | abort
  | peek (len : Nat)
  | read (len : Nat)
  | discard (len : Nat)
  deriving Repr, DecidableEq

/-- What a call hands back: the bytes of a peek or a read, the count of a discard. -/
inductive Out where
  | none
  | bytes (data : Bytes)
  | count (n : Nat)
  deriving Repr, DecidableEq

def call (rb : OfiRingbuf) : Op → Out × OfiRingbuf
  | .write src => (.none, ofiRbwrite rb src)
  | .commit => (.none, ofiRbcommit rb)
  | .abort => (.none, ofiRbabort rb)
  | .peek len => (.bytes (ofiRbpeek rb len), rb)
  | .read len => (.bytes (ofiRbread rb len).1, (ofiRbread rb len).2)
  | .discard len => (.count (ofiRbdiscard rb len).1, (ofiRbdiscard rb len).2)

/-- A sequence of calls: what each hands back, and the ring at the end. -/
def run (rb : OfiRingbuf) : List Op → List Out × OfiRingbuf
  | [] => ([], rb)
  | op :: ops =>
      let rest := run (call rb op).2 ops
      ((call rb op).1 :: rest.1, rest.2)

/-- The contract a caller keeps: a write fits in what `ofi_rbavail` leaves
after the uncommitted bytes, and a peek or a read asks for no more than
`ofi_rbused`. -/
def CallOk (rb : OfiRingbuf) : Op → Prop
  | .write src => src.length + sizeSub rb.wpos rb.wcnt ≤ ofiRbavail rb
  | .peek len => len ≤ ofiRbused rb
  | .read len => len ≤ ofiRbused rb
  | .commit | .abort | .discard _ => True

instance (rb : OfiRingbuf) : (op : Op) → Decidable (CallOk rb op)
  | .write _ => inferInstanceAs (Decidable (_ ≤ _))
  | .peek _ => inferInstanceAs (Decidable (_ ≤ _))
  | .read _ => inferInstanceAs (Decidable (_ ≤ _))
  | .commit | .abort | .discard _ => isTrue trivial

/-- Every call of a run keeps the contract in the state it is made in. -/
def RunOk : OfiRingbuf → List Op → Prop
  | _, [] => True
  | rb, op :: ops => CallOk rb op ∧ RunOk (call rb op).2 ops

instance decRunOk : (rb : OfiRingbuf) → (ops : List Op) → Decidable (RunOk rb ops)
  | _, [] => isTrue trivial
  | rb, op :: ops =>
      have := decRunOk (call rb op).2 ops
      inferInstanceAs (Decidable (_ ∧ _))

end OfiRingbuf

end Libfabric
