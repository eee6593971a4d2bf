import Libfabric.Ofi
import Libfabric.Lib.Cells
import Libfabric.Lib.Reach

/-! The bounded multi-producer, single-consumer queue of `ofi_atomic_queue.h`,
which shm keeps in every endpoint region. Position `pos` lives in entry
`pos & size_mask`, whose `seq` is `pos` while a producer may claim it and
`pos + 1` once it is ready for the consumer; the release hands the entry on to
`pos + size`. A step is one atomic access to `write_pos` or to an entry's `seq`,
with the plain accesses beside it. Positions are `int64_t` in the code and `Nat`
here. Besides the source's state, the system records how each position was
given up (`outcome`) and what the consumer took (`consumed`). -/
namespace Libfabric.AtomicQueue

variable {ι α : Type}

structure AtomicQEntry (α : Type) where
  seq : Nat
  noop : Bool
  buf : α

/-- `struct name`. `entry` is the array of `size` entries; the queue reads it
only below `size`. -/
structure AtomicQ (α : Type) where
  writePos : Nat
  readPos : Nat
  initFn : Option (α → α)
  size : Nat
  sizeMask : Nat
  entry : Nat → AtomicQEntry α

/-- `ofi_atomic_compare_exchange_weak64` over C11 atomics: a compare-and-swap
that may also fail when the cell holds `expected` (`spurious`). It returns the
cell after, whether it swapped, and `expected` after. -/
def ofiAtomicCompareExchangeWeak (spurious : Bool) (cell expected desired : Nat) : Nat × Bool × Nat :=
  if spurious then (cell, false, cell) else Cells.compareExchange cell expected desired

namespace AtomicQ

def slot (aq : AtomicQ α) (pos : Nat) : Nat := pos &&& aq.sizeMask

def applyInitFn (initFn : Option (α → α)) (buf : α) : α :=
  match initFn with
  | some f => f buf
  | none => buf

def modify (aq : AtomicQ α) (pos : Nat) (f : AtomicQEntry α → AtomicQEntry α) : AtomicQ α :=
  { aq with entry := Function.update aq.entry (aq.slot pos) (f (aq.entry (aq.slot pos))) }

def init (mem : Nat → α) (size : Nat) (initFn : Option (α → α)) : AtomicQ α where
  writePos := 0
  readPos := 0
  initFn := initFn
  size := size
  sizeMask := size - 1
  entry i := { seq := i, noop := false, buf := applyInitFn initFn (mem i) }

/-- `name_create(size)`: the entries of fresh memory `mem`, rounded up to a
power of two, with no `init_fn`. -/
def create (mem : Nat → α) (size : Nat) : AtomicQ α := init mem (roundupPowerOfTwo size) none

inductive NextCheck where
  | claim
  | full
  | retry
  deriving DecidableEq, Repr

/-- One pass of the loop of `name_next` at `*pos`: `diff = seq - *pos` on the
entry of `pos`. `claim` goes on to the compare-and-swap, `full` returns
`-FI_ENOENT`, and `retry` reloads `write_pos`. -/
def nextCheck (aq : AtomicQ α) (pos : Nat) : NextCheck :=
  let diff : Int := (aq.entry (aq.slot pos)).seq - pos
  if diff = 0 then .claim else if diff < 0 then .full else .retry

/-- `ofi_atomic_compare_exchange_weak64(&aq->write_pos, pos, *pos + 1)`:
whether it swapped, `*pos` after, and the queue after. -/
def casWritePos (aq : AtomicQ α) (pos : Nat) (spurious : Bool) : Bool × Nat × AtomicQ α :=
  let (cell, swapped, expected) := ofiAtomicCompareExchangeWeak spurious aq.writePos pos (pos + 1)
  (swapped, expected, { aq with writePos := cell })

def commit (aq : AtomicQ α) (pos : Nat) : AtomicQ α :=
  aq.modify pos fun ce => { ce with seq := pos + 1 }

/-- `name_discard(buf, pos)`: the entry becomes a no-op and is posted. -/
def discard (aq : AtomicQ α) (pos : Nat) : AtomicQ α :=
  aq.modify pos fun ce => { ce with noop := true, seq := pos + 1 }

def release (aq : AtomicQ α) (pos : Nat) : AtomicQ α :=
  aq.modify pos fun ce => { ce with buf := applyInitFn aq.initFn ce.buf, seq := pos + aq.size }

inductive HeadResult (α : Type) where
  | enoent
  | noop (pos : Nat)
  | entry (pos : Nat) (buf : α)

/-- One pass of `name_head` from `again:`. A no-op entry is cleared and
released and the loop goes round again; here the pass ends at the release,
which is the consumer's next step. -/
def head (aq : AtomicQ α) : HeadResult α × AtomicQ α :=
  let ce := aq.entry (aq.slot aq.readPos)
  if ce.seq ≠ aq.readPos + 1 then (.enoent, aq)
  else
    let pos := aq.readPos
    let aq := { aq with readPos := pos + 1 }
    if ce.noop then (.noop pos, aq.modify pos fun ce => { ce with noop := false })
    else (.entry pos ce.buf, aq)

end AtomicQ

/-- Where a producer is in `name_next` and after it: not in a call, about to
load `write_pos`, about to check the entry of `pos`, about to swap
`write_pos` from `pos`, or holding position `pos` until it commits or
discards it. -/
inductive ProducerPc where
  | idle
  | load
  | check (pos : Nat)
  | cas (pos : Nat)
  | owned (pos : Nat)
  deriving DecidableEq, Repr

/-- Where the consumer is: not holding an entry (or back at `again:`),
about to release the no-op entry of `pos` inside `name_head`, or holding the
entry of `pos` that `name_head` returned. -/
inductive ConsumerPc where
  | idle
  | skip (pos : Nat)
  | holding (pos : Nat)
  deriving DecidableEq, Repr

/-- The queue with its producers `ι` and its consumer. `outcome q` is how
position `q` was given up: `some (some buf)` committed with `buf`, `some none`
discarded. `consumed` lists the positions and buffers `name_head` returned. -/
structure QueueSystem (ι α : Type) where
  aq : AtomicQ α
  producer : ι → ProducerPc
  consumer : ConsumerPc
  outcome : Nat → Option (Option α)
  consumed : List (Nat × α)

/-- The atomic steps: of a producer in `name_next`, filling the buffer of its
position and committing or discarding it; of the consumer in `name_head` and
`name_release`. `spurious` is a weak compare-and-swap failing on equal values. -/
inductive QueueAction (ι α : Type) where
  | next (p : ι)
  | load (p : ι)
  | check (p : ι)
  | cas (p : ι) (spurious : Bool)
  | fill (p : ι) (buf : α)
  | commit (p : ι)
  | discard (p : ι)
  | head
  | release

def QueueSystem.start (aq : AtomicQ α) : QueueSystem ι α where
  aq := aq
  producer _ := .idle
  consumer := .idle
  outcome _ := none
  consumed := []

variable [DecidableEq ι]

def QueueSystem.setProducer (s : QueueSystem ι α) (p : ι) (pc : ProducerPc) : QueueSystem ι α :=
  { s with producer := Function.update s.producer p pc }

def step (s : QueueSystem ι α) : QueueAction ι α → Option (QueueSystem ι α)
  | .next p =>
    match s.producer p with
    | .idle => some (s.setProducer p .load)
    | _ => none
  | .load p =>
    match s.producer p with
    | .load => some (s.setProducer p (.check s.aq.writePos))
    | _ => none
  | .check p =>
    match s.producer p with
    | .check pos =>
      match s.aq.nextCheck pos with
      | .claim => some (s.setProducer p (.cas pos))
      -- `return -FI_ENOENT`: the caller keeps its entry and tries later
      | .full => some (s.setProducer p .idle)
      | .retry => some (s.setProducer p .load)
    | _ => none
  | .cas p spurious =>
    match s.producer p with
    | .cas pos =>
      let (swapped, pos', aq) := s.aq.casWritePos pos spurious
      if swapped then some { s.setProducer p (.owned pos) with aq := aq }
      else some { s.setProducer p (.check pos') with aq := aq }
    | _ => none
  | .fill p buf =>
    match s.producer p with
    | .owned pos => some { s with aq := s.aq.modify pos fun ce => { ce with buf := buf } }
    | _ => none
  | .commit p =>
    match s.producer p with
    | .owned pos =>
      some { s.setProducer p .idle with
        aq := s.aq.commit pos
        outcome := Function.update s.outcome pos (some (some (s.aq.entry (s.aq.slot pos)).buf)) }
    | _ => none
  | .discard p =>
    match s.producer p with
    | .owned pos =>
      some { s.setProducer p .idle with
        aq := s.aq.discard pos
        outcome := Function.update s.outcome pos (some none) }
    | _ => none
  | .head =>
    match s.consumer with
    | .idle =>
      match s.aq.head with
      | (.enoent, _) => some s
      | (.noop pos, aq) => some { s with aq := aq, consumer := .skip pos }
      | (.entry pos buf, aq) =>
        some { s with aq := aq, consumer := .holding pos, consumed := s.consumed ++ [(pos, buf)] }
    | _ => none
  | .release =>
    match s.consumer with
    | .skip pos | .holding pos => some { s with aq := s.aq.release pos, consumer := .idle }
    | .idle => none

end Libfabric.AtomicQueue
