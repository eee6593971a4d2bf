import Mathlib.Algebra.Group.Defs
import Mathlib.Logic.Function.Basic
import Libfabric.Ofi

/-! The software allreduce of the `coll` provider (`coll_coll.c`). Each rank
builds a work queue with `coll_do_allreduce`: a pre-step that folds ranks
below `2 * rem` in pairs, recursive doubling over the new ids, and a
post-step that hands the total back. `coll_progress_work` starts the items of
a queue in order under the fence rule, and the ranks exchange tagged
messages. Values of a buffer are kept abstract: `M` with the reduction as its
multiplication, since the datatype and the operator only meet in
`ofi_atomic_write_handler`. -/
namespace Libfabric.Coll

/-- `coll_form_tag`: the collective id in the low 32 bits, the rank in the high ones. -/
def collFormTag (collId rank : Nat) : Nat := collId % 2 ^ 32 + (rank % 2 ^ 32) * 2 ^ 32

/-- The two buffers of an allreduce: `result` and the operation's `tmp_buf`. -/
inductive CollBuf where
  | result
  | tmp
  deriving DecidableEq, Repr

structure XferItem where
  tag : Nat
  buf : CollBuf
  count : Int
  remoteRank : Nat
  deriving DecidableEq, Repr

/-- What a work item does: the type of `struct util_coll_work_item` with the
fields of its container. -/
inductive WorkItem where
  | send (x : XferItem)
  | recv (x : XferItem)
  | reduce (inBuf inoutBuf : CollBuf)
  | copy (inBuf outBuf : CollBuf)
  | comp
  deriving DecidableEq, Repr

inductive UtilCollState where
  | waiting
  | processing
  | complete
  deriving DecidableEq, Repr

structure UtilCollWorkItem where
  work : WorkItem
  state : UtilCollState
  fence : Bool
  deriving DecidableEq, Repr

section Schedule

variable (collId localRank count : Nat)

/-- `coll_sched_send`: tagged with the sender's own rank, the count cast to `int`. -/
def collSchedSend (dest : Nat) (buf : CollBuf) (fence : Bool) : UtilCollWorkItem :=
  ⟨.send ⟨collFormTag collId localRank, buf, int32Of count, dest⟩, .waiting, fence⟩

def collSchedRecv (src : Nat) (buf : CollBuf) (fence : Bool) : UtilCollWorkItem :=
  ⟨.recv ⟨collFormTag collId src, buf, int32Of count, src⟩, .waiting, fence⟩

def collSchedReduce (inBuf inoutBuf : CollBuf) (fence : Bool) : UtilCollWorkItem :=
  ⟨.reduce inBuf inoutBuf, .waiting, fence⟩

def collSchedCopy (inBuf outBuf : CollBuf) (fence : Bool) : UtilCollWorkItem :=
  ⟨.copy inBuf outBuf, .waiting, fence⟩

def collSchedComp : UtilCollWorkItem := ⟨.comp, .waiting, true⟩

variable (rem pof2 myNewId : Nat)

/-- `remote` in the doubling loop: the rank that stands for new id `nextRemote`,
the odd rank of a folded pair or the rank `rem` above it. -/
def collRemote (nextRemote : Nat) : Nat :=
  if nextRemote < rem then nextRemote * 2 + 1 else nextRemote + rem

/-- One pass of the recursive doubling loop of `coll_do_allreduce`: exchange
with the rank of new id `my_new_id ^ mask`, and reduce so that both sides
hold the same total. -/
def doublingRound (mask : Nat) : List UtilCollWorkItem :=
  let remote := collRemote rem (myNewId ^^^ mask)
  [collSchedRecv collId count remote .tmp false, collSchedSend collId localRank count remote .result true] ++
    if remote < localRank then [collSchedReduce .tmp .result true]
    else [collSchedReduce .result .tmp true, collSchedCopy .tmp .result true]

/-- `while (mask < pof2) { ...; mask <<= 1; }`, with `fuel` bounding the passes. -/
def doublingLoop : Nat → Nat → List UtilCollWorkItem
  | _, 0 => []
  | mask, fuel + 1 =>
    if mask < pof2 then doublingRound collId localRank count rem myNewId mask ++ doublingLoop (mask <<< 1) fuel
    else []

end Schedule

/-- `my_new_id` of rank `localRank` of `n`: the odd rank of a pair below
`2 * rem` takes `localRank / 2`, its even neighbour none (`(uint64_t)-1`), and
a rank from `2 * rem` takes `localRank - rem`. -/
def collNewId (n localRank : Nat) : Option Nat :=
  let rem := n - rounddownPowerOfTwo n
  if localRank < 2 * rem then (if localRank % 2 = 0 then none else some (localRank / 2))
  else some (localRank - rem)

/-- `coll_do_allreduce` at rank `localRank` of `n`: the work queue it schedules.
The pre-step sends the result of an even rank below `2 * rem` to its odd
neighbour, which reduces it; the ranks with a new id run the doubling; after
it the odd rank sends the total back. The `calloc` failures of the
`coll_sched_*` calls are not modelled. -/
def collDoAllreduce (n localRank collId count : Nat) : List UtilCollWorkItem :=
  let pof2 := rounddownPowerOfTwo n
  let rem := n - pof2
  let pre :=
    if localRank < 2 * rem then
      if localRank % 2 = 0 then [collSchedSend collId localRank count (localRank + 1) .result true]
      else [collSchedRecv collId count (localRank - 1) .tmp true, collSchedReduce .tmp .result true]
    else []
  let rounds :=
    match collNewId n localRank with
    | some newId => doublingLoop collId localRank count rem pof2 newId 1 pof2
    | none => []
  let post :=
    if localRank < 2 * rem then
      if localRank % 2 ≠ 0 then [collSchedSend collId localRank count (localRank - 1) .result true]
      else [collSchedRecv collId count (localRank + 1) .result true]
    else []
  pre ++ rounds ++ post

def collEpAllreduce (n localRank collId count : Nat) : List UtilCollWorkItem :=
  collDoAllreduce n localRank collId count ++ [collSchedComp]

/-- `coll_progress_work`, scanning with the entries passed and kept in `kept`,
in reverse. A completed entry is removed unless it fences and is not at the
head; the scan stops at an entry whose predecessor fences; the first waiting
entry is made `processing` and its index returned for `coll_ep_progress`. -/
def progressScan : List UtilCollWorkItem → List UtilCollWorkItem →
    List UtilCollWorkItem × Option Nat
  | kept, [] => (kept.reverse, none)
  | kept, cur :: rest =>
    match cur.state with
    | .complete =>
      if cur.fence ∧ kept ≠ [] then progressScan (cur :: kept) rest
      else progressScan kept rest
    | state =>
      if kept.head?.any (·.fence) then (kept.reverse ++ cur :: rest, none)
      else if state ≠ .waiting then progressScan (cur :: kept) rest
      else (kept.reverse ++ { cur with state := .processing } :: rest, some kept.length)

def collProgressWork (queue : List UtilCollWorkItem) : List UtilCollWorkItem × Option Nat :=
  progressScan [] queue

/-- A rank's part of an allreduce: its work queue and its two buffers. -/
structure CollRank (M : Type) where
  workQueue : List UtilCollWorkItem
  result : M
  tmpBuf : M

structure CollMsg (M : Type) where
  src : Nat
  dst : Nat
  tag : Nat
  data : M

/-- All ranks and the messages sent and not yet received. -/
structure CollSys (M : Type) where
  rank : Nat → CollRank M
  wire : List (CollMsg M)

variable {M : Type}

def CollRank.buf (rank : CollRank M) : CollBuf → M
  | .result => rank.result
  | .tmp => rank.tmpBuf

def CollRank.setBuf (rank : CollRank M) (value : M) : CollBuf → CollRank M
  | .result => { rank with result := value }
  | .tmp => { rank with tmpBuf := value }

def CollRank.complete (rank : CollRank M) (i : Nat) : CollRank M :=
  { rank with workQueue := rank.workQueue.modify i fun e => { e with state := .complete } }

section Progress

variable [Mul M]

/-- `coll_ep_progress` on the entry at `i`, which `coll_progress_work` has
readied: a send or a receive is posted to the peer endpoint, a reduction
(`inout = inout op in`, as `ofi_atomic_write_handler` writes it), a copy or
the completion is carried out and completes. -/
def collEpProgress (self : Nat) (rank : CollRank M) (wire : List (CollMsg M)) (i : Nat) :
    CollRank M × List (CollMsg M) :=
  match rank.workQueue[i]? with
  | some e =>
    match e.work with
    | .send x => (rank, wire ++ [⟨self, x.remoteRank, x.tag, rank.buf x.buf⟩])
    | .recv _ => (rank, wire)
    | .reduce inBuf inoutBuf => ((rank.setBuf (rank.buf inoutBuf * rank.buf inBuf) inoutBuf).complete i, wire)
    | .copy inBuf outBuf => ((rank.setBuf (rank.buf inBuf) outBuf).complete i, wire)
    | .comp => (rank.complete i, wire)
  | none => (rank, wire)

def progressRank (r : Nat) (sys : CollSys M) : CollSys M :=
  let (queue, ready) := collProgressWork (sys.rank r).workQueue
  let rank := { sys.rank r with workQueue := queue }
  let (rank, wire) :=
    match ready with
    | some i => collEpProgress r rank sys.wire i
    | none => (rank, sys.wire)
  { rank := Function.update sys.rank r rank, wire }

/-- `coll_peer_xfer_complete` for a posted receive at `i`: the message at
`j` on the wire, which it matched, fills its buffer. -/
def recvComplete (r i : Nat) (buf : CollBuf) (msg : CollMsg M) (j : Nat) (sys : CollSys M) :
    CollSys M :=
  { rank := Function.update sys.rank r (((sys.rank r).setBuf msg.data buf).complete i)
    wire := sys.wire.eraseIdx j }

/-- The events of an allreduce over `n` ranks, in any interleaving: a rank
progresses its queue; the peer endpoint completes a posted send; or it
completes a posted receive with the first message to that rank with the
receive's tag. -/
inductive CollStep (n : Nat) : CollSys M → CollSys M → Prop
  | progress (sys : CollSys M) (r : Nat) (valid : r < n) (moves : progressRank r sys ≠ sys) :
      CollStep n sys (progressRank r sys)
  | sendDone (sys : CollSys M) (r i : Nat) (e : UtilCollWorkItem) (x : XferItem) (valid : r < n)
      (entry : (sys.rank r).workQueue[i]? = some e) (send : e.work = .send x)
      (posted : e.state = .processing) :
      CollStep n sys { sys with rank := Function.update sys.rank r ((sys.rank r).complete i) }
  | recvDone (sys : CollSys M) (r i : Nat) (e : UtilCollWorkItem) (x : XferItem) (j : Nat)
      (msg : CollMsg M) (valid : r < n) (entry : (sys.rank r).workQueue[i]? = some e)
      (recv : e.work = .recv x) (posted : e.state = .processing)
      (matched : sys.wire.findIdx? (fun m => m.dst == r && m.tag == x.tag) = some j)
      (message : sys.wire[j]? = some msg) :
      CollStep n sys (recvComplete r i x.buf msg j sys)

end Progress

/-- The ranks right after `coll_ep_allreduce`: every queue scheduled and
waiting, `result` holding the rank's input and `tmp_buf` whatever its
allocation holds. -/
def CollSys.init (n collId count : Nat) (input : Nat → M) (tmp : M) : CollSys M where
  rank r := { workQueue := collEpAllreduce n r collId count, result := input r, tmpBuf := tmp }
  wire := []

end Libfabric.Coll
