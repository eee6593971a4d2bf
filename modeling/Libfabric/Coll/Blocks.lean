import Libfabric.Coll.Allreduce
import Libfabric.Lib.Buffer

/-! The collectives of `coll_coll.c` that move blocks of a buffer: scatter
over a binomial tree, allgather around a ring, and the broadcast built from
the two. Unlike the allreduce, their work items name a place inside a buffer
and a count of elements, so a buffer here is a list of elements and a work
item a region of it. The schedules are generic in the operation's buffers.
A work item keeps its count as the `int` that `coll_sched_*` cast it to, and
moves as many elements as that `int` makes as a `size_t`. The `calloc` and
`malloc` failures of scheduling are not modelled. -/
namespace Libfabric.Coll.Blocks

/-- A pointer into one of an operation's buffers, as an element offset. -/
structure CollPtr (B : Type) where
  buf : B
  offset : Nat
  deriving DecidableEq, Repr

structure CollXfer (B : Type) where
  tag : Nat
  ptr : CollPtr B
  count : Int
  remoteRank : Nat
  deriving DecidableEq, Repr

/-- What a work item of these collectives does. -/
inductive CollWork (B : Type) where
  | send (x : CollXfer B)
  | recv (x : CollXfer B)
  | copy (inPtr outPtr : CollPtr B) (count : Int)
  | comp
  deriving DecidableEq, Repr

structure CollItem (B : Type) where
  work : CollWork B
  fence : Bool
  deriving DecidableEq, Repr

section Schedule

variable {B : Type} (collId localRank : Nat)

def collSchedSend (dest : Nat) (ptr : CollPtr B) (count : Nat) (fence : Bool) : CollItem B :=
  ⟨.send ⟨collFormTag collId localRank, ptr, int32Of count, dest⟩, fence⟩

def collSchedRecv (src : Nat) (ptr : CollPtr B) (count : Nat) (fence : Bool) : CollItem B :=
  ⟨.recv ⟨collFormTag collId src, ptr, int32Of count, src⟩, fence⟩

def collSchedCopy (inPtr outPtr : CollPtr B) (count : Nat) (fence : Bool) : CollItem B :=
  ⟨.copy inPtr outPtr (int32Of count), fence⟩

def collSchedComp : CollItem B := ⟨.comp, true⟩

variable (n count : Nat)

/-- The ring loop of `coll_do_allgather`, `steps` passes from the block
`cur_offset` sent right and the block `next_offset` received from the left. -/
def allgatherLoop (left right : Nat) (result : B) : Nat → Nat → Nat → List (CollItem B)
  | 0, _, _ => []
  | steps + 1, cur, next =>
      collSchedSend collId localRank right ⟨result, cur * count⟩ count false ::
        collSchedRecv collId left ⟨result, next * count⟩ count true ::
          allgatherLoop left right result steps next ((n + next - 1) % n)

/-- `coll_do_allgather`: the own block copied into place, then `n - 1`
passes around the ring. -/
def collDoAllgather (sendBuf result : B) : List (CollItem B) :=
  let left := (n + localRank - 1) % n
  let right := (localRank + 1) % n
  collSchedCopy ⟨sendBuf, 0⟩ ⟨result, localRank * count⟩ count true ::
    allgatherLoop collId localRank n count left right result (n - 1) localRank left

/-- `util_binomial_tree_values_to_recv`: the blocks a branch of the tree
receives, its subtree capped at the last rank. -/
def utilBinomialTreeValuesToRecv (rank numranks : Nat) : Nat :=
  let nvalues := 1 <<< (ofiLsb rank - 1)
  if numranks < rank + nvalues then numranks - rank else nvalues

/-- The receive loop of `coll_do_scatter`: from `mask`, the first bit of the
relative rank names the parent. The mask at exit and the receive, if any. -/
def scatterRecvLoop (relativeRank curCnt : Nat) (result temp : B) : Nat → Nat → Nat × List (CollItem B)
  | 0, mask => (mask, [])
  | fuel + 1, mask =>
      if mask < n then
        if relativeRank &&& mask ≠ 0 then
          let remoteRank := if localRank ≥ mask then localRank - mask else localRank + n - mask
          (mask, [if relativeRank % 2 = 1 then collSchedRecv collId remoteRank ⟨result, 0⟩ count true
            else collSchedRecv collId remoteRank ⟨temp, 0⟩ curCnt true])
        else scatterRecvLoop relativeRank curCnt result temp fuel (mask <<< 1)
      else (mask, [])

/-- The send loop of `coll_do_scatter`: to each child `mask` ranks on, the
blocks from `mask` on, while `cur_cnt` counts the blocks not yet sent. -/
def scatterSendLoop (relativeRank : Nat) (sendData : B) : Nat → Nat → Nat → List (CollItem B)
  | 0, _, _ => []
  | fuel + 1, mask, curCnt =>
      if mask > 0 then
        if relativeRank + mask < n then
          let sendCnt := curCnt - count * mask
          let remoteRank := if localRank + mask ≥ n then localRank + mask - n else localRank + mask
          collSchedSend collId localRank remoteRank ⟨sendData, count * mask⟩ sendCnt true ::
            scatterSendLoop relativeRank sendData fuel (mask >>> 1) (curCnt - sendCnt)
        else scatterSendLoop relativeRank sendData fuel (mask >>> 1) curCnt
      else []

/-- `coll_do_scatter` from `root`: the element count `*temp` is allocated
with, if any, and the work scheduled. A root other than rank 0 first copies
its buffer to `*temp` rotated so that block `i` is for relative rank `i`. -/
def collDoScatter (root : Nat) (data result temp : B) : Option Nat × List (CollItem B) :=
  let relativeRank := if localRank ≥ root then localRank - root else localRank + n - root
  if count = 0 then (none, [])
  else
    let branch := relativeRank ≠ 0 ∧ relativeRank % 2 = 0
    let branchCnt := count * utilBinomialTreeValuesToRecv relativeRank n
    let curCnt := if localRank = root then count * n else if branch then branchCnt else 0
    let tempCnt :=
      if localRank = root ∧ root ≠ 0 then some (count * n) else if branch then some branchCnt else none
    let reorder :=
      if localRank = root ∧ root ≠ 0 then
        [collSchedCopy ⟨data, count * localRank⟩ ⟨temp, 0⟩ ((n - localRank) * count) true,
          collSchedCopy ⟨data, 0⟩ ⟨temp, (n - localRank) * count⟩ (localRank * count) true]
      else []
    let received := scatterRecvLoop collId localRank n count relativeRank curCnt result temp 64 1
    let sendData := if root = localRank ∧ root = 0 then data else temp
    let sends := scatterSendLoop collId localRank n count relativeRank sendData 64 (received.1 >>> 1) curCnt
    let own := if relativeRank % 2 = 0 then [collSchedCopy ⟨sendData, 0⟩ ⟨result, 0⟩ count true] else []
    (tempCnt, reorder ++ received.2 ++ sends ++ own)

end Schedule

/-- The buffers of a scatter: the root's `buf`, `result`, and `data.scatter`. -/
inductive ScatterBuf where
  | buf
  | result
  | scatter
  deriving DecidableEq, Repr

def collEpScatter (n localRank collId count root : Nat) : Option Nat × List (CollItem ScatterBuf) :=
  let scheduled := collDoScatter collId localRank n count root .buf .result .scatter
  (scheduled.1, scheduled.2 ++ [collSchedComp])

/-- The buffers of an allgather: the rank's `buf` and `result`. -/
inductive AllgatherBuf where
  | buf
  | result
  deriving DecidableEq, Repr

def collEpAllgather (n localRank collId count : Nat) : List (CollItem AllgatherBuf) :=
  collDoAllgather collId localRank n count .buf .result ++ [collSchedComp]

/-- The `chunk_cnt` of `coll_ep_broadcast` at rank `localRank`: `count`
shared in `numranks` rounded up, and `0` for a rank whose chunk would start
more than a chunk past `count`. -/
def collEpBroadcastChunkCnt (count numranks localRank : Nat) : Nat :=
  let chunkCnt := (count + numranks - 1) / numranks
  if chunkCnt * localRank > count ∧
      (((chunkCnt * localRank : Nat) : Int) - int32Of count) % 2 ^ 64 > chunkCnt then 0
  else chunkCnt

/-- The buffers of a broadcast: the caller's `buf`, `data.broadcast.chunk`,
and `data.broadcast.scatter`. -/
inductive BroadcastBuf where
  | buf
  | chunk
  | scatter
  deriving DecidableEq, Repr

/-- `coll_ep_broadcast`: the elements of `chunk`, those of `*scatter` if
allocated, and the work queue: a scatter of `chunk_cnt`-element chunks of
`buf` into `chunk`, and an allgather of the chunks back into `buf`. -/
def collEpBroadcast (n localRank collId count root : Nat) : Nat × Option Nat × List (CollItem BroadcastBuf) :=
  let chunkCnt := collEpBroadcastChunkCnt count n localRank
  let scattered := collDoScatter collId localRank n chunkCnt root .buf .chunk .scatter
  (chunkCnt, scattered.1,
    scattered.2 ++ collDoAllgather collId localRank n chunkCnt .chunk .buf ++ [collSchedComp])

/-! ## Running the work queues

A rank runs its queue in order: `coll_progress_work` starts an item only
after the fencing items before it have completed, and a send's buffer is read
when the send is posted. A receive takes the next message from its source:
the messages from one rank carry its tag and are matched in the order sent. -/

section Run

variable {B α : Type} [DecidableEq B]

/-- A rank's buffers, the messages it has sent to each rank, and the number
of messages it has taken from each. -/
structure RankRun (B α : Type) where
  bufs : B → List α
  sent : Nat → List (List α)
  taken : Nat → Nat

def readPtr (bufs : B → List α) (ptr : CollPtr B) (count : Nat) : List α :=
  ((bufs ptr.buf).drop ptr.offset).take count

/-- The buffers after a `memcpy` of `src` to `ptr`. -/
def writePtr (bufs : B → List α) (ptr : CollPtr B) (src : List α) : B → List α :=
  Function.update bufs ptr.buf (Buffer.writeAt (bufs ptr.buf) ptr.offset src)

def RankRun.start (bufs : B → List α) : RankRun B α := ⟨bufs, fun _ => [], fun _ => 0⟩

/-- One work item, with `inbox r` the messages that arrive from rank `r`. -/
def runWork (inbox : Nat → List (List α)) (s : RankRun B α) : CollWork B → RankRun B α
  | .send x =>
      { s with
        sent := Function.update s.sent x.remoteRank (s.sent x.remoteRank ++ [readPtr s.bufs x.ptr (sizeOfInt x.count)]) }
  | .recv x =>
      let msg := ((inbox x.remoteRank).getD (s.taken x.remoteRank) []).take (sizeOfInt x.count)
      { s with
        bufs := writePtr s.bufs x.ptr msg
        taken := Function.update s.taken x.remoteRank (s.taken x.remoteRank + 1) }
  | .copy inPtr outPtr count => { s with bufs := writePtr s.bufs outPtr (readPtr s.bufs inPtr (sizeOfInt count)) }
  | .comp => s

def runQueue (inbox : Nat → List (List α)) (s : RankRun B α) (queue : List (CollItem B)) : RankRun B α :=
  queue.foldl (fun s e => runWork inbox s e.work) s

/-- An exchange among ranks `0 .. n - 1`, rank `r` running `queue r` from the
buffers `init r`: the messages each rank receives from each other, such that
what rank `a` receives from rank `b` is what `b` sends to `a`, in order. -/
structure Exchange (n : Nat) (queue : Nat → List (CollItem B)) (init : Nat → B → List α) where
  inbox : Nat → Nat → List (List α)
  delivered : ∀ a b, a < n → b < n →
    (runQueue (inbox b) (.start (init b)) (queue b)).sent a = inbox a b

@[simp] theorem runQueue_nil (inbox : Nat → List (List α)) (s : RankRun B α) : runQueue inbox s [] = s := rfl

@[simp] theorem runQueue_cons (inbox : Nat → List (List α)) (s : RankRun B α) (e : CollItem B)
    (queue : List (CollItem B)) : runQueue inbox s (e :: queue) = runQueue inbox (runWork inbox s e.work) queue :=
  rfl

theorem runQueue_append (inbox : Nat → List (List α)) (s : RankRun B α) (queue queue' : List (CollItem B)) :
    runQueue inbox s (queue ++ queue') = runQueue inbox (runQueue inbox s queue) queue' :=
  List.foldl_append

theorem writePtr_of_ne {bufs : B → List α} {ptr : CollPtr B} {b : B} (other : b ≠ ptr.buf) (src : List α) :
    writePtr bufs ptr src b = bufs b :=
  Function.update_of_ne other _ _

theorem writePtr_self (bufs : B → List α) (ptr : CollPtr B) (src : List α) :
    writePtr bufs ptr src ptr.buf = Buffer.writeAt (bufs ptr.buf) ptr.offset src :=
  Function.update_self _ _ _

omit [DecidableEq B] in
theorem length_readPtr {bufs : B → List α} {ptr : CollPtr B} {count : Nat}
    (inside : ptr.offset + count ≤ (bufs ptr.buf).length) : (readPtr bufs ptr count).length = count := by
  simp only [readPtr, List.length_take, List.length_drop]
  omega

theorem length_writePtr {bufs : B → List α} {ptr : CollPtr B} {src : List α}
    (fits : ptr.offset + src.length ≤ (bufs ptr.buf).length) (b : B) :
    (writePtr bufs ptr src b).length = (bufs b).length := by
  by_cases here : b = ptr.buf
  · subst here
    rw [writePtr_self, Buffer.length_writeAt fits]
  · rw [writePtr_of_ne here]

theorem readPtr_writePtr_self {bufs : B → List α} {ptr : CollPtr B} {src : List α}
    (fits : ptr.offset + src.length ≤ (bufs ptr.buf).length) :
    readPtr (writePtr bufs ptr src) ptr src.length = src := by
  rw [readPtr, writePtr_self, Buffer.drop_take_writeAt_self fits]

theorem readPtr_writePtr_of_apart {bufs : B → List α} {ptr ptr' : CollPtr B} {src : List α} {count : Nat}
    (fits : ptr.offset + src.length ≤ (bufs ptr.buf).length)
    (apart : ptr'.buf ≠ ptr.buf ∨ ptr'.offset + count ≤ ptr.offset ∨ ptr.offset + src.length ≤ ptr'.offset) :
    readPtr (writePtr bufs ptr src) ptr' count = readPtr bufs ptr' count := by
  rcases apart with other | before | after
  · rw [readPtr, readPtr, writePtr_of_ne other]
  · by_cases same : ptr'.buf = ptr.buf
    · rw [readPtr, readPtr, same, writePtr_self, Buffer.drop_take_writeAt_of_le fits before]
    · rw [readPtr, readPtr, writePtr_of_ne same]
  · by_cases same : ptr'.buf = ptr.buf
    · rw [readPtr, readPtr, same, writePtr_self, Buffer.drop_take_writeAt_of_ge fits after]
    · rw [readPtr, readPtr, writePtr_of_ne same]

theorem writePtr_whole {bufs : B → List α} {b : B} {src : List α} (same : (bufs b).length = src.length) :
    writePtr bufs ⟨b, 0⟩ src = Function.update bufs b src := by
  rw [writePtr, Buffer.writeAt_zero_of_length same]

section Scheduled

variable (inbox : Nat → List (List α)) (s : RankRun B α) {count : Nat} (small : count < 2 ^ 31)
include small

/-! An item scheduled with a count below `2 ^ 31` moves that many elements. -/

theorem runWork_collSchedSend (collId localRank dest : Nat) (ptr : CollPtr B) (fence : Bool) :
    runWork inbox s (collSchedSend collId localRank dest ptr count fence).work =
      { s with sent := Function.update s.sent dest (s.sent dest ++ [readPtr s.bufs ptr count]) } := by
  simp only [collSchedSend, runWork, sizeOfInt_int32Of small]

theorem runWork_collSchedRecv (collId src : Nat) (ptr : CollPtr B) (fence : Bool) :
    runWork inbox s (collSchedRecv collId src ptr count fence).work =
      { s with
        bufs := writePtr s.bufs ptr (((inbox src).getD (s.taken src) []).take count)
        taken := Function.update s.taken src (s.taken src + 1) } := by
  simp only [collSchedRecv, runWork, sizeOfInt_int32Of small]

theorem runWork_collSchedCopy (inPtr outPtr : CollPtr B) (fence : Bool) :
    runWork inbox s (collSchedCopy inPtr outPtr count fence).work =
      { s with bufs := writePtr s.bufs outPtr (readPtr s.bufs inPtr count) } := by
  simp only [collSchedCopy, runWork, sizeOfInt_int32Of small]

end Scheduled

def Exchange.final {n : Nat} {queue : Nat → List (CollItem B)} {init : Nat → B → List α}
    (ex : Exchange n queue init) (r : Nat) : RankRun B α :=
  runQueue (ex.inbox r) (.start (init r)) (queue r)

end Run

/-! ## What a queue asks of its peers and its buffers -/

section Shape

variable {B : Type}

def CollWork.sendTo (dst : Nat) : CollWork B → Option Nat
  | .send x => if x.remoteRank = dst then some (sizeOfInt x.count) else none
  | _ => none

def CollWork.recvFrom (src : Nat) : CollWork B → Option Nat
  | .recv x => if x.remoteRank = src then some (sizeOfInt x.count) else none
  | _ => none

def sendCountsTo (queue : List (CollItem B)) (dst : Nat) : List Nat := queue.filterMap (·.work.sendTo dst)

def recvCountsFrom (queue : List (CollItem B)) (src : Nat) : List Nat := queue.filterMap (·.work.recvFrom src)

theorem sendCountsTo_cons (e : CollItem B) (queue : List (CollItem B)) (dst : Nat) :
    sendCountsTo (e :: queue) dst = (e.work.sendTo dst).toList ++ sendCountsTo queue dst := by
  cases h : e.work.sendTo dst <;> simp [sendCountsTo, h]

theorem recvCountsFrom_cons (e : CollItem B) (queue : List (CollItem B)) (src : Nat) :
    recvCountsFrom (e :: queue) src = (e.work.recvFrom src).toList ++ recvCountsFrom queue src := by
  cases h : e.work.recvFrom src <;> simp [recvCountsFrom, h]

theorem sendCountsTo_append (queue queue' : List (CollItem B)) (dst : Nat) :
    sendCountsTo (queue ++ queue') dst = sendCountsTo queue dst ++ sendCountsTo queue' dst :=
  List.filterMap_append

theorem recvCountsFrom_append (queue queue' : List (CollItem B)) (src : Nat) :
    recvCountsFrom (queue ++ queue') src = recvCountsFrom queue src ++ recvCountsFrom queue' src :=
  List.filterMap_append

/-- What a send to `dst` carries, seen through `g`. -/
def CollWork.sendWith {β : Type} (g : CollXfer B → β) (dst : Nat) : CollWork B → Option β
  | .send x => if x.remoteRank = dst then some (g x) else none
  | _ => none

theorem CollWork.sendTo_eq_sendWith (dst : Nat) (w : CollWork B) :
    w.sendTo dst = w.sendWith (fun x => sizeOfInt x.count) dst := by
  cases w <;> rfl

def CollWork.reads : CollWork B → Option (CollPtr B × Nat)
  | .send x => some (x.ptr, sizeOfInt x.count)
  | .copy inPtr _ count => some (inPtr, sizeOfInt count)
  | _ => none

def CollWork.writes : CollWork B → Option (CollPtr B × Nat)
  | .recv x => some (x.ptr, sizeOfInt x.count)
  | .copy _ outPtr count => some (outPtr, sizeOfInt count)
  | _ => none

/-- A region inside its buffer, `alloc b` elements long. -/
def Inside (alloc : B → Nat) : Option (CollPtr B × Nat) → Prop
  | some (ptr, count) => ptr.offset + count ≤ alloc ptr.buf
  | none => True

end Shape

/-! ## Queues of sends -/

section Sends

variable {B α : Type} [DecidableEq B]

theorem runQueue_of_sends (inbox : Nat → List (List α)) (s : RankRun B α) {queue : List (CollItem B)}
    (sends : ∀ e ∈ queue, ∃ x, e.work = .send x) :
    runQueue inbox s queue =
      ⟨s.bufs, fun a => s.sent a ++ queue.filterMap (·.work.sendWith (fun x => readPtr s.bufs x.ptr (sizeOfInt x.count)) a),
        s.taken⟩ := by
  induction queue generalizing s with
  | nil => simp
  | cons e queue ih =>
      obtain ⟨x, send⟩ := sends e List.mem_cons_self
      rw [runQueue_cons, ih _ (fun e' mem => sends e' (List.mem_cons_of_mem _ mem)), send]
      simp only [runWork, List.filterMap_cons, send, CollWork.sendWith, RankRun.mk.injEq, true_and, and_true]
      funext a
      by_cases here : a = x.remoteRank
      · subst here
        simp
      · simp [Function.update_of_ne here, Ne.symm here]

end Sends

/-! ## Lengths along a run -/

section Lengths

variable {B α : Type} [DecidableEq B] {alloc : B → Nat}

/-- Every region of a queue inside the buffers, `alloc b` elements each. -/
def QueueInside (alloc : B → Nat) (queue : List (CollItem B)) : Prop :=
  ∀ e ∈ queue, Inside alloc e.work.reads ∧ Inside alloc e.work.writes

omit [DecidableEq B] in
theorem QueueInside.append {queue queue' : List (CollItem B)} (first : QueueInside alloc queue)
    (second : QueueInside alloc queue') : QueueInside alloc (queue ++ queue') := by
  intro e mem
  rcases List.mem_append.mp mem with inFirst | inSecond
  · exact first e inFirst
  · exact second e inSecond

theorem runWork_lengths (inbox : Nat → List (List α)) {s : RankRun B α} {w : CollWork B}
    (reads : Inside alloc w.reads) (writes : Inside alloc w.writes) (sized : ∀ b, (s.bufs b).length = alloc b) :
    (∀ b, ((runWork inbox s w).bufs b).length = alloc b) ∧
      ∀ a, ((runWork inbox s w).sent a).map List.length = (s.sent a).map List.length ++ (w.sendTo a).toList := by
  cases w with
  | send x =>
      simp only [CollWork.reads, Inside] at reads
      refine ⟨sized, fun a => ?_⟩
      by_cases here : a = x.remoteRank
      · subst here
        simp [runWork, CollWork.sendTo, length_readPtr (by rw [sized]; exact reads)]
      · simp [runWork, CollWork.sendTo, Function.update_of_ne here, Ne.symm here]
  | recv x =>
      simp only [CollWork.writes, Inside] at writes
      refine ⟨fun b => ?_, fun a => by simp [runWork, CollWork.sendTo]⟩
      simp only [runWork]
      rw [length_writePtr (by simp only [List.length_take, sized]; omega), sized]
  | copy inPtr outPtr count =>
      simp only [CollWork.reads, CollWork.writes, Inside] at reads writes
      refine ⟨fun b => ?_, fun a => by simp [runWork, CollWork.sendTo]⟩
      simp only [runWork]
      rw [length_writePtr (by rw [length_readPtr (by rw [sized]; exact reads), sized]; exact writes), sized]
  | comp => exact ⟨sized, fun a => by simp [runWork, CollWork.sendTo]⟩

theorem runQueue_lengths (inbox : Nat → List (List α)) {queue : List (CollItem B)} (inside : QueueInside alloc queue)
    {s : RankRun B α} (sized : ∀ b, (s.bufs b).length = alloc b) :
    (∀ b, ((runQueue inbox s queue).bufs b).length = alloc b) ∧
      ∀ a, ((runQueue inbox s queue).sent a).map List.length = (s.sent a).map List.length ++ sendCountsTo queue a := by
  induction queue generalizing s with
  | nil => exact ⟨sized, fun a => by simp [sendCountsTo]⟩
  | cons e queue ih =>
      obtain ⟨reads, writes⟩ := inside e List.mem_cons_self
      obtain ⟨sized', sent'⟩ := runWork_lengths inbox reads writes sized
      obtain ⟨sizedAll, sentAll⟩ := ih (fun e mem => inside e (List.mem_cons_of_mem _ mem)) sized'
      refine ⟨sizedAll, fun a => ?_⟩
      rw [runQueue_cons, sentAll, sent', sendCountsTo_cons, List.append_assoc]

end Lengths

end Libfabric.Coll.Blocks
