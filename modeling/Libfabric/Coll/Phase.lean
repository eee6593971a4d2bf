import Libfabric.Coll.Values

/-! One rank of a concurrent run. `coll_progress_work` and the completions of
the peer endpoint move a rank through three phases of its queue: nothing
started, one item started, or a round's receive and send started together.
Each event is one phase change, proved here against `progressScan`,
`collEpProgress` and `CollRank.complete`. -/
namespace Libfabric.Coll

def UtilCollWorkItem.withState (e : UtilCollWorkItem) (st : UtilCollState) : UtilCollWorkItem :=
  { e with state := st }

namespace UtilCollWorkItem

variable (e : UtilCollWorkItem) (st st' : UtilCollState)

@[simp] theorem withState_work : (e.withState st).work = e.work := rfl
@[simp] theorem withState_fence : (e.withState st).fence = e.fence := rfl
@[simp] theorem withState_state : (e.withState st).state = st := rfl
@[simp] theorem withState_withState : (e.withState st).withState st' = e.withState st' := rfl

end UtilCollWorkItem

/-- Whether starting the item hands it to the peer endpoint, which completes
it later; the other items complete in `coll_ep_progress` itself. -/
def WorkItem.posted : WorkItem → Bool
  | .send _ | .recv _ => true
  | _ => false

/-! ## The scan -/

section Scan

variable {kept rest : List UtilCollWorkItem} {e k : UtilCollWorkItem}

@[simp] theorem progressScan_nil (kept : List UtilCollWorkItem) :
    progressScan kept [] = (kept.reverse, none) := by
  rw [progressScan]

theorem progressScan_complete (h : e.state = .complete) :
    progressScan kept (e :: rest) =
      if e.fence ∧ kept ≠ [] then progressScan (e :: kept) rest else progressScan kept rest := by
  rw [progressScan, h]

theorem progressScan_active (h : e.state ≠ .complete) :
    progressScan kept (e :: rest) =
      if kept.head?.any (·.fence) then (kept.reverse ++ e :: rest, none)
      else if e.state ≠ .waiting then progressScan (e :: kept) rest
      else (kept.reverse ++ e.withState .processing :: rest, some kept.length) := by
  rw [progressScan]
  cases hs : e.state <;> simp_all [UtilCollWorkItem.withState]

/-- A completed item at the head is removed. -/
theorem progressScan_drop (h : e.state = .complete) :
    progressScan [] (e :: rest) = progressScan [] rest := by
  simp [progressScan_complete h]

/-- The first waiting item at the head is started. -/
theorem progressScan_start (h : e.state = .waiting) :
    progressScan [] (e :: rest) = (e.withState .processing :: rest, some 0) := by
  simp [progressScan_active (e := e) (by simp [h]), h]

/-- A posted item at the head is kept and the scan goes on. -/
theorem progressScan_pass (h : e.state = .processing) :
    progressScan [] (e :: rest) = progressScan [e] rest := by
  simp [progressScan_active (e := e) (by simp [h]), h]

/-- Behind an item that does not fence, the next waiting one is started. -/
theorem progressScan_start_after (h : e.state = .waiting) (hk : k.fence = false) :
    progressScan [k] (e :: rest) = (k :: e.withState .processing :: rest, some 1) := by
  simp [progressScan_active (e := e) (by simp [h]), h, hk]

/-- An item behind a fence stops the scan with nothing started. -/
theorem progressScan_stop {ks : List UtilCollWorkItem} (hk : k.fence = true)
    (hrest : ∀ e ∈ rest.head?, e.state ≠ .complete) :
    progressScan (k :: ks) rest = ((k :: ks).reverse ++ rest, none) := by
  cases rest with
  | nil => simp
  | cons e rest => simp [progressScan_active (hrest e rfl), hk]

end Scan

/-! ## Phases -/

/-- Where a rank stands in the queue `Q` it was given: `idle i` has finished
`Q[0..i)` and not started `Q[i]`; `one i st` has started `Q[i]`; `two i st st'`
has started the receive `Q[i]` that opens a round and that round's send. -/
inductive Phase where
  | idle (i : Nat)
  | one (i : Nat) (st : UtilCollState)
  | two (i : Nat) (st st' : UtilCollState)
  deriving DecidableEq, Repr

namespace Phase

variable (Q : List UtilCollWorkItem)

def queue : Phase → List UtilCollWorkItem
  | idle i => Q.drop i
  | one i st => (Q.drop i).modify 0 (·.withState st)
  | two i st st' => ((Q.drop i).modify 0 (·.withState st)).modify 1 (·.withState st')

/-- How many items of the queue have been started. -/
def started : Phase → Nat
  | idle i => i
  | one i _ => i + 1
  | two i _ _ => i + 2

/-- How many items of the queue have taken effect on the buffers. -/
def applied : Phase → Nat
  | idle i => i
  | one i st => if st = .complete then i + 1 else i
  | two i st _ => if st = .complete then i + 2 else i

/-- The phases a rank can be in: an item started by `coll_progress_work` and
not handed to the peer endpoint completes at once, and the second of two
started items is the send of the round the first opens. -/
def Ok : Phase → Prop
  | idle i => i ≤ Q.length
  | one i st => ∃ h : i < Q.length, st ≠ .waiting ∧ (st = .processing → Q[i].work.posted = true)
  | two i st st' => ∃ h : i + 1 < Q.length, Q[i].fence = false ∧ st ≠ .waiting ∧ st' ≠ .waiting

/-- The phases in which `coll_progress_work` changes nothing: the queue is
empty, or its started items wait on the peer endpoint behind a fence. -/
def Quiet : Phase → Prop
  | idle i => Q.length ≤ i
  | one i st => st = .processing ∧ ∃ h : i < Q.length, Q[i].fence = true
  | two _ st _ => st = .processing

variable {Q}

theorem queue_one {i : Nat} (h : i < Q.length) (st : UtilCollState) :
    (one i st).queue Q = Q[i].withState st :: Q.drop (i + 1) := by
  rw [queue, List.drop_eq_getElem_cons h, List.modify_zero_cons]

theorem queue_two {i : Nat} (h : i + 1 < Q.length) (st st' : UtilCollState) :
    (two i st st').queue Q = Q[i].withState st :: Q[i + 1].withState st' :: Q.drop (i + 2) := by
  rw [queue, List.drop_eq_getElem_cons (show i < Q.length by omega), List.drop_eq_getElem_cons h]
  rfl

end Phase

/-! ## Ranks -/

section Rank

variable {M : Type} (rank : CollRank M)

@[simp] theorem CollRank.complete_workQueue (i : Nat) :
    (rank.complete i).workQueue = rank.workQueue.modify i (·.withState .complete) := rfl

@[simp] theorem CollRank.buf_complete (i : Nat) : (rank.complete i).buf = rank.buf := by
  funext b
  cases b <;> rfl

@[simp] theorem CollRank.setBuf_workQueue (v : M) (b : CollBuf) :
    (rank.setBuf v b).workQueue = rank.workQueue := by
  cases b <;> rfl

@[simp] theorem CollRank.buf_setBuf (v : M) (b : CollBuf) :
    (rank.setBuf v b).buf = Function.update rank.buf b v := by
  funext c
  cases b <;> cases c <;> simp [CollRank.buf, CollRank.setBuf]

@[simp] theorem CollRank.buf_withQueue (q : List UtilCollWorkItem) :
    ({ rank with workQueue := q } : CollRank M).buf = rank.buf := by
  funext b
  cases b <;> rfl

/-- The message `coll_ep_progress` puts on the wire when it starts `w` at rank
`self` with buffers `buf`: one for a send, none otherwise. -/
def postedMsgs (self : Nat) (buf : CollBuf → M) : WorkItem → List (CollMsg M)
  | .send x => [⟨self, x.remoteRank, x.tag, buf x.buf⟩]
  | _ => []

theorem map_dst_postedMsgs (self : Nat) (buf : CollBuf → M) (w : WorkItem) :
    (postedMsgs self buf w).map (·.dst) = w.sendDst.toList := by
  cases w <;> rfl

theorem length_postedMsgs_le (self : Nat) (buf : CollBuf → M) (w : WorkItem) :
    (postedMsgs self buf w).length ≤ 1 := by
  cases w <;> simp [postedMsgs]

end Rank

section Progress

variable {M : Type} [CommMonoid M] {r : Nat} {sys : CollSys M}

/-- `coll_ep_progress` on a readied item: a send or a receive stays posted,
the other items take effect on the buffers and complete. -/
theorem collEpProgress_eq {rank : CollRank M} {i : Nat} {e : UtilCollWorkItem}
    (wire : List (CollMsg M)) (entry : rank.workQueue[i]? = some e) :
    ∃ rank', collEpProgress r rank wire i = (rank', wire ++ postedMsgs r rank.buf e.work) ∧
      rank'.workQueue =
        (if e.work.posted then rank.workQueue else rank.workQueue.modify i (·.withState .complete)) ∧
      ∀ recvVal : Nat → M,
        rank'.buf = if e.work.posted then rank.buf else runWork recvVal rank.buf e.work := by
  cases hw : e.work with
  | send y => exact ⟨rank, by simp [collEpProgress, entry, hw, postedMsgs], by simp [WorkItem.posted],
      fun _ => by simp [WorkItem.posted]⟩
  | recv y => exact ⟨rank, by simp [collEpProgress, entry, hw, postedMsgs], by simp [WorkItem.posted],
      fun _ => by simp [WorkItem.posted]⟩
  | reduce a b =>
    exact ⟨(rank.setBuf (rank.buf b * rank.buf a) b).complete i,
      by simp [collEpProgress, entry, hw, postedMsgs], by simp [WorkItem.posted],
      fun _ => by simp [WorkItem.posted, runWork]⟩
  | copy a b =>
    exact ⟨(rank.setBuf (rank.buf a) b).complete i, by simp [collEpProgress, entry, hw, postedMsgs],
      by simp [WorkItem.posted], fun _ => by simp [WorkItem.posted, runWork]⟩
  | comp =>
    exact ⟨rank.complete i, by simp [collEpProgress, entry, hw, postedMsgs], by simp [WorkItem.posted],
      fun _ => by simp [WorkItem.posted, runWork]⟩

theorem progressRank_none {q : List UtilCollWorkItem}
    (scan : collProgressWork (sys.rank r).workQueue = (q, none)) :
    progressRank r sys = ⟨Function.update sys.rank r { sys.rank r with workQueue := q }, sys.wire⟩ := by
  simp [progressRank, scan]

theorem progressRank_some {q : List UtilCollWorkItem} {i : Nat}
    (scan : collProgressWork (sys.rank r).workQueue = (q, some i)) :
    progressRank r sys =
      ⟨Function.update sys.rank r (collEpProgress r { sys.rank r with workQueue := q } sys.wire i).1,
        (collEpProgress r { sys.rank r with workQueue := q } sys.wire i).2⟩ := by
  simp [progressRank, scan]

/-- A scan that starts nothing and removes nothing leaves the ranks as they are. -/
theorem progressRank_of_unchanged
    (scan : collProgressWork (sys.rank r).workQueue = ((sys.rank r).workQueue, none)) :
    progressRank r sys = sys := by
  rw [progressRank_none scan]
  simp

/-- A completed item at the head of the queue is removed before anything else. -/
theorem progressRank_drop {e : UtilCollWorkItem} {rest : List UtilCollWorkItem}
    (hq : (sys.rank r).workQueue = e :: rest) (h : e.state = .complete) :
    progressRank r sys =
      progressRank r ⟨Function.update sys.rank r { sys.rank r with workQueue := rest }, sys.wire⟩ := by
  simp [progressRank, collProgressWork, hq, progressScan_drop h]

/-- Starting the waiting item at `kept.length`: the wire gains its message,
and the rank's queue and buffers are those `collEpProgress_eq` gives. -/
theorem progressRank_start {kept rest : List UtilCollWorkItem} {e : UtilCollWorkItem}
    (scan : collProgressWork (sys.rank r).workQueue = (kept ++ e.withState .processing :: rest, some kept.length)) :
    ∃ rank', progressRank r sys =
        ⟨Function.update sys.rank r rank', sys.wire ++ postedMsgs r (sys.rank r).buf e.work⟩ ∧
      rank'.workQueue = kept ++ e.withState (if e.work.posted then .processing else .complete) :: rest ∧
      ∀ recvVal : Nat → M,
        rank'.buf = if e.work.posted then (sys.rank r).buf else runWork recvVal (sys.rank r).buf e.work := by
  have entry : ({ sys.rank r with workQueue := kept ++ e.withState .processing :: rest } : CollRank M).workQueue[kept.length]? =
      some (e.withState .processing) := by
    simp
  obtain ⟨rank', hstep, hqueue, hbuf⟩ := collEpProgress_eq sys.wire entry
  refine ⟨rank', ?_, ?_, fun recvVal => ?_⟩
  · rw [progressRank_some scan, hstep]
    simp
  · rw [hqueue]
    split
    · simp_all
    · rw [List.modify_eq_take_cons_drop (by simp)]
      simp_all
  · simpa using hbuf recvVal

end Progress

/-! ## Queue positions -/

section Positions

variable {Q : List UtilCollWorkItem} {i : Nat}

theorem sendDsts_take_succ (h : i < Q.length) :
    sendDsts (Q.take (i + 1)) = sendDsts (Q.take i) ++ Q[i].work.sendDst.toList := by
  simp only [sendDsts, List.take_add_one, List.getElem?_eq_getElem h, Option.toList_some,
    List.filterMap_append]
  cases hd : Q[i].work.sendDst <;> simp [hd]

theorem recvSrcs_take_succ (h : i < Q.length) :
    recvSrcs (Q.take (i + 1)) = recvSrcs (Q.take i) ++ Q[i].work.recvSrc.toList := by
  simp only [recvSrcs, List.take_add_one, List.getElem?_eq_getElem h, Option.toList_some,
    List.filterMap_append]
  cases hs : Q[i].work.recvSrc <;> simp [hs]

/-- A send takes no effect on the buffers. -/
theorem seqRun_take_send {N : Type} [CommMonoid N] (recvVal : Nat → N) (b : CollBuf → N) (h : i < Q.length)
    {y : XferItem} (hy : Q[i].work = .send y) :
    seqRun recvVal b (Q.take (i + 1)) = seqRun recvVal b (Q.take i) := by
  rw [seqRun_take_succ recvVal b (List.getElem?_eq_getElem h), hy]
  rfl

theorem recvSrcs_take_send (h : i < Q.length) {y : XferItem} (hy : Q[i].work = .send y) :
    recvSrcs (Q.take (i + 1)) = recvSrcs (Q.take i) := by
  rw [recvSrcs_take_succ h, hy]
  simp [WorkItem.recvSrc]

end Positions

/-- How much work is left in a queue: a waiting item weighs most, a posted one
less, a completed one that is still queued least. -/
def UtilCollState.weight : UtilCollState → Nat
  | .waiting => 4
  | .processing => 2
  | .complete => 1

def queueWeight (queue : List UtilCollWorkItem) : Nat := (queue.map (·.state.weight)).sum

@[simp] theorem queueWeight_cons (e : UtilCollWorkItem) (queue : List UtilCollWorkItem) :
    queueWeight (e :: queue) = e.state.weight + queueWeight queue := by
  simp [queueWeight]

/-- Completing a posted item takes one off the weight. -/
theorem queueWeight_complete {queue : List UtilCollWorkItem} {e : UtilCollWorkItem} :
    ∀ {i : Nat}, queue[i]? = some e → e.state = .processing →
      queueWeight (queue.modify i (·.withState .complete)) + 1 = queueWeight queue := by
  induction queue with
  | nil => intro i h; cases h
  | cons e0 rest ih =>
    intro i h posted
    cases i with
    | zero =>
      cases h
      simp [posted, UtilCollState.weight]
      omega
    | succ i =>
      have := ih h posted
      simp only [List.modify_succ_cons, queueWeight_cons]
      omega

/-! ## Schedules -/

/-- Work queues for the ranks below `n` that can run together under the fence
rule. Every item waits at first; an item that does not fence opens a round; a
receive before a send waits on a lower level than the send's, or opens its
round; no rank sends to or receives from another twice; a rank that receives
from `s` is one `s` sends to; sends go out of `result` tagged with their
sender and receives are tagged with their source, under tags that tell ranks
apart; and each send carries `value` of its message, run in order. -/
structure CollSchedule (n : Nat) (M : Type) [CommMonoid M] where
  queue : Nat → List UtilCollWorkItem
  start : Nat → CollBuf → M
  value : Nat → Nat → M
  level : Nat → Nat → Nat
  tag : Nat → Nat
  waiting : ∀ r < n, ∀ e ∈ queue r, e.state = .waiting
  paired : ∀ r < n, Paired (queue r)
  ordered : ∀ r < n, (queue r).Pairwise fun e e' => ∀ u v, e.work.recvSrc = some u →
    e'.work.sendDst = some v → level u r < level r v ∨ (u = v ∧ e.fence = false)
  sendsNodup : ∀ r < n, (sendDsts (queue r)).Nodup
  recvsNodup : ∀ r < n, (recvSrcs (queue r)).Nodup
  sender : ∀ r < n, ∀ s ∈ recvSrcs (queue r), r ∈ sendDsts (queue s)
  sendOk : ∀ r < n, ∀ e ∈ queue r, ∀ y, e.work = .send y →
    y.tag = tag r ∧ y.buf = .result ∧ y.remoteRank < n
  recvOk : ∀ r < n, ∀ e ∈ queue r, ∀ y, e.work = .recv y → y.tag = tag y.remoteRank ∧ y.remoteRank < n
  tagInj : ∀ s < n, ∀ s' < n, tag s = tag s' → s = s'
  agree : ∀ r < n, SendsAgree (fun s => value s r) (value r) (start r) (queue r)

namespace CollSchedule

variable {n : Nat} {M : Type} [CommMonoid M] (sched : CollSchedule n M)

/-- The ranks `s` has started a send to, at phase `p`. -/
def sentTo (s : Nat) (p : Phase) : List Nat := sendDsts ((sched.queue s).take p.started)

/-- The ranks `r` has completed a receive from, at phase `p`. -/
def gotFrom (r : Nat) (p : Phase) : List Nat := recvSrcs ((sched.queue r).take p.applied)

/-- A message between ranks of the group, tagged with its sender and carrying
the value of its send. -/
def MsgOk (m : CollMsg M) : Prop :=
  m.src < n ∧ m.dst < n ∧ m.tag = sched.tag m.src ∧ m.data = sched.value m.src m.dst

/-- Rank `r` is at phase `p` of its queue: the queue holds the items of `p` in
their states, and the buffers hold the run of the items that took effect,
each receive from `s` having taken `s`'s value. -/
structure RankAt (r : Nat) (rank : CollRank M) (p : Phase) : Prop where
  ok : p.Ok (sched.queue r)
  queue : rank.workQueue = p.queue (sched.queue r)
  buf : rank.buf = seqRun (fun s => sched.value s r) (sched.start r) ((sched.queue r).take p.applied)

/-- Rank `r` moves from phase `p` in `sys` to some phase in `sys'`, no other
rank changes, the messages it puts on the wire are its own sends started now,
the receives it has completed stay the same, and its queue loses weight. -/
def Moves (r : Nat) (sys sys' : CollSys M) (p : Phase) : Prop :=
  ∃ p' rank' msgs, sys' = ⟨Function.update sys.rank r rank', sys.wire ++ msgs⟩ ∧ sched.RankAt r rank' p' ∧
    sched.gotFrom r p' = sched.gotFrom r p ∧ sched.sentTo r p' = sched.sentTo r p ++ msgs.map (·.dst) ∧
    (∀ m ∈ msgs, m.src = r ∧ sched.MsgOk m) ∧
    queueWeight rank'.workQueue + msgs.length < queueWeight (sys.rank r).workQueue

variable {sched} {r : Nat} {sys : CollSys M} {p : Phase}

theorem waiting_of_mem_drop (hr : r < n) {k : Nat} {e : UtilCollWorkItem}
    (he : e ∈ (sched.queue r).drop k) : e.state = .waiting :=
  sched.waiting r hr e (List.mem_of_mem_drop he)

theorem not_complete_head_drop (hr : r < n) (k : Nat) :
    ∀ e ∈ ((sched.queue r).drop k).head?, e.state ≠ .complete := by
  intro e he
  rw [waiting_of_mem_drop hr (List.mem_of_mem_head? he)]
  simp

/-- The item after one that does not fence is its round's send. -/
theorem opensRound_next (hr : r < n) {i : Nat} (hi : i < (sched.queue r).length)
    (hf : (sched.queue r)[i].fence = false) :
    ∃ h : i + 1 < (sched.queue r).length, OpensRound (sched.queue r)[i] (sched.queue r)[i + 1] := by
  obtain ⟨e', he', hopen⟩ := (sched.paired r hr).next (List.getElem?_eq_getElem hi) hf
  obtain ⟨h, rfl⟩ := List.getElem?_eq_some_iff.mp he'
  exact ⟨h, hopen⟩

/-- The message a rank posts when it starts an item of its queue is a message
of the group, provided the buffers it sends from hold the send's value. -/
theorem postedMsgs_ok (hr : r < n) {e : UtilCollWorkItem} (he : e ∈ sched.queue r) {buf : CollBuf → M}
    (hbuf : ∀ y, e.work = .send y → buf .result = sched.value r y.remoteRank) :
    ∀ m ∈ postedMsgs r buf e.work, m.src = r ∧ sched.MsgOk m := by
  intro m hm
  cases hw : e.work with
  | send y =>
    obtain ⟨htag, hbufy, hdst⟩ := sched.sendOk r hr e he y hw
    rw [hw, postedMsgs, List.mem_singleton] at hm
    subst hm
    exact ⟨rfl, hr, hdst, htag, by rw [hbufy]; exact hbuf y hw⟩
  | recv y | reduce _ _ | copy _ _ | comp => simp [hw, postedMsgs] at hm

/-! ## `coll_progress_work` at a phase -/

/-- From `idle i`, the scan starts `Q[i]`: a send or a receive is posted, any
other item takes effect and completes. -/
theorem moves_idle (hr : r < n) {i : Nat} (here : sched.RankAt r (sys.rank r) (.idle i))
    (hi : i < (sched.queue r).length) : sched.Moves r sys (progressRank r sys) (.idle i) := by
  have hq : (sys.rank r).workQueue = (sched.queue r)[i] :: (sched.queue r).drop (i + 1) := by
    rw [here.queue, Phase.queue, List.drop_eq_getElem_cons hi]
  have hwait : (sched.queue r)[i].state = .waiting := sched.waiting r hr _ (List.getElem_mem hi)
  have scan : collProgressWork (sys.rank r).workQueue =
      ([] ++ (sched.queue r)[i].withState .processing :: (sched.queue r).drop (i + 1),
        some ([] : List UtilCollWorkItem).length) := by
    rw [hq, collProgressWork, progressScan_start hwait]
    rfl
  obtain ⟨rank', step, hqueue, hbuf⟩ := progressRank_start scan
  refine ⟨.one i (if (sched.queue r)[i].work.posted then .processing else .complete), rank',
    postedMsgs r (sys.rank r).buf (sched.queue r)[i].work, step, ⟨?_, ?_, ?_⟩, ?_, ?_, ?_, ?_⟩
  · exact ⟨hi, by split <;> simp, by split <;> simp_all⟩
  · rw [hqueue, Phase.queue_one hi]
    rfl
  · rw [hbuf (fun s => sched.value s r), here.buf]
    -- a posted item has not taken effect yet; any other item has, as the run's next step
    split
    · simp [Phase.applied, *]
    · simp only [Phase.applied, if_true, *]
      rw [seqRun_take_succ _ _ (List.getElem?_eq_getElem hi)]
  · simp only [gotFrom, Phase.applied]
    split
    · simp
    · rw [if_pos rfl, recvSrcs_take_succ hi]
      cases hw : (sched.queue r)[i].work <;> simp_all [WorkItem.posted, WorkItem.recvSrc]
  · simp only [sentTo, Phase.started]
    rw [sendDsts_take_succ hi, map_dst_postedMsgs]
  · refine postedMsgs_ok hr (List.getElem_mem hi) fun y hy => ?_
    have hres := (sched.sendOk r hr _ (List.getElem_mem hi) y hy).2.1
    rw [here.buf, Phase.applied, ← hres]
    exact (sched.agree r hr).get (List.getElem?_eq_getElem hi) hy
  · have := length_postedMsgs_le r (sys.rank r).buf (sched.queue r)[i].work
    rw [hqueue, hq, List.nil_append, queueWeight_cons, queueWeight_cons, hwait,
      UtilCollWorkItem.withState_state]
    split <;> simp only [UtilCollState.weight] <;> omega

/-- At `one i processing` with a receive that does not fence, the scan starts
the round's send behind it. -/
theorem moves_open (hr : r < n) {i : Nat} (here : sched.RankAt r (sys.rank r) (.one i .processing))
    (hi : i < (sched.queue r).length) (hf : (sched.queue r)[i].fence = false) :
    sched.Moves r sys (progressRank r sys) (.one i .processing) := by
  obtain ⟨hnext, x, y, hrecv, htmp, hsend, -, -⟩ := opensRound_next hr hi hf
  have hq : (sys.rank r).workQueue = (sched.queue r)[i].withState .processing ::
      (sched.queue r)[i + 1] :: (sched.queue r).drop (i + 2) := by
    rw [here.queue, Phase.queue_one hi, List.drop_eq_getElem_cons hnext]
  have hwait : (sched.queue r)[i + 1].state = .waiting := sched.waiting r hr _ (List.getElem_mem hnext)
  have scan : collProgressWork (sys.rank r).workQueue =
      ([(sched.queue r)[i].withState .processing] ++ (sched.queue r)[i + 1].withState .processing ::
        (sched.queue r).drop (i + 2), some [(sched.queue r)[i].withState .processing].length) := by
    rw [hq, collProgressWork, progressScan_pass rfl, progressScan_start_after hwait (by simpa using hf)]
    rfl
  obtain ⟨rank', step, hqueue, hbuf⟩ := progressRank_start scan
  have hposted : (sched.queue r)[i + 1].work.posted = true := by simp [hsend, WorkItem.posted]
  refine ⟨.two i .processing .processing, rank', postedMsgs r (sys.rank r).buf (sched.queue r)[i + 1].work,
    step, ⟨⟨hnext, hf, by simp, by simp⟩, ?_, ?_⟩, rfl, ?_, ?_, ?_⟩
  · rw [hqueue, Phase.queue_two hnext, hposted]
    rfl
  · rw [hbuf (fun s => sched.value s r), hposted, if_pos rfl, here.buf]
    rfl
  · simp only [sentTo, Phase.started]
    rw [sendDsts_take_succ hnext, map_dst_postedMsgs]
  · -- the send goes out of `result`, which the pending receive into `tmp_buf` leaves alone
    refine postedMsgs_ok hr (List.getElem_mem hnext) fun y' hy' => ?_
    have hres := (sched.sendOk r hr _ (List.getElem_mem hnext) y' hy').2.1
    have hval := (sched.agree r hr).get (List.getElem?_eq_getElem hnext) hy'
    rw [hres, seqRun_take_succ _ _ (List.getElem?_eq_getElem hi), hrecv,
      runWork_recv_tmp _ _ htmp] at hval
    rw [here.buf]
    exact hval
  · have := length_postedMsgs_le r (sys.rank r).buf (sched.queue r)[i + 1].work
    simp only [hqueue, hq, hposted, List.cons_append, List.nil_append, queueWeight_cons,
      UtilCollWorkItem.withState_state, hwait, UtilCollState.weight, ↓reduceIte]
    omega

/-- At a quiet phase the scan starts nothing and removes nothing. -/
theorem progressRank_quiet (hr : r < n) (here : sched.RankAt r (sys.rank r) p)
    (quiet : p.Quiet (sched.queue r)) : progressRank r sys = sys := by
  apply progressRank_of_unchanged
  rw [here.queue, collProgressWork]
  cases p with
  | idle i =>
    rw [Phase.queue, List.drop_eq_nil_of_le quiet]
    rfl
  | one i st =>
    obtain ⟨rfl, hi, hfence⟩ := quiet
    rw [Phase.queue_one hi, progressScan_pass rfl, progressScan_stop (by simpa using hfence)
      (not_complete_head_drop hr _)]
    rfl
  | two i st st' =>
    obtain ⟨hnext, hf, -, hst'⟩ := here.ok
    obtain ⟨_, x, y, -, -, -, -, hfence⟩ :=
      opensRound_next hr (show i < (sched.queue r).length by omega) hf
    obtain rfl : st = .processing := quiet
    -- the round's send fences, whether it is still posted or has completed
    have hkeep : progressScan [(sched.queue r)[i].withState .processing]
        ((sched.queue r)[i + 1].withState st' :: (sched.queue r).drop (i + 2)) =
          progressScan [(sched.queue r)[i + 1].withState st', (sched.queue r)[i].withState .processing]
            ((sched.queue r).drop (i + 2)) := by
      cases st' with
      | waiting => exact absurd rfl hst'
      | processing =>
        rw [progressScan_active (by simp)]
        simp [hf]
      | complete =>
        rw [progressScan_complete rfl]
        simp [hfence]
    rw [Phase.queue_two hnext, progressScan_pass rfl, hkeep,
      progressScan_stop (by simpa using hfence) (not_complete_head_drop hr _)]
    rfl

/-- A step that first removes completed items from the head moves the rank
if what follows from the phase left moves it or is quiet. -/
theorem moves_of_drop {rank₀ : CollRank M} {p₀ : Phase}
    (hdrop : progressRank r sys = progressRank r ⟨Function.update sys.rank r rank₀, sys.wire⟩)
    (here₀ : sched.RankAt r rank₀ p₀) (got : sched.gotFrom r p₀ = sched.gotFrom r p)
    (sent : sched.sentTo r p₀ = sched.sentTo r p)
    (lighter : queueWeight rank₀.workQueue < queueWeight (sys.rank r).workQueue)
    (next : progressRank r ⟨Function.update sys.rank r rank₀, sys.wire⟩ =
        ⟨Function.update sys.rank r rank₀, sys.wire⟩ ∨
      sched.Moves r ⟨Function.update sys.rank r rank₀, sys.wire⟩
        (progressRank r ⟨Function.update sys.rank r rank₀, sys.wire⟩) p₀) :
    sched.Moves r sys (progressRank r sys) p := by
  rw [hdrop]
  rcases next with same | ⟨p', rank', msgs, step, here', got', sent', msgsOk, weight⟩
  · exact ⟨p₀, rank₀, [], by rw [same]; simp, here₀, got, by simp [sent], by simp, by simpa using lighter⟩
  · refine ⟨p', rank', msgs, by rw [step]; simp, here', got'.trans got, by rw [sent', sent], msgsOk, ?_⟩
    simp only [Function.update_self] at weight
    omega

theorem rankAt_update {rank₀ : CollRank M} {p₀ : Phase} (h : sched.RankAt r rank₀ p₀)
    (wire : List (CollMsg M)) : sched.RankAt r ((⟨Function.update sys.rank r rank₀, wire⟩ : CollSys M).rank r) p₀ := by
  simp only [Function.update_self]
  exact h

/-- At an idle phase the scan finds the queue empty or starts its next item. -/
theorem idle_cases (hr : r < n) {i : Nat} (here : sched.RankAt r (sys.rank r) (.idle i)) :
    (progressRank r sys = sys ∧ (Phase.idle i).Quiet (sched.queue r)) ∨
      sched.Moves r sys (progressRank r sys) (.idle i) := by
  by_cases hi : i < (sched.queue r).length
  · exact .inr (moves_idle hr here hi)
  · have quiet : (Phase.idle i).Quiet (sched.queue r) := by
      simp only [Phase.Quiet]
      omega
    exact .inl ⟨progressRank_quiet hr here quiet, quiet⟩

/-- A completed item at the head is removed, and the scan goes on from
`idle (i + 1)`. -/
theorem moves_complete (hr : r < n) {i : Nat} (here : sched.RankAt r (sys.rank r) (.one i .complete)) :
    sched.Moves r sys (progressRank r sys) (.one i .complete) := by
  obtain ⟨hi, -⟩ := here.ok
  have hq : (sys.rank r).workQueue =
      (sched.queue r)[i].withState .complete :: (sched.queue r).drop (i + 1) := by
    rw [here.queue, Phase.queue_one hi]
  have here₀ : sched.RankAt r { sys.rank r with workQueue := (sched.queue r).drop (i + 1) } (.idle (i + 1)) :=
    ⟨by simp only [Phase.Ok]; omega, rfl, by simpa [Phase.applied] using here.buf⟩
  exact moves_of_drop (progressRank_drop hq rfl) here₀ (by simp [gotFrom, Phase.applied]) rfl
    (by rw [hq]; simp [UtilCollState.weight]) ((idle_cases hr (rankAt_update here₀ sys.wire)).imp_left And.left)

/-- What `coll_progress_work` does at a rank: nothing at a quiet phase, and
otherwise it moves the rank. -/
theorem progressRank_cases (hr : r < n) (here : sched.RankAt r (sys.rank r) p) :
    (progressRank r sys = sys ∧ p.Quiet (sched.queue r)) ∨ sched.Moves r sys (progressRank r sys) p := by
  cases p with
  | idle i => exact idle_cases hr here
  | one i st =>
    obtain ⟨hi, hst, -⟩ := here.ok
    cases st with
    | waiting => exact absurd rfl hst
    | processing =>
      cases hf : (sched.queue r)[i].fence
      · exact .inr (moves_open hr here hi hf)
      · have quiet : (Phase.one i .processing).Quiet (sched.queue r) := ⟨rfl, hi, hf⟩
        exact .inl ⟨progressRank_quiet hr here quiet, quiet⟩
    | complete => exact .inr (moves_complete hr here)
  | two i st st' =>
    obtain ⟨hnext, hf, hst, hst'⟩ := here.ok
    obtain ⟨_, x, y, -, -, hsend, -, hfence⟩ :=
      opensRound_next hr (show i < (sched.queue r).length by omega) hf
    have hq : (sys.rank r).workQueue = (sched.queue r)[i].withState st ::
        (sched.queue r)[i + 1].withState st' :: (sched.queue r).drop (i + 2) := by
      rw [here.queue, Phase.queue_two hnext]
    cases st with
    | waiting => exact absurd rfl hst
    | processing => exact .inl ⟨progressRank_quiet hr here rfl, rfl⟩
    | complete =>
      cases st' with
      | waiting => exact absurd rfl hst'
      | processing =>
        -- the receive is removed and its round's send waits on behind its fence
        have here₀ : sched.RankAt r { sys.rank r with
            workQueue := (sched.queue r)[i + 1].withState .processing :: (sched.queue r).drop (i + 2) }
            (.one (i + 1) .processing) := by
          refine ⟨⟨hnext, by simp, fun _ => by simp [hsend, WorkItem.posted]⟩, by simp [Phase.queue_one hnext], ?_⟩
          simpa [Phase.applied, seqRun_take_send _ _ hnext hsend] using here.buf
        have quiet : (Phase.one (i + 1) .processing).Quiet (sched.queue r) := ⟨rfl, hnext, hfence⟩
        refine .inr (moves_of_drop (progressRank_drop hq rfl) here₀ ?_ rfl
          (by rw [hq]; simp [UtilCollState.weight]) (.inl (progressRank_quiet hr (rankAt_update here₀ sys.wire) quiet)))
        show recvSrcs ((sched.queue r).take (i + 1)) = recvSrcs ((sched.queue r).take (i + 2))
        exact (recvSrcs_take_send hnext hsend).symm
      | complete =>
        -- the receive is removed, and its completed send is the head of a phase `one`
        have here₀ : sched.RankAt r { sys.rank r with
            workQueue := (sched.queue r)[i + 1].withState .complete :: (sched.queue r).drop (i + 2) }
            (.one (i + 1) .complete) :=
          ⟨⟨hnext, by simp, by simp⟩, by simp [Phase.queue_one hnext], by simpa [Phase.applied] using here.buf⟩
        exact .inr (moves_of_drop (progressRank_drop hq rfl) here₀ (by simp [gotFrom, Phase.applied]) rfl
          (by rw [hq]; simp [UtilCollState.weight]) (.inr (moves_complete hr (rankAt_update here₀ sys.wire))))

/-! ## Completions at a phase -/

/-- Every queued item is an item of the schedule, in some state. -/
theorem RankAt.work_mem {rank : CollRank M} (here : sched.RankAt r rank p) {i : Nat} {e : UtilCollWorkItem}
    (entry : rank.workQueue[i]? = some e) : ∃ e' ∈ sched.queue r, e'.work = e.work := by
  rw [here.queue] at entry
  have hdrop : ∀ {k j : Nat} {e : UtilCollWorkItem}, ((sched.queue r).drop k)[j]? = some e →
      ∃ e' ∈ sched.queue r, e'.work = e.work :=
    fun h => ⟨_, List.mem_of_mem_drop (List.mem_of_getElem? h), rfl⟩
  cases p with
  | idle j => exact hdrop entry
  | one j st =>
    rw [Phase.queue_one here.ok.1] at entry
    rcases i with _ | i
    · cases entry
      exact ⟨_, List.getElem_mem here.ok.1, rfl⟩
    · exact hdrop entry
  | two j st st' =>
    have hnext := here.ok.1
    rw [Phase.queue_two hnext] at entry
    rcases i with _ | _ | i
    · cases entry
      exact ⟨_, List.getElem_mem (show j < (sched.queue r).length by omega), rfl⟩
    · cases entry
      exact ⟨_, List.getElem_mem hnext, rfl⟩
    · exact hdrop entry

theorem waiting_of_getElem?_drop (hr : r < n) {k i : Nat} {e : UtilCollWorkItem}
    (h : ((sched.queue r).drop k)[i]? = some e) : e.state = .waiting :=
  waiting_of_mem_drop hr (List.mem_of_getElem? h)

/-- A posted entry is a started item of the phase: the head of a phase `one`,
or either head of a phase `two`; the items behind them still wait. -/
theorem RankAt.posted_at (hr : r < n) {rank : CollRank M} (here : sched.RankAt r rank p) {i : Nat}
    {e : UtilCollWorkItem} (entry : rank.workQueue[i]? = some e) (posted : e.state = .processing) :
    (∃ j, ∃ hj : j < (sched.queue r).length, p = .one j .processing ∧ i = 0 ∧
        e = (sched.queue r)[j].withState .processing) ∨
    (∃ j st', ∃ hnext : j + 1 < (sched.queue r).length, p = .two j .processing st' ∧ i = 0 ∧
        e = (sched.queue r)[j].withState .processing) ∨
    (∃ j st, ∃ hnext : j + 1 < (sched.queue r).length, p = .two j st .processing ∧ i = 1 ∧
        e = (sched.queue r)[j + 1].withState .processing) := by
  have beyond : ∀ {k i : Nat}, ((sched.queue r).drop k)[i]? ≠ some e := fun h => by
    rw [waiting_of_getElem?_drop hr h] at posted
    cases posted
  rw [here.queue] at entry
  cases p with
  | idle j => exact absurd entry beyond
  | one j st =>
    obtain ⟨hj, -⟩ := here.ok
    rw [Phase.queue_one hj] at entry
    rcases i with _ | i
    · cases entry
      simp only [UtilCollWorkItem.withState_state] at posted
      subst posted
      exact .inl ⟨j, hj, rfl, rfl, rfl⟩
    · rw [List.getElem?_cons_succ] at entry
      exact absurd entry beyond
  | two j st st' =>
    obtain ⟨hnext, -⟩ := here.ok
    rw [Phase.queue_two hnext] at entry
    rcases i with _ | _ | i
    · cases entry
      simp only [UtilCollWorkItem.withState_state] at posted
      subst posted
      exact .inr (.inl ⟨j, st', hnext, rfl, rfl, rfl⟩)
    · cases entry
      simp only [UtilCollWorkItem.withState_state] at posted
      subst posted
      exact .inr (.inr ⟨j, st, hnext, rfl, rfl, rfl⟩)
    · rw [List.getElem?_cons_succ, List.getElem?_cons_succ] at entry
      exact absurd entry beyond

/-- The peer endpoint completes a posted send: the rank moves to the same
phase with the send complete. -/
theorem sendDone_cases (hr : r < n) (here : sched.RankAt r (sys.rank r) p) {i : Nat}
    {e : UtilCollWorkItem} {x : XferItem} (entry : (sys.rank r).workQueue[i]? = some e)
    (send : e.work = .send x) (posted : e.state = .processing) :
    ∃ p', sched.RankAt r ((sys.rank r).complete i) p' ∧ sched.gotFrom r p' = sched.gotFrom r p ∧
      sched.sentTo r p' = sched.sentTo r p := by
  rcases here.posted_at hr entry posted with
    ⟨j, hj, rfl, rfl, rfl⟩ | ⟨j, st', hnext, rfl, rfl, rfl⟩ | ⟨j, st, hnext, rfl, rfl, rfl⟩
  · -- the started item is the send
    rw [UtilCollWorkItem.withState_work] at send
    refine ⟨.one j .complete, ⟨⟨hj, by simp, by simp⟩, ?_, ?_⟩, ?_, rfl⟩
    · rw [CollRank.complete_workQueue, here.queue, Phase.queue_one hj, Phase.queue_one hj]
      rfl
    · simpa [Phase.applied, seqRun_take_send _ _ hj send] using here.buf
    · simp [gotFrom, Phase.applied, recvSrcs_take_send hj send]
  · -- the receive of the round is not a send
    obtain ⟨_, hf, -⟩ := here.ok
    obtain ⟨_, y, y', hrecv, -, -, -, -⟩ :=
      opensRound_next hr (show j < (sched.queue r).length by omega) hf
    rw [UtilCollWorkItem.withState_work, hrecv] at send
    cases send
  · -- the send of the round
    obtain ⟨_, hf, hst, -⟩ := here.ok
    refine ⟨.two j st .complete, ⟨⟨hnext, hf, hst, by simp⟩, ?_, here.buf⟩, rfl, rfl⟩
    rw [CollRank.complete_workQueue, here.queue, Phase.queue_two hnext, Phase.queue_two hnext]
    rfl

/-- The peer endpoint completes a posted receive with the value of its
source's message: the receive takes effect and completes. -/
theorem recvDone_cases (hr : r < n) (here : sched.RankAt r (sys.rank r) p) {i : Nat}
    {e : UtilCollWorkItem} {x : XferItem} (entry : (sys.rank r).workQueue[i]? = some e)
    (recv : e.work = .recv x) (posted : e.state = .processing) :
    ∃ p', sched.RankAt r (((sys.rank r).setBuf (sched.value x.remoteRank r) x.buf).complete i) p' ∧
      sched.gotFrom r p' = sched.gotFrom r p ++ [x.remoteRank] ∧ sched.sentTo r p' = sched.sentTo r p := by
  rcases here.posted_at hr entry posted with
    ⟨j, hj, rfl, rfl, rfl⟩ | ⟨j, st', hnext, rfl, rfl, rfl⟩ | ⟨j, st, hnext, rfl, rfl, rfl⟩
  · -- the started item is the receive
    rw [UtilCollWorkItem.withState_work] at recv
    refine ⟨.one j .complete, ⟨⟨hj, by simp, by simp⟩, ?_, ?_⟩, ?_, rfl⟩
    · rw [CollRank.complete_workQueue, CollRank.setBuf_workQueue, here.queue, Phase.queue_one hj,
        Phase.queue_one hj]
      rfl
    · rw [CollRank.buf_complete, CollRank.buf_setBuf, here.buf]
      simp [Phase.applied, seqRun_take_succ _ _ (List.getElem?_eq_getElem hj), recv, runWork]
    · simp [gotFrom, Phase.applied, recvSrcs_take_succ hj, recv, WorkItem.recvSrc]
  · -- the receive of the round; its send takes no effect on the buffers
    obtain ⟨_, hf, -, hst'⟩ := here.ok
    have hj : j < (sched.queue r).length := by omega
    obtain ⟨_, y, y', -, -, hsend, -, -⟩ := opensRound_next hr hj hf
    rw [UtilCollWorkItem.withState_work] at recv
    refine ⟨.two j .complete st', ⟨⟨hnext, hf, by simp, hst'⟩, ?_, ?_⟩, ?_, rfl⟩
    · rw [CollRank.complete_workQueue, CollRank.setBuf_workQueue, here.queue, Phase.queue_two hnext,
        Phase.queue_two hnext]
      rfl
    · rw [CollRank.buf_complete, CollRank.buf_setBuf, here.buf]
      simp [Phase.applied, seqRun_take_send _ _ hnext hsend,
        seqRun_take_succ _ _ (List.getElem?_eq_getElem hj), recv, runWork]
    · simp [gotFrom, Phase.applied, recvSrcs_take_send hnext hsend, recvSrcs_take_succ hj, recv,
        WorkItem.recvSrc]
  · -- the send of the round is not a receive
    obtain ⟨_, hf, -⟩ := here.ok
    obtain ⟨_, y, y', -, -, hsend, -, -⟩ :=
      opensRound_next hr (show j < (sched.queue r).length by omega) hf
    rw [UtilCollWorkItem.withState_work, hsend] at recv
    cases recv

end CollSchedule

end Libfabric.Coll
