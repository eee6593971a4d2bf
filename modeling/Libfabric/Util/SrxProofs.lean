import Libfabric.Util.Srx

/-! What the lookups of the shared receive context read. Through `s_entry` an
entry's own tag, mask and number are read. The `check_any` loop of
`util_get_tag` goes through `peer_entry` instead, sixteen bytes off: it reads
`owner_context` as the number, the source address as the tag and the `iov`
pointer as the mask. A receive posted for any source has the source
`FI_ADDR_UNSPEC` and a null owner context, so the loop never stops early and
only accepts a message whose tag covers every bit the `iov` pointer lacks: for
other tags the receive for the message's own source is taken, however much
older the receive for any source is. -/
namespace Libfabric.Util

/-! ### Layout -/

@[simp] theorem via_sEntry (e : UtilRxEntry) (field : Nat) :
    e.via offsetofSEntry field = e.word field := by
  simp [UtilRxEntry.via, offsetofSEntry]

/-- Through `s_entry`, an entry matches by its own tag and mask. -/
@[simp] theorem matchesVia_sEntry (e : UtilRxEntry) (tag : UInt64) :
    e.matchesVia offsetofSEntry tag = some (ofiMatchTag e.tag e.ignore tag) := by
  simp [UtilRxEntry.matchesVia, UtilRxEntry.word, offsetofTag, offsetofIgnore]

/-- Through `peer_entry`, the number read is `owner_context`. -/
@[simp] theorem via_peerEntry_seqNo (e : UtilRxEntry) :
    e.via offsetofPeerEntry offsetofSeqNo = some e.ownerContext := by
  simp [UtilRxEntry.via, UtilRxEntry.word, offsetofPeerEntry, offsetofSeqNo, offsetofSEntry]

/-- Through `peer_entry`, the tag read is the source address and the mask the
`iov` pointer. -/
@[simp] theorem matchesVia_peerEntry (e : UtilRxEntry) (tag : UInt64) :
    e.matchesVia offsetofPeerEntry tag = some (ofiMatchTag e.addr e.iov tag) := by
  simp [UtilRxEntry.matchesVia, UtilRxEntry.via, UtilRxEntry.word, offsetofPeerEntry, offsetofTag,
    offsetofIgnore, offsetofSEntry]

/-! ### The end of `tag_queue` -/

namespace UtilSrxCtx

variable {srx srx' : UtilSrxCtx}

theorem walkTagEnd_eq {found r : Option Nat} (h : srx.walkTagEnd found = some r) : r = found := by
  cases found with
  | some i => simpa [walkTagEnd] using h.symm
  | none =>
      cases ends : srx.tagQueueEnd <;> simp only [walkTagEnd, ends, reduceCtorEq, Option.some.injEq] at h
      exact h.symm

theorem walkTagEnd_of_null (intact : srx.tagQueueEnd = .null) (found : Option Nat) :
    srx.walkTagEnd found = some found := by
  cases found <;> simp [walkTagEnd, intact]

theorem mem_insertTag {e x : UtilRxEntry} (h : srx.insertTag e = some srx') (mem : x ∈ srx'.tagQueue) :
    x ∈ srx.tagQueue ∨ x = e := by
  unfold insertTag at h
  split at h <;> cases h
  · simpa using mem
  · exact .inl mem

theorem insertTag_of_ne_null {e : UtilRxEntry} (into : srx.tagQueueEnd ≠ .null) (h : srx.insertTag e = some srx') :
    srx' = srx := by
  unfold insertTag at h
  split at h
  · contradiction
  · cases h
    rfl
  · cases h

end UtilSrxCtx

/-! ### The loops -/

theorem firstMatch_eq (tag : UInt64) (queue : List UtilRxEntry) :
    firstMatch tag queue = some (queue.findIdx? (fun e => ofiMatchTag e.tag e.ignore tag)) := by
  induction queue with
  | nil => rfl
  | cons e rest ih =>
      by_cases hit : ofiMatchTag e.tag e.ignore tag
      · simp [firstMatch, hit, List.findIdx?_cons]
      · simp [firstMatch, hit, ih, List.findIdx?_cons]

theorem checkAny_eq_none (tag seqNo : UInt64) (queue : List UtilRxEntry)
    (misses : ∀ e ∈ queue, ofiMatchTag e.addr e.iov tag = false) :
    checkAny tag seqNo queue = some none := by
  induction queue with
  | nil => rfl
  | cons e rest ih =>
      have rest_misses : ∀ e ∈ rest, ofiMatchTag e.addr e.iov tag = false :=
        fun e' mem => misses e' (List.mem_cons_of_mem e mem)
      -- a newer number stops the loop and a miss goes on: either way nothing is selected
      simp [checkAny, misses e List.mem_cons_self, ih rest_misses]

theorem ofiMatchTag_unspec_iff (iov tag : UInt64) :
    ofiMatchTag fiAddrUnspec iov tag = true ↔ (tag ||| iov) = fiAddrUnspec := by
  have all : fiAddrUnspec ||| iov = fiAddrUnspec := by
    apply UInt64.toBitVec_inj.mp
    have ones : fiAddrUnspec.toBitVec = BitVec.allOnes 64 := by decide
    rw [UInt64.toBitVec_or, ones, BitVec.allOnes_or]
  simp only [ofiMatchTag, all, beq_iff_eq]
  exact eq_comm

/-- `util_get_tag` with a matching receive for the message's own source takes
that receive whenever the misread of an intact common queue accepts nothing:
the seq_nos of the receives for any source play no part. -/
theorem utilGetTag_takes_own_source (srx : UtilSrxCtx) (attr : FiPeerMatchAttr) (intact : srx.tagQueueEnd = .null)
    (sourced : attr.addr ≠ fiAddrUnspec) {i : Nat}
    (found : (srx.srcTrecvQueues attr.addr).findIdx? (fun e => ofiMatchTag e.tag e.ignore attr.tag) = some i)
    (misses : ∀ e ∈ srx.tagQueue, ofiMatchTag e.addr e.iov attr.tag = false) :
    utilGetTag srx attr =
      some (0, .entryAt { (srx.srcTrecvQueues attr.addr).getD i (utilInitUnexp attr 0) with status := .matched }
          offsetofPeerEntry,
        srx.setSrcTrecvQueue attr.addr ((srx.srcTrecvQueues attr.addr).eraseIdx i)) := by
  have nonempty : srx.srcTrecvQueues attr.addr ≠ [] := by
    intro empty
    simp [empty] at found
  simp [utilGetTag, sourced, nonempty, firstMatch_eq, found, UtilRxEntry.word, offsetofSeqNo,
    checkAny_eq_none _ _ _ misses, UtilSrxCtx.walkTagEnd_of_null intact]

/-! ### The common queue over runs -/

/-- The common tagged queue holds receives posted for any source and owned by
no multi-receive buffer. -/
def CommonPosted (srx : UtilSrxCtx) : Prop :=
  ∀ e ∈ srx.tagQueue, e.addr = fiAddrUnspec ∧ e.ownerContext = 0

theorem commonPosted_init (dirRecv : Bool) : CommonPosted (UtilSrxCtx.init dirRecv) := by
  simp [CommonPosted, UtilSrxCtx.init]

theorem CommonPosted.of_subset {srx srx' : UtilSrxCtx} (inv : CommonPosted srx)
    (kept : ∀ e ∈ srx'.tagQueue, e ∈ srx.tagQueue) : CommonPosted srx' :=
  fun e mem => inv e (kept e mem)

theorem searchUnexpPeersTag_tagQueue {srx srx' : UtilSrxCtx} {tag ignore : UInt64} {e : UtilRxEntry}
    (peers : List UInt64) (h : searchUnexpPeersTag srx tag ignore peers = some (e, srx')) :
    srx'.tagQueue = srx.tagQueue ∧ srx'.tagQueueEnd = srx.tagQueueEnd := by
  induction peers with
  | nil => simp [searchUnexpPeersTag] at h
  | cons addr rest ih =>
      simp only [searchUnexpPeersTag] at h
      split at h
      · cases h
        simp only [removeFromPeer]
        split <;> exact ⟨rfl, rfl⟩
      · exact ih h

theorem utilSearchUnexpTag_tagQueue {srx srx' : UtilSrxCtx} {addr tag ignore : UInt64} {e : UtilRxEntry}
    (h : utilSearchUnexpTag srx addr tag ignore = some (e, srx')) :
    srx'.tagQueue = srx.tagQueue ∧ srx'.tagQueueEnd = srx.tagQueueEnd := by
  unfold utilSearchUnexpTag at h
  split at h
  · split at h
    · cases h
      exact ⟨rfl, rfl⟩
    · exact searchUnexpPeersTag_tagQueue _ h
  · split at h
    · cases h
      simp only [removeFromPeer]
      split <;> exact ⟨rfl, rfl⟩
    · cases h

theorem CommonPosted.trecv {srx srx' : UtilSrxCtx} (inv : CommonPosted srx) {entryAddr addr tag ignore msgSize : UInt64}
    {got : Option UtilRxEntry} (h : utilSrxGenericTrecv srx entryAddr addr tag ignore msgSize = some (got, srx')) :
    CommonPosted srx' := by
  unfold utilSrxGenericTrecv at h
  generalize (if srx.dirRecv then addr else fiAddrUnspec) = source at h
  dsimp only at h
  split at h
  · rename_i found
    cases h
    exact inv.of_subset (fun e mem => by rwa [(utilSearchUnexpTag_tagQueue found).1] at mem)
  · by_cases common : source = fiAddrUnspec
    · simp only [common, if_true, Option.map_eq_some_iff, Prod.mk.injEq] at h
      obtain ⟨inserted, insert, -, rfl⟩ := h
      intro e mem
      rcases UtilSrxCtx.mem_insertTag insert mem with old | rfl
      · exact inv e old
      · exact ⟨rfl, rfl⟩
    · simp only [common, if_false, Option.some.injEq, Prod.mk.injEq] at h
      obtain ⟨-, rfl⟩ := h
      exact inv.of_subset (fun e mem => mem)

theorem utilMatchTag_tagQueue {srx srx' : UtilSrxCtx} {attr : FiPeerMatchAttr} {ret : Int} {ref : RxEntryRef}
    (h : utilMatchTag srx attr = some (ret, ref, srx')) : ∀ e ∈ srx'.tagQueue, e ∈ srx.tagQueue := by
  simp only [utilMatchTag, firstMatch_eq, Option.bind_eq_bind, Option.bind_some, Option.bind_eq_some_iff] at h
  obtain ⟨found, -, h⟩ := h
  split at h
  · cases h
    exact fun e mem => List.mem_of_mem_eraseIdx mem
  · cases h
    exact fun e mem => mem

theorem utilGetTag_tagQueue {srx srx' : UtilSrxCtx} {attr : FiPeerMatchAttr} {ret : Int} {ref : RxEntryRef}
    (h : utilGetTag srx attr = some (ret, ref, srx')) : ∀ e ∈ srx'.tagQueue, e ∈ srx.tagQueue := by
  unfold utilGetTag at h
  generalize (if attr.addr = fiAddrUnspec then [] else srx.srcTrecvQueues attr.addr) = queue at h
  dsimp only at h
  split at h
  · exact utilMatchTag_tagQueue h
  · simp only [firstMatch_eq, Option.bind_eq_bind, Option.bind_some] at h
    split at h
    · exact utilMatchTag_tagQueue h
    · simp only [Option.bind_eq_some_iff] at h
      obtain ⟨seqNo, -, h⟩ := h
      obtain ⟨found, -, walked, -, h⟩ := h
      -- the entry `check_any` selects cuts the queue before it
      split at h
      · cases h
        exact fun e mem => List.mem_of_mem_take mem
      · cases h
        exact fun e mem => mem

theorem utilQueueTag_tagQueue (srx : UtilSrxCtx) (e : UtilRxEntry) :
    (utilQueueTag srx e).tagQueue = srx.tagQueue := by
  unfold utilQueueTag
  split
  · rfl
  · dsimp only
    split <;> rfl

theorem CommonPosted.apply {srx srx' : UtilSrxCtx} (inv : CommonPosted srx) {event : SrxEvent}
    (h : event.apply srx = some srx') : CommonPosted srx' := by
  cases event with
  | trecv entryAddr addr tag ignore msgSize =>
      simp only [SrxEvent.apply, Option.map_eq_some_iff] at h
      obtain ⟨⟨got, posted⟩, post, rfl⟩ := h
      exact inv.trecv post
  | tagged attr =>
      simp only [SrxEvent.apply, Option.bind_eq_bind, Option.bind_eq_some_iff] at h
      obtain ⟨⟨ret, ref, looked⟩, lookup, h⟩ := h
      have kept := inv.of_subset (utilGetTag_tagQueue lookup)
      -- queuing an unexpected message touches only the unexpected queues
      split at h <;> cases h
      · split
        · intro e mem
          rw [utilQueueTag_tagQueue] at mem
          exact kept e mem
        · exact kept
      all_goals exact kept

theorem CommonPosted.run {srx srx' : UtilSrxCtx} (inv : CommonPosted srx) {events : List SrxEvent}
    (h : runEvents srx events = some srx') : CommonPosted srx' := by
  induction events generalizing srx with
  | nil =>
      cases h
      exact inv
  | cons event events ih =>
      simp only [runEvents, Option.bind_eq_some_iff] at h
      obtain ⟨mid, step, rest⟩ := h
      exact ih (inv.apply step) rest

/-- In every state reached from a fresh context whose common queue is intact,
a tagged message from a source whose queue holds a matching receive takes that
receive, as long as its tag
does not cover every bit missing from the `iov` pointer of some receive for any
source: however old the receives for any source that match it are. -/
theorem runEvents_takes_own_source (dirRecv : Bool) (events : List SrxEvent) {srx : UtilSrxCtx}
    (reached : runEvents (UtilSrxCtx.init dirRecv) events = some srx) (intact : srx.tagQueueEnd = .null)
    (attr : FiPeerMatchAttr) (sourced : attr.addr ≠ fiAddrUnspec) {i : Nat}
    (found : (srx.srcTrecvQueues attr.addr).findIdx? (fun e => ofiMatchTag e.tag e.ignore attr.tag) = some i)
    (narrow : ∀ e ∈ srx.tagQueue, (attr.tag ||| e.iov) ≠ fiAddrUnspec) :
    utilGetTag srx attr =
      some (0, .entryAt { (srx.srcTrecvQueues attr.addr).getD i (utilInitUnexp attr 0) with status := .matched }
          offsetofPeerEntry,
        srx.setSrcTrecvQueue attr.addr ((srx.srcTrecvQueues attr.addr).eraseIdx i)) := by
  have posted := (commonPosted_init dirRecv).run reached
  apply utilGetTag_takes_own_source srx attr intact sourced found
  intro e mem
  rw [(posted e mem).1, Bool.eq_false_iff, ne_eq, ofiMatchTag_unspec_iff]
  exact narrow e mem

/-! ### The entry `check_any` selects -/

/-- When `check_any` selects entry `j` of the common queue, `util_get_tag`
hands back that entry's `s_entry` as its `peer_entry`, and the queue is cut at
`j` and leads into the context. -/
theorem utilGetTag_links_context (srx : UtilSrxCtx) (attr : FiPeerMatchAttr) (sourced : attr.addr ≠ fiAddrUnspec)
    {i j : Nat} (found : (srx.srcTrecvQueues attr.addr).findIdx? (fun e => ofiMatchTag e.tag e.ignore attr.tag) = some i)
    (selects : checkAny attr.tag ((srx.srcTrecvQueues attr.addr).getD i (utilInitUnexp attr 0)).seqNo srx.tagQueue =
      some (some j)) :
    ∃ any, utilGetTag srx attr = some (0, .entryAt any offsetofSEntry, srx.linkTagToCtx j) ∧
      (srx.linkTagToCtx j).tagQueueEnd ≠ .null := by
  have nonempty : srx.srcTrecvQueues attr.addr ≠ [] := by
    intro empty
    simp [empty] at found
  let selected := srx.tagQueue.getD j (utilInitUnexp attr 0)
  refine ⟨{ selected with seqNo := storeHigh selected.seqNo rxEntryMatchedWord }, ?_,
    by unfold UtilSrxCtx.linkTagToCtx; split <;> simp⟩
  simp only [List.getD_eq_getElem?_getD] at selects
  simp [selected, utilGetTag, sourced, nonempty, firstMatch_eq, found, UtilRxEntry.word, offsetofSeqNo, selects,
    UtilSrxCtx.walkTagEnd]

theorem utilSrxGenericTrecv_of_ne_null {srx srx' : UtilSrxCtx} (into : srx.tagQueueEnd ≠ .null)
    {entryAddr addr tag ignore msgSize : UInt64} {got : Option UtilRxEntry}
    (h : utilSrxGenericTrecv srx entryAddr addr tag ignore msgSize = some (got, srx')) :
    srx'.tagQueue = srx.tagQueue ∧ srx'.tagQueueEnd = srx.tagQueueEnd := by
  unfold utilSrxGenericTrecv at h
  generalize (if srx.dirRecv then addr else fiAddrUnspec) = source at h
  dsimp only at h
  split at h
  · rename_i found
    cases h
    exact utilSearchUnexpTag_tagQueue found
  · by_cases common : source = fiAddrUnspec
    · simp only [common, if_true, Option.map_eq_some_iff, Prod.mk.injEq] at h
      obtain ⟨inserted, insert, -, rfl⟩ := h
      have same : inserted = (utilGetRecvEntry srx entryAddr fiAddrUnspec tag ignore fiTaggedRecv msgSize).2 :=
        UtilSrxCtx.insertTag_of_ne_null into insert
      rw [same]
      exact ⟨rfl, rfl⟩
    · simp only [common, if_false, Option.some.injEq, Prod.mk.injEq] at h
      obtain ⟨-, rfl⟩ := h
      exact ⟨rfl, rfl⟩

/-- So once `check_any` has selected an entry for any source, no receive
posted afterwards is ever listed: every run of postings from the state
`util_get_tag` leaves keeps the common queue at the entries before the one
selected. -/
theorem utilGetTag_loses_postings (srx : UtilSrxCtx) (attr : FiPeerMatchAttr) (sourced : attr.addr ≠ fiAddrUnspec)
    {i j : Nat} (found : (srx.srcTrecvQueues attr.addr).findIdx? (fun e => ofiMatchTag e.tag e.ignore attr.tag) = some i)
    (selects : checkAny attr.tag ((srx.srcTrecvQueues attr.addr).getD i (utilInitUnexp attr 0)).seqNo srx.tagQueue =
      some (some j))
    {events : List SrxEvent} (postings : ∀ ev ∈ events, ∃ entryAddr addr tag ignore msgSize,
      ev = .trecv entryAddr addr tag ignore msgSize) {srx' : UtilSrxCtx}
    (h : runEvents (srx.linkTagToCtx j) events = some srx') : srx'.tagQueue = srx.tagQueue.take j := by
  obtain ⟨-, -, into⟩ := utilGetTag_links_context srx attr sourced found selects
  -- each posting keeps the queue and where it leads
  suffices kept : ∀ {start : UtilSrxCtx}, start.tagQueueEnd ≠ .null → ∀ {events : List SrxEvent},
      (∀ ev ∈ events, ∃ entryAddr addr tag ignore msgSize, ev = .trecv entryAddr addr tag ignore msgSize) →
      runEvents start events = some srx' → srx'.tagQueue = start.tagQueue from kept into postings h
  intro start startInto events
  induction events generalizing start with
  | nil =>
      intro _ run
      cases run
      rfl
  | cons ev events ih =>
      intro posts run
      obtain ⟨entryAddr, addr, tag, ignore, msgSize, rfl⟩ := posts ev List.mem_cons_self
      simp only [runEvents, SrxEvent.apply, Option.bind_eq_some_iff, Option.map_eq_some_iff] at run
      obtain ⟨mid, ⟨⟨got, posted⟩, post, rfl⟩, rest⟩ := run
      obtain ⟨sameQueue, sameEnd⟩ := utilSrxGenericTrecv_of_ne_null startInto post
      rw [ih (sameEnd ▸ startInto) (fun ev mem => posts ev (List.mem_cons_of_mem _ mem)) rest, sameQueue]

/-- Two receives for tag 5 with an empty mask: the first for any source
(`seq_no` 0), the second for source 1 (`seq_no` 1). A message from source 1
with tag 5 consumes the second and leaves the first posted. -/
theorem utilGetTag_takes_newer_receive :
    (runEvents (UtilSrxCtx.init true)
        [.trecv 0x1000 fiAddrUnspec 5 0 64, .trecv 0x2000 1 5 0 64, .tagged ⟨1, 64, 5⟩]).map
      (fun srx => (srx.tagQueue.map UtilRxEntry.seqNo, (srx.srcTrecvQueues 1).map UtilRxEntry.seqNo)) =
      some ([0], []) := by
  decide

/-! ### `util_get_msg` -/

/-- With both a receive for the message's source and one for any source
posted, and chunk pointers 3 and 10 of `src_recv_queues` still null (no source
address from 3072 to 4095 or from 10240 to 11263 has been used), `util_get_msg`
compares against a number of 0 read from the context, takes the context's own
memory as the matched entry and hands back a pointer to `tag_queue`. -/
theorem utilGetMsg_returns_context (srx : UtilSrxCtx) (attr : FiPeerMatchAttr)
    (sourced : attr.addr ≠ fiAddrUnspec) (own : srx.srcRecvQueues attr.addr ≠ [])
    (common : srx.msgQueue ≠ []) (chunk3 : srx.srcRecvChunks 3 = 0) (chunk10 : srx.srcRecvChunks 10 = 0) :
    (utilGetMsg srx attr).map (fun r => (r.1, r.2.1)) =
      some (0, .ctxAt (offsetofMsgQueue + offsetofPeerEntry)) := by
  obtain ⟨e, rest, queue⟩ := List.exists_cons_of_ne_nil own
  simp [utilGetMsg, sourced, queue, common, UtilSrxCtx.word, offsetofMsgQueue, offsetofSEntry,
    offsetofSeqNo, offsetofSrcRecvQueues, offsetofFlags, offsetofStatusWord, chunk3, chunk10,
    offsetofPeerEntry]

end Libfabric.Util
