import Libfabric.Coll.Phase

/-! Every interleaving of the events of a `CollSchedule` keeps the ranks at
phases of their queues and a ledger of the messages in flight (`Inv.step`).
A weight of the queues and the wire drops at every event, so every run is
finite; and a state where no event can happen has every queue complete, since
a rank that waits on a message waits on a rank that waits on a message of a
lower level. -/
namespace Libfabric.Coll

theorem countP_eraseIdx_add {α : Type} (p : α → Bool) {l : List α} {j : Nat} (h : j < l.length) :
    (l.eraseIdx j).countP p + (if p l[j] then 1 else 0) = l.countP p := by
  conv_rhs => rw [← List.take_append_drop j l, List.drop_eq_getElem_cons h]
  rw [List.eraseIdx_eq_take_drop_succ, List.countP_append, List.countP_append, List.countP_cons]
  omega

/-! ## The ledger of messages in flight -/

section Ledger

variable {M : Type} {n : Nat}

/-- The wire holds one message from `s` to `r` exactly when `s` has sent to
`r` and `r` has not received from `s`, and a rank has received only from
ranks that sent to it. -/
structure Ledger (n : Nat) (wire : List (CollMsg M)) (sent got : Nat → List Nat) : Prop where
  inFlight : ∀ s < n, ∀ r < n,
    wire.countP (fun m => m.src = s ∧ m.dst = r) = if r ∈ sent s ∧ s ∉ got r then 1 else 0
  causal : ∀ s < n, ∀ r < n, s ∈ got r → r ∈ sent s

theorem Ledger.empty : Ledger n ([] : List (CollMsg M)) (fun _ => []) (fun _ => []) :=
  ⟨fun _ _ _ _ => by simp, fun _ _ _ _ h => absurd h List.not_mem_nil⟩

/-- Rank `r` puts `msgs` on the wire, one to each rank it now sends to. -/
theorem Ledger.post {wire msgs : List (CollMsg M)} {sent got sent' : Nat → List Nat} {r : Nat}
    (L : Ledger n wire sent got) (src : ∀ m ∈ msgs, m.src = r)
    (grown : sent' r = sent r ++ msgs.map (·.dst)) (others : ∀ s, s ≠ r → sent' s = sent s)
    (nodup : (sent' r).Nodup) : Ledger n (wire ++ msgs) sent' got := by
  rw [grown] at nodup
  obtain ⟨-, hnodup, hfresh⟩ := List.nodup_append.mp nodup
  refine ⟨fun s hs d hd => ?_, fun s hs d hd hgot => ?_⟩
  · rw [List.countP_append, L.inFlight s hs d hd]
    by_cases hsr : s = r
    · subst hsr
      -- the new messages from `s` to `d` are those of `msgs` to `d`: one if `d` is new
      have hcount : msgs.countP (fun m => m.src = s ∧ m.dst = d) = (msgs.map (·.dst)).count d := by
        rw [List.count_eq_countP, List.countP_map]
        exact List.countP_congr fun m hm => by simp [src m hm]
      rw [hcount, hnodup.count, grown]
      by_cases hmem : d ∈ msgs.map (·.dst)
      · have hsent : d ∉ sent s := fun h => hfresh d h d hmem rfl
        have hgot : s ∉ got d := fun h => hsent (L.causal s hs d hd h)
        simp [hmem, hsent, hgot]
      · simp [hmem]
    · have hnone : msgs.countP (fun m => m.src = s ∧ m.dst = d) = 0 :=
        List.countP_eq_zero.mpr fun m hm h => hsr (by simp only [decide_eq_true_eq] at h; rw [← h.1, src m hm])
      rw [hnone, others s hsr, Nat.add_zero]
  · by_cases hsr : s = r
    · subst hsr
      rw [grown]
      exact List.mem_append_left _ (L.causal s hs d hd hgot)
    · rw [others s hsr]
      exact L.causal s hs d hd hgot

/-- Rank `r` takes the message at `j` off the wire, from `s`. -/
theorem Ledger.receive {wire : List (CollMsg M)} {sent got got' : Nat → List Nat} {j s r : Nat}
    (L : Ledger n wire sent got) (hj : j < wire.length) (hsrc : wire[j].src = s) (hdst : wire[j].dst = r)
    (hs : s < n) (hr : r < n) (grown : got' r = got r ++ [s]) (others : ∀ r', r' ≠ r → got' r' = got r') :
    Ledger n (wire.eraseIdx j) sent got' := by
  -- the message is in flight, so `s` has sent to `r` and `r` has not received from `s`
  have hflight : r ∈ sent s ∧ s ∉ got r := by
    have hpos : 0 < wire.countP (fun m => m.src = s ∧ m.dst = r) :=
      List.countP_pos_iff.mpr ⟨wire[j], List.getElem_mem hj, by simp [hsrc, hdst]⟩
    by_contra h
    rw [L.inFlight s hs r hr, if_neg h] at hpos
    exact absurd hpos (lt_irrefl 0)
  refine ⟨fun s' hs' r' hr' => ?_, fun s' hs' r' hr' hgot => ?_⟩
  · have herase := countP_eraseIdx_add (fun m => decide (m.src = s' ∧ m.dst = r')) hj
    rw [L.inFlight s' hs' r' hr'] at herase
    by_cases hpair : s' = s ∧ r' = r
    · obtain ⟨rfl, rfl⟩ := hpair
      rw [grown]
      simp only [hsrc, hdst, hflight, and_self, decide_true, if_true, not_false_eq_true] at herase
      simp only [List.mem_append, List.mem_singleton, or_true, not_true_eq_false, and_false, if_false]
      omega
    · have hother : decide (wire[j].src = s' ∧ wire[j].dst = r') = false := by
        rw [hsrc, hdst, decide_eq_false_iff_not]
        exact fun h => hpair ⟨h.1.symm, h.2.symm⟩
      have hgot : s' ∈ got' r' ↔ s' ∈ got r' := by
        by_cases hrr : r' = r
        · subst hrr
          have hne : s' ≠ s := fun h => hpair ⟨h, rfl⟩
          rw [grown, List.mem_append, List.mem_singleton]
          simp [hne]
        · rw [others r' hrr]
      rw [hother] at herase
      simp only [Bool.false_eq_true, if_false, Nat.add_zero] at herase
      rw [herase]
      simp only [hgot]
  · by_cases hrr : r' = r
    · subst hrr
      rw [grown, List.mem_append, List.mem_singleton] at hgot
      rcases hgot with hgot | rfl
      · exact L.causal s' hs' r' hr' hgot
      · exact hflight.1
    · exact L.causal s' hs' r' hr' (others r' hrr ▸ hgot)

end Ledger

/-- The work left in the queues of the ranks below `n` and the messages in
flight. -/
def collWeight {M : Type} (n : Nat) (sys : CollSys M) : Nat :=
  ∑ r ∈ Finset.range n, queueWeight (sys.rank r).workQueue + sys.wire.length

/-- Changing one rank changes the weight by that rank's. -/
theorem collWeight_update {M : Type} {n r : Nat} (hr : r < n) (sys : CollSys M) (rank' : CollRank M)
    (wire' : List (CollMsg M)) :
    collWeight n ⟨Function.update sys.rank r rank', wire'⟩ + queueWeight (sys.rank r).workQueue + sys.wire.length =
      collWeight n sys + queueWeight rank'.workQueue + wire'.length := by
  have hmem : r ∈ Finset.range n := Finset.mem_range.mpr hr
  have hrest : ∑ x ∈ (Finset.range n).erase r, queueWeight (Function.update sys.rank r rank' x).workQueue =
      ∑ x ∈ (Finset.range n).erase r, queueWeight (sys.rank x).workQueue :=
    Finset.sum_congr rfl fun x hx => by rw [Function.update_of_ne (Finset.ne_of_mem_erase hx)]
  simp only [collWeight]
  rw [← Finset.add_sum_erase _ _ hmem, ← Finset.add_sum_erase _ (fun x => queueWeight (sys.rank x).workQueue) hmem,
    hrest, Function.update_self]
  omega

/-- Every item of the rank's queue has completed. -/
def CollRank.Done {M : Type} (rank : CollRank M) : Prop := ∀ e ∈ rank.workQueue, e.state = .complete

namespace CollSchedule

variable {n : Nat} {M : Type} [CommMonoid M] (sched : CollSchedule n M)

/-- The ranks right after scheduling: every queue as scheduled, every buffer
at its start, nothing on the wire. -/
def init : CollSys M where
  rank r := { workQueue := sched.queue r, result := sched.start r .result, tmpBuf := sched.start r .tmp }
  wire := []

/-- The run invariant, with a phase for each rank: each rank is at its phase,
every message on the wire is a message of the group, and the wire holds the
sends started and not yet received. -/
structure Inv (sys : CollSys M) (phase : Nat → Phase) : Prop where
  ranks : ∀ r < n, sched.RankAt r (sys.rank r) (phase r)
  wire : ∀ m ∈ sys.wire, sched.MsgOk m
  ledger : Ledger n sys.wire (fun s => sched.sentTo s (phase s)) (fun r => sched.gotFrom r (phase r))

theorem inv_init : sched.Inv sched.init fun _ => .idle 0 := by
  refine ⟨fun r _ => ⟨by simp [Phase.Ok], by simp [init, Phase.queue], ?_⟩, by simp [init], ?_⟩
  · funext b
    cases b <;> rfl
  · simpa [init, sentTo, gotFrom, Phase.started, Phase.applied, sendDsts, recvSrcs] using
      (Ledger.empty : Ledger n ([] : List (CollMsg M)) _ _)

variable {sched} {r : Nat} {sys sys' : CollSys M} {phase : Nat → Phase}

theorem sentTo_nodup (hr : r < n) (p : Phase) : (sched.sentTo r p).Nodup :=
  (sched.sendsNodup r hr).sublist ((List.take_sublist _ _).filterMap _)

theorem rankAt_update_phase {p' : Phase} {ranks : Nat → CollRank M} {rank' : CollRank M}
    (inv : ∀ r' < n, sched.RankAt r' (ranks r') (phase r')) (here : sched.RankAt r rank' p') :
    ∀ r' < n, sched.RankAt r' (Function.update ranks r rank' r') (Function.update phase r p' r') := by
  intro r' hr'
  by_cases h : r' = r
  · subst h
    simpa using here
  · simpa [h] using inv r' hr'

/-- A phase change at `r` that keeps what `f` reads at `r` keeps it at every rank. -/
theorem comp_update_phase {β : Type} (f : Nat → Phase → β) {p' : Phase} (same : f r p' = f r (phase r)) :
    (fun r' => f r' (Function.update phase r p' r')) = fun r' => f r' (phase r') := by
  funext r'
  rw [Function.apply_update f phase r p' r', same, Function.update_eq_self]

/-- The run invariant holds after every event. -/
theorem Inv.step (inv : sched.Inv sys phase) (step : CollStep n sys sys') : ∃ phase', sched.Inv sys' phase' := by
  cases step with
  | progress r valid moves =>
    rcases progressRank_cases valid (inv.ranks r valid) with ⟨same, -⟩ |
      ⟨p', rank', msgs, eq, here, got, sent, msgsOk, -⟩
    · exact absurd same moves
    · refine ⟨Function.update phase r p', ?_⟩
      rw [eq]
      refine ⟨rankAt_update_phase inv.ranks here, fun m hm => ?_, ?_⟩
      · rcases List.mem_append.mp hm with hm | hm
        · exact inv.wire m hm
        · exact (msgsOk m hm).2
      · rw [comp_update_phase sched.gotFrom got]
        refine inv.ledger.post (fun m hm => (msgsOk m hm).1) (by simpa using sent) (fun s hs => by simp [hs]) ?_
        simpa using sentTo_nodup valid p'
  | sendDone r i e x valid entry send posted =>
    obtain ⟨p', here, got, sent⟩ := sendDone_cases valid (inv.ranks r valid) entry send posted
    refine ⟨Function.update phase r p', rankAt_update_phase inv.ranks here, inv.wire, ?_⟩
    rw [comp_update_phase sched.gotFrom got, comp_update_phase sched.sentTo sent]
    exact inv.ledger
  | recvDone r i e x j msg valid entry recv posted matched message =>
    -- the message matched by tag is the one from the receive's source
    obtain ⟨hj, hmatch, -⟩ := List.findIdx?_eq_some_iff_getElem.mp matched
    obtain ⟨_, hmsg⟩ := List.getElem?_eq_some_iff.mp message
    rw [hmsg] at hmatch
    simp only [Bool.and_eq_true, beq_iff_eq] at hmatch
    obtain ⟨e', he', hwork⟩ := (inv.ranks r valid).work_mem entry
    obtain ⟨htag, hsrc⟩ := sched.recvOk r valid e' he' x (hwork.trans recv)
    obtain ⟨hmsrc, -, hmtag, hmdata⟩ := inv.wire msg (hmsg ▸ List.getElem_mem hj)
    have hfrom : msg.src = x.remoteRank := sched.tagInj _ hmsrc _ hsrc (by rw [← hmtag, hmatch.2, htag])
    have hdata : msg.data = sched.value x.remoteRank r := by rw [hmdata, hfrom, hmatch.1]
    obtain ⟨p', here, got, sent⟩ := recvDone_cases valid (inv.ranks r valid) entry recv posted
    refine ⟨Function.update phase r p', ?_⟩
    simp only [recvComplete, hdata]
    refine ⟨rankAt_update_phase inv.ranks here, fun m hm => inv.wire m (List.mem_of_mem_eraseIdx hm), ?_⟩
    rw [comp_update_phase sched.sentTo sent]
    exact inv.ledger.receive hj (by rw [hmsg, hfrom]) (by rw [hmsg, hmatch.1]) hsrc valid (by simpa using got)
      (fun r' hr' => by simp [hr'])

/-! ## What a finished rank holds -/

/-- A rank whose queue has completed has started and run every item. -/
theorem RankAt.done {rank : CollRank M} {p : Phase} (hr : r < n) (here : sched.RankAt r rank p)
    (done : rank.Done) : p.started = (sched.queue r).length ∧ p.applied = (sched.queue r).length := by
  have done : ∀ e ∈ p.queue (sched.queue r), e.state = .complete := here.queue ▸ done
  -- an item left in the queue that was never started would be waiting
  have hrest : ∀ k, (sched.queue r).drop k ⊆ p.queue (sched.queue r) → (sched.queue r).length ≤ k := by
    intro k hsub
    by_contra hk
    have hpos : 0 < ((sched.queue r).drop k).length := by
      simp only [List.length_drop]
      omega
    have hcomplete := done _ (hsub (List.getElem_mem hpos))
    rw [waiting_of_mem_drop hr (List.getElem_mem hpos)] at hcomplete
    cases hcomplete
  cases p with
  | idle i =>
    have := hrest i (List.Subset.refl _)
    have := here.ok
    simp only [Phase.Ok] at this
    simp only [Phase.started, Phase.applied]
    omega
  | one i st =>
    obtain ⟨hi, -, -⟩ := here.ok
    rw [Phase.queue_one hi] at done hrest
    have hst : st = .complete := by simpa using done _ List.mem_cons_self
    have := hrest (i + 1) (List.subset_cons_self _ _)
    simp only [Phase.started, Phase.applied, hst, if_true]
    omega
  | two i st st' =>
    obtain ⟨hnext, -, -, -⟩ := here.ok
    rw [Phase.queue_two hnext] at done hrest
    have hst : st = .complete := by simpa using done _ List.mem_cons_self
    have := hrest (i + 2) (List.Subset.trans (List.subset_cons_self _ _) (List.subset_cons_self _ _))
    simp only [Phase.started, Phase.applied, hst, if_true]
    omega

/-- A finished rank holds the run of its whole queue. -/
theorem RankAt.buf_of_done {rank : CollRank M} {p : Phase} (hr : r < n) (here : sched.RankAt r rank p)
    (done : rank.Done) : rank.buf = seqRun (fun s => sched.value s r) (sched.start r) (sched.queue r) := by
  rw [here.buf, (here.done hr done).2, List.take_length]

/-! ## Every run is finite -/

/-- Every event takes weight off: `coll_progress_work` removes a completed
item or starts a waiting one (putting at most one message on the wire for the
two it saves), and a completion turns a posted item into a completed one. -/
theorem Inv.weight_lt (inv : sched.Inv sys phase) (step : CollStep n sys sys') :
    collWeight n sys' < collWeight n sys := by
  cases step with
  | progress r valid moves =>
    rcases progressRank_cases valid (inv.ranks r valid) with ⟨same, -⟩ |
      ⟨p', rank', msgs, eq, -, -, -, -, lighter⟩
    · exact absurd same moves
    · have := collWeight_update valid sys rank' (sys.wire ++ msgs)
      rw [eq]
      simp only [List.length_append] at this
      omega
  | sendDone r i e x valid entry send posted =>
    have lighter := queueWeight_complete entry posted
    have := collWeight_update valid sys ((sys.rank r).complete i) sys.wire
    simp only [CollRank.complete_workQueue] at this
    omega
  | recvDone r i e x j msg valid entry recv posted matched message =>
    have lighter := queueWeight_complete entry posted
    have hj := (List.findIdx?_eq_some_iff_getElem.mp matched).1
    have := collWeight_update valid sys (((sys.rank r).setBuf msg.data x.buf).complete i) (sys.wire.eraseIdx j)
    simp only [CollRank.complete_workQueue, CollRank.setBuf_workQueue, List.length_eraseIdx, if_pos hj] at this
    simp only [recvComplete]
    omega

/-- No run from a state of the invariant goes on forever. -/
theorem Inv.acc (inv : sched.Inv sys phase) : Acc (fun t s => CollStep n s t) sys := by
  induction hw : collWeight n sys using Nat.strong_induction_on generalizing sys phase with
  | _ w ih =>
    refine Acc.intro sys fun t step => ?_
    obtain ⟨phase', inv'⟩ := inv.step step
    exact ih _ (hw ▸ inv.weight_lt step) inv' rfl

/-! ## No run gets stuck -/

variable (sched) in
/-- Rank `r` at phase `p` waits on a message from `s`: its first started item
is a posted receive from `s`, behind a fence, or with the send of its round
completed. -/
def WaitsOn (r s : Nat) (p : Phase) : Prop :=
  ∃ i x, ∃ h : i < (sched.queue r).length, (sched.queue r)[i].work = .recv x ∧ x.remoteRank = s ∧
    ((p = .one i .processing ∧ (sched.queue r)[i].fence = true) ∨ p = .two i .processing .complete)

/-- Where no event can happen, every rank has finished or waits on a message:
`coll_progress_work` is quiet at it and the peer endpoint has no posted send
to complete. -/
theorem done_or_waits (inv : sched.Inv sys phase) (stuck : ∀ sys', ¬CollStep n sys sys') (hr : r < n) :
    (sys.rank r).Done ∨ ∃ s, sched.WaitsOn r s (phase r) := by
  have here := inv.ranks r hr
  rcases progressRank_cases hr here with ⟨-, quiet⟩ | ⟨p', rank', msgs, eq, -, -, -, -, lighter⟩
  · generalize hp : phase r = p at here quiet
    cases p with
    | idle i =>
      left
      intro e he
      rw [here.queue, Phase.queue, List.drop_eq_nil_of_le quiet] at he
      cases he
    | one i st =>
      obtain ⟨rfl, hi, hfence⟩ := quiet
      have entry : (sys.rank r).workQueue[0]? = some ((sched.queue r)[i].withState .processing) := by
        rw [here.queue, Phase.queue_one hi]
        rfl
      have hposted := here.ok.2.2 rfl
      cases hw : (sched.queue r)[i].work with
      | send y => exact absurd (CollStep.sendDone sys r 0 _ y hr entry (by simp [hw]) rfl) (stuck _)
      | recv y => exact .inr ⟨y.remoteRank, i, y, hi, hw, rfl, .inl ⟨rfl, hfence⟩⟩
      | reduce _ _ | copy _ _ | comp => simp [hw, WorkItem.posted] at hposted
    | two i st st' =>
      cases quiet
      obtain ⟨hnext, hf, -, hst'⟩ := here.ok
      obtain ⟨_, x, y, hrecv, -, hsend, -, -⟩ :=
        opensRound_next hr (show i < (sched.queue r).length by omega) hf
      cases st' with
      | waiting => exact absurd rfl hst'
      | processing =>
        -- the round's send is still posted, and the peer endpoint can complete it
        have entry : (sys.rank r).workQueue[1]? = some ((sched.queue r)[i + 1].withState .processing) := by
          rw [here.queue, Phase.queue_two hnext]
          rfl
        exact absurd (CollStep.sendDone sys r 1 _ y hr entry (by simp [hsend]) rfl) (stuck _)
      | complete => exact .inr ⟨x.remoteRank, i, x, by omega, hrecv, rfl, .inr rfl⟩
  · -- a rank that moves gives an event
    have hmoves : progressRank r sys ≠ sys := by
      intro same
      have hrank : rank' = sys.rank r := by
        have := congrArg (fun sys => sys.rank r) (eq.symm.trans same)
        simpa using this
      rw [hrank] at lighter
      omega
    exact absurd (CollStep.progress sys r hr hmoves) (stuck _)

theorem not_mem_gotFrom (hr : r < n) {i : Nat} {x : XferItem} (hi : i < (sched.queue r).length)
    (hrecv : (sched.queue r)[i].work = .recv x) : x.remoteRank ∉ recvSrcs ((sched.queue r).take i) := by
  have hnodup := sched.recvsNodup r hr
  rw [← List.take_append_drop i (sched.queue r), recvSrcs_append, List.drop_eq_getElem_cons hi] at hnodup
  intro hmem
  refine (List.nodup_append.mp hnodup).2.2 _ hmem _ ?_ rfl
  exact mem_recvSrcs_of_mem List.mem_cons_self (by simp [hrecv, WorkItem.recvSrc])

/-- A rank that waits on `s` where no event can happen has nothing from `s` on
the wire, so `s` has not started its send to it. -/
theorem not_sent_of_waits (inv : sched.Inv sys phase) (stuck : ∀ sys', ¬CollStep n sys sys') (hr : r < n)
    {s : Nat} (waits : sched.WaitsOn r s (phase r)) : r ∉ sched.sentTo s (phase s) := by
  obtain ⟨i, x, hi, hrecv, rfl, hp⟩ := waits
  have here := inv.ranks r hr
  have entry : (sys.rank r).workQueue[0]? = some ((sched.queue r)[i].withState .processing) := by
    rcases hp with ⟨hp, -⟩ | hp
    · rw [here.queue, hp, Phase.queue_one hi]
      rfl
    · have hok := here.ok
      rw [hp] at hok
      rw [here.queue, hp, Phase.queue_two hok.1]
      rfl
  have hgot : x.remoteRank ∉ sched.gotFrom r (phase r) := by
    have happlied : (phase r).applied = i := by
      rcases hp with ⟨hp, -⟩ | hp <;> simp [hp, Phase.applied]
    rw [gotFrom, happlied]
    exact not_mem_gotFrom hr hi hrecv
  obtain ⟨htag, hs⟩ := sched.recvOk r hr _ (List.getElem_mem hi) x hrecv
  intro hsent
  -- the message from `s` carries the receive's tag, so the receive can complete
  have hcount : sys.wire.countP (fun m => m.src = x.remoteRank ∧ m.dst = r) = 1 := by
    simpa [hsent, hgot] using inv.ledger.inFlight x.remoteRank hs r hr
  obtain ⟨m, hm, hsd⟩ := List.countP_pos_iff.mp (hcount ▸ Nat.one_pos)
  simp only [decide_eq_true_eq] at hsd
  have hmtag : m.tag = x.tag := by rw [(inv.wire m hm).2.2.1, hsd.1, htag]
  cases hfind : sys.wire.findIdx? (fun m => m.dst == r && m.tag == x.tag) with
  | none =>
    have := List.findIdx?_eq_none_iff.mp hfind m hm
    simp [hsd.2, hmtag] at this
  | some j =>
    have hj := (List.findIdx?_eq_some_iff_getElem.mp hfind).1
    exact stuck _ (CollStep.recvDone sys r 0 _ x j sys.wire[j] hr entry (by simp [hrecv]) rfl hfind
      (List.getElem?_eq_getElem hj))

/-- A rank that waits on `s` where no event can happen makes `s` wait on a
message of a lower level: `s` has not started its send, and what it waits on
comes before that send in its queue. -/
theorem waits_descends (inv : sched.Inv sys phase) (stuck : ∀ sys', ¬CollStep n sys sys') (hr : r < n)
    {s : Nat} (waits : sched.WaitsOn r s (phase r)) :
    s < n ∧ ∃ u, sched.WaitsOn s u (phase s) ∧ sched.level u s < sched.level s r := by
  have hnot := not_sent_of_waits inv stuck hr waits
  obtain ⟨i, x, hi, hrecv, rfl, -⟩ := waits
  have hs := (sched.recvOk r hr _ (List.getElem_mem hi) x hrecv).2
  have hdst : r ∈ sendDsts (sched.queue x.remoteRank) :=
    sched.sender r hr _ (mem_recvSrcs_of_mem (List.getElem_mem hi) (by simp [hrecv, WorkItem.recvSrc]))
  refine ⟨hs, ?_⟩
  rcases done_or_waits inv stuck hs with done | ⟨u, waits'⟩
  · -- a finished rank has started every send
    rw [sentTo, ((inv.ranks _ hs).done hs done).1, List.take_length] at hnot
    exact absurd hdst hnot
  · obtain ⟨i', x', hi', hrecv', rfl, hp'⟩ := waits'
    obtain ⟨e, he, hsend⟩ := List.mem_filterMap.mp hdst
    obtain ⟨ts, hts, rfl⟩ := List.mem_iff_getElem.mp he
    -- the send to `r` has not started, so it comes after the receive `s` waits on
    have hstarted : (phase x.remoteRank).started ≤ ts := by
      by_contra hlt
      exact hnot (List.mem_filterMap.mpr ⟨_, List.mem_take_iff_getElem.mpr ⟨ts, by omega, rfl⟩, hsend⟩)
    have hlt : i' < ts := by
      rcases hp' with ⟨hp', -⟩ | hp' <;> simp only [hp', Phase.started] at hstarted <;> omega
    refine ⟨x'.remoteRank, ⟨i', x', hi', hrecv', rfl, hp'⟩, ?_⟩
    rcases List.pairwise_iff_getElem.mp (sched.ordered _ hs) i' ts hi' hts hlt x'.remoteRank r
      (by simp [hrecv', WorkItem.recvSrc]) hsend with hlevel | ⟨heq, hfence⟩
    · exact hlevel
    · -- the receive opens a round whose send to `r` has started
      exfalso
      rcases hp' with ⟨-, hfence'⟩ | hp'
      · rw [hfence] at hfence'
        cases hfence'
      · obtain ⟨hnext, x'', y, hrecv'', -, hsend', hrank, -⟩ := opensRound_next hs hi' hfence
        rw [hrecv', WorkItem.recv.injEq] at hrecv''
        subst hrecv''
        apply hnot
        rw [sentTo, hp', Phase.started]
        refine List.mem_filterMap.mpr ⟨_, List.mem_take_iff_getElem.mpr ⟨i' + 1, by omega, rfl⟩, ?_⟩
        simp [hsend', WorkItem.sendDst, hrank, heq]

/-- Where no event can happen, no rank waits: by induction on the level of
the message waited on. -/
theorem not_waits (inv : sched.Inv sys phase) (stuck : ∀ sys', ¬CollStep n sys sys') :
    ∀ L, ∀ r < n, ∀ s, sched.WaitsOn r s (phase r) → sched.level s r = L → False := by
  intro L
  induction L using Nat.strong_induction_on with
  | _ L ih =>
    intro r hr s waits hlevel
    obtain ⟨hs, u, waits', hlt⟩ := waits_descends inv stuck hr waits
    exact ih _ (hlevel ▸ hlt) s hs u waits' rfl

/-- Where no event can happen, every rank has finished. -/
theorem done_of_stuck (inv : sched.Inv sys phase) (stuck : ∀ sys', ¬CollStep n sys sys') :
    ∀ r < n, (sys.rank r).Done := by
  intro r hr
  rcases done_or_waits inv stuck hr with done | ⟨s, waits⟩
  · exact done
  · exact (not_waits inv stuck _ r hr s waits rfl).elim

/-- The run invariant holds in every state a run from the start reaches. -/
theorem inv_of_reaches (reach : Relation.ReflTransGen (CollStep n) sched.init sys) :
    ∃ phase, sched.Inv sys phase := by
  induction reach with
  | refl => exact ⟨_, sched.inv_init⟩
  | tail _ step ih =>
    obtain ⟨phase, inv⟩ := ih
    exact inv.step step

variable (sched) in
/-- Every run of a schedule from its start is finite; in every state it
reaches, a finished rank holds the run of its whole queue; and where no event
can happen, every rank has finished. -/
theorem runs_finish : Acc (fun t s => CollStep n s t) sched.init ∧
    ∀ sys, Relation.ReflTransGen (CollStep n) sched.init sys →
      (∀ r < n, (sys.rank r).Done →
        (sys.rank r).buf = seqRun (fun s => sched.value s r) (sched.start r) (sched.queue r)) ∧
      ((∀ sys', ¬CollStep n sys sys') → ∀ r < n, (sys.rank r).Done) := by
  refine ⟨sched.inv_init.acc, fun sys reach => ?_⟩
  obtain ⟨phase, inv⟩ := inv_of_reaches reach
  exact ⟨fun r hr done => (inv.ranks r hr).buf_of_done hr done, done_of_stuck inv⟩

end CollSchedule

/-! ## The allreduce -/

section Allreduce

variable {M : Type} [CommMonoid M]

/-- The ranks of a group of at most `2 ^ 31` have distinct tags. -/
theorem collFormTag_inj {n collId s s' : Nat} (fits : n ≤ 2 ^ 31) (hs : s < n) (hs' : s' < n)
    (same : collFormTag collId s = collFormTag collId s') : s = s' := by
  simp only [collFormTag] at same
  omega

section Entries

variable {n : Nat} (hn : 0 < n) (collId count : Nat) {r : Nat} (hr : r < n)
  {e : UtilCollWorkItem} (he : e ∈ collEpAllreduce n r collId count) {y : XferItem}
include hn hr he

theorem collEpAllreduce_sendOk (hy : e.work = .send y) :
    y.tag = collFormTag collId r ∧ y.buf = .result ∧ y.remoteRank < n := by
  have hok := (entryOk_collEpAllreduce collId count (CollSizes.of hn) hr e he).2
  rw [hy] at hok
  exact ⟨hok.1, hok.2.1, hok.2.2.2⟩

theorem collEpAllreduce_recvOk (hy : e.work = .recv y) :
    y.tag = collFormTag collId y.remoteRank ∧ y.remoteRank < n := by
  have hok := (entryOk_collEpAllreduce collId count (CollSizes.of hn) hr e he).2
  rw [hy] at hok
  exact ⟨hok.1, hok.2.2⟩

end Entries

/-- The queues `coll_ep_allreduce` schedules on `n` ranks, with the values
their messages carry. Ranks below `2 ^ 31` fit the `int` remote rank of a
work item and the 32 rank bits of `coll_form_tag`, so tags tell ranks apart. -/
def allreduceSchedule {n : Nat} (hn : 0 < n) (fits : n ≤ 2 ^ 31) (collId count : Nat) (x : Nat → M)
    (tmp : M) : CollSchedule n M where
  queue r := collEpAllreduce n r collId count
  start r
    | .result => x r
    | .tmp => tmp
  value := msgVal (CollSizes.of hn) x
  level := msgLevel (CollSizes.of hn)
  tag := collFormTag collId
  waiting _ hr e he := (entryOk_collEpAllreduce collId count (CollSizes.of hn) hr e he).1
  paired r _ := paired_collEpAllreduce (CollSizes.of hn) collId count r
  ordered r _ := levelOrdered_collEpAllreduce (CollSizes.of hn) collId count r
  sendsNodup r _ := sendDsts_nodup collId count (CollSizes.of hn) r
  recvsNodup r _ := recvSrcs_nodup collId count (CollSizes.of hn) r
  sender _ _ _ hs :=
    (mem_sendDsts collId count (CollSizes.of hn)).mpr ((mem_recvSrcs collId count (CollSizes.of hn)).mp hs)
  sendOk _ hr _ he _ hy := collEpAllreduce_sendOk hn collId count hr he hy
  recvOk _ hr _ he _ hy := collEpAllreduce_recvOk hn collId count hr he hy
  tagInj _ hs _ hs' same := collFormTag_inj fits hs hs' same
  agree _ hr := (collEpAllreduce_run (CollSizes.of hn) x collId count hr _ rfl).1

theorem allreduceSchedule_init {n : Nat} (hn : 0 < n) (fits : n ≤ 2 ^ 31) (collId count : Nat) (x : Nat → M)
    (tmp : M) : (allreduceSchedule hn fits collId count x tmp).init = CollSys.init n collId count x tmp := by
  simp only [CollSchedule.init, CollSys.init, allreduceSchedule]

/-- Software allreduce on up to `2 ^ 31` ranks with fewer than `2 ^ 31`
elements: the queues agree pairwise on the counts exchanged, every send and
receive carries the count itself, every interleaving of `coll_progress_work`
and the peer endpoint's completions is finite, a rank whose queue has
completed holds the product of all inputs, and where no event can happen
every queue has completed. -/
theorem collEpAllreduce_completes {n : Nat} (hn : 0 < n) (fits : n ≤ 2 ^ 31) (collId count : Nat)
    (small : count < 2 ^ 31) (x : Nat → M) (tmp : M) :
    (∀ a < n, ∀ b < n,
      sendCounts (collEpAllreduce n a collId count) b = recvCounts (collEpAllreduce n b collId count) a) ∧
    (∀ r < n, ∀ e ∈ collEpAllreduce n r collId count, ∀ y, (e.work = .send y ∨ e.work = .recv y) →
      y.count = count) ∧
    Acc (fun t s => CollStep n s t) (CollSys.init n collId count x tmp) ∧
    ∀ sys, Relation.ReflTransGen (CollStep n) (CollSys.init n collId count x tmp) sys →
      (∀ r < n, (sys.rank r).Done → (sys.rank r).result = ∏ i ∈ Finset.range n, x i) ∧
      ((∀ sys', ¬CollStep n sys sys') → ∀ r < n, (sys.rank r).Done) := by
  obtain ⟨acc, runs⟩ := (allreduceSchedule hn fits collId count x tmp).runs_finish
  rw [allreduceSchedule_init] at acc runs
  refine ⟨fun a ha b hb => sendCounts_eq_recvCounts collId count (CollSizes.of hn) ha hb,
    fun r hr e he y hy => ?_, acc, fun sys reach => ?_⟩
  · -- every count is stored as the `int` of the work item, which keeps a count below `2 ^ 31`
    have hok := (entryOk_collEpAllreduce collId count (CollSizes.of hn) hr e he).2
    rw [← int32Of_of_lt small]
    rcases hy with hy | hy <;> rw [hy] at hok
    · exact hok.2.2.1
    · exact hok.2.1
  · obtain ⟨hdone, hstuck⟩ := runs sys reach
    refine ⟨fun r hr done => ?_, hstuck⟩
    have hbuf := congrFun (hdone r hr done) .result
    exact hbuf.trans (collEpAllreduce_run (CollSizes.of hn) x collId count hr _ rfl).2

theorem collEpAllreduce_completes_three :
    0 < 3 ∧ 3 ≤ 2 ^ 31 ∧ 1 < 2 ^ 31 ∧
      ((∀ a < 3, ∀ b < 3, sendCounts (collEpAllreduce 3 a 0 1) b = recvCounts (collEpAllreduce 3 b 0 1) a) ∧
        (∀ r < 3, ∀ e ∈ collEpAllreduce 3 r 0 1, ∀ y, (e.work = .send y ∨ e.work = .recv y) → y.count = 1) ∧
        Acc (fun t s => CollStep 3 s t) (CollSys.init 3 0 1 (fun i => i + 2) 0) ∧
        ∀ sys, Relation.ReflTransGen (CollStep 3) (CollSys.init 3 0 1 (fun i => i + 2) 0) sys →
          (∀ r < 3, (sys.rank r).Done → (sys.rank r).result = ∏ i ∈ Finset.range 3, (i + 2)) ∧
          ((∀ sys', ¬CollStep 3 sys sys') → ∀ r < 3, (sys.rank r).Done)) :=
  ⟨by decide, by decide, by decide, collEpAllreduce_completes (by decide) (by decide) 0 1 (by decide) _ 0⟩

/-- With `2 ^ 31` elements on two ranks, rank `0`'s send stores the count
`-2 ^ 31` in the `int` of its work item, and that count as a `size_t` is far
more than the `2 ^ 31` elements of `result` it sends from. -/
theorem collEpAllreduce_two_ranks_negative_count :
    ∃ e ∈ collEpAllreduce 2 0 0 (2 ^ 31), ∃ y, e.work = .send y ∧ y.count = -2 ^ 31 ∧
      2 ^ 31 < sizeOfInt y.count :=
  ⟨collSchedSend 0 0 (2 ^ 31) 1 .result true, by decide, _, rfl, by decide, by decide⟩

end Allreduce

end Libfabric.Coll
