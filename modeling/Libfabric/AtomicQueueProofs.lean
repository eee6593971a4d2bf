import Libfabric.AtomicQueue
import Libfabric.Lib.Ring

/-! What the atomic queue guarantees over every interleaving of any number of
producers with its consumer, when it has at least two entries. The invariant
`Inv` says what each entry of the window `[released, released + size)` holds,
from how its position was given up, and every step keeps it. From it, the
consumer takes the committed positions in order, each once, with their
buffers; no two parties hold one entry; `write_pos` stays within `size` of
`released`. With one entry none of this holds. -/
namespace Libfabric.AtomicQueue

open AtomicQ Reach

variable {ι α : Type}

section Queue

variable (aq : AtomicQ α) (pos : Nat) (f : AtomicQEntry α → AtomicQEntry α)

@[simp] theorem modify_writePos : (aq.modify pos f).writePos = aq.writePos := rfl
@[simp] theorem modify_readPos : (aq.modify pos f).readPos = aq.readPos := rfl
@[simp] theorem modify_size : (aq.modify pos f).size = aq.size := rfl
@[simp] theorem slot_modify (q : Nat) : (aq.modify pos f).slot q = aq.slot q := rfl

theorem modify_entry (i : Nat) :
    (aq.modify pos f).entry i = if i = aq.slot pos then f (aq.entry (aq.slot pos)) else aq.entry i :=
  Function.update_apply _ _ _ _

@[simp] theorem modify_entry_self : (aq.modify pos f).entry (aq.slot pos) = f (aq.entry (aq.slot pos)) :=
  Function.update_self _ _ _

theorem casWritePos_swap (same : aq.writePos = pos) :
    aq.casWritePos pos false = (true, pos, { aq with writePos := pos + 1 }) := by
  simp [casWritePos, ofiAtomicCompareExchangeWeak, Cells.compareExchange, same]

theorem casWritePos_fail {spurious : Bool} (fails : aq.writePos = pos → spurious = true) :
    aq.casWritePos pos spurious = (false, aq.writePos, aq) := by
  cases spurious with
  | true => rfl
  | false =>
    have differ : aq.writePos ≠ pos := fun same => Bool.false_ne_true (fails same)
    simp [casWritePos, ofiAtomicCompareExchangeWeak, Cells.compareExchange, differ]

variable {aq pos}

theorem nextCheck_claim (h : aq.nextCheck pos = .claim) : (aq.entry (aq.slot pos)).seq = pos := by
  simp only [nextCheck] at h
  split_ifs at h with zero
  omega

theorem nextCheck_full (h : aq.nextCheck pos = .full) : (aq.entry (aq.slot pos)).seq < pos := by
  simp only [nextCheck] at h
  split_ifs at h with zero neg
  omega

theorem head_enoent (waiting : (aq.entry (aq.slot aq.readPos)).seq ≠ aq.readPos + 1) :
    aq.head = (.enoent, aq) := by
  simp [AtomicQ.head, waiting]

theorem head_noop (ready : (aq.entry (aq.slot aq.readPos)).seq = aq.readPos + 1)
    (noop : (aq.entry (aq.slot aq.readPos)).noop = true) :
    aq.head = (.noop aq.readPos,
      ({ aq with readPos := aq.readPos + 1 } : AtomicQ α).modify aq.readPos fun ce => { ce with noop := false }) := by
  simp [AtomicQ.head, ready, noop]

theorem head_entry (ready : (aq.entry (aq.slot aq.readPos)).seq = aq.readPos + 1)
    (noop : (aq.entry (aq.slot aq.readPos)).noop = false) :
    aq.head = (.entry aq.readPos (aq.entry (aq.slot aq.readPos)).buf, { aq with readPos := aq.readPos + 1 }) := by
  simp [AtomicQ.head, ready, noop]

end Queue

section Invariant

/-- The consumer has released every position below this one. -/
def released (s : QueueSystem ι α) : Nat :=
  match s.consumer with
  | .idle => s.aq.readPos
  | .skip pos | .holding pos => pos

/-- The positions that own an entry: `size` of them from `released`. -/
def Window (s : QueueSystem ι α) (q : Nat) : Prop := released s ≤ q ∧ q < released s + s.aq.size

/-- The entry `ce` of window position `q`, given up as `r`, when the consumer
is at `readPos`. -/
structure EntryOk (readPos q : Nat) (r : Option (Option α)) (ce : AtomicQEntry α) : Prop where
  seq : ce.seq = if r.isSome then q + 1 else q
  noop : ce.noop = true ↔ readPos ≤ q ∧ r = some none
  buf : ∀ v, r = some (some v) → ce.buf = v

/-- A producer's position: read from `write_pos`, one whose entry it saw free,
or one it holds and has not given up. -/
def ProducerOk (s : QueueSystem ι α) : ProducerPc → Prop
  | .idle | .load => True
  | .check pos => pos ≤ s.aq.writePos
  | .cas pos => pos < released s + s.aq.size
  | .owned pos => pos < s.aq.writePos ∧ s.outcome pos = none

/-- The consumer holds the position before `read_pos`, discarded or committed. -/
def ConsumerOk (s : QueueSystem ι α) : ConsumerPc → Prop
  | .idle => True
  | .skip pos => s.aq.readPos = pos + 1 ∧ s.outcome pos = some none
  | .holding pos => s.aq.readPos = pos + 1 ∧ ∃ v, s.outcome pos = some (some v)

/-- What the consumer takes at position `q`: the buffer of a committed position. -/
def taken (outcome : Nat → Option (Option α)) (q : Nat) : Option (Nat × α) :=
  match outcome q with
  | some (some buf) => some (q, buf)
  | _ => none

/-- The consumer has taken, in position order, the buffer of every committed
position below `read_pos` and nothing else, and has passed no position that
was not given up. -/
def Delivered (s : QueueSystem ι α) : Prop :=
  (∀ q < s.aq.readPos, s.outcome q ≠ none) ∧
    s.consumed = (List.range s.aq.readPos).filterMap (taken s.outcome)

structure Inv (s : QueueSystem ι α) : Prop where
  two : 2 ≤ s.aq.size
  mask : ∀ pos, s.aq.slot pos = pos % s.aq.size
  readPos_le : s.aq.readPos ≤ s.aq.writePos
  bound : s.aq.writePos ≤ released s + s.aq.size
  unclaimed : ∀ q, s.aq.writePos ≤ q → s.outcome q = none
  delivered : Delivered s
  entries : ∀ q, Window s q → EntryOk s.aq.readPos q (s.outcome q) (s.aq.entry (s.aq.slot q))
  producers : ∀ p, ProducerOk s (s.producer p)
  owners : ∀ p p' pos, s.producer p = .owned pos → s.producer p' = .owned pos → p = p'
  consumer : ConsumerOk s s.consumer

variable {s : QueueSystem ι α}

theorem Inv.released_le (inv : Inv s) : released s ≤ s.aq.readPos := by
  have consumer := inv.consumer
  unfold released
  split <;> simp_all only [ConsumerOk] <;> omega

theorem Inv.resolved (inv : Inv s) {q : Nat} (below : q < s.aq.readPos) : s.outcome q ≠ none :=
  inv.delivered.1 q below

theorem Inv.slot_eq_iff (inv : Inv s) {q q' : Nat} (hq : Window s q) (hq' : Window s q') :
    s.aq.slot q = s.aq.slot q' ↔ q = q' := by
  rw [inv.mask, inv.mask]
  constructor
  · intro same
    exact Ring.eq_of_mod_eq_window same hq.1 hq.2 hq'.1 hq'.2
  · rintro rfl
    rfl

theorem Inv.window_slot (inv : Inv s) (pos : Nat) :
    ∃ q, Window s q ∧ q % s.aq.size = pos % s.aq.size ∧ s.aq.slot q = s.aq.slot pos := by
  have nonempty : 0 < s.aq.size := by
    have := inv.two
    omega
  obtain ⟨q, lo, hi, same⟩ := Ring.exists_window_mod nonempty (released s) pos
  exact ⟨q, ⟨lo, hi⟩, same, by rw [inv.mask, inv.mask, same]⟩

theorem Inv.owned (inv : Inv s) {p : ι} {pos : Nat} (own : s.producer p = .owned pos) :
    s.aq.readPos ≤ pos ∧ pos < s.aq.writePos ∧ s.outcome pos = none := by
  have ok := inv.producers p
  rw [own] at ok
  obtain ⟨claimed, open_⟩ := ok
  refine ⟨?_, claimed, open_⟩
  by_contra below
  exact inv.resolved (by omega) open_

theorem Inv.owned_window (inv : Inv s) {p : ι} {pos : Nat} (own : s.producer p = .owned pos) :
    Window s pos := by
  obtain ⟨reached, claimed, -⟩ := inv.owned own
  have := inv.released_le
  have := inv.bound
  exact ⟨by omega, by omega⟩

theorem released_idle (idle : s.consumer = .idle) : released s = s.aq.readPos := by
  simp only [released, idle]

theorem Inv.readPos_window (inv : Inv s) (idle : s.consumer = .idle) : Window s s.aq.readPos := by
  have := inv.two
  rw [Window, released_idle idle]
  omega

theorem Inv.claimed_of_given (inv : Inv s) {q : Nat} (given : s.outcome q ≠ none) : q < s.aq.writePos := by
  by_contra beyond
  exact given (inv.unclaimed q (by omega))

theorem Inv.held (inv : Inv s) {pos : Nat} (holds : s.consumer = .skip pos ∨ s.consumer = .holding pos) :
    released s = pos ∧ s.aq.readPos = pos + 1 ∧ Window s pos := by
  have released_eq : released s = pos := by
    rcases holds with holds | holds <;> simp only [released, holds]
  have readPos : s.aq.readPos = pos + 1 := by
    have consumer := inv.consumer
    rcases holds with holds | holds <;> rw [holds] at consumer <;> exact consumer.1
  have := inv.two
  exact ⟨released_eq, readPos, by rw [Window, released_eq]; omega⟩

theorem Delivered.advance {t : QueueSystem ι α} (delivered : Delivered s) (given : s.outcome s.aq.readPos ≠ none)
    (outcome : t.outcome = s.outcome) (readPos : t.aq.readPos = s.aq.readPos + 1)
    (consumed : t.consumed = s.consumed ++ (taken s.outcome s.aq.readPos).toList) : Delivered t := by
  rw [Delivered, outcome, readPos, consumed]
  refine ⟨fun q below => ?_, ?_⟩
  · rcases Nat.lt_succ_iff_lt_or_eq.mp below with below | rfl
    · exact delivered.1 q below
    · exact given
  · rw [List.range_succ, List.filterMap_append, ← delivered.2]
    cases here : taken s.outcome s.aq.readPos <;> simp [here]

theorem ProducerOk.forward {t : QueueSystem ι α} {pc : ProducerPc} (ok : ProducerOk s pc)
    (writePos : s.aq.writePos ≤ t.aq.writePos)
    (window : released s + s.aq.size ≤ released t + t.aq.size)
    (held : ∀ pos, pc = .owned pos → t.outcome pos = s.outcome pos) : ProducerOk t pc := by
  cases pc with
  | idle | load => trivial
  | check pos => exact Nat.le_trans ok writePos
  | cas pos => exact Nat.lt_of_lt_of_le ok window
  | owned pos =>
    obtain ⟨claimed, open_⟩ := ok
    exact ⟨Nat.lt_of_lt_of_le claimed writePos, (held pos rfl).trans open_⟩

theorem ConsumerOk.keep {t : QueueSystem ι α} {c : ConsumerPc} (ok : ConsumerOk s c)
    (readPos : t.aq.readPos = s.aq.readPos) (held : ∀ pos, pos < s.aq.readPos → t.outcome pos = s.outcome pos) :
    ConsumerOk t c := by
  cases c with
  | idle => trivial
  | skip pos =>
    obtain ⟨at_, discarded⟩ := ok
    exact ⟨readPos.trans at_, (held pos (by omega)).trans discarded⟩
  | holding pos =>
    obtain ⟨at_, committed⟩ := ok
    exact ⟨readPos.trans at_, (held pos (by omega)) ▸ committed⟩

theorem EntryOk.readPos_succ {readPos q : Nat} {r : Option (Option α)} {ce : AtomicQEntry α}
    (ok : EntryOk readPos q r ce) (ahead : readPos < q) : EntryOk (readPos + 1) q r ce where
  seq := ok.seq
  noop := by
    rw [ok.noop]
    constructor
    · rintro ⟨-, discarded⟩
      exact ⟨ahead, discarded⟩
    · rintro ⟨-, discarded⟩
      exact ⟨ahead.le, discarded⟩
  buf := ok.buf

theorem filterMap_taken_congr {n : Nat} {outcome outcome' : Nat → Option (Option α)}
    (same : ∀ q < n, outcome' q = outcome q) :
    (List.range n).filterMap (taken outcome') = (List.range n).filterMap (taken outcome) := by
  apply List.filterMap_congr
  intro q mem
  simp only [taken, same q (List.mem_range.mp mem)]

/-- A producer that finds the entry of `pos` free holds a window position:
with two entries or more, the entry of a position one past a given-up
position never looks free. -/
theorem Inv.check_claim (inv : Inv s) {p : ι} {pos : Nat} (at_ : s.producer p = .check pos)
    (claim : s.aq.nextCheck pos = .claim) : pos < released s + s.aq.size := by
  have read : pos ≤ s.aq.writePos := by
    have ok := inv.producers p
    rwa [at_] at ok
  have seen := nextCheck_claim claim
  obtain ⟨q, hq, sameCell, sameSlot⟩ := inv.window_slot pos
  rw [← sameSlot, (inv.entries q hq).seq] at seen
  have bound := inv.bound
  split at seen
  · have turn := Ring.add_le_of_mod_eq sameCell (by omega : q < pos)
    have := inv.two
    omega
  · exact seen ▸ hq.2

theorem Inv.check_full (inv : Inv s) {p : ι} {pos : Nat} (at_ : s.producer p = .check pos)
    (full : s.aq.nextCheck pos = .full) : s.aq.writePos = released s + s.aq.size := by
  have read : pos ≤ s.aq.writePos := by
    have ok := inv.producers p
    rwa [at_] at ok
  have seen := nextCheck_full full
  obtain ⟨q, hq, sameCell, sameSlot⟩ := inv.window_slot pos
  rw [← sameSlot, (inv.entries q hq).seq] at seen
  have behind : q < pos := by split at seen <;> omega
  have turn := Ring.add_le_of_mod_eq sameCell behind
  have bound := inv.bound
  have := hq.1
  omega

theorem Inv.start (mem : Nat → α) {k : Nat} (two : 1 ≤ k) (initFn : Option (α → α)) :
    Inv (QueueSystem.start (AtomicQ.init mem (2 ^ k) initFn) : QueueSystem ι α) := by
  have mask : ∀ pos, pos &&& (2 ^ k - 1) = pos % 2 ^ k := fun pos => Nat.and_two_pow_sub_one_eq_mod pos k
  refine ⟨?_, mask, Nat.le_refl 0, Nat.zero_le _, fun _ _ => rfl,
    ⟨fun q below => absurd below (Nat.not_lt_zero q), rfl⟩, ?_, fun _ => trivial,
    fun _ _ _ own => ProducerPc.noConfusion own, trivial⟩
  · calc 2 = 2 ^ 1 := rfl
      _ ≤ 2 ^ k := Nat.pow_le_pow_right Nat.two_pos two
  · intro q hq
    have below : q < 0 + 2 ^ k := hq.2
    have cell : q &&& (2 ^ k - 1) = q := by
      rw [mask, Nat.mod_eq_of_lt (by omega)]
    show EntryOk 0 q none ((AtomicQ.init mem (2 ^ k) initFn).entry (q &&& (2 ^ k - 1)))
    rw [cell]
    exact ⟨rfl, by simp [AtomicQ.init], fun v given => by cases given⟩

end Invariant

section Entries

variable {s : QueueSystem ι α} {p : ι} {pos : Nat}

theorem Inv.entries_modify (inv : Inv s) (hpos : Window s pos) {f : AtomicQEntry α → AtomicQEntry α}
    {readPos : Nat} {outcome : Nat → Option (Option α)}
    (others : ∀ q, Window s q → q ≠ pos → EntryOk readPos q (outcome q) (s.aq.entry (s.aq.slot q)))
    (self : EntryOk readPos pos (outcome pos) (f (s.aq.entry (s.aq.slot pos)))) :
    ∀ q, Window s q → EntryOk readPos q (outcome q) ((s.aq.modify pos f).entry (s.aq.slot q)) := by
  intro q hq
  rw [modify_entry]
  split
  · rename_i same
    obtain rfl := (inv.slot_eq_iff hq hpos).mp same
    exact self
  · rename_i differ
    exact others q hq fun same => differ (same ▸ rfl)

theorem Inv.fill (inv : Inv s) (own : s.producer p = .owned pos) (v : α) :
    Inv { s with aq := s.aq.modify pos fun ce => { ce with buf := v } } := by
  obtain ⟨-, -, open_⟩ := inv.owned own
  refine ⟨inv.two, inv.mask, inv.readPos_le, inv.bound, inv.unclaimed, inv.delivered, ?_, inv.producers,
    inv.owners, inv.consumer⟩
  have ok := inv.entries pos (inv.owned_window own)
  have self : EntryOk s.aq.readPos pos (s.outcome pos) { s.aq.entry (s.aq.slot pos) with buf := v } :=
    ⟨ok.seq, ok.noop, fun v given => by rw [open_] at given; cases given⟩
  intro q hq
  exact inv.entries_modify (f := fun ce => { ce with buf := v }) (inv.owned_window own)
    (fun q hq _ => inv.entries q hq) self q hq

theorem Inv.head_ready (inv : Inv s) (idle : s.consumer = .idle) :
    (s.aq.entry (s.aq.slot s.aq.readPos)).seq = s.aq.readPos + 1 ↔ s.outcome s.aq.readPos ≠ none := by
  rw [(inv.entries _ (inv.readPos_window idle)).seq]
  cases s.outcome s.aq.readPos <;> simp

theorem Inv.headNoop (inv : Inv s) (idle : s.consumer = .idle)
    (noop : (s.aq.entry (s.aq.slot s.aq.readPos)).noop = true) :
    Inv { s with
      aq := ({ s.aq with readPos := s.aq.readPos + 1 } : AtomicQ α).modify s.aq.readPos
        fun ce => { ce with noop := false }
      consumer := .skip s.aq.readPos } := by
  have here := inv.readPos_window idle
  have ok := inv.entries _ here
  obtain ⟨-, discarded⟩ := ok.noop.mp noop
  have given : s.outcome s.aq.readPos ≠ none := by
    rw [discarded]
    exact Option.some_ne_none none
  have claimed := inv.claimed_of_given given
  have released_eq := released_idle idle
  have bound := inv.bound
  refine ⟨inv.two, inv.mask, show s.aq.readPos + 1 ≤ s.aq.writePos by omega,
    show s.aq.writePos ≤ s.aq.readPos + s.aq.size by omega, inv.unclaimed,
    inv.delivered.advance given rfl rfl (by simp [taken, discarded]), ?_, ?_, inv.owners, ⟨rfl, discarded⟩⟩
  · intro q hq
    have hq : Window s q := by
      rw [Window, released_eq]
      simpa only [Window, released, modify_size] using hq
    have self : EntryOk (s.aq.readPos + 1) s.aq.readPos (s.outcome s.aq.readPos)
        { s.aq.entry (s.aq.slot s.aq.readPos) with noop := false } :=
      ⟨ok.seq, by simp, fun v given => by rw [discarded] at given; cases given⟩
    refine inv.entries_modify (f := fun ce => { ce with noop := false }) here (fun q hq differ => ?_) self q hq
    exact (inv.entries q hq).readPos_succ (by rw [Window, released_eq] at hq; omega)
  · intro p'
    exact (inv.producers p').forward (Nat.le_refl _) (by simp only [released, idle, modify_size]; omega)
      fun _ _ => rfl

theorem Inv.headEntry (inv : Inv s) (idle : s.consumer = .idle)
    (ready : (s.aq.entry (s.aq.slot s.aq.readPos)).seq = s.aq.readPos + 1)
    (noop : (s.aq.entry (s.aq.slot s.aq.readPos)).noop = false) :
    Inv { s with
      aq := { s.aq with readPos := s.aq.readPos + 1 }
      consumer := .holding s.aq.readPos
      consumed := s.consumed ++ [(s.aq.readPos, (s.aq.entry (s.aq.slot s.aq.readPos)).buf)] } := by
  have here := inv.readPos_window idle
  have ok := inv.entries _ here
  obtain ⟨v, committed⟩ : ∃ v, s.outcome s.aq.readPos = some (some v) := by
    have given := (inv.head_ready idle).mp ready
    have notNoop : ¬ (s.aq.readPos ≤ s.aq.readPos ∧ s.outcome s.aq.readPos = some none) := by
      rw [← ok.noop, noop]
      exact Bool.false_ne_true
    match out : s.outcome s.aq.readPos with
    | none => exact absurd out given
    | some none => exact absurd ⟨Nat.le_refl _, out⟩ notNoop
    | some (some v) => exact ⟨v, rfl⟩
  have value := ok.buf v committed
  have given : s.outcome s.aq.readPos ≠ none := by
    rw [committed]
    exact Option.some_ne_none _
  have claimed := inv.claimed_of_given given
  have released_eq := released_idle idle
  have bound := inv.bound
  refine ⟨inv.two, inv.mask, show s.aq.readPos + 1 ≤ s.aq.writePos by omega,
    show s.aq.writePos ≤ s.aq.readPos + s.aq.size by omega, inv.unclaimed,
    inv.delivered.advance given rfl rfl (by simp [taken, committed, value]), ?_, ?_, inv.owners,
    ⟨rfl, v, committed⟩⟩
  · intro q hq
    have hq : Window s q := by
      rw [Window, released_eq]
      simpa only [Window, released, modify_size] using hq
    rcases Nat.lt_or_ge s.aq.readPos q with ahead | behind
    · exact (inv.entries q hq).readPos_succ ahead
    · obtain rfl : q = s.aq.readPos := by rw [Window, released_eq] at hq; omega
      refine ⟨ok.seq, ?_, ok.buf⟩
      show (s.aq.entry (s.aq.slot s.aq.readPos)).noop = true ↔
        s.aq.readPos + 1 ≤ s.aq.readPos ∧ s.outcome s.aq.readPos = some none
      rw [noop]
      simp
  · intro p'
    exact (inv.producers p').forward (Nat.le_refl _) (by simp only [released, idle]; omega)
      fun _ _ => rfl

theorem Inv.release (inv : Inv s) (holds : s.consumer = .skip pos ∨ s.consumer = .holding pos) :
    Inv { s with aq := s.aq.release pos, consumer := .idle } := by
  obtain ⟨released_eq, readPos, here⟩ := inv.held holds
  have ok := inv.entries pos here
  have cleared : (s.aq.entry (s.aq.slot pos)).noop = false := by
    rw [Bool.eq_false_iff, ne_eq, ok.noop]
    omega
  have bound := inv.bound
  have fresh : s.outcome (pos + s.aq.size) = none := inv.unclaimed _ (by omega)
  refine ⟨inv.two, inv.mask, inv.readPos_le, show s.aq.writePos ≤ s.aq.readPos + s.aq.size by omega,
    inv.unclaimed, inv.delivered, ?_, ?_, inv.owners, trivial⟩
  · intro q hq
    have hq : pos + 1 ≤ q ∧ q < pos + 1 + s.aq.size := by
      simpa only [Window, released, AtomicQ.release, modify_readPos, modify_size, readPos] using hq
    show EntryOk s.aq.readPos q (s.outcome q) ((s.aq.release pos).entry (s.aq.slot q))
    rw [AtomicQ.release, modify_entry]
    split
    · rename_i same
      obtain rfl : q = pos + s.aq.size := by
        rw [inv.mask, inv.mask] at same
        have turn := Ring.add_le_of_mod_eq same.symm (by omega : pos < q)
        omega
      refine ⟨by simp [fresh], by simp [cleared, fresh], fun v given => by rw [fresh] at given; cases given⟩
    · rename_i differ
      have old : Window s q := by
        rw [Window, released_eq]
        refine ⟨by omega, ?_⟩
        by_contra beyond
        obtain rfl : q = pos + s.aq.size := by omega
        rw [inv.mask, inv.mask, Nat.add_mod_right] at differ
        exact differ rfl
      exact inv.entries q old
  · intro p'
    refine (inv.producers p').forward (Nat.le_refl _) ?_ fun _ _ => rfl
    rw [released_eq]
    simp only [released, AtomicQ.release, modify_readPos, modify_size, readPos]
    omega

end Entries

section Producers

variable [DecidableEq ι] {s : QueueSystem ι α} {p : ι} {pos : Nat}

theorem setProducer_producer (pc : ProducerPc) (p' : ι) :
    (s.setProducer p pc).producer p' = if p' = p then pc else s.producer p' :=
  Function.update_apply _ _ _ _

theorem Inv.setProducer (inv : Inv s) {pc : ProducerPc} (ok : ProducerOk s pc)
    (free : ∀ pos, pc ≠ .owned pos) : Inv (s.setProducer p pc) where
  two := inv.two
  mask := inv.mask
  readPos_le := inv.readPos_le
  bound := inv.bound
  unclaimed := inv.unclaimed
  delivered := inv.delivered
  entries := inv.entries
  producers p' := by
    rw [setProducer_producer]
    split
    · exact ok
    · exact inv.producers p'
  owners p₁ p₂ pos own₁ own₂ := by
    rw [setProducer_producer] at own₁ own₂
    split at own₁
    · exact absurd own₁ (free pos)
    split at own₂
    · exact absurd own₂ (free pos)
    exact inv.owners p₁ p₂ pos own₁ own₂
  consumer := inv.consumer

theorem Inv.claim (inv : Inv s) (at_ : s.producer p = .cas pos) (free : s.aq.writePos = pos) :
    Inv { s.setProducer p (.owned pos) with aq := { s.aq with writePos := pos + 1 } } := by
  have room : pos < released s + s.aq.size := by
    have ok := inv.producers p
    rwa [at_] at ok
  have below : ∀ p' pos', s.producer p' = .owned pos' → pos' < pos := by
    intro p' pos' own
    exact free ▸ (inv.owned own).2.1
  have readPos := inv.readPos_le
  refine ⟨inv.two, inv.mask, by dsimp only; omega, show pos + 1 ≤ released s + s.aq.size by omega, ?_,
    inv.delivered, inv.entries, ?_, ?_, inv.consumer⟩
  · intro q beyond
    exact inv.unclaimed q (by dsimp only at beyond; omega)
  · intro p'
    dsimp only
    rw [setProducer_producer]
    split
    · exact ⟨Nat.lt_succ_self pos, inv.unclaimed pos free.le⟩
    · exact (inv.producers p').forward (by dsimp only; omega) (Nat.le_refl _) (fun _ _ => rfl)
  · intro p₁ p₂ pos' own₁ own₂
    dsimp only at own₁ own₂
    rw [setProducer_producer] at own₁ own₂
    split at own₁ <;> split at own₂
    · simp_all
    · cases own₁
      exact absurd (below p₂ pos own₂) (Nat.lt_irrefl pos)
    · cases own₂
      exact absurd (below p₁ pos own₁) (Nat.lt_irrefl pos)
    · exact inv.owners p₁ p₂ pos' own₁ own₂

theorem Inv.post (inv : Inv s) (own : s.producer p = .owned pos) (r : Option α)
    {f : AtomicQEntry α → AtomicQEntry α} (seq : (f (s.aq.entry (s.aq.slot pos))).seq = pos + 1)
    (noop : (f (s.aq.entry (s.aq.slot pos))).noop = r.isNone)
    (buf : ∀ v, r = some v → (f (s.aq.entry (s.aq.slot pos))).buf = v) :
    Inv { s.setProducer p .idle with
      aq := s.aq.modify pos f
      outcome := Function.update s.outcome pos (some r) } := by
  obtain ⟨reached, claimed, open_⟩ := inv.owned own
  have others : ∀ q, q ≠ pos → Function.update s.outcome pos (some r) q = s.outcome q :=
    fun q differ => Function.update_of_ne differ _ _
  refine ⟨inv.two, inv.mask, inv.readPos_le, inv.bound, ?_, ?_, ?_, ?_, ?_, ?_⟩ <;>
    dsimp only [modify_writePos, modify_readPos, modify_size, slot_modify]
  · intro q beyond
    rw [others q (by omega)]
    exact inv.unclaimed q beyond
  · constructor
    · intro q below
      dsimp only [modify_readPos] at below ⊢
      rw [others q (by omega)]
      exact inv.resolved below
    · dsimp only [modify_readPos]
      rw [filterMap_taken_congr fun q below => others q (by omega)]
      exact inv.delivered.2
  · intro q hq
    have self : EntryOk s.aq.readPos pos (Function.update s.outcome pos (some r) pos)
        (f (s.aq.entry (s.aq.slot pos))) := by
      rw [Function.update_self]
      refine ⟨by rw [seq]; rfl, ?_, fun v given => buf v (Option.some.inj given)⟩
      rw [noop]
      cases r with
      | none => simpa using reached
      | some v => simp
    refine inv.entries_modify (inv.owned_window own) (fun q hq differ => ?_) self q hq
    rw [others q differ]
    exact inv.entries q hq
  · intro p'
    rw [setProducer_producer]
    split
    · trivial
    · rename_i differ
      refine (inv.producers p').forward (Nat.le_refl _) (Nat.le_refl _) fun pos' own' => others pos' ?_
      intro same
      exact differ (inv.owners p' p pos (same ▸ own') own)
  · intro p₁ p₂ pos' own₁ own₂
    rw [setProducer_producer] at own₁ own₂
    split at own₁
    · cases own₁
    split at own₂
    · cases own₂
    exact inv.owners p₁ p₂ pos' own₁ own₂
  · exact inv.consumer.keep rfl fun q below => others q (by omega)

end Producers

section Runs

variable [DecidableEq ι] {s t : QueueSystem ι α}

theorem Inv.of_step (inv : Inv s) {a : QueueAction ι α} (stepped : step s a = some t) : Inv t := by
  cases a with
  | next p =>
    simp only [step] at stepped
    split at stepped
    · cases stepped
      exact inv.setProducer trivial fun _ => ProducerPc.noConfusion
    · cases stepped
  | load p =>
    simp only [step] at stepped
    split at stepped
    · cases stepped
      exact inv.setProducer (Nat.le_refl _) fun _ => ProducerPc.noConfusion
    · cases stepped
  | check p =>
    simp only [step] at stepped
    split at stepped
    · rename_i pos at_
      split at stepped <;> cases stepped
      · exact inv.setProducer (inv.check_claim at_ ‹_›) fun _ => ProducerPc.noConfusion
      · exact inv.setProducer trivial fun _ => ProducerPc.noConfusion
      · exact inv.setProducer trivial fun _ => ProducerPc.noConfusion
    · cases stepped
  | cas p spurious =>
    simp only [step] at stepped
    split at stepped
    · rename_i pos at_
      by_cases swap : s.aq.writePos = pos ∧ spurious = false
      · obtain ⟨free, rfl⟩ := swap
        rw [casWritePos_swap _ _ free] at stepped
        cases stepped
        exact inv.claim at_ free
      · rw [casWritePos_fail _ _ fun free => by simpa [free] using swap] at stepped
        cases stepped
        exact inv.setProducer (Nat.le_refl _) fun _ => ProducerPc.noConfusion
    · cases stepped
  | fill p v =>
    simp only [step] at stepped
    split at stepped
    · cases stepped
      exact inv.fill ‹_› v
    · cases stepped
  | commit p =>
    simp only [step] at stepped
    split at stepped
    · rename_i pos own
      cases stepped
      have ok := inv.entries pos (inv.owned_window own)
      have cleared : (s.aq.entry (s.aq.slot pos)).noop = false := by
        rw [Bool.eq_false_iff, ne_eq, ok.noop, (inv.owned own).2.2]
        simp
      exact inv.post own (some (s.aq.entry (s.aq.slot pos)).buf) rfl cleared fun v given => Option.some.inj given
    · cases stepped
  | discard p =>
    simp only [step] at stepped
    split at stepped
    · rename_i pos own
      cases stepped
      exact inv.post own none rfl rfl fun v given => by cases given
    · cases stepped
  | head =>
    simp only [step] at stepped
    split at stepped
    · rename_i idle
      by_cases ready : (s.aq.entry (s.aq.slot s.aq.readPos)).seq = s.aq.readPos + 1
      · cases noop : (s.aq.entry (s.aq.slot s.aq.readPos)).noop
        · rw [head_entry ready noop] at stepped
          cases stepped
          exact inv.headEntry idle ready noop
        · rw [head_noop ready noop] at stepped
          cases stepped
          exact inv.headNoop idle noop
      · rw [head_enoent ready] at stepped
        cases stepped
        exact inv
    · cases stepped
  | release =>
    simp only [step] at stepped
    split at stepped
    · cases stepped
      exact inv.release (.inl ‹_›)
    · cases stepped
      exact inv.release (.inr ‹_›)
    · cases stepped

/-- What a step does to the record of given-up positions and to the
consumer's log: the log only grows, and only a producer giving up the position
it holds records an outcome. -/
theorem step_extends {a : QueueAction ι α} (stepped : step s a = some t) :
    s.consumed <+: t.consumed ∧
      (t.outcome = s.outcome ∨
        ∃ p pos r, s.producer p = .owned pos ∧ t.outcome = Function.update s.outcome pos (some r)) := by
  cases a with
  | commit p | discard p =>
    simp only [step] at stepped
    split at stepped
    · cases stepped
      exact ⟨List.prefix_refl _, .inr ⟨p, _, _, ‹_›, rfl⟩⟩
    · cases stepped
  | head =>
    simp only [step] at stepped
    split at stepped
    · split at stepped <;> cases stepped
      · exact ⟨List.prefix_refl _, .inl rfl⟩
      · exact ⟨List.prefix_refl _, .inl rfl⟩
      · exact ⟨List.prefix_append _ _, .inl rfl⟩
    · cases stepped
  | release =>
    simp only [step] at stepped
    split at stepped <;> cases stepped <;> exact ⟨List.prefix_refl _, .inl rfl⟩
  | next p | load p | fill p v =>
    simp only [step] at stepped
    split at stepped <;> cases stepped
    exact ⟨List.prefix_refl _, .inl rfl⟩
  | check p =>
    simp only [step] at stepped
    split at stepped
    · split at stepped <;> cases stepped <;> exact ⟨List.prefix_refl _, .inl rfl⟩
    · cases stepped
  | cas p spurious =>
    simp only [step] at stepped
    split at stepped
    · split at stepped <;> cases stepped <;> exact ⟨List.prefix_refl _, .inl rfl⟩
    · cases stepped

theorem Inv.reachable (mem : Nat → α) {k : Nat} (two : 1 ≤ k) (initFn : Option (α → α))
    (reach : Reaches step (QueueSystem.start (AtomicQ.init mem (2 ^ k) initFn)) s) : Inv s :=
  reach.invariant (fun inv stepped => inv.of_step stepped) (Inv.start mem two initFn)

end Runs

section Guarantees

variable [DecidableEq ι] {s : QueueSystem ι α}

theorem two_producers_run :
    ∃ t, run step (QueueSystem.start (AtomicQ.init (fun _ => 0) (2 ^ 1) none) : QueueSystem Bool Nat)
      [.next true, .load true, .check true, .cas true false, .next false, .load false, .check false,
       .cas false false, .fill false 8, .commit false, .fill true 7, .commit true, .head] = some t ∧
      t.consumed = [(0, 7)] ∧ t.consumer = .holding 0 := by
  simp only [run, step, QueueSystem.start, init, pow_one, Nat.add_one_sub_one, QueueSystem.setProducer,
    nextCheck, slot, sub_neg, Nat.cast_lt, casWritePos, ofiAtomicCompareExchangeWeak, Bool.false_eq_true, ↓reduceIte,
    Cells.compareExchange, AtomicQ.modify, commit, head, ne_eq, Option.bind_fun_some, Option.bind_some,
    Function.update_self, Function.update_idem, Nat.and_one_is_mod, Nat.zero_mod, Nat.cast_zero, sub_self, zero_add,
    not_false_eq_true, Function.update_of_ne, Nat.and_self, Nat.cast_one, Nat.reduceAdd, Bool.true_eq_false,
    zero_ne_one, not_true_eq_false, List.nil_append, Option.some.injEq, exists_eq_left', and_self]

/-- Over every interleaving of any number of producers with the consumer, on
a queue of `2 ^ k ≥ 2` entries, the consumer has taken in position order the
buffer of every committed position below `read_pos`, each once, with the
buffer it was committed with, and has passed only positions that were given up. -/
theorem queue_delivered (mem : Nat → α) {k : Nat} (two : 1 ≤ k) (initFn : Option (α → α))
    (reach : Reaches step (QueueSystem.start (AtomicQ.init mem (2 ^ k) initFn)) s) : Delivered s :=
  (Inv.reachable mem two initFn reach).delivered

theorem queue_delivered_two_producers :
    ∃ t : QueueSystem Bool Nat, Reaches step (QueueSystem.start (AtomicQ.init (fun _ => 0) (2 ^ 1) none)) t ∧
      t.consumed = [(0, 7)] ∧ Delivered t := by
  obtain ⟨t, ran, consumed, -⟩ := two_producers_run
  exact ⟨t, reaches_of_run ran, consumed, queue_delivered (fun _ => 0) (Nat.le_refl 1) none (reaches_of_run ran)⟩

/-- No two parties ever hold one entry: two producers hold positions of
different entries, a producer never holds the entry the consumer holds, and
the buffer the consumer holds is the one its position was committed with. -/
theorem queue_exclusive (mem : Nat → α) {k : Nat} (two : 1 ≤ k) (initFn : Option (α → α))
    (reach : Reaches step (QueueSystem.start (AtomicQ.init mem (2 ^ k) initFn)) s) :
    (∀ p p' pos pos', p ≠ p' → s.producer p = .owned pos → s.producer p' = .owned pos' →
      s.aq.slot pos ≠ s.aq.slot pos') ∧
    (∀ p pos pos', s.producer p = .owned pos → (s.consumer = .skip pos' ∨ s.consumer = .holding pos') →
      s.aq.slot pos ≠ s.aq.slot pos') ∧
    (∀ pos, s.consumer = .holding pos → ∃ v, s.outcome pos = some (some v) ∧ (s.aq.entry (s.aq.slot pos)).buf = v) := by
  have inv := Inv.reachable mem two initFn reach
  refine ⟨?_, ?_, ?_⟩
  · intro p p' pos pos' differ own own' same
    obtain rfl := (inv.slot_eq_iff (inv.owned_window own) (inv.owned_window own')).mp same
    exact differ (inv.owners p p' pos own own')
  · intro p pos pos' own holds same
    obtain ⟨-, readPos, held⟩ := inv.held holds
    obtain rfl := (inv.slot_eq_iff (inv.owned_window own) held).mp same
    have := (inv.owned own).1
    omega
  · intro pos holds
    have consumer := inv.consumer
    rw [holds] at consumer
    obtain ⟨-, v, committed⟩ := consumer
    obtain ⟨-, -, held⟩ := inv.held (.inr holds)
    exact ⟨v, committed, (inv.entries pos held).buf v committed⟩

theorem queue_exclusive_two_producers :
    ∃ t : QueueSystem Bool Nat, Reaches step (QueueSystem.start (AtomicQ.init (fun _ => 0) (2 ^ 1) none)) t ∧
      t.consumer = .holding 0 ∧ ∃ v, t.outcome 0 = some (some v) ∧ (t.aq.entry (t.aq.slot 0)).buf = v := by
  obtain ⟨t, ran, -, holding⟩ := two_producers_run
  exact ⟨t, reaches_of_run ran, holding,
    (queue_exclusive (fun _ => 0) (Nat.le_refl 1) none (reaches_of_run ran)).2.2 0 holding⟩

/-- `write_pos` stays between `read_pos` and `size` past `released`;
`name_next` reports a full queue only when `write_pos` is `size` past
`released`; and `name_head` reports an empty one exactly when the position at
`read_pos` has not been given up. -/
theorem queue_reports (mem : Nat → α) {k : Nat} (two : 1 ≤ k) (initFn : Option (α → α))
    (reach : Reaches step (QueueSystem.start (AtomicQ.init mem (2 ^ k) initFn)) s) :
    s.aq.readPos ≤ s.aq.writePos ∧ s.aq.writePos ≤ released s + s.aq.size ∧
    (∀ p pos, s.producer p = .check pos → s.aq.nextCheck pos = .full →
      s.aq.writePos = released s + s.aq.size) ∧
    (s.consumer = .idle → (s.aq.head.1 = .enoent ↔ s.outcome s.aq.readPos = none)) := by
  have inv := Inv.reachable mem two initFn reach
  refine ⟨inv.readPos_le, inv.bound, fun p pos at_ full => inv.check_full at_ full, fun idle => ?_⟩
  have ready := inv.head_ready idle
  by_cases given : s.outcome s.aq.readPos = none
  · rw [head_enoent fun seen => ready.mp seen given]
    exact iff_of_true rfl given
  · have seen := ready.mpr given
    refine iff_of_false ?_ given
    cases noop : (s.aq.entry (s.aq.slot s.aq.readPos)).noop
    · rw [head_entry seen noop]
      exact nofun
    · rw [head_noop seen noop]
      exact nofun

theorem queue_reports_two_producers :
    ∃ t : QueueSystem Bool Nat, Reaches step (QueueSystem.start (AtomicQ.init (fun _ => 0) (2 ^ 1) none)) t ∧
      t.consumer = .holding 0 ∧ t.aq.readPos ≤ t.aq.writePos ∧ t.aq.writePos ≤ released t + t.aq.size := by
  obtain ⟨t, ran, -, holding⟩ := two_producers_run
  have reports := queue_reports (fun _ => 0) (Nat.le_refl 1) none (reaches_of_run ran)
  exact ⟨t, reaches_of_run ran, holding, reports.1, reports.2.1⟩

/-- Along every run from a reachable state the consumer's log only grows, and
an outcome once recorded never changes: no position is committed or
discarded twice. -/
theorem queue_history (mem : Nat → α) {k : Nat} (two : 1 ≤ k) (initFn : Option (α → α)) {t : QueueSystem ι α}
    (reach : Reaches step (QueueSystem.start (AtomicQ.init mem (2 ^ k) initFn)) s) (later : Reaches step s t) :
    s.consumed <+: t.consumed ∧ ∀ q r, s.outcome q = some r → t.outcome q = some r := by
  -- the invariant travels with the run: it says a held position has no outcome yet
  have carried : Inv t ∧ s.consumed <+: t.consumed ∧ ∀ q r, s.outcome q = some r → t.outcome q = some r := by
    refine later.invariant (I := fun u => Inv u ∧ s.consumed <+: u.consumed ∧
      ∀ q r, s.outcome q = some r → u.outcome q = some r) ?_
      ⟨Inv.reachable mem two initFn reach, List.prefix_refl _, fun _ _ was => was⟩
    rintro u a u' ⟨inv, grown, kept⟩ stepped
    obtain ⟨longer, recorded⟩ := step_extends stepped
    refine ⟨inv.of_step stepped, grown.trans longer, fun q r was => ?_⟩
    have now := kept q r was
    rcases recorded with same | ⟨p, pos, r', own, updated⟩
    · rw [same]
      exact now
    · rw [updated, Function.update_of_ne]
      · exact now
      · rintro rfl
        rw [(inv.owned own).2.2] at now
        cases now
  exact carried.2

theorem queue_history_two_producers :
    ∃ t : QueueSystem Bool Nat, Reaches step (QueueSystem.start (AtomicQ.init (fun _ => 0) (2 ^ 1) none)) t ∧
      t.consumed = [(0, 7)] ∧ ([] : List (Nat × Nat)) <+: t.consumed := by
  obtain ⟨t, ran, consumed, -⟩ := two_producers_run
  exact ⟨t, reaches_of_run ran, consumed,
    (queue_history (fun _ => 0) (Nat.le_refl 1) none (Reaches.refl _) (reaches_of_run ran)).1⟩

/-- With one entry a producer claims the entry of a committed position the
consumer has not taken: a producer commits `v` at position 0, claims position
1, whose entry is the same, and writes `w` there; the consumer then takes `w`
for position 0. -/
theorem create_one_overwrites (mem : Nat → α) (a : ι) (v w : α) :
    ∃ t, run step (QueueSystem.start (AtomicQ.create mem 1) : QueueSystem ι α)
      [.next a, .load a, .check a, .cas a false, .fill a v, .commit a,
       .next a, .load a, .check a, .cas a false, .fill a w, .head] = some t ∧
      t.aq.readPos = 1 ∧ t.consumed = [(0, w)] ∧ t.outcome 0 = some (some v) := by
  simp only [run, step, QueueSystem.start, create, init, roundupPowerOfTwo, Order.lt_two_iff, Std.le_refl,
    ↓reduceIte, tsub_self, QueueSystem.setProducer, nextCheck, slot, sub_neg, Nat.cast_lt, casWritePos,
    ofiAtomicCompareExchangeWeak, Bool.false_eq_true, Cells.compareExchange, AtomicQ.modify, commit, head, ne_eq,
    Option.bind_fun_some, Option.bind_some, Function.update_self, Function.update_idem, Nat.and_self, Nat.cast_zero,
    sub_self, zero_add, Function.update_eq_self, Nat.and_zero, Nat.cast_one, Nat.reduceAdd, not_true_eq_false,
    List.nil_append, Option.some.injEq, exists_eq_left', and_self]

/-- `name_create(size)` gives a queue that delivers over every interleaving
exactly when `size` is at least two: `roundup_power_of_two` keeps a size of
one, and with one entry the queue hands out an overwritten buffer. -/
theorem create_delivered_iff (mem : Nat → α) {n : Nat} (pos : 0 < n) [Nonempty ι] [Nontrivial α] :
    (∀ s, Reaches step (QueueSystem.start (AtomicQ.create mem n) : QueueSystem ι α) s → Delivered s) ↔
      2 ≤ n := by
  constructor
  · intro delivers
    by_contra one
    obtain rfl : n = 1 := by omega
    obtain ⟨v, w, differ⟩ := exists_pair_ne α
    obtain ⟨t, ran, readPos, consumed, committed⟩ := create_one_overwrites mem (Classical.arbitrary ι) v w
    have taken_all := (delivers t (reaches_of_run ran)).2
    simp [readPos, consumed, taken, committed] at taken_all
    exact differ taken_all.symm
  · intro two
    obtain ⟨k, rounded, atLeast, -⟩ := roundupPowerOfTwo_spec pos
    have one : 1 ≤ k := by
      rcases k with _ | k
      · simp at atLeast
        omega
      · omega
    intro s reach
    rw [AtomicQ.create, rounded] at reach
    exact (Inv.reachable mem one none reach).delivered

theorem create_one_not_delivered :
    ¬ ∀ s, Reaches step (QueueSystem.start (AtomicQ.create (fun _ => 0) 1) : QueueSystem Bool Nat) s → Delivered s :=
  fun delivers => absurd ((create_delivered_iff (fun _ => 0) Nat.one_pos).mp delivers) (by decide)

end Guarantees

end Libfabric.AtomicQueue
