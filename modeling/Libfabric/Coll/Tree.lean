import Libfabric.Coll.Ring
import Libfabric.Lib.Bits

/-! The binomial tree of `coll_do_scatter`. Ranks are counted from the root;
relative rank `c > 0` receives from `c` less its lowest set bit the blocks
`c .. c + v - 1` of the root's buffer in relative order, where
`v = util_binomial_tree_values_to_recv(c, numranks)`, keeps the first and
passes the others on to its children `c + 2 ^ i` for the powers of two below
that bit. -/
namespace Libfabric.Coll.Blocks

open Bits

/-- The rank `r` places after `root` on a ring of `n`. -/
def treeRank (n root r : Nat) : Nat := (r + root) % n

section Ranks

variable {n root r : Nat}

theorem treeRank_eq (hroot : root < n) (hr : r < n) :
    treeRank n root r = if r + root < n then r + root else r + root - n := by
  unfold treeRank
  split
  · exact Nat.mod_eq_of_lt ‹_›
  · rw [Nat.mod_eq_sub_mod (by omega), Nat.mod_eq_of_lt (by omega)]

theorem treeRank_lt (hroot : root < n) (hr : r < n) : treeRank n root r < n := by
  rw [treeRank_eq hroot hr]
  split <;> omega

theorem treeRank_zero (hroot : root < n) : treeRank n root 0 = root := by
  rw [treeRank, Nat.zero_add, Nat.mod_eq_of_lt hroot]

theorem relative_treeRank (hroot : root < n) (hr : r < n) :
    (if treeRank n root r ≥ root then treeRank n root r - root else treeRank n root r + n - root) = r := by
  rw [treeRank_eq hroot hr]
  split_ifs <;> omega

theorem treeRank_inj {r' : Nat} (hroot : root < n) (hr : r < n) (hr' : r' < n)
    (same : treeRank n root r = treeRank n root r') : r = r' := by
  rw [treeRank_eq hroot hr, treeRank_eq hroot hr'] at same
  split_ifs at same <;> omega

theorem treeRank_eq_root_iff (hroot : root < n) (hr : r < n) : treeRank n root r = root ↔ r = 0 := by
  rw [treeRank_eq hroot hr]
  split <;> omega

theorem exists_treeRank {k : Nat} (hroot : root < n) (hk : k < n) : ∃ r < n, treeRank n root r = k := by
  have inside : (if k ≥ root then k - root else k + n - root) < n := by split <;> omega
  refine ⟨_, inside, ?_⟩
  rw [treeRank_eq hroot inside]
  split_ifs <;> omega

theorem treeRank_sub {mask : Nat} (hroot : root < n) (hr : r < n) (le : mask ≤ r) :
    (if treeRank n root r ≥ mask then treeRank n root r - mask else treeRank n root r + n - mask) =
      treeRank n root (r - mask) := by
  rw [treeRank_eq hroot hr, treeRank_eq hroot (by omega)]
  split_ifs <;> omega

theorem treeRank_add {mask : Nat} (hroot : root < n) (inside : r + mask < n) :
    (if treeRank n root r + mask ≥ n then treeRank n root r + mask - n else treeRank n root r + mask) =
      treeRank n root (r + mask) := by
  rw [treeRank_eq hroot (by omega), treeRank_eq hroot inside]
  split_ifs <;> omega

end Ranks

/-! ## The loops of `coll_do_scatter` in closed form -/

section Loops

variable {B : Type} (collId localRank n count : Nat)

/-- The sends of `coll_do_scatter` for the masks `2 ^ (j - 1)` down to `1`:
each child gets the blocks from its own up to the next child's. -/
def scatterSends (r : Nat) (sendData : B) : Nat → List (CollItem B)
  | 0 => []
  | j + 1 =>
      (if r + 2 ^ j < n then
        [collSchedSend collId localRank
          (if localRank + 2 ^ j ≥ n then localRank + 2 ^ j - n else localRank + 2 ^ j)
          ⟨sendData, count * 2 ^ j⟩ (count * min (2 ^ j) (n - r - 2 ^ j)) true]
      else []) ++ scatterSends r sendData j

theorem scatterSendLoop_zero (r : Nat) (sendData : B) (fuel curCnt : Nat) :
    scatterSendLoop collId localRank n count r sendData fuel 0 curCnt = [] := by
  cases fuel <;> simp [scatterSendLoop]

/-- From the mask below `2 ^ j`, with the blocks up to `2 ^ j` or the last
rank still to send, the send loop is `scatterSends`: each send leaves the
blocks below its mask, so the count left matches the next mask. -/
theorem scatterSendLoop_eq (r : Nat) (sendData : B) :
    ∀ j fuel, j ≤ fuel →
      scatterSendLoop collId localRank n count r sendData fuel (2 ^ j >>> 1) (count * min (2 ^ j) (n - r)) =
        scatterSends collId localRank n count r sendData j := by
  intro j
  induction j with
  | zero =>
      intro fuel _
      exact scatterSendLoop_zero collId localRank n count r sendData fuel _
  | succ j ih =>
      intro fuel enough
      obtain ⟨fuel, rfl⟩ : ∃ f, fuel = f + 1 := ⟨fuel - 1, by omega⟩
      have half : 2 ^ (j + 1) >>> 1 = 2 ^ j := by
        rw [Nat.shiftRight_eq_div_pow, Nat.pow_succ, Nat.pow_one, Nat.mul_div_cancel _ (by decide)]
      have double : 2 ^ (j + 1) = 2 * 2 ^ j := by rw [Nat.pow_succ, Nat.mul_comm]
      rw [half, scatterSendLoop, if_pos (Nat.two_pow_pos j), scatterSends]
      by_cases child : r + 2 ^ j < n
      · have sendCnt : count * min (2 ^ (j + 1)) (n - r) - count * 2 ^ j = count * min (2 ^ j) (n - r - 2 ^ j) := by
          rw [← Nat.mul_sub]
          congr 1
          omega
        have left : count * min (2 ^ (j + 1)) (n - r) - count * min (2 ^ j) (n - r - 2 ^ j) =
            count * min (2 ^ j) (n - r) := by
          rw [← Nat.mul_sub]
          congr 1
          omega
        simp only [if_pos child, sendCnt, left, ih fuel (by omega), List.singleton_append]
      · have same : count * min (2 ^ (j + 1)) (n - r) = count * min (2 ^ j) (n - r) := by
          congr 1
          omega
        simp only [if_neg child, same, ih fuel (by omega), List.nil_append]

theorem scatterRecvLoop_root (curCnt : Nat) (result temp : B) :
    ∀ fuel i, n ≤ 2 ^ (i + fuel) → ∃ j, j ≤ i + fuel ∧ n ≤ 2 ^ j ∧
      scatterRecvLoop collId localRank n count 0 curCnt result temp fuel (2 ^ i) = (2 ^ j, []) := by
  intro fuel
  induction fuel with
  | zero => exact fun i enough => ⟨i, Nat.le_refl i, enough, rfl⟩
  | succ fuel ih =>
      intro i enough
      rw [scatterRecvLoop]
      by_cases more : 2 ^ i < n
      · obtain ⟨j, bound, top, loop⟩ := ih (i + 1) (by rw [show i + 1 + fuel = i + (fuel + 1) by omega]; exact enough)
        refine ⟨j, by omega, top, ?_⟩
        rw [if_pos more, if_neg (by simp), Nat.shiftLeft_eq, Nat.pow_one, ← Nat.pow_succ, loop]
      · exact ⟨i, by omega, by omega, by rw [if_neg more]⟩

theorem scatterRecvLoop_child {t m : Nat} (curCnt : Nat) (result temp : B) (hr : 2 ^ t * (2 * m + 1) < n) :
    ∀ fuel i, i ≤ t → t < i + fuel →
      scatterRecvLoop collId localRank n count (2 ^ t * (2 * m + 1)) curCnt result temp fuel (2 ^ i) =
        (2 ^ t,
          [let remoteRank := if localRank ≥ 2 ^ t then localRank - 2 ^ t else localRank + n - 2 ^ t
           if 2 ^ t * (2 * m + 1) % 2 = 1 then collSchedRecv collId remoteRank ⟨result, 0⟩ count true
           else collSchedRecv collId remoteRank ⟨temp, 0⟩ curCnt true]) := by
  intro fuel
  induction fuel with
  | zero => intro i _ _; omega
  | succ fuel ih =>
      intro i le enough
      have below : 2 ^ i < n :=
        Nat.lt_of_le_of_lt (Nat.le_trans (Nat.pow_le_pow_right (by decide) le) (Nat.le_mul_of_pos_right _ (by omega))) hr
      rw [scatterRecvLoop, if_pos below]
      rcases Nat.lt_or_eq_of_le le with lt | rfl
      · rw [if_neg (by rw [and_two_pow_of_lt lt]; simp), Nat.shiftLeft_eq, Nat.pow_one, ← Nat.pow_succ,
          ih (i + 1) lt (by omega)]
      · rw [if_pos (by rw [and_two_pow_self]; exact Nat.pos_iff_ne_zero.mp (Nat.two_pow_pos _))]

end Loops

theorem two_pow_mul_odd_mod_two (t m : Nat) : 2 ^ t * (2 * m + 1) % 2 = if t = 0 then 1 else 0 := by
  cases t with
  | zero => simp [Nat.add_mod]
  | succ t => rw [if_neg (Nat.succ_ne_zero t), Nat.pow_succ, Nat.mul_comm (2 ^ t) 2, Nat.mul_assoc, Nat.mul_mod_right]

theorem utilBinomialTreeValuesToRecv_eq {t m : Nat} (small : 2 ^ t * (2 * m + 1) < 2 ^ 64) (numranks : Nat) :
    utilBinomialTreeValuesToRecv (2 ^ t * (2 * m + 1)) numranks = min (2 ^ t) (numranks - 2 ^ t * (2 * m + 1)) := by
  have := Nat.two_pow_pos t
  rw [utilBinomialTreeValuesToRecv, ofiLsb_two_pow_mul_odd small, Nat.add_sub_cancel, Nat.one_shiftLeft, Nat.min_def]
  split_ifs <;> omega

section Shape

variable {B : Type} (collId : Nat) {n count root : Nat}

theorem collDoScatter_root (big : n ≤ 2 ^ 64) (pos : 0 < count) (data result temp : B) :
    ∃ j, j ≤ 64 ∧ n ≤ 2 ^ j ∧ collDoScatter collId root n count root data result temp =
      (if root ≠ 0 then some (count * n) else none,
        (if root ≠ 0 then
          [collSchedCopy ⟨data, count * root⟩ ⟨temp, 0⟩ ((n - root) * count) true,
            collSchedCopy ⟨data, 0⟩ ⟨temp, (n - root) * count⟩ (root * count) true]
        else []) ++
        scatterSends collId root n count 0 (if root = 0 then data else temp) j ++
        [collSchedCopy ⟨if root = 0 then data else temp, 0⟩ ⟨result, 0⟩ count true]) := by
  obtain ⟨j, bound, top, loop⟩ :=
    scatterRecvLoop_root collId root n count (count * n) result temp 64 0 (by rw [Nat.zero_add]; exact big)
  rw [Nat.pow_zero] at loop
  have cur : count * min (2 ^ j) (n - 0) = count * n := by rw [Nat.sub_zero, Nat.min_eq_right top]
  have sends := scatterSendLoop_eq collId root n count 0 (if root = 0 then data else temp) j 64 bound
  rw [cur] at sends
  refine ⟨j, bound, top, ?_⟩
  simp only [collDoScatter, ge_iff_le, Nat.le_refl, if_true, Nat.sub_self, if_neg (Nat.pos_iff_ne_zero.mp pos),
    ne_eq, not_true_eq_false, false_and, if_false, true_and, loop, List.append_nil, Nat.zero_mod]
  by_cases zero : root = 0
  · simpa [zero] using sends
  · simpa [zero] using sends

/-- A child's schedule: the receive from its parent, into `result` at a leaf
and into `*temp` at a branch, the sends to its own children, and at a branch
the copy of its own block. -/
theorem collDoScatter_child (big : n ≤ 2 ^ 64) (hroot : root < n) (pos : 0 < count) {t m : Nat}
    (hr : 2 ^ t * (2 * m + 1) < n) (data result temp : B) :
    collDoScatter collId (treeRank n root (2 ^ t * (2 * m + 1))) n count root data result temp =
      (if t = 0 then none else some (count * utilBinomialTreeValuesToRecv (2 ^ t * (2 * m + 1)) n),
        [if t = 0 then collSchedRecv collId (treeRank n root (2 ^ t * (2 * m + 1) - 2 ^ t)) ⟨result, 0⟩ count true
          else collSchedRecv collId (treeRank n root (2 ^ t * (2 * m + 1) - 2 ^ t)) ⟨temp, 0⟩
            (count * utilBinomialTreeValuesToRecv (2 ^ t * (2 * m + 1)) n) true] ++
        scatterSends collId (treeRank n root (2 ^ t * (2 * m + 1))) n count (2 ^ t * (2 * m + 1)) temp t ++
        (if t = 0 then [] else [collSchedCopy ⟨temp, 0⟩ ⟨result, 0⟩ count true])) := by
  have small : 2 ^ t * (2 * m + 1) < 2 ^ 64 := Nat.lt_of_lt_of_le hr big
  have tSmall : t < 64 :=
    (Nat.pow_lt_pow_iff_right (by decide)).mp (Nat.lt_of_le_of_lt (Nat.le_mul_of_pos_right _ (by omega)) small)
  have low : 2 ^ t ≤ 2 ^ t * (2 * m + 1) := Nat.le_mul_of_pos_right _ (by omega)
  have notRoot : treeRank n root (2 ^ t * (2 * m + 1)) ≠ root := by
    rw [Ne, treeRank_eq_root_iff hroot hr]
    exact Nat.pos_iff_ne_zero.mp (Nat.lt_of_lt_of_le (Nat.two_pow_pos t) low)
  have loop : ∀ cur, scatterRecvLoop collId (treeRank n root (2 ^ t * (2 * m + 1))) n count (2 ^ t * (2 * m + 1))
      cur result temp 64 1 = (2 ^ t,
        [if 2 ^ t * (2 * m + 1) % 2 = 1 then
            collSchedRecv collId (treeRank n root (2 ^ t * (2 * m + 1) - 2 ^ t)) ⟨result, 0⟩ count true
          else collSchedRecv collId (treeRank n root (2 ^ t * (2 * m + 1) - 2 ^ t)) ⟨temp, 0⟩ cur true]) := by
    intro cur
    have loop := scatterRecvLoop_child collId (treeRank n root (2 ^ t * (2 * m + 1))) n count cur result temp hr 64 0
      (Nat.zero_le t) (by omega)
    rwa [Nat.pow_zero, treeRank_sub hroot hr low] at loop
  have values := utilBinomialTreeValuesToRecv_eq small n
  simp only [collDoScatter, relative_treeRank hroot hr, if_neg (Nat.pos_iff_ne_zero.mp pos), notRoot,
    Ne.symm notRoot, false_and, if_false, List.nil_append, loop, two_pow_mul_odd_mod_two]
  by_cases leaf : t = 0
  · subst leaf
    simp [scatterSendLoop_zero, scatterSends]
  · have sends := scatterSendLoop_eq collId (treeRank n root (2 ^ t * (2 * m + 1))) n count (2 ^ t * (2 * m + 1))
      temp t 64 tSmall.le
    rw [← values] at sends
    simp [leaf, sends, Nat.pos_iff_ne_zero.mp (Nat.lt_of_lt_of_le (Nat.two_pow_pos t) low)]

end Shape

/-! ## Who sends to whom -/

/-- The blocks relative rank `c` holds once it has received: all `numranks`
at the root, `util_binomial_tree_values_to_recv(c, numranks)` below it. -/
def scatterHeld (n c : Nat) : Nat := if c = 0 then n else utilBinomialTreeValuesToRecv c n

/-- The sends from relative rank `r` run over the masks below `2 ^ j`: at the
root every power of two below `numranks`, below it those below its lowest
bit. -/
def TreeSpan (n r j : Nat) : Prop := (r = 0 ∧ n ≤ 2 ^ j) ∨ (0 < r ∧ lowBit r = 2 ^ j)

section Children

variable {n : Nat}

theorem scatterHeld_child {c : Nat} (big : n ≤ 2 ^ 64) (pos : 0 < c) (hc : c < n) :
    scatterHeld n c = min (lowBit c) (n - c) := by
  obtain ⟨t, m, rfl⟩ := exists_two_pow_mul_odd pos
  rw [scatterHeld, if_neg (by omega), utilBinomialTreeValuesToRecv_eq (by omega), lowBit_two_pow_mul_odd]

theorem TreeSpan.held {r j : Nat} (span : TreeSpan n r j) (big : n ≤ 2 ^ 64) (hr : r < n) :
    scatterHeld n r = min (2 ^ j) (n - r) := by
  rcases span with ⟨rfl, top⟩ | ⟨pos, low⟩
  · rw [scatterHeld, if_pos rfl, Nat.sub_zero, Nat.min_eq_right top]
  · rw [scatterHeld_child big pos hr, low]

theorem scatterHeld_le {c : Nat} (big : n ≤ 2 ^ 64) (hc : c < n) : scatterHeld n c ≤ n - c := by
  rcases Nat.eq_zero_or_pos c with rfl | pos
  · rw [scatterHeld, if_pos rfl]
    omega
  · rw [scatterHeld_child big pos hc]
    exact Nat.min_le_right _ _

theorem count_mul_scatterHeld_lt {count c : Nat} (big : n ≤ 2 ^ 64) (small : count * n < 2 ^ 31) (hc : c < n) :
    count * scatterHeld n c < 2 ^ 31 :=
  Nat.lt_of_le_of_lt (Nat.mul_le_mul_left count (Nat.le_trans (scatterHeld_le big hc) (Nat.sub_le n c))) small

theorem scatterHeld_pos {c : Nat} (big : n ≤ 2 ^ 64) (hc : c < n) : 0 < scatterHeld n c := by
  rcases Nat.eq_zero_or_pos c with rfl | pos
  · rw [scatterHeld, if_pos rfl]
    exact hc
  · rw [scatterHeld_child big pos hc]
    exact Nat.lt_min.mpr ⟨lowBit_pos pos, by omega⟩

theorem TreeSpan.child_iff {r j c : Nat} (span : TreeSpan n r j) (hc : c < n) :
    (∃ i < j, r + 2 ^ i < n ∧ c = r + 2 ^ i) ↔ 0 < c ∧ c - lowBit c = r := by
  constructor
  · rintro ⟨i, lt, _, rfl⟩
    refine ⟨Nat.lt_of_lt_of_le (Nat.two_pow_pos i) (Nat.le_add_left _ _),
      (sub_lowBit_eq_iff (Nat.lt_of_lt_of_le (Nat.two_pow_pos i) (Nat.le_add_left _ _))).mpr ⟨i, rfl, ?_⟩⟩
    rcases span with ⟨rfl, _⟩ | ⟨_, low⟩
    · exact .inl rfl
    · exact .inr (by rw [low]; exact Nat.pow_lt_pow_right (by decide) lt)
  · rintro ⟨pos, parent⟩
    obtain ⟨i, rfl, below⟩ := (sub_lowBit_eq_iff pos).mp parent
    refine ⟨i, ?_, hc, rfl⟩
    rcases span with ⟨rfl, top⟩ | ⟨_, low⟩
    · exact (Nat.pow_lt_pow_iff_right (show 1 < 2 by decide)).mp (show 2 ^ i < 2 ^ j by omega)
    · rcases below with rfl | below
      · omega
      · rw [low] at below
        exact (Nat.pow_lt_pow_iff_right (by decide)).mp below

theorem scatterHeld_of_parent {r c : Nat} (big : n ≤ 2 ^ 64) (hc : c < n) (pos : 0 < c) (parent : c - lowBit c = r) :
    min (c - r) (n - c) = scatterHeld n c := by
  rw [scatterHeld_child big pos hc, ← parent, Nat.sub_sub_self lowBit_le]

theorem send_inside {r i j : Nat} (lt : i < j) (child : r + 2 ^ i < n) :
    2 ^ i + min (2 ^ i) (n - r - 2 ^ i) ≤ min (2 ^ j) (n - r) := by
  have : 2 ^ (i + 1) ≤ 2 ^ j := Nat.pow_le_pow_right (by decide) lt
  rw [Nat.pow_succ] at this
  omega

end Children

section Sends

variable {B : Type} (collId : Nat) {n count root : Nat}

theorem mem_scatterSends {localRank r : Nat} {sendData : B} {e : CollItem B} :
    ∀ {j}, e ∈ scatterSends collId localRank n count r sendData j →
      ∃ i < j, r + 2 ^ i < n ∧ e = collSchedSend collId localRank
        (if localRank + 2 ^ i ≥ n then localRank + 2 ^ i - n else localRank + 2 ^ i)
        ⟨sendData, count * 2 ^ i⟩ (count * min (2 ^ i) (n - r - 2 ^ i)) true
  | 0, mem => by simp [scatterSends] at mem
  | j + 1, mem => by
      rw [scatterSends, List.mem_append] at mem
      rcases mem with head | rest
      · split at head
        · exact ⟨j, Nat.lt_succ_self j, ‹_›, List.mem_singleton.mp head⟩
        · simp at head
      · obtain ⟨i, lt, child, rfl⟩ := mem_scatterSends rest
        exact ⟨i, by omega, child, rfl⟩

theorem filterMap_scatterSends {β : Type} (g : CollXfer B → β) (hroot : root < n) {r c : Nat} (hc : c < n)
    (sendData : B) : ∀ j,
    (scatterSends collId (treeRank n root r) n count r sendData j).filterMap
        (·.work.sendWith g (treeRank n root c)) =
      if ∃ i < j, r + 2 ^ i < n ∧ c = r + 2 ^ i then
        [g ⟨collFormTag collId (treeRank n root r), ⟨sendData, count * (c - r)⟩, int32Of (count * min (c - r) (n - c)),
          treeRank n root c⟩]
      else [] := by
  intro j
  induction j with
  | zero => simp [scatterSends]
  | succ j ih =>
      rw [scatterSends, List.filterMap_append, ih]
      -- the mask `2 ^ j` reaches `c` exactly when the new send goes to it
      by_cases child : r + 2 ^ j < n
      · rw [if_pos child, treeRank_add hroot child]
        simp only [collSchedSend, List.filterMap_cons, List.filterMap_nil, CollWork.sendWith]
        by_cases here : c = r + 2 ^ j
        · subst here
          have fresh : ¬∃ i < j, r + 2 ^ i < n ∧ r + 2 ^ j = r + 2 ^ i := by
            rintro ⟨i, lt, -, same⟩
            have : 2 ^ i < 2 ^ j := Nat.pow_lt_pow_right (by decide) lt
            omega
          rw [if_pos rfl, if_neg fresh,
            if_pos (show ∃ i < j + 1, r + 2 ^ i < n ∧ r + 2 ^ j = r + 2 ^ i from ⟨j, Nat.lt_succ_self j, child, rfl⟩)]
          simp [Nat.sub_sub]
        · have other : treeRank n root (r + 2 ^ j) ≠ treeRank n root c :=
            fun at_ => here (treeRank_inj hroot hc child at_.symm)
          rw [if_neg other]
          simp only [List.nil_append, Nat.exists_lt_succ_right, here, and_false, or_false]
      · rw [if_neg child, List.filterMap_nil, List.nil_append]
        simp only [Nat.exists_lt_succ_right, child, false_and, or_false]

theorem sendCountsTo_scatterSends (big : n ≤ 2 ^ 64) (small : count * n < 2 ^ 31) (hroot : root < n) {r j c : Nat}
    (span : TreeSpan n r j) (hc : c < n) (sendData : B) :
    sendCountsTo (scatterSends collId (treeRank n root r) n count r sendData j) (treeRank n root c) =
      if 0 < c ∧ c - lowBit c = r then [count * scatterHeld n c] else [] := by
  simp only [sendCountsTo, CollWork.sendTo_eq_sendWith]
  rw [filterMap_scatterSends collId (fun x => sizeOfInt x.count) hroot hc sendData j]
  by_cases child : 0 < c ∧ c - lowBit c = r
  · rw [if_pos ((span.child_iff hc).mpr child), if_pos child, scatterHeld_of_parent big hc child.1 child.2,
      sizeOfInt_int32Of (count_mul_scatterHeld_lt big small hc)]
  · rw [if_neg (fun reached => child ((span.child_iff hc).mp reached)), if_neg child]

theorem recvCountsFrom_scatterSends {localRank r j : Nat} (sendData : B) (src : Nat) :
    recvCountsFrom (scatterSends collId localRank n count r sendData j) src = [] := by
  rw [recvCountsFrom, List.filterMap_eq_nil_iff]
  intro e mem
  obtain ⟨i, -, -, rfl⟩ := mem_scatterSends collId mem
  rfl

theorem scatterSends_count_pos (pos : 0 < count) (small : count * n < 2 ^ 31) {localRank r j : Nat} {sendData : B}
    {e : CollItem B} (mem : e ∈ scatterSends collId localRank n count r sendData j) {x : CollXfer B}
    (send : e.work = .send x) : 0 < x.count := by
  obtain ⟨i, -, child, rfl⟩ := mem_scatterSends collId mem
  cases send
  have fits : count * min (2 ^ i) (n - r - 2 ^ i) ≤ count * n := Nat.mul_le_mul_left count (by omega)
  exact int32Of_pos (Nat.mul_pos pos (Nat.lt_min.mpr ⟨Nat.two_pow_pos i, by omega⟩)) (by omega)

theorem scatterSends_inside (small : count * n < 2 ^ 31) {localRank r j : Nat} {sendData : B} {alloc : B → Nat}
    (room : count * min (2 ^ j) (n - r) ≤ alloc sendData) :
    QueueInside alloc (scatterSends collId localRank n count r sendData j) := by
  intro e mem
  obtain ⟨i, lt, child, rfl⟩ := mem_scatterSends collId mem
  refine ⟨?_, trivial⟩
  have fits : count * min (2 ^ i) (n - r - 2 ^ i) ≤ count * n := Nat.mul_le_mul_left count (by omega)
  show count * 2 ^ i + sizeOfInt (int32Of (count * min (2 ^ i) (n - r - 2 ^ i))) ≤ alloc sendData
  rw [sizeOfInt_int32Of (by omega)]
  rw [← Nat.mul_add]
  exact Nat.le_trans (Nat.mul_le_mul_left count (send_inside lt child)) room

end Sends

/-! ## A rank's schedule: counts and regions -/

section Counts

variable {B : Type} (collId : Nat) {n count root : Nat}

theorem recvCountsFrom_recv (x : CollXfer B) (fence : Bool) (src : Nat) :
    recvCountsFrom [⟨.recv x, fence⟩] src = if x.remoteRank = src then [sizeOfInt x.count] else [] := by
  by_cases from_ : x.remoteRank = src <;> simp [recvCountsFrom, CollWork.recvFrom, from_]

theorem sendCountsTo_collDoScatter (big : n ≤ 2 ^ 64) (small : count * n < 2 ^ 31) (hroot : root < n) (pos : 0 < count)
    {b c : Nat} (hb : b < n) (hc : c < n) (data result temp : B) :
    sendCountsTo (collDoScatter collId (treeRank n root b) n count root data result temp).2 (treeRank n root c) =
      if 0 < c ∧ c - lowBit c = b then [count * scatterHeld n c] else [] := by
  rcases Nat.eq_zero_or_pos b with rfl | pos'
  · obtain ⟨j, -, top, shape⟩ := collDoScatter_root collId big pos data result temp
    have sends : sendCountsTo (scatterSends collId (treeRank n root 0) n count 0 (if root = 0 then data else temp) j)
        (treeRank n root c) = if 0 < c ∧ c - lowBit c = 0 then [count * scatterHeld n c] else [] :=
      sendCountsTo_scatterSends collId big small hroot (.inl ⟨rfl, top⟩) hc _
    rw [treeRank_zero hroot] at sends ⊢
    rw [shape, sendCountsTo_append, sendCountsTo_append, sends]
    split <;> simp [sendCountsTo, collSchedCopy, CollWork.sendTo]
  · obtain ⟨t, m, rfl⟩ := exists_two_pow_mul_odd pos'
    have sends : sendCountsTo (scatterSends collId (treeRank n root (2 ^ t * (2 * m + 1))) n count
          (2 ^ t * (2 * m + 1)) temp t) (treeRank n root c) =
        if 0 < c ∧ c - lowBit c = 2 ^ t * (2 * m + 1) then [count * scatterHeld n c] else [] :=
      sendCountsTo_scatterSends collId big small hroot (.inr ⟨pos', lowBit_two_pow_mul_odd t m⟩) hc temp
    rw [collDoScatter_child collId big hroot pos hb, sendCountsTo_append, sendCountsTo_append, sends]
    split <;> simp [sendCountsTo, collSchedCopy, collSchedRecv, CollWork.sendTo]

theorem recvCountsFrom_collDoScatter (big : n ≤ 2 ^ 64) (small : count * n < 2 ^ 31) (hroot : root < n)
    (pos : 0 < count) {b c : Nat} (hb : b < n) (hc : c < n) (data result temp : B) :
    recvCountsFrom (collDoScatter collId (treeRank n root c) n count root data result temp).2 (treeRank n root b) =
      if 0 < c ∧ c - lowBit c = b then [count * scatterHeld n c] else [] := by
  rcases Nat.eq_zero_or_pos c with rfl | pos'
  · obtain ⟨j, -, -, shape⟩ := collDoScatter_root collId big pos data result temp
    rw [treeRank_zero hroot, shape, recvCountsFrom_append, recvCountsFrom_append, recvCountsFrom_scatterSends]
    split <;> simp [recvCountsFrom, collSchedCopy, CollWork.recvFrom]
  · obtain ⟨t, m, rfl⟩ := exists_two_pow_mul_odd pos'
    have parent : treeRank n root (2 ^ t * (2 * m + 1) - 2 ^ t) = treeRank n root b ↔
        2 ^ t * (2 * m + 1) - lowBit (2 ^ t * (2 * m + 1)) = b := by
      rw [lowBit_two_pow_mul_odd]
      exact ⟨treeRank_inj hroot (Nat.lt_of_le_of_lt (Nat.sub_le _ _) hc) hb, fun same => by rw [same]⟩
    have held : scatterHeld n (2 ^ t * (2 * m + 1)) = utilBinomialTreeValuesToRecv (2 ^ t * (2 * m + 1)) n :=
      if_neg (by omega)
    -- a leaf receives `count` into `result`, a branch `cur_cnt` into `*temp`: both are its blocks
    have recv : recvCountsFrom
        [if t = 0 then collSchedRecv collId (treeRank n root (2 ^ t * (2 * m + 1) - 2 ^ t)) ⟨result, 0⟩ count true
          else collSchedRecv collId (treeRank n root (2 ^ t * (2 * m + 1) - 2 ^ t)) ⟨temp, 0⟩
            (count * utilBinomialTreeValuesToRecv (2 ^ t * (2 * m + 1)) n) true] (treeRank n root b) =
        if treeRank n root (2 ^ t * (2 * m + 1) - 2 ^ t) = treeRank n root b then
          [count * utilBinomialTreeValuesToRecv (2 ^ t * (2 * m + 1)) n]
        else [] := by
      split
      · rename_i leaf
        subst leaf
        have one : utilBinomialTreeValuesToRecv (2 ^ 0 * (2 * m + 1)) n = 1 := by
          rw [utilBinomialTreeValuesToRecv_eq (by omega), Nat.pow_zero]
          omega
        have countSmall : count < 2 ^ 31 := Nat.lt_of_le_of_lt (Nat.le_mul_of_pos_right count (by omega)) small
        rw [collSchedRecv, recvCountsFrom_recv, one, Nat.mul_one, sizeOfInt_int32Of countSmall]
      · rw [collSchedRecv, recvCountsFrom_recv, ← held, sizeOfInt_int32Of (count_mul_scatterHeld_lt big small hc)]
    have own : recvCountsFrom (if t = 0 then [] else [collSchedCopy (B := B) ⟨temp, 0⟩ ⟨result, 0⟩ count true])
        (treeRank n root b) = [] := by
      split <;> rfl
    rw [collDoScatter_child collId big hroot pos hc, recvCountsFrom_append, recvCountsFrom_append,
      recvCountsFrom_scatterSends, own, List.append_nil, List.append_nil, recv, held]
    simp only [parent, pos', true_and]

theorem collDoScatter_counts_match (big : n ≤ 2 ^ 64) (small : count * n < 2 ^ 31) (hroot : root < n)
    (pos : 0 < count) {a b : Nat} (ha : a < n) (hb : b < n) (data result temp : B) :
    sendCountsTo (collDoScatter collId b n count root data result temp).2 a =
      recvCountsFrom (collDoScatter collId a n count root data result temp).2 b := by
  obtain ⟨rb, hrb, rfl⟩ := exists_treeRank hroot hb
  obtain ⟨ra, hra, rfl⟩ := exists_treeRank hroot ha
  rw [sendCountsTo_collDoScatter collId big small hroot pos hrb hra,
    recvCountsFrom_collDoScatter collId big small hroot pos hrb hra]

theorem collDoScatter_count_pos (big : n ≤ 2 ^ 64) (small : count * n < 2 ^ 31) (hroot : root < n) (pos : 0 < count)
    {k : Nat} (hk : k < n)
    (data result temp : B) {e : CollItem B} (mem : e ∈ (collDoScatter collId k n count root data result temp).2)
    {x : CollXfer B} (send : e.work = .send x) : 0 < x.count := by
  obtain ⟨r, hr, rfl⟩ := exists_treeRank hroot hk
  rcases Nat.eq_zero_or_pos r with rfl | pos'
  · obtain ⟨j, -, -, shape⟩ := collDoScatter_root collId big pos data result temp
    rw [treeRank_zero hroot, shape] at mem
    simp only [List.mem_append, List.mem_singleton] at mem
    rcases mem with (copies | sends) | rfl
    · split at copies
      · simp only [List.mem_cons, List.not_mem_nil, or_false] at copies
        rcases copies with rfl | rfl <;> cases send
      · simp at copies
    · exact scatterSends_count_pos collId pos small sends send
    · cases send
  · obtain ⟨t, m, rfl⟩ := exists_two_pow_mul_odd pos'
    rw [collDoScatter_child collId big hroot pos hr] at mem
    simp only [List.mem_append, List.mem_singleton] at mem
    rcases mem with (recv | sends) | own
    · split at recv <;> (subst recv; cases send)
    · exact scatterSends_count_pos collId pos small sends send
    · split at own
      · simp at own
      · rw [List.mem_singleton] at own
        subst own
        cases send

theorem reorder_inside (hroot : root < n) (small : count * n < 2 ^ 31) {data temp : B} {alloc : B → Nat}
    (hdata : alloc data = n * count) (htemp : alloc temp = count * n) :
    QueueInside alloc [collSchedCopy ⟨data, count * root⟩ ⟨temp, 0⟩ ((n - root) * count) true,
      collSchedCopy ⟨data, 0⟩ ⟨temp, (n - root) * count⟩ (root * count) true] := by
  have whole : root * count + (n - root) * count = n * count := by
    rw [← Nat.add_mul, Nat.add_sub_cancel' hroot.le]
  have turn : count * root = root * count := Nat.mul_comm count root
  have same : count * n = n * count := Nat.mul_comm count n
  have tail : (n - root) * count < 2 ^ 31 := by omega
  have head : root * count < 2 ^ 31 := by omega
  intro e mem
  simp only [List.mem_cons, List.not_mem_nil, or_false] at mem
  rcases mem with rfl | rfl
  · simp only [collSchedCopy, CollWork.reads, CollWork.writes, Inside, hdata, htemp, sizeOfInt_int32Of tail]
    omega
  · simp only [collSchedCopy, CollWork.reads, CollWork.writes, Inside, hdata, htemp, sizeOfInt_int32Of head]
    omega

/-- Every region a rank's schedule reads or writes lies inside its buffer:
the root's `count * numranks` elements, the `count` of `result`, and the
elements `*temp` is allocated with. -/
theorem collDoScatter_inside (big : n ≤ 2 ^ 64) (small : count * n < 2 ^ 31) (hroot : root < n) (pos : 0 < count)
    {k : Nat} (hk : k < n)
    (data result temp : B) {alloc : B → Nat} (hdata : alloc data = n * count) (hresult : alloc result = count)
    (htemp : alloc temp = ((collDoScatter collId k n count root data result temp).1).getD 0) :
    QueueInside alloc (collDoScatter collId k n count root data result temp).2 := by
  obtain ⟨r, hr, rfl⟩ := exists_treeRank hroot hk
  rcases Nat.eq_zero_or_pos r with rfl | pos'
  · obtain ⟨j, -, top, shape⟩ := collDoScatter_root collId big pos data result temp
    rw [treeRank_zero hroot, shape] at htemp ⊢
    have held : alloc (if root = 0 then data else temp) = count * n := by
      split
      · rw [hdata, Nat.mul_comm]
      · rename_i other
        simp only [htemp, ne_eq, other, not_false_eq_true, if_true, Option.getD_some]
    have one : count ≤ count * n := Nat.le_mul_of_pos_right count (by omega)
    refine ((QueueInside.append ?_ (scatterSends_inside collId small ?_)).append ?_)
    · split
      · rename_i other
        simp only [ne_eq, other, not_false_eq_true, if_true, Option.getD_some] at htemp
        exact reorder_inside hroot small hdata htemp
      · intro e mem
        simp at mem
    · rw [held, Nat.sub_zero, Nat.min_eq_right top]
    · intro e mem
      rw [List.mem_singleton] at mem
      subst mem
      simp only [collSchedCopy, CollWork.reads, CollWork.writes, Inside, held, hresult,
        sizeOfInt_int32Of (Nat.lt_of_le_of_lt one small)]
      omega
  · obtain ⟨t, m, rfl⟩ := exists_two_pow_mul_odd pos'
    have values := utilBinomialTreeValuesToRecv_eq (show 2 ^ t * (2 * m + 1) < 2 ^ 64 by omega) n
    have countSmall : count < 2 ^ 31 := Nat.lt_of_le_of_lt (Nat.le_mul_of_pos_right count (by omega)) small
    have heldSmall := count_mul_scatterHeld_lt big small hr
    rw [scatterHeld, if_neg (by omega)] at heldSmall
    rw [collDoScatter_child collId big hroot pos hr] at htemp ⊢
    refine ((QueueInside.append ?_ ?_).append ?_)
    · intro e mem
      rw [List.mem_singleton] at mem
      subst mem
      split
      · simp only [collSchedRecv, CollWork.reads, CollWork.writes, Inside, hresult, sizeOfInt_int32Of countSmall]
        exact ⟨trivial, by omega⟩
      · rename_i branch
        simp only [if_neg branch, Option.getD_some] at htemp
        simp only [collSchedRecv, CollWork.reads, CollWork.writes, Inside, htemp, sizeOfInt_int32Of heldSmall]
        exact ⟨trivial, by omega⟩
    · by_cases leaf : t = 0
      · subst leaf
        intro e mem
        simp [scatterSends] at mem
      · simp only [if_neg leaf, Option.getD_some] at htemp
        exact scatterSends_inside collId small (by rw [htemp, values])
    · by_cases leaf : t = 0
      · intro e mem
        simp [leaf] at mem
      · simp only [if_neg leaf, Option.getD_some] at htemp
        intro e mem
        simp only [if_neg leaf, List.mem_singleton] at mem
        subst mem
        simp only [collSchedCopy, CollWork.reads, CollWork.writes, Inside, htemp, hresult, values,
          sizeOfInt_int32Of countSmall]
        have : 1 ≤ min (2 ^ t) (n - 2 ^ t * (2 * m + 1)) := Nat.le_min.mpr ⟨Nat.one_le_two_pow, by omega⟩
        exact ⟨by rw [Nat.zero_add]; exact Nat.le_mul_of_pos_right count this, by omega⟩

end Counts

/-! ## Running a rank's schedule -/

/-- The blocks relative rank `c` is to hold: the root's buffer in relative
order, from block `c` on, `scatterHeld n c` blocks. -/
def scatterBlocks {α : Type} (n count root : Nat) (data : List α) (c : Nat) : List α :=
  ((data.rotate (count * root)).drop (c * count)).take (count * scatterHeld n c)

section Blocks

variable {α : Type} {n count root : Nat} {data : List α}

theorem length_scatterBlocks (big : n ≤ 2 ^ 64) (size : data.length = n * count) {c : Nat} (hc : c < n) :
    (scatterBlocks n count root data c).length = count * scatterHeld n c := by
  have room : count * scatterHeld n c ≤ n * count - c * count := by
    rw [← Nat.sub_mul, Nat.mul_comm count]
    exact Nat.mul_le_mul_right count (scatterHeld_le big hc)
  rw [scatterBlocks, List.length_take, List.length_drop, List.length_rotate, size, Nat.min_eq_left room]

theorem take_scatterBlocks (big : n ≤ 2 ^ 64) (size : data.length = n * count) (hroot : root < n) {c : Nat}
    (hc : c < n) : (scatterBlocks n count root data c).take count = (data.drop (treeRank n root c * count)).take count := by
  rw [scatterBlocks, List.take_take, Nat.min_eq_left (Nat.le_mul_of_pos_right count (scatterHeld_pos big hc)),
    Buffer.drop_take_rotate size hroot hc, treeRank]

theorem drop_take_scatterBlocks {r c : Nat} (le : r ≤ c) :
    (((data.rotate (count * root)).drop (r * count)).drop (count * (c - r))).take (count * scatterHeld n c) =
      scatterBlocks n count root data c := by
  rw [scatterBlocks, List.drop_drop, Nat.mul_comm count (c - r), ← Nat.add_mul, Nat.add_sub_cancel' le]

end Blocks

section Run

variable {B α : Type} [DecidableEq B] (collId : Nat) {n count root : Nat}

theorem runQueue_scatterSends (big : n ≤ 2 ^ 64) (small : count * n < 2 ^ 31) (hroot : root < n)
    (inbox : Nat → List (List α))
    (s : RankRun B α) {data : List α} {r j : Nat} (span : TreeSpan n r j) (hr : r < n) (sendData : B)
    (holds : (s.bufs sendData).take (count * scatterHeld n r) = scatterBlocks n count root data r) :
    (runQueue inbox s (scatterSends collId (treeRank n root r) n count r sendData j)).bufs = s.bufs ∧
      ∀ c < n, (runQueue inbox s (scatterSends collId (treeRank n root r) n count r sendData j)).sent (treeRank n root c) =
        s.sent (treeRank n root c) ++ if 0 < c ∧ c - lowBit c = r then [scatterBlocks n count root data c] else [] := by
  rw [runQueue_of_sends inbox s (fun e mem => by obtain ⟨i, -, -, rfl⟩ := mem_scatterSends collId mem; exact ⟨_, rfl⟩)]
  refine ⟨rfl, fun c hc => ?_⟩
  simp only
  rw [filterMap_scatterSends collId _ hroot hc sendData j]
  by_cases reached : ∃ i < j, r + 2 ^ i < n ∧ c = r + 2 ^ i
  · obtain ⟨i, lt, child, at_⟩ := reached
    have parent := (span.child_iff hc).mp ⟨i, lt, child, at_⟩
    rw [if_pos ⟨i, lt, child, at_⟩, if_pos parent, scatterHeld_of_parent big hc parent.1 parent.2,
      sizeOfInt_int32Of (count_mul_scatterHeld_lt big small hc)]
    -- the region read lies inside the blocks the rank holds
    have inside : count * (c - r) + count * scatterHeld n c ≤ count * scatterHeld n r := by
      rw [← Nat.mul_add, span.held big hr, ← scatterHeld_of_parent big hc parent.1 parent.2, at_,
        Nat.add_sub_cancel_left, ← Nat.sub_sub]
      exact Nat.mul_le_mul_left count (send_inside lt child)
    rw [scatterBlocks] at holds
    simp only [readPtr]
    rw [Buffer.drop_take_of_take_eq holds inside, drop_take_scatterBlocks (by omega)]
  · rw [if_neg reached, if_neg (fun parent => reached ((span.child_iff hc).mpr parent))]

theorem runQueue_reorder (inbox : Nat → List (List α)) {init : B → List α} {data temp : B} (apart : data ≠ temp)
    (hroot : root < n) (small : count * n < 2 ^ 31) (size : (init data).length = n * count)
    (room : (init temp).length = count * n) :
    runQueue inbox (.start init)
        [collSchedCopy ⟨data, count * root⟩ ⟨temp, 0⟩ ((n - root) * count) true,
          collSchedCopy ⟨data, 0⟩ ⟨temp, (n - root) * count⟩ (root * count) true] =
      .start (Function.update init temp ((init data).rotate (count * root))) := by
  have tail : (init data).drop (count * root) = ((init data).drop (count * root)).take ((n - root) * count) := by
    rw [List.take_of_length_le (by rw [List.length_drop, size, Nat.sub_mul, Nat.mul_comm count root])]
  have tailLength : ((init data).drop (count * root)).length = (n - root) * count := by
    rw [List.length_drop, size, Nat.sub_mul, Nat.mul_comm count root]
  have whole : (init temp).length = ((init data).drop (count * root) ++ (init data).take (count * root)).length := by
    rw [List.length_append, List.length_take, tailLength, size, room, Nat.min_eq_left (by
      rw [Nat.mul_comm n]; exact Nat.mul_le_mul_left count hroot.le), Nat.mul_comm count root, ← Nat.add_mul,
      Nat.sub_add_cancel hroot.le, Nat.mul_comm]
  have tailSmall : (n - root) * count < 2 ^ 31 := by
    rw [Nat.sub_mul, Nat.mul_comm n]
    omega
  have headSmall : root * count < 2 ^ 31 := by
    rw [Nat.mul_comm]
    exact Nat.lt_of_le_of_lt (Nat.mul_le_mul_left count hroot.le) small
  simp only [runQueue_cons, runQueue_nil, runWork_collSchedCopy _ _ tailSmall, runWork_collSchedCopy _ _ headSmall,
    RankRun.start, RankRun.mk.injEq, and_true]
  funext b
  by_cases here : b = temp
  · rw [here, Function.update_self]
    simp only [writePtr, readPtr, Function.update_self, Function.update_of_ne apart, List.drop_zero,
      Nat.mul_comm root count]
    have joined := @Buffer.writeAt_writeAt_append α (init temp) ((init data).drop (count * root))
      ((init data).take (count * root)) 0 _ (Nat.zero_le _) tailLength
    rw [Nat.zero_add] at joined
    rw [← tail, joined, Buffer.writeAt_zero_of_length whole, List.rotate_eq_drop_append_take (by
        rw [size, Nat.mul_comm n]; exact Nat.mul_le_mul_left count hroot.le)]
  · simp only [writePtr, Function.update_of_ne here]

theorem collDoScatter_run_root (big : n ≤ 2 ^ 64) (small : count * n < 2 ^ 31) (hroot : root < n) (pos : 0 < count)
    {data result temp : B}
    (apart : data ≠ result ∧ data ≠ temp ∧ result ≠ temp) {init : B → List α} {D : List α}
    (size : D.length = n * count) (hdata : init data = D) (hresult : (init result).length = count)
    (htemp : (init temp).length = (if root ≠ 0 then some (count * n) else none).getD 0)
    (inbox : Nat → List (List α)) :
    (runQueue inbox (.start init) (collDoScatter collId root n count root data result temp).2).bufs result =
        (D.drop (treeRank n root 0 * count)).take count ∧
      ∀ c < n, (runQueue inbox (.start init) (collDoScatter collId root n count root data result temp).2).sent
          (treeRank n root c) = if 0 < c ∧ c - lowBit c = 0 then [scatterBlocks n count root D c] else [] := by
  obtain ⟨j, -, top, shape⟩ := collDoScatter_root collId big pos data result temp
  have hn : 0 < n := by omega
  -- the buffers once the root's data is in relative order
  let ordered : B → List α := if root = 0 then init else Function.update init temp (D.rotate (count * root))
  have reorder : runQueue inbox (.start init)
      (if root ≠ 0 then
        [collSchedCopy ⟨data, count * root⟩ ⟨temp, 0⟩ ((n - root) * count) true,
          collSchedCopy ⟨data, 0⟩ ⟨temp, (n - root) * count⟩ (root * count) true]
      else []) = .start ordered := by
    by_cases zero : root = 0
    · simp [zero, ordered]
    · rw [if_pos zero, runQueue_reorder inbox apart.2.1 hroot small (by rw [hdata, size])
        (by rw [htemp, if_pos zero]; rfl),
        hdata]
      simp only [ordered, if_neg zero]
  have inOrder : ordered (if root = 0 then data else temp) = D.rotate (count * root) := by
    by_cases zero : root = 0
    · simp [ordered, zero, hdata]
    · simp [ordered, zero, Function.update_self]
  have keeps : ordered result = init result := by
    by_cases zero : root = 0
    · simp [ordered, zero]
    · simp [ordered, zero, Function.update_of_ne apart.2.2]
  have holds : ((RankRun.start ordered).bufs (if root = 0 then data else temp)).take (count * scatterHeld n 0) =
      scatterBlocks n count root D 0 := by
    simp only [RankRun.start, inOrder, scatterBlocks, Nat.zero_mul, List.drop_zero]
  obtain ⟨same, sent⟩ := runQueue_scatterSends collId big small hroot inbox (.start ordered) (.inl ⟨rfl, top⟩) hn _ holds
  rw [treeRank_zero hroot] at same sent
  simp only [RankRun.start] at same sent
  rw [shape, runQueue_append, runQueue_append, reorder]
  have own : readPtr ordered ⟨if root = 0 then data else temp, 0⟩ count = (D.drop (treeRank n root 0 * count)).take count := by
    have first := Buffer.drop_take_rotate size hroot hn (r := 0)
    rw [Nat.zero_mul] at first
    rw [readPtr, inOrder, first]
    rfl
  have ownLength : (readPtr ordered ⟨if root = 0 then data else temp, 0⟩ count).length = count := by
    rw [own, List.length_take, List.length_drop, size, Nat.min_eq_left]
    rw [treeRank_zero hroot, ← Nat.sub_mul]
    exact Nat.le_mul_of_pos_left count (by omega)
  have countSmall : count < 2 ^ 31 := Nat.lt_of_le_of_lt (Nat.le_mul_of_pos_right count hn) small
  constructor
  · simp only [runQueue_cons, runQueue_nil, runWork_collSchedCopy _ _ countSmall, same, RankRun.start]
    rw [writePtr_whole (by rw [keeps, hresult, ownLength]), Function.update_self, own]
  · intro c hc
    simp only [runQueue_cons, runQueue_nil, runWork_collSchedCopy _ _ countSmall, RankRun.start]
    rw [sent c hc]
    rfl

/-- A child's run: it receives its blocks from its parent, into `result` at
a leaf, and at a branch into `*temp`, from which it sends each child its
blocks and copies its own to `result`. -/
theorem collDoScatter_run_child (big : n ≤ 2 ^ 64) (small : count * n < 2 ^ 31) (hroot : root < n) (pos : 0 < count)
    {t m : Nat}
    (hr : 2 ^ t * (2 * m + 1) < n) {data result temp : B} (apart : result ≠ temp) {init : B → List α}
    {D : List α} (size : D.length = n * count) (hresult : (init result).length = count)
    (htemp : (init temp).length =
      (if t = 0 then none else some (count * utilBinomialTreeValuesToRecv (2 ^ t * (2 * m + 1)) n)).getD 0)
    (inbox : Nat → List (List α))
    (got : ((inbox (treeRank n root (2 ^ t * (2 * m + 1) - 2 ^ t))).getD 0 []).take
      (count * scatterHeld n (2 ^ t * (2 * m + 1))) = scatterBlocks n count root D (2 ^ t * (2 * m + 1))) :
    (runQueue inbox (.start init)
        (collDoScatter collId (treeRank n root (2 ^ t * (2 * m + 1))) n count root data result temp).2).bufs result =
        (D.drop (treeRank n root (2 ^ t * (2 * m + 1)) * count)).take count ∧
      ∀ c < n, (runQueue inbox (.start init)
          (collDoScatter collId (treeRank n root (2 ^ t * (2 * m + 1))) n count root data result temp).2).sent
          (treeRank n root c) =
        if 0 < c ∧ c - lowBit c = 2 ^ t * (2 * m + 1) then [scatterBlocks n count root D c] else [] := by
  have pos' : 0 < 2 ^ t * (2 * m + 1) := Nat.mul_pos (Nat.two_pow_pos t) (by omega)
  have span : TreeSpan n (2 ^ t * (2 * m + 1)) t := .inr ⟨pos', lowBit_two_pow_mul_odd t m⟩
  have blocksLength : (scatterBlocks n count root D (2 ^ t * (2 * m + 1))).length =
      count * scatterHeld n (2 ^ t * (2 * m + 1)) :=
    length_scatterBlocks big size hr
  have held : scatterHeld n (2 ^ t * (2 * m + 1)) = utilBinomialTreeValuesToRecv (2 ^ t * (2 * m + 1)) n :=
    if_neg (by omega)
  have countSmall : count < 2 ^ 31 := Nat.lt_of_le_of_lt (Nat.le_mul_of_pos_right count (by omega)) small
  rw [collDoScatter_child collId big hroot pos hr]
  by_cases leaf : t = 0
  · subst leaf
    have one : scatterHeld n (2 ^ 0 * (2 * m + 1)) = 1 := by
      rw [held, utilBinomialTreeValuesToRecv_eq (by omega), Nat.pow_zero]
      omega
    rw [one, Nat.mul_one] at got blocksLength
    have received : (runQueue inbox (.start init)
        [collSchedRecv collId (treeRank n root (2 ^ 0 * (2 * m + 1) - 2 ^ 0)) ⟨result, 0⟩ count true]) =
        ⟨Function.update init result (scatterBlocks n count root D (2 ^ 0 * (2 * m + 1))), fun _ => [],
          Function.update (fun _ => 0) (treeRank n root (2 ^ 0 * (2 * m + 1) - 2 ^ 0)) 1⟩ := by
      simp only [runQueue_cons, runQueue_nil, runWork_collSchedRecv _ _ countSmall, RankRun.start, got]
      rw [writePtr_whole (by rw [hresult, blocksLength])]
    simp only [if_true, scatterSends, List.append_nil, received]
    refine ⟨?_, fun c hc => ?_⟩
    · rw [Function.update_self, ← take_scatterBlocks big size hroot hr,
        List.take_of_length_le (Nat.le_of_eq blocksLength)]
    · rw [if_neg]
      intro parent
      obtain ⟨i, below, -⟩ := (span.child_iff hc).mpr parent
      exact Nat.not_lt_zero i below
  · have received : (runQueue inbox (.start init)
        [collSchedRecv collId (treeRank n root (2 ^ t * (2 * m + 1) - 2 ^ t)) ⟨temp, 0⟩
          (count * utilBinomialTreeValuesToRecv (2 ^ t * (2 * m + 1)) n) true]) =
        ⟨Function.update init temp (scatterBlocks n count root D (2 ^ t * (2 * m + 1))), fun _ => [],
          Function.update (fun _ => 0) (treeRank n root (2 ^ t * (2 * m + 1) - 2 ^ t)) 1⟩ := by
      rw [← held]
      simp only [runQueue_cons, runQueue_nil, runWork_collSchedRecv _ _ (count_mul_scatterHeld_lt big small hr),
        RankRun.start, got]
      rw [writePtr_whole (by rw [htemp, if_neg leaf, Option.getD_some, blocksLength, held])]
    have holds : ((⟨Function.update init temp (scatterBlocks n count root D (2 ^ t * (2 * m + 1))), fun _ => [],
          Function.update (fun _ => 0) (treeRank n root (2 ^ t * (2 * m + 1) - 2 ^ t)) 1⟩ : RankRun B α).bufs temp).take
        (count * scatterHeld n (2 ^ t * (2 * m + 1))) = scatterBlocks n count root D (2 ^ t * (2 * m + 1)) := by
      simp only [Function.update_self]
      exact List.take_of_length_le (Nat.le_of_eq blocksLength)
    obtain ⟨same, sent⟩ := runQueue_scatterSends collId big small hroot inbox _ span hr temp holds
    simp only [if_neg leaf, runQueue_append, received]
    have own : readPtr (Function.update init temp (scatterBlocks n count root D (2 ^ t * (2 * m + 1))))
        ⟨temp, 0⟩ count = (D.drop (treeRank n root (2 ^ t * (2 * m + 1)) * count)).take count := by
      rw [readPtr, Function.update_self, List.drop_zero, take_scatterBlocks big size hroot hr]
    have ownLength : (readPtr (Function.update init temp (scatterBlocks n count root D (2 ^ t * (2 * m + 1))))
        ⟨temp, 0⟩ count).length = count := by
      rw [readPtr, Function.update_self, List.drop_zero, List.length_take, blocksLength, Nat.min_eq_left]
      exact Nat.le_mul_of_pos_right count (scatterHeld_pos big hr)
    constructor
    · simp only [runQueue_cons, runQueue_nil, runWork_collSchedCopy _ _ countSmall, same]
      rw [writePtr_whole (by rw [Function.update_of_ne apart, hresult, ownLength]), Function.update_self, own]
    · intro c hc
      simp only [runQueue_cons, runQueue_nil, runWork_collSchedCopy _ _ countSmall]
      rw [sent c hc]
      rfl

/-- Any rank's run, given that its parent's message, if it has a parent, is
its blocks: `result` ends with its own block, and it has sent each of its
children that child's blocks and nothing to any other rank. -/
theorem collDoScatter_run (big : n ≤ 2 ^ 64) (small : count * n < 2 ^ 31) (hroot : root < n) (pos : 0 < count)
    {r : Nat} (hr : r < n)
    {data result temp : B} (apart : data ≠ result ∧ data ≠ temp ∧ result ≠ temp) {init : B → List α}
    {D : List α} (size : D.length = n * count) (hdata : r = 0 → init data = D)
    (hresult : (init result).length = count)
    (htemp : (init temp).length = ((collDoScatter collId (treeRank n root r) n count root data result temp).1).getD 0)
    (inbox : Nat → List (List α))
    (got : 0 < r → ((inbox (treeRank n root (r - lowBit r))).getD 0 []).take (count * scatterHeld n r) =
      scatterBlocks n count root D r) :
    (runQueue inbox (.start init) (collDoScatter collId (treeRank n root r) n count root data result temp).2).bufs
          result = (D.drop (treeRank n root r * count)).take count ∧
      ∀ c < n, (runQueue inbox (.start init)
          (collDoScatter collId (treeRank n root r) n count root data result temp).2).sent (treeRank n root c) =
        if 0 < c ∧ c - lowBit c = r then [scatterBlocks n count root D c] else [] := by
  rcases Nat.eq_zero_or_pos r with rfl | pos'
  · obtain ⟨j, -, -, shape⟩ := collDoScatter_root collId big pos data result temp
    rw [treeRank_zero hroot, shape] at htemp
    have run := collDoScatter_run_root collId big small hroot pos apart size (hdata rfl) hresult htemp inbox
    rw [treeRank_zero hroot] at run ⊢
    exact run
  · obtain ⟨t, m, rfl⟩ := exists_two_pow_mul_odd pos'
    rw [collDoScatter_child collId big hroot pos hr] at htemp
    have parent := got pos'
    rw [lowBit_two_pow_mul_odd] at parent
    exact collDoScatter_run_child collId big small hroot pos hr apart.2.2 size hresult htemp inbox parent

end Run

/-! ## The scatter across all ranks -/

/-- The elements of the buffers of a scatter's rank: the root's `buf`, the
`count` of `result`, and those `*temp` is allocated with. -/
def scatterAlloc (n count : Nat) (temp : Option Nat) : ScatterBuf → Nat
  | .buf => n * count
  | .result => count
  | .scatter => temp.getD 0

/-- The buffers each rank passes to `coll_ep_scatter`. -/
structure ScatterBufs {α : Type} (n collId count root : Nat) (init : Nat → ScatterBuf → List α) : Prop where
  buf : (init root .buf).length = n * count
  result : ∀ k < n, (init k .result).length = count
  scatter : ∀ k < n, (init k .scatter).length = ((collEpScatter n k collId count root).1).getD 0

section Exchange

variable {α : Type} {n collId count root : Nat}

theorem runQueue_collEpScatter (inbox : Nat → List (List α)) (s : RankRun ScatterBuf α) (k : Nat) :
    runQueue inbox s (collEpScatter n k collId count root).2 =
      runQueue inbox s (collDoScatter collId k n count root .buf .result .scatter).2 := by
  rw [collEpScatter, runQueue_append]
  rfl

theorem scatterBuf_apart : ScatterBuf.buf ≠ .result ∧ ScatterBuf.buf ≠ .scatter ∧ ScatterBuf.result ≠ .scatter := by
  decide

variable {init : Nat → ScatterBuf → List α}

theorem exchange_scatter_run (big : n ≤ 2 ^ 64) (small : count * n < 2 ^ 31) (hroot : root < n) (pos : 0 < count)
    (bufs : ScatterBufs n collId count root init)
    (ex : Exchange n (fun k => (collEpScatter n k collId count root).2) init) {r : Nat} (hr : r < n)
    (got : 0 < r → ((ex.inbox (treeRank n root r) (treeRank n root (r - lowBit r))).getD 0 []).take
      (count * scatterHeld n r) = scatterBlocks n count root (init root .buf) r) :
    (ex.final (treeRank n root r)).bufs .result = ((init root .buf).drop (treeRank n root r * count)).take count ∧
      ∀ c < n, (ex.final (treeRank n root r)).sent (treeRank n root c) =
        if 0 < c ∧ c - lowBit c = r then [scatterBlocks n count root (init root .buf) c] else [] := by
  have hk := treeRank_lt hroot hr
  rw [Exchange.final, runQueue_collEpScatter]
  exact collDoScatter_run collId big small hroot pos hr scatterBuf_apart bufs.buf
    (fun zero => by rw [zero, treeRank_zero hroot]) (bufs.result _ hk) (bufs.scatter _ hk) _ got

theorem exchange_scatter_got (big : n ≤ 2 ^ 64) (small : count * n < 2 ^ 31) (hroot : root < n) (pos : 0 < count)
    (bufs : ScatterBufs n collId count root init)
    (ex : Exchange n (fun k => (collEpScatter n k collId count root).2) init) :
    ∀ c < n, 0 < c → ((ex.inbox (treeRank n root c) (treeRank n root (c - lowBit c))).getD 0 []).take
      (count * scatterHeld n c) = scatterBlocks n count root (init root .buf) c := by
  intro c
  induction c using Nat.strong_induction_on with
  | _ c ih =>
      intro hc pos'
      have lower : c - lowBit c < c := Nat.sub_lt pos' (lowBit_pos pos')
      have run := exchange_scatter_run big small hroot pos bufs ex (Nat.lt_trans lower hc)
        (fun parentPos => ih _ lower (Nat.lt_trans lower hc) parentPos)
      have delivered := ex.delivered _ _ (treeRank_lt hroot hc) (treeRank_lt hroot (Nat.lt_trans lower hc))
      rw [← delivered, Exchange.final] at *
      rw [run.2 c hc, if_pos ⟨pos', rfl⟩, List.getD_cons_zero,
        List.take_of_length_le (Nat.le_of_eq (length_scatterBlocks big bufs.buf hc))]

theorem exchange_scatter_result (big : n ≤ 2 ^ 64) (small : count * n < 2 ^ 31) (hroot : root < n) (pos : 0 < count)
    (bufs : ScatterBufs n collId count root init)
    (ex : Exchange n (fun k => (collEpScatter n k collId count root).2) init) {k : Nat} (hk : k < n) :
    (ex.final k).bufs .result = readPtr (init root) ⟨.buf, k * count⟩ count := by
  obtain ⟨r, hr, rfl⟩ := exists_treeRank hroot hk
  exact (exchange_scatter_run big small hroot pos bufs ex hr (exchange_scatter_got big small hroot pos bufs ex r hr)).1

theorem exchange_scatter_exists (big : n ≤ 2 ^ 64) (small : count * n < 2 ^ 31) (hroot : root < n) (pos : 0 < count)
    (bufs : ScatterBufs n collId count root init) :
    Nonempty (Exchange n (fun k => (collEpScatter n k collId count root).2) init) := by
  -- the relative rank of `a`, as `coll_do_scatter` computes it
  let rel : Nat → Nat := fun a => if a ≥ root then a - root else a + n - root
  let inbox : Nat → Nat → List (List α) := fun a b =>
    if 0 < rel a ∧ b = treeRank n root (rel a - lowBit (rel a)) then
      [scatterBlocks n count root (init root .buf) (rel a)]
    else []
  have got : ∀ r < n, 0 < r → ((inbox (treeRank n root r) (treeRank n root (r - lowBit r))).getD 0 []).take
      (count * scatterHeld n r) = scatterBlocks n count root (init root .buf) r := by
    intro r hr pos'
    simp only [inbox, rel, relative_treeRank hroot hr, pos', and_self, if_true, List.getD_cons_zero]
    exact List.take_of_length_le (Nat.le_of_eq (length_scatterBlocks big bufs.buf hr))
  refine ⟨⟨inbox, fun a b ha hb => ?_⟩⟩
  obtain ⟨ra, hra, rfl⟩ := exists_treeRank hroot ha
  obtain ⟨rb, hrb, rfl⟩ := exists_treeRank hroot hb
  have hk := treeRank_lt hroot hrb
  rw [runQueue_collEpScatter]
  rw [(collDoScatter_run collId big small hroot pos hrb scatterBuf_apart bufs.buf
    (fun zero => by rw [zero, treeRank_zero hroot]) (bufs.result _ hk) (bufs.scatter _ hk) _ (got rb hrb)).2 ra hra]
  simp only [inbox, rel, relative_treeRank hroot hra]
  congr 1
  exact propext ⟨fun ⟨pos', parent⟩ => ⟨pos', by rw [parent]⟩,
    fun ⟨pos', at_⟩ => ⟨pos', (treeRank_inj hroot (Nat.lt_of_le_of_lt (Nat.sub_le _ _) hra) hrb at_.symm)⟩⟩

end Exchange

/-! ## `coll_ep_scatter` and `coll_ep_allgather` -/

section Entry

variable {n collId count root : Nat}

theorem collEpScatter_counts_match (big : n ≤ 2 ^ 64) (small : count * n < 2 ^ 31) (hroot : root < n) (pos : 0 < count) {a b : Nat}
    (ha : a < n) (hb : b < n) :
    sendCountsTo (collEpScatter n b collId count root).2 a = recvCountsFrom (collEpScatter n a collId count root).2 b := by
  simp only [collEpScatter, sendCountsTo_append, recvCountsFrom_append]
  rw [collDoScatter_counts_match collId big small hroot pos ha hb]
  rfl

theorem collEpScatter_count_pos (big : n ≤ 2 ^ 64) (small : count * n < 2 ^ 31) (hroot : root < n) (pos : 0 < count) {k : Nat} (hk : k < n)
    {e : CollItem ScatterBuf} (mem : e ∈ (collEpScatter n k collId count root).2) {x : CollXfer ScatterBuf}
    (send : e.work = .send x) : 0 < x.count := by
  simp only [collEpScatter, List.mem_append, List.mem_singleton] at mem
  rcases mem with scheduled | rfl
  · exact collDoScatter_count_pos collId big small hroot pos hk _ _ _ scheduled send
  · cases send

theorem collEpScatter_inside (big : n ≤ 2 ^ 64) (small : count * n < 2 ^ 31) (hroot : root < n) (pos : 0 < count) {k : Nat} (hk : k < n) :
    QueueInside (scatterAlloc n count (collEpScatter n k collId count root).1) (collEpScatter n k collId count root).2 := by
  refine QueueInside.append (collDoScatter_inside collId big small hroot pos hk _ _ _ rfl rfl rfl) ?_
  intro e mem
  rw [List.mem_singleton] at mem
  subst mem
  exact ⟨trivial, trivial⟩

end Entry

end Libfabric.Coll.Blocks
