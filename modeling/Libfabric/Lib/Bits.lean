import Mathlib.Data.Nat.Bitwise
import Mathlib.Data.Nat.Factorization.Basic
import Mathlib.Tactic.Ring

/-! The lowest set bit of a `w`-bit word, `x & ~(x - 1)`: a word is a power of
two times an odd number, and the mask keeps that power of two. On that bit
hangs the binomial tree: `c > 0` is the child of `c` less its lowest bit, and
the children of `r` are `r + 2 ^ i` for the powers of two below it. -/
namespace Bits

theorem sub_one_eq {k m : Nat} : 2 ^ k * (2 * m + 1) - 1 = 2 ^ k * (2 * m) + (2 ^ k - 1) := by
  have := Nat.two_pow_pos k
  rw [Nat.mul_add, Nat.mul_one]
  omega

theorem testBit_odd_eq_testBit_even {m j : Nat} (above : 0 < j) :
    (2 * m + 1).testBit j = (2 * m).testBit j := by
  have one : (1 : Nat) < 2 ^ 1 := by decide
  rw [show 2 * m + 1 = 2 ^ 1 * m + 1 by rw [Nat.pow_one], Nat.testBit_two_pow_mul_add m one,
    show 2 * m = 2 ^ 1 * m by rw [Nat.pow_one], Nat.testBit_two_pow_mul, if_neg (by omega)]
  simp only [ge_iff_le, decide_eq_true (by omega : 1 ≤ j), Bool.true_and]

theorem and_not_sub_one {w k m : Nat} (fits : 2 ^ k * (2 * m + 1) < 2 ^ w) :
    2 ^ k * (2 * m + 1) &&& ((2 ^ w - 1) ^^^ (2 ^ k * (2 * m + 1) - 1)) = 2 ^ k := by
  have low : 2 ^ k - 1 < 2 ^ k := by have := Nat.two_pow_pos k; omega
  have inside : k < w := by
    have : 2 ^ k < 2 ^ w := Nat.lt_of_le_of_lt (Nat.le_mul_of_pos_right _ (by omega)) fits
    exact (Nat.pow_lt_pow_iff_right (by decide)).mp this
  apply Nat.eq_of_testBit_eq
  intro j
  rw [Nat.testBit_and, Nat.testBit_xor, Nat.testBit_two_pow_sub_one, sub_one_eq,
    Nat.testBit_two_pow_mul_add _ low, Nat.testBit_two_pow_mul, Nat.testBit_two_pow]
  rcases Nat.lt_trichotomy j k with below | rfl | above
  · simp [below, Nat.not_le_of_lt below, Nat.ne_of_gt below]
  · simp [inside]
  · -- above the lowest bit `x` and `x - 1` agree, and the complement clears them
    have same := testBit_odd_eq_testBit_even (m := m) (j := j - k) (by omega)
    by_cases word : j < w
    · simp [Nat.not_lt_of_lt above, Nat.le_of_lt above, word, Nat.ne_of_lt above, same]
    · have outside : (2 ^ k * (2 * m + 1)).testBit j = false :=
        Nat.testBit_lt_two_pow (Nat.lt_of_lt_of_le fits (Nat.pow_le_pow_right (by decide) (by omega)))
      rw [Nat.testBit_two_pow_mul] at outside
      simp [outside, Nat.ne_of_lt above]

theorem and_not_low_bits {w k x : Nat} (fits : x < 2 ^ w) :
    x &&& ((2 ^ w - 1) ^^^ (2 ^ k - 1)) = x / 2 ^ k * 2 ^ k := by
  apply Nat.eq_of_testBit_eq
  intro j
  rw [Nat.testBit_and, Nat.testBit_xor, Nat.testBit_two_pow_sub_one, Nat.testBit_two_pow_sub_one,
    Nat.testBit_mul_two_pow, Nat.testBit_div_two_pow]
  by_cases word : j < w
  · by_cases low : j < k
    · simp [word, low]
    · simp [word, low, Nat.sub_add_cancel (Nat.le_of_not_lt low), Nat.le_of_not_lt low]
  · -- past the word both sides are clear
    have outside : x.testBit j = false :=
      Nat.testBit_lt_two_pow (Nat.lt_of_lt_of_le fits (Nat.pow_le_pow_right (by decide) (by omega)))
    by_cases low : j < k
    · simp [outside, low]
    · simp [outside, Nat.sub_add_cancel (Nat.le_of_not_lt low)]

/-! ## The binomial tree -/

/-- The lowest set bit of `c`, and `0` for `0`. -/
def lowBit (c : Nat) : Nat :=
  if h : c = 0 then 0 else if c % 2 = 1 then 1 else 2 * lowBit (c / 2)
termination_by c
decreasing_by omega

@[simp] theorem lowBit_zero : lowBit 0 = 0 := by
  rw [lowBit, dif_pos rfl]

theorem exists_two_pow_mul_odd {c : Nat} (pos : 0 < c) : ∃ t m, c = 2 ^ t * (2 * m + 1) := by
  obtain ⟨t, _, ⟨m, rfl⟩, rfl⟩ := Nat.exists_eq_two_pow_mul_odd (Nat.pos_iff_ne_zero.mp pos)
  exact ⟨t, m, rfl⟩

theorem lowBit_two_pow_mul_odd (t m : Nat) : lowBit (2 ^ t * (2 * m + 1)) = 2 ^ t := by
  induction t with
  | zero =>
      rw [lowBit, dif_neg (by omega), if_pos (by omega)]
      rfl
  | succ t ih =>
      have pos := Nat.two_pow_pos t
      have split : 2 ^ (t + 1) * (2 * m + 1) = 2 * (2 ^ t * (2 * m + 1)) := by
        rw [Nat.pow_succ, Nat.mul_comm (2 ^ t) 2, Nat.mul_assoc]
      rw [lowBit, dif_neg (Nat.pos_iff_ne_zero.mp (Nat.mul_pos (Nat.two_pow_pos _) (by omega))), split, if_neg (by omega), Nat.mul_div_cancel_left _ (by omega), ih,
        Nat.pow_succ, Nat.mul_comm]

theorem and_two_pow_of_lt {t m j : Nat} (below : j < t) : 2 ^ t * (2 * m + 1) &&& 2 ^ j = 0 := by
  rw [Nat.and_two_pow, Nat.testBit_two_pow_mul]
  simp [Nat.not_le_of_lt below]

theorem and_two_pow_self (t m : Nat) : 2 ^ t * (2 * m + 1) &&& 2 ^ t = 2 ^ t := by
  rw [Nat.and_two_pow, Nat.testBit_two_pow_mul, Nat.sub_self, Nat.testBit_zero]
  simp [Nat.add_mod]

theorem lowBit_add_two_pow {r i : Nat} (below : r = 0 ∨ 2 ^ i < lowBit r) : lowBit (r + 2 ^ i) = 2 ^ i := by
  rcases below with rfl | below
  · simpa using lowBit_two_pow_mul_odd i 0
  · have pos : 0 < r := Nat.pos_of_ne_zero fun zero => by
      rw [zero, lowBit_zero] at below
      exact Nat.not_lt_zero _ below
    obtain ⟨t, m, rfl⟩ := exists_two_pow_mul_odd pos
    rw [lowBit_two_pow_mul_odd] at below
    have lt : i < t := (Nat.pow_lt_pow_iff_right (by decide)).mp below
    have up : 2 ^ t = 2 ^ i * (2 * 2 ^ (t - i - 1)) := by
      rw [← Nat.pow_succ', ← Nat.pow_add]
      congr 1
      omega
    have child : 2 ^ t * (2 * m + 1) + 2 ^ i = 2 ^ i * (2 * (2 ^ (t - i - 1) * (2 * m + 1)) + 1) := by
      rw [up]
      ring
    rw [child, lowBit_two_pow_mul_odd]

theorem sub_lowBit_eq_iff {c r : Nat} (pos : 0 < c) :
    c - lowBit c = r ↔ ∃ i, c = r + 2 ^ i ∧ (r = 0 ∨ 2 ^ i < lowBit r) := by
  constructor
  · rintro rfl
    obtain ⟨s, p, rfl⟩ := exists_two_pow_mul_odd pos
    have parent : 2 ^ s * (2 * p + 1) - 2 ^ s = 2 ^ (s + 1) * p := by
      rw [Nat.pow_succ, Nat.mul_add, Nat.mul_one, Nat.add_sub_cancel, Nat.mul_assoc]
    rw [lowBit_two_pow_mul_odd, parent]
    refine ⟨s, by rw [Nat.pow_succ, Nat.mul_assoc]; ring, ?_⟩
    rcases Nat.eq_zero_or_pos p with zero | pos'
    · exact .inl (by rw [zero, Nat.mul_zero])
    · obtain ⟨u, q, rfl⟩ := exists_two_pow_mul_odd pos'
      right
      rw [← Nat.mul_assoc, ← Nat.pow_add, lowBit_two_pow_mul_odd]
      exact Nat.pow_lt_pow_right (by decide) (by omega)
  · rintro ⟨i, rfl, below⟩
    rw [lowBit_add_two_pow below, Nat.add_sub_cancel]

theorem lowBit_pos {c : Nat} (pos : 0 < c) : 0 < lowBit c := by
  obtain ⟨t, m, rfl⟩ := exists_two_pow_mul_odd pos
  rw [lowBit_two_pow_mul_odd]
  exact Nat.two_pow_pos t

theorem lowBit_le {c : Nat} : lowBit c ≤ c := by
  rcases Nat.eq_zero_or_pos c with rfl | pos
  · rw [lowBit_zero]
  · obtain ⟨t, m, rfl⟩ := exists_two_pow_mul_odd pos
    rw [lowBit_two_pow_mul_odd]
    exact Nat.le_mul_of_pos_right _ (by omega)

end Bits
