import Mathlib.Algebra.BigOperators.Group.Finset.Basic
import Mathlib.Data.Nat.Bitwise

/-! Recursive doubling. `P = 2 ^ K` members each start from one value; in
round `k` member `j` combines with its partner `j ^^^ 2 ^ k`, so that after
`k` rounds it holds the product over its aligned block of size `2 ^ k`, and
after `K` rounds the product of all. When the inputs are more than `P`, the
first `2 * R` of them are folded in pairs beforehand. -/
namespace Doubling

/-! ## Partners -/

section Partners

variable {j k K : ℕ}

theorem xor_two_pow_lt (hj : j < 2 ^ K) (hk : k < K) : j ^^^ 2 ^ k < 2 ^ K :=
  Nat.xor_lt_two_pow hj (Nat.pow_lt_pow_right Nat.one_lt_two hk)

theorem xor_two_pow_ne (j k : ℕ) : j ^^^ 2 ^ k ≠ j := by
  intro h
  have h' : j ^^^ (j ^^^ 2 ^ k) = j ^^^ j := by rw [h]
  rw [← Nat.xor_assoc, Nat.xor_self, Nat.zero_xor] at h'
  exact (Nat.two_pow_pos k).ne' h'

theorem log2_xor_partner (j k : ℕ) : Nat.log2 (j ^^^ (j ^^^ 2 ^ k)) = k := by
  rw [← Nat.xor_assoc, Nat.xor_self, Nat.zero_xor, Nat.log2_two_pow]

theorem xor_two_pow_inj {k k' : ℕ} (h : j ^^^ 2 ^ k = j ^^^ 2 ^ k') : k = k' := by
  have h' : 2 ^ k = 2 ^ k' := Nat.xor_right_injective h
  exact Nat.pow_right_injective (le_refl 2) h'

theorem div_two_eq_iff (a b : ℕ) : a / 2 = b / 2 ↔ a = b ∨ a = b ^^^ 1 := by
  have hdiv : (b ^^^ 1) / 2 = b / 2 := by
    simpa using @Nat.xor_div_two_pow b 1 1
  have hmod : (b ^^^ 1) % 2 = (b + 1) % 2 := Nat.xor_mod_two_eq
  omega

theorem div_two_pow_succ_eq_iff (i j k : ℕ) :
    i / 2 ^ (k + 1) = j / 2 ^ (k + 1) ↔
      i / 2 ^ k = j / 2 ^ k ∨ i / 2 ^ k = (j ^^^ 2 ^ k) / 2 ^ k := by
  rw [Nat.xor_div_two_pow, Nat.div_self (Nat.two_pow_pos k), Nat.pow_succ,
    ← Nat.div_div_eq_div_mul, ← Nat.div_div_eq_div_mul]
  exact div_two_eq_iff _ _

end Partners

/-! ## Blocks -/

/-- The aligned block of size `2 ^ k` that holds `j`, among the first `P` ids. -/
def block (P k j : ℕ) : Finset ℕ := (Finset.range P).filter fun i => i / 2 ^ k = j / 2 ^ k

theorem block_succ (P k j : ℕ) : block P (k + 1) j = block P k j ∪ block P k (j ^^^ 2 ^ k) := by
  ext i
  simp only [block, Finset.mem_union, Finset.mem_filter, ← and_or_left, div_two_pow_succ_eq_iff]

theorem disjoint_block_partner (P k j : ℕ) : Disjoint (block P k j) (block P k (j ^^^ 2 ^ k)) := by
  rw [Finset.disjoint_left]
  intro i hi hi'
  simp only [block, Finset.mem_filter] at hi hi'
  have hsame := hi.2.symm.trans hi'.2
  rw [Nat.xor_div_two_pow, Nat.div_self (Nat.two_pow_pos k)] at hsame
  have hmod : (j / 2 ^ k ^^^ 1) % 2 = (j / 2 ^ k + 1) % 2 := Nat.xor_mod_two_eq
  omega

theorem block_partner_succ (P k j : ℕ) : block P (k + 1) (j ^^^ 2 ^ k) = block P (k + 1) j := by
  rw [block_succ, block_succ, Nat.xor_xor_cancel_right, Finset.union_comm]

theorem block_zero {P j : ℕ} (hj : j < P) : block P 0 j = {j} := by
  ext i
  simp only [block, pow_zero, Nat.div_one, Finset.mem_filter, Finset.mem_range,
    Finset.mem_singleton]
  constructor
  · exact fun h => h.2
  · rintro rfl
    exact ⟨hj, rfl⟩

theorem block_top {K j : ℕ} (hj : j < 2 ^ K) : block (2 ^ K) K j = Finset.range (2 ^ K) := by
  ext i
  simp only [block, Finset.mem_filter, Finset.mem_range, and_iff_left_iff_imp]
  intro hi
  rw [Nat.div_eq_of_lt hi, Nat.div_eq_of_lt hj]

/-! ## Products over blocks -/

section Products

variable {N : Type*} [CommMonoid N] (X : ℕ → N)

/-- What member `j` holds after `k` rounds: the product of the starting values
over its block. -/
def blockProd (P k j : ℕ) : N := ∏ i ∈ block P k j, X i

theorem blockProd_succ (P k j : ℕ) :
    blockProd X P (k + 1) j = blockProd X P k j * blockProd X P k (j ^^^ 2 ^ k) := by
  rw [blockProd, block_succ, Finset.prod_union (disjoint_block_partner P k j)]
  rfl

theorem blockProd_zero {P j : ℕ} (hj : j < P) : blockProd X P 0 j = X j := by
  rw [blockProd, block_zero hj, Finset.prod_singleton]

theorem blockProd_top {K j : ℕ} (hj : j < 2 ^ K) :
    blockProd X (2 ^ K) K j = ∏ i ∈ Finset.range (2 ^ K), X i := by
  rw [blockProd, block_top hj]

/-- The starting value of member `j` when `P + R` inputs are folded onto `P`
members: the pair `2 * j, 2 * j + 1` for the first `R`, one input for the rest. -/
def pairFold (x : ℕ → N) (R j : ℕ) : N := if j < R then x (2 * j) * x (2 * j + 1) else x (j + R)

theorem prod_range_two_mul (x : ℕ → N) (R : ℕ) :
    ∏ j ∈ Finset.range R, x (2 * j) * x (2 * j + 1) = ∏ i ∈ Finset.range (2 * R), x i := by
  induction R with
  | zero => simp
  | succ R ih =>
    rw [Finset.prod_range_succ, ih, Nat.mul_succ, Finset.prod_range_succ, Finset.prod_range_succ,
      mul_assoc]

theorem prod_pairFold (x : ℕ → N) {P R : ℕ} (hR : R ≤ P) :
    ∏ j ∈ Finset.range P, pairFold x R j = ∏ i ∈ Finset.range (P + R), x i := by
  obtain ⟨d, rfl⟩ := Nat.exists_eq_add_of_le hR
  have hfold : ∏ j ∈ Finset.range R, pairFold x R j = ∏ j ∈ Finset.range R, x (2 * j) * x (2 * j + 1) :=
    Finset.prod_congr rfl fun j hj => if_pos (Finset.mem_range.mp hj)
  have hrest : ∏ t ∈ Finset.range d, pairFold x R (R + t) = ∏ t ∈ Finset.range d, x (2 * R + t) :=
    Finset.prod_congr rfl fun t _ => by
      rw [pairFold, if_neg (by omega)]
      congr 1
      omega
  calc ∏ j ∈ Finset.range (R + d), pairFold x R j
      = (∏ i ∈ Finset.range (2 * R), x i) * ∏ t ∈ Finset.range d, x (2 * R + t) := by
        rw [Finset.prod_range_add, hfold, hrest, prod_range_two_mul]
    _ = ∏ i ∈ Finset.range (R + d + R), x i := by
        rw [show R + d + R = 2 * R + d by omega, Finset.prod_range_add]

end Products

end Doubling
