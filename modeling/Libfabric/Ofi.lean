import Mathlib.Data.Nat.Init
import Libfabric.Lib.Bits

/-! The helpers of `ofi.h` that several components share: byte strings,
`size_t` arithmetic, which wraps modulo `2 ^ 64`, the casts between `size_t`
and `int`, the rounding of a count to a power of two, and the bit positions
`ofi_msb` and `ofi_lsb`. -/
namespace Libfabric

abbrev Bytes := List UInt8

/-- `SIZE_MAX` on LP64. -/
def sizeMax : Nat := 2 ^ 64 - 1

/-- `a + b` in `size_t`. -/
def sizeAdd (a b : Nat) : Nat := (a + b) % 2 ^ 64

/-- `a - b` in `size_t`. -/
def sizeSub (a b : Nat) : Nat := (2 ^ 64 + a % 2 ^ 64 - b % 2 ^ 64) % 2 ^ 64

/-- `(int) x`: the low 32 bits of `x` read as a signed value. -/
def int32Of (x : Nat) : Int :=
  let low : Nat := x % 2 ^ 32
  if low < 2 ^ 31 then (low : Int) else (low : Int) - 2 ^ 32

/-- An `int` converted to `size_t`, as in `count * sizeof`: a negative value
becomes one near `2 ^ 64`. -/
def sizeOfInt (v : Int) : Nat := (v % 2 ^ 64).toNat

def ofiDivCeil (a b : Nat) : Nat := (a + b - 1) / b

/-- `roundup_power_of_two`: the least power of two at or above `n`, for `n ≥ 2`. -/
def roundupPowerOfTwo (n : Nat) : Nat :=
  if n < 2 then n else 2 ^ (Nat.log2 (n - 1) + 1)

def rounddownPowerOfTwo (n : Nat) : Nat :=
  let pof2 := roundupPowerOfTwo n
  if pof2 > n then pof2 / 2 else pof2

theorem sizeAdd_lt (a b : Nat) : sizeAdd a b < 2 ^ 64 := Nat.mod_lt _ (Nat.two_pow_pos 64)

theorem sizeSub_lt (a b : Nat) : sizeSub a b < 2 ^ 64 := Nat.mod_lt _ (Nat.two_pow_pos 64)

theorem sizeSub_le_sub {a b : Nat} (below : b ≤ a) : sizeSub a b ≤ a - b := by
  unfold sizeSub
  omega

theorem sizeAdd_of_lt {a b : Nat} (fits : a + b < 2 ^ 64) : sizeAdd a b = a + b := Nat.mod_eq_of_lt fits

theorem sizeSub_of_le {a b : Nat} (below : b ≤ a) (fits : a < 2 ^ 64) : sizeSub a b = a - b := by
  unfold sizeSub
  rw [Nat.mod_eq_of_lt fits, Nat.mod_eq_of_lt (Nat.lt_of_le_of_lt below fits)]
  omega

@[simp] theorem sizeSub_self (a : Nat) : sizeSub a a = 0 := by
  simp only [sizeSub]
  omega

theorem int32Of_of_lt {x : Nat} (small : x < 2 ^ 31) : int32Of x = x := by
  unfold int32Of
  rw [Nat.mod_eq_of_lt (by omega), if_pos small]

theorem sizeOfInt_int32Of {x : Nat} (small : x < 2 ^ 31) : sizeOfInt (int32Of x) = x := by
  rw [int32Of_of_lt small, sizeOfInt]
  omega

theorem int32Of_pos {x : Nat} (pos : 0 < x) (small : x < 2 ^ 31) : 0 < int32Of x := by
  rw [int32Of_of_lt small]
  omega

theorem roundupPowerOfTwo_spec {n : Nat} (hn : 0 < n) :
    ∃ k, roundupPowerOfTwo n = 2 ^ k ∧ n ≤ 2 ^ k ∧ 2 ^ k < 2 * n := by
  unfold roundupPowerOfTwo
  by_cases hsmall : n < 2
  · obtain rfl : n = 1 := by omega
    exact ⟨0, rfl, Nat.le_refl 1, by decide⟩
  · simp only [if_neg hsmall]
    have hlo : 2 ^ Nat.log2 (n - 1) ≤ n - 1 := Nat.log2_self_le (by omega)
    have hhi : n - 1 < 2 ^ (Nat.log2 (n - 1) + 1) := Nat.lt_log2_self
    have hpow : 2 ^ (Nat.log2 (n - 1) + 1) = 2 * 2 ^ Nat.log2 (n - 1) := Nat.pow_succ'
    exact ⟨_, rfl, by omega, by omega⟩

/-- The loop of `ofi_msb`: count the shifts that clear `num`. A `uint64_t`
is clear after 64. -/
def ofiMsbLoop : Nat → Nat → Nat
  | 0, _ => 0
  | fuel + 1, num => if num = 0 then 0 else ofiMsbLoop fuel (num >>> 1) + 1

/-- `ofi_msb`: the position of the highest set bit, counting from 1. -/
def ofiMsb (num : Nat) : Nat := ofiMsbLoop 64 (num % 2 ^ 64)

/-- `ofi_lsb`: `ofi_msb (num & ~(num - 1))`, the position of the lowest set
bit. -/
def ofiLsb (num : Nat) : Nat := ofiMsb (num % 2 ^ 64 &&& ((2 ^ 64 - 1) ^^^ sizeSub num 1))

@[simp] theorem ofiMsbLoop_zero (fuel : Nat) : ofiMsbLoop fuel 0 = 0 := by
  cases fuel <;> rfl

theorem ofiMsbLoop_two_pow {fuel k : Nat} (enough : k < fuel) : ofiMsbLoop fuel (2 ^ k) = k + 1 := by
  induction k generalizing fuel with
  | zero =>
      obtain ⟨fuel, rfl⟩ : ∃ f, fuel = f + 1 := ⟨fuel - 1, by omega⟩
      simp [ofiMsbLoop]
  | succ k ih =>
      obtain ⟨fuel, rfl⟩ : ∃ f, fuel = f + 1 := ⟨fuel - 1, by omega⟩
      have half : 2 ^ (k + 1) >>> 1 = 2 ^ k := by
        rw [Nat.shiftRight_eq_div_pow, Nat.pow_one, Nat.pow_succ, Nat.mul_div_cancel _ (by decide)]
      rw [ofiMsbLoop, if_neg (Nat.pos_iff_ne_zero.mp (Nat.two_pow_pos _)), half, ih (by omega)]

theorem ofiMsb_two_pow {k : Nat} (small : k < 64) : ofiMsb (2 ^ k) = k + 1 := by
  rw [ofiMsb, Nat.mod_eq_of_lt (Nat.pow_lt_pow_right (by decide) small)]
  exact ofiMsbLoop_two_pow small

theorem ofiLsb_two_pow_mul_odd {k m : Nat} (fits : 2 ^ k * (2 * m + 1) < 2 ^ 64) :
    ofiLsb (2 ^ k * (2 * m + 1)) = k + 1 := by
  have pos : 0 < 2 ^ k * (2 * m + 1) := Nat.mul_pos (Nat.two_pow_pos k) (by omega)
  have sub : sizeSub (2 ^ k * (2 * m + 1)) 1 = 2 ^ k * (2 * m + 1) - 1 := by
    unfold sizeSub
    omega
  have small : k < 64 := by
    have : 2 ^ k < 2 ^ 64 := Nat.lt_of_le_of_lt (Nat.le_mul_of_pos_right _ (by omega)) fits
    exact (Nat.pow_lt_pow_iff_right (by decide)).mp this
  rw [ofiLsb, Nat.mod_eq_of_lt fits, sub, Bits.and_not_sub_one fits, ofiMsb_two_pow small]

end Libfabric
