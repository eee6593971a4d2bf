import Mathlib.Tactic.Ring
import Mathlib.Tactic.Linarith
import Mathlib.Tactic.LinearCombination

/-! Serial-number arithmetic on `w`-bit counters. The modular difference of two
wrapped counters, read as a two's-complement integer, decides which one is
ahead; this is how sequence numbers are compared across a wrap. -/
namespace Serial

/-- `x - y` computed in `w`-bit unsigned arithmetic. -/
def sub (w x y : Nat) : Nat := (x + (2 ^ w - y % 2 ^ w)) % 2 ^ w

/-- The two's-complement reading of the low `w` bits of `v`. -/
def toSigned (w v : Nat) : Int :=
  if v % 2 ^ w < 2 ^ (w - 1) then ((v % 2 ^ w : Nat) : Int) else ((v % 2 ^ w : Nat) : Int) - 2 ^ w

/-- `x` is strictly ahead of `y`: `(intw_t) (x - y) > 0`. -/
def gt (w x y : Nat) : Bool := decide (0 < toSigned w (sub w x y))

/-- `x` is ahead of or equal to `y`: `(intw_t) (x - y) >= 0`. -/
def ge (w x y : Nat) : Bool := decide (0 ≤ toSigned w (sub w x y))

def lt (w x y : Nat) : Bool := gt w y x

/-- `value` lies in the window of `length` counters starting at `start`. -/
def inRange (w start length value : Nat) : Bool := ge w value start && lt w value (start + length)

variable {w : Nat}

theorem sub_lt (w x y : Nat) : sub w x y < 2 ^ w := Nat.mod_lt _ (Nat.two_pow_pos w)

theorem two_pow_eq_double (positive : 0 < w) : 2 ^ w = 2 * 2 ^ (w - 1) := by
  obtain ⟨k, rfl⟩ : ∃ k, w = k + 1 := ⟨w - 1, by omega⟩
  simp [Nat.pow_succ, Nat.mul_comm]

theorem toSigned_pos_iff (positive : 0 < w) (v : Nat) :
    0 < toSigned w v ↔ 0 < v % 2 ^ w ∧ v % 2 ^ w < 2 ^ (w - 1) := by
  have double := two_pow_eq_double positive
  have bound := Nat.mod_lt v (Nat.two_pow_pos w)
  unfold toSigned
  split
  · constructor
    · intro pos
      exact ⟨by exact_mod_cast pos, ‹_›⟩
    · intro ⟨pos, _⟩
      exact_mod_cast pos
  · constructor
    · intro pos
      have : ((v % 2 ^ w : Nat) : Int) < 2 ^ w := by exact_mod_cast bound
      omega
    · intro ⟨_, below⟩
      omega

theorem toSigned_nonneg_iff (v : Nat) :
    0 ≤ toSigned w v ↔ v % 2 ^ w < 2 ^ (w - 1) := by
  have bound := Nat.mod_lt v (Nat.two_pow_pos w)
  unfold toSigned
  split
  · exact ⟨fun _ => ‹_›, fun _ => by positivity⟩
  · constructor
    · intro nonneg
      have : ((v % 2 ^ w : Nat) : Int) < 2 ^ w := by exact_mod_cast bound
      omega
    · intro below
      omega

@[simp] theorem sub_mod (w x y : Nat) : sub w x y % 2 ^ w = sub w x y :=
  Nat.mod_eq_of_lt (sub_lt w x y)

theorem gt_iff (positive : 0 < w) (x y : Nat) :
    gt w x y = true ↔ 0 < sub w x y ∧ sub w x y < 2 ^ (w - 1) := by
  simpa only [gt, decide_eq_true_eq, sub_mod] using toSigned_pos_iff positive (sub w x y)

theorem ge_iff (x y : Nat) : ge w x y = true ↔ sub w x y < 2 ^ (w - 1) := by
  simpa only [ge, decide_eq_true_eq, sub_mod] using toSigned_nonneg_iff (w := w) (sub w x y)

theorem sub_add_left (a d : Nat) : sub w (a + d) a = d % 2 ^ w := by
  have split := Nat.div_add_mod a (2 ^ w)
  have bound := Nat.mod_lt a (Nat.two_pow_pos w)
  have shift : a + d + (2 ^ w - a % 2 ^ w) = d + 2 ^ w * (a / 2 ^ w + 1) := by
    rw [Nat.mul_add, Nat.mul_one]
    generalize 2 ^ w * (a / 2 ^ w) = m at split ⊢
    generalize a % 2 ^ w = r at split bound ⊢
    generalize 2 ^ w = p at bound ⊢
    omega
  simp only [sub, shift, Nat.add_mul_mod_self_left]

theorem sub_mod_left (x y : Nat) : sub w (x % 2 ^ w) y = sub w x y := by
  simp only [sub, Nat.mod_add_mod]

theorem sub_mod_right (x y : Nat) : sub w x (y % 2 ^ w) = sub w x y := by
  simp only [sub, Nat.mod_mod]

theorem sub_cast (x y : Nat) : (sub w x y : Int) = ((x : Int) - y) % 2 ^ w := by
  have bound := Nat.mod_lt y (Nat.two_pow_pos w)
  have split := Int.emod_add_ediv_mul (y : Int) (2 ^ w)
  have shift : (x : Int) + (2 ^ w - (y : Int) % 2 ^ w) = (x - y) + 2 ^ w * ((y : Int) / 2 ^ w + 1) := by
    linear_combination -1 * split
  rw [sub, Int.natCast_emod, Nat.cast_add, Nat.cast_sub bound.le, Int.natCast_emod]
  push_cast
  rw [shift, Int.add_mul_emod_self_left]

theorem sub_add_sub (x y z : Nat) :
    sub w x y + sub w y z = sub w x z ∨ sub w x y + sub w y z = sub w x z + 2 ^ w := by
  have first := sub_lt w x y
  have second := sub_lt w y z
  have sum : (sub w x y + sub w y z) % 2 ^ w = sub w x z := by
    have cast : (((sub w x y + sub w y z) % 2 ^ w : Nat) : Int) = sub w x z := by
      push_cast
      rw [sub_cast, sub_cast, sub_cast, ← Int.add_emod]
      ring_nf
    exact_mod_cast cast
  rw [Nat.add_mod_eq_ite, Nat.mod_eq_of_lt first, Nat.mod_eq_of_lt second] at sum
  split at sum <;> omega

theorem sub_self (a : Nat) : sub w a a = 0 := by
  simpa using sub_add_left (w := w) a 0

theorem sub_add_right (a : Nat) {d : Nat} (short : d < 2 ^ w) :
    sub w a (a + d) = (2 ^ w - d) % 2 ^ w := by
  have around := sub_add_sub (w := w) a (a + d) a
  have bound := sub_lt w a (a + d)
  rw [sub_self, sub_add_left, Nat.mod_eq_of_lt short] at around
  rcases Nat.eq_zero_or_pos d with rfl | positive
  · simp only [Nat.sub_zero, Nat.mod_self]
    omega
  · rw [Nat.mod_eq_of_lt (by omega)]
    omega

theorem inRange_iff (positive : 0 < w) {start length value : Nat}
    (short : length ≤ 2 ^ (w - 1)) :
    inRange w start length value = true ↔
      sub w value start < length ∧ length - sub w value start < 2 ^ (w - 1) := by
  have double := two_pow_eq_double positive
  have around := sub_add_sub (w := w) (start + length) value start
  have reach : sub w (start + length) start = length := by
    have halfPos := Nat.two_pow_pos (w - 1)
    rw [sub_add_left, Nat.mod_eq_of_lt (by omega)]
  have bound := sub_lt w (start + length) value
  rw [reach] at around
  simp only [inRange, lt, Bool.and_eq_true, ge_iff, gt_iff positive]
  generalize sub w (start + length) value = back at *
  rw [double] at around bound
  generalize 2 ^ (w - 1) = half at *
  omega

end Serial
