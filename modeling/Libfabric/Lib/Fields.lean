import Mathlib.Data.Nat.Bitwise
import Libfabric.Lib.Buffer

/-! Fields of a packed header in a byte buffer. `store` writes the low `w`
bytes of a number at an offset, least significant first, as an assignment to
a `uintN_t` member does on a little-endian host, and `load` reads them back.
A load sees the last write to its bytes: `load_store_self` for the bytes just
written, and the frame lemma `load_writeAt_of_apart` for every write that
misses them. A flag word is tested bit by bit: `flagSet x (2 ^ i)` is bit `i`
of `x`, and or-ing other bits into the word keeps it. -/
namespace Fields

/-- The low `w` bytes of `v`, least significant first. -/
def encodeLE : Nat → Nat → List UInt8
  | 0, _ => []
  | w + 1, v => UInt8.ofNat v :: encodeLE w (v / 256)

/-- The number whose little-endian bytes are `bs`. -/
def decodeLE : List UInt8 → Nat
  | [] => 0
  | b :: bs => b.toNat + 256 * decodeLE bs

/-- The `w`-byte field at `pos`. -/
def load (mem : List UInt8) (pos w : Nat) : Nat := decodeLE ((mem.drop pos).take w)

/-- `mem` with the `w`-byte field at `pos` set to the low bytes of `v`. -/
def store (mem : List UInt8) (pos w v : Nat) : List UInt8 := Buffer.writeAt mem pos (encodeLE w v)

/-- `x & bit` in a condition. -/
def flagSet (x bit : Nat) : Bool := x &&& bit != 0

@[simp] theorem length_encodeLE (w v : Nat) : (encodeLE w v).length = w := by
  induction w generalizing v with
  | zero => rfl
  | succ w ih => simp [encodeLE, ih]

theorem decodeLE_encodeLE (w v : Nat) : decodeLE (encodeLE w v) = v % 256 ^ w := by
  induction w generalizing v with
  | zero => simp [encodeLE, decodeLE, Nat.mod_one]
  | succ w ih =>
    have low : (UInt8.ofNat v).toNat = v % 256 := UInt8.toNat_ofNat'
    rw [encodeLE, decodeLE, ih, low, Nat.pow_succ', Nat.mod_mul]

section Fields

variable {mem src : List UInt8} {pos w v q c : Nat}

/-- Two byte ranges `[pos, pos + n)` and `[q, q + c)` that do not meet. -/
def Apart (pos n q c : Nat) : Prop := pos + n ≤ q ∨ q + c ≤ pos

theorem length_store (fits : pos + w ≤ mem.length) : (store mem pos w v).length = mem.length :=
  Buffer.length_writeAt (by rw [length_encodeLE]; exact fits)

theorem length_le_writeAt (mem : List UInt8) (pos : Nat) (src : List UInt8) :
    mem.length ≤ (Buffer.writeAt mem pos src).length := by
  simp only [Buffer.writeAt, List.length_append, List.length_take, List.length_drop]
  omega

theorem le_length_writeAt_of_le {n : Nat} (long : n ≤ mem.length) : n ≤ (Buffer.writeAt mem pos src).length :=
  Nat.le_trans long (length_le_writeAt mem pos src)

theorem le_length_store_of_le {n : Nat} (long : n ≤ mem.length) : n ≤ (store mem pos w v).length :=
  le_length_writeAt_of_le long

theorem load_drop_take {p n k : Nat} (inside : k + w ≤ n) : load ((mem.drop p).take n) k w = load mem (p + k) w := by
  rw [load, load, List.drop_take, List.drop_drop, List.take_take, Nat.min_eq_left (by omega)]

theorem load_writeAt_of_apart (fits : pos + src.length ≤ mem.length) (apart : Apart pos src.length q c) :
    load (Buffer.writeAt mem pos src) q c = load mem q c := by
  unfold load
  rcases apart with after | before
  · rw [Buffer.drop_take_writeAt_of_ge fits after]
  · rw [Buffer.drop_take_writeAt_of_le fits before]

theorem drop_take_writeAt_of_apart (fits : pos + src.length ≤ mem.length)
    (apart : Apart pos src.length q c) :
    ((Buffer.writeAt mem pos src).drop q).take c = (mem.drop q).take c := by
  rcases apart with after | before
  · exact Buffer.drop_take_writeAt_of_ge fits after
  · exact Buffer.drop_take_writeAt_of_le fits before

theorem load_store_of_apart (fits : pos + w ≤ mem.length) (apart : Apart pos w q c) :
    load (store mem pos w v) q c = load mem q c := by
  have fits' : pos + (encodeLE w v).length ≤ mem.length := by rw [length_encodeLE]; exact fits
  rw [store, load_writeAt_of_apart fits' (by rw [length_encodeLE]; exact apart)]

theorem drop_take_store_of_apart (fits : pos + w ≤ mem.length) (apart : Apart pos w q c) :
    ((store mem pos w v).drop q).take c = (mem.drop q).take c := by
  have fits' : pos + (encodeLE w v).length ≤ mem.length := by rw [length_encodeLE]; exact fits
  rw [store, drop_take_writeAt_of_apart fits' (by rw [length_encodeLE]; exact apart)]

theorem load_store_self (fits : pos + w ≤ mem.length) : load (store mem pos w v) pos w = v % 256 ^ w := by
  have self := @Buffer.drop_take_writeAt_self UInt8 mem (encodeLE w v) pos (by rw [length_encodeLE]; exact fits)
  rw [length_encodeLE] at self
  rw [load, store, self, decodeLE_encodeLE]

theorem load_store_of_lt (fits : pos + w ≤ mem.length) (small : v < 256 ^ w) :
    load (store mem pos w v) pos w = v := by
  rw [load_store_self fits, Nat.mod_eq_of_lt small]

end Fields

/-! Buffers that differ only inside a range. A run of writes into one range
is described by that range alone, and every field outside it reads the same
before and after. -/

section Outside

variable {a b d src : List UInt8} {lo hi : Nat}

/-- `b` is `a`, at least as long, with at most the bytes of `[lo, hi)` changed. -/
def SameOutside (lo hi : Nat) (a b : List UInt8) : Prop :=
  a.length ≤ b.length ∧ ∀ q c, q + c ≤ lo ∨ hi ≤ q → (b.drop q).take c = (a.drop q).take c

theorem SameOutside.refl (lo hi : Nat) (a : List UInt8) : SameOutside lo hi a a :=
  ⟨Nat.le_refl _, fun _ _ _ => rfl⟩

theorem SameOutside.trans (first : SameOutside lo hi a b) (second : SameOutside lo hi b d) :
    SameOutside lo hi a d :=
  ⟨Nat.le_trans first.1 second.1, fun q c apart => (second.2 q c apart).trans (first.2 q c apart)⟩

theorem SameOutside.mono {lo' hi' : Nat} (h : SameOutside lo hi a b) (below : lo' ≤ lo) (above : hi ≤ hi') :
    SameOutside lo' hi' a b :=
  ⟨h.1, fun q c apart => h.2 q c (by omega)⟩

theorem SameOutside.load (h : SameOutside lo hi a b) {q c : Nat} (apart : q + c ≤ lo ∨ hi ≤ q) :
    load b q c = load a q c := by
  rw [Fields.load, Fields.load, h.2 q c apart]

theorem sameOutside_writeAt {pos : Nat} (fits : pos + src.length ≤ a.length) :
    SameOutside pos (pos + src.length) a (Buffer.writeAt a pos src) :=
  ⟨length_le_writeAt a pos src, fun _ _ apart => drop_take_writeAt_of_apart fits (by unfold Apart; omega)⟩

theorem sameOutside_store {pos w v : Nat} (fits : pos + w ≤ a.length) :
    SameOutside pos (pos + w) a (store a pos w v) := by
  have outside := @sameOutside_writeAt a (encodeLE w v) pos (by rw [length_encodeLE]; exact fits)
  rwa [length_encodeLE] at outside

end Outside

section Flags

variable {x y : Nat}

theorem flagSet_two_pow (x i : Nat) : flagSet x (2 ^ i) = x.testBit i := by
  rw [flagSet, Nat.and_two_pow]
  cases x.testBit i <;> simp

theorem flagSet_or_of_not (i : Nat) (other : y.testBit i = false) : flagSet (x ||| y) (2 ^ i) = flagSet x (2 ^ i) := by
  rw [flagSet_two_pow, flagSet_two_pow, Nat.testBit_or, other, Bool.or_false]

theorem flagSet_mod_of_lt {w i : Nat} (below : i < w) : flagSet (x % 2 ^ w) (2 ^ i) = flagSet x (2 ^ i) := by
  rw [flagSet_two_pow, flagSet_two_pow, Nat.testBit_mod_two_pow, decide_eq_true below, Bool.true_and]

end Flags

end Fields
