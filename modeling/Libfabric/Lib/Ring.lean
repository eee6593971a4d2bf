import Libfabric.Lib.Buffer
import Mathlib.Data.List.Rotate

/-! A ring of cells stored in a list and addressed by a position that wraps
at the list's length. A copy into or out of the ring that runs past the end is
done in two pieces: up to the end, then the rest from cell 0. Seen through
`List.rotate` from any base cell, both are a plain copy at an offset, so a
queue kept in the ring is a prefix of the rotated list. -/
namespace Ring

open Buffer

variable {α : Type}

/-- Copy `src` into `buf` from cell `p`, wrapping to cell 0 past the end. -/
def write (buf : List α) (p : Nat) (src : List α) : List α :=
  if src.length ≤ buf.length - p then writeAt buf p src
  else writeAt (writeAt buf p (src.take (buf.length - p))) 0 (src.drop (buf.length - p))

/-- Read `len` cells of `buf` from cell `p`, wrapping to cell 0 past the end. -/
def read (buf : List α) (p len : Nat) : List α :=
  if len ≤ buf.length - p then (buf.drop p).take len
  else (buf.drop p).take (buf.length - p) ++ buf.take (len - (buf.length - p))

section Rotate

variable {l : List α}

theorem rotate_mod_of_dvd {m : Nat} (h : l.length ∣ m) (x : Nat) : l.rotate (x % m) = l.rotate x := by
  rw [← List.rotate_mod l (x % m), Nat.mod_mod_of_dvd x h, List.rotate_mod]

theorem rotate_eq_rotate_rotate {b off : Nat} (hoff : off ≤ l.length) :
    l.rotate b = (l.rotate ((b + off) % l.length)).rotate (l.length - off) := by
  have hsum : b + off + (l.length - off) = b + l.length := by omega
  rw [List.rotate_rotate, ← List.rotate_mod l ((b + off) % l.length + (l.length - off)),
    Nat.mod_add_mod, hsum, Nat.add_mod_right, List.rotate_mod]

theorem take_rotate_add {b k m : Nat} (hkm : k + m ≤ l.length) :
    (l.rotate (b + k)).take m = ((l.rotate b).drop k).take m := by
  have hk : k ≤ (l.rotate b).length := by rw [List.length_rotate]; omega
  rw [← List.rotate_rotate, List.rotate_eq_drop_append_take hk,
    List.take_append_of_le_length (by simp only [List.length_drop, List.length_rotate]; omega)]

end Rotate

section Read

variable {buf : List α} {p len : Nat}

theorem read_eq_take_rotate (hp : p ≤ buf.length) (hlen : len ≤ buf.length) :
    read buf p len = (buf.rotate p).take len := by
  rw [read, List.rotate_eq_drop_append_take hp]
  split
  case isTrue fits => rw [List.take_append_of_le_length (by simpa using fits)]
  case isFalse wraps =>
    -- the first piece is all of `buf.drop p`, the second the start of `buf`
    have hfront : (buf.drop p).take (buf.length - p) = buf.drop p :=
      List.take_of_length_le (by simp)
    have hall : (buf.drop p).take len = buf.drop p := List.take_of_length_le (by simp; omega)
    rw [List.take_append, hfront, hall, List.length_drop, List.take_take,
      Nat.min_eq_left (by omega)]

theorem read_mod (hn : 0 < buf.length) (hlen : len ≤ buf.length) (b : Nat) :
    read buf (b % buf.length) len = (buf.rotate b).take len := by
  rw [read_eq_take_rotate (Nat.mod_lt b hn).le hlen, List.rotate_mod]

end Read

section Write

variable {buf src : List α} {p : Nat}

theorem length_write (hp : p ≤ buf.length) (hsrc : src.length ≤ buf.length) :
    (write buf p src).length = buf.length := by
  rw [write]
  split
  case isTrue fits => exact length_writeAt (by omega)
  case isFalse wraps =>
    have hfront : p + (src.take (buf.length - p)).length ≤ buf.length := by
      simp only [List.length_take]
      omega
    rw [length_writeAt (by simp only [List.length_drop, length_writeAt hfront]; omega),
      length_writeAt hfront]

theorem rotate_write (hp : p ≤ buf.length) (hsrc : src.length ≤ buf.length) :
    (write buf p src).rotate p = writeAt (buf.rotate p) 0 src := by
  have hfront : (buf.take p).length = p := List.length_take_of_le hp
  rw [write, List.rotate_eq_drop_append_take hp]
  split
  case isTrue fits =>
    have hrot := List.rotate_append_length_eq (buf.take p) (src ++ buf.drop (p + src.length))
    rw [hfront] at hrot
    rw [writeAt, List.append_assoc, hrot, writeAt_append_of_fits (by simpa using fits), writeAt,
      List.take_zero, List.nil_append, List.drop_drop, Nat.zero_add, List.append_assoc]
  case isFalse wraps =>
    -- the first piece fills `buf` to its end; the second lands in `buf.take p`
    have hfill : writeAt buf p (src.take (buf.length - p)) = buf.take p ++ src.take (buf.length - p) := by
      rw [writeAt, List.drop_eq_nil_of_le (by simp only [List.length_take]; omega), List.append_nil]
    have hlen : (writeAt (buf.take p) 0 (src.drop (buf.length - p))).length = p := by
      rw [length_writeAt (by simp only [List.length_drop, hfront]; omega), hfront]
    have hrot := List.rotate_append_length_eq (writeAt (buf.take p) 0 (src.drop (buf.length - p)))
      (src.take (buf.length - p))
    rw [hlen] at hrot
    -- from `p` on, `src.take (buf.length - p)` covers all of `buf.drop p`
    have hcover : writeAt (buf.drop p) 0 (src.take (buf.length - p)) = src.take (buf.length - p) := by
      rw [writeAt, List.take_zero, List.nil_append,
        List.drop_eq_nil_of_le (by simp only [List.length_take, List.length_drop]; omega),
        List.append_nil]
    rw [hfill, writeAt_append_of_fits (by simp only [List.length_drop, hfront]; omega), hrot,
      writeAt_append_of_ge (Nat.zero_le _), Nat.sub_zero, List.length_drop, hcover]

theorem rotate_writeAt_zero {l : List α} {off : Nat} (hoff : off + src.length ≤ l.length) :
    (writeAt l 0 src).rotate (l.length - off) = writeAt (l.rotate (l.length - off)) off src := by
  -- split `l` where the rotation cuts it: the write lands in the front part
  have hfront : (l.take (l.length - off)).length = l.length - off := List.length_take_of_le (by omega)
  have hback : (l.drop (l.length - off)).length = off := by simp only [List.length_drop]; omega
  have hwrite : writeAt l 0 src = writeAt (l.take (l.length - off)) 0 src ++ l.drop (l.length - off) := by
    conv_lhs => rw [← List.take_append_drop (l.length - off) l]
    rw [writeAt_append_of_fits (by rw [hfront]; omega)]
  have hlen : (writeAt (l.take (l.length - off)) 0 src).length = l.length - off := by
    rw [length_writeAt (by omega), hfront]
  have hrot := List.rotate_append_length_eq (writeAt (l.take (l.length - off)) 0 src)
    (l.drop (l.length - off))
  rw [hlen] at hrot
  rw [hwrite, hrot, List.rotate_eq_drop_append_take (by omega), writeAt_append_of_le (by omega),
    hback, Nat.sub_self]

theorem rotate_write_mod (hn : 0 < buf.length) {b off : Nat} (hoff : off + src.length ≤ buf.length) :
    (write buf ((b + off) % buf.length) src).rotate b = writeAt (buf.rotate b) off src := by
  have hp : (b + off) % buf.length ≤ buf.length := (Nat.mod_lt _ hn).le
  have hlen : (write buf ((b + off) % buf.length) src).length = buf.length :=
    length_write hp (by omega)
  -- from `b` the write starts `off` cells in: rotate to its start and back
  have hback := rotate_eq_rotate_rotate (l := write buf ((b + off) % buf.length) src) (b := b)
    (by omega : off ≤ _)
  rw [hlen] at hback
  have hrot : (buf.rotate ((b + off) % buf.length)).length = buf.length := List.length_rotate _ _
  calc (write buf ((b + off) % buf.length) src).rotate b
      = (writeAt (buf.rotate ((b + off) % buf.length)) 0 src).rotate (buf.length - off) := by
        rw [hback, rotate_write hp (by omega)]
    _ = writeAt ((buf.rotate ((b + off) % buf.length)).rotate (buf.length - off)) off src := by
        have hzero := @rotate_writeAt_zero α src (buf.rotate ((b + off) % buf.length)) off
          (by rw [hrot]; omega)
        rwa [hrot] at hzero
    _ = writeAt (buf.rotate b) off src := by
        rw [← rotate_eq_rotate_rotate (by omega)]

end Write

section Window

/-! A ring of `n` cells addressed by positions that count up without bound:
position `q` lives in cell `q % n`. Any `n` consecutive positions fall in
`n` distinct cells, and every cell has one of them. -/

variable {n r a b : Nat}

theorem eq_of_mod_eq_window (same : a % n = b % n) (ha : r ≤ a) (ha' : a < r + n) (hb : r ≤ b)
    (hb' : b < r + n) : a = b := by
  rcases Nat.lt_or_ge a b with lt | ge
  · have zero : (b - a) % n = 0 := Nat.sub_mod_eq_zero_of_mod_eq same.symm
    rw [Nat.mod_eq_of_lt (by omega)] at zero
    omega
  · have zero : (a - b) % n = 0 := Nat.sub_mod_eq_zero_of_mod_eq same
    rw [Nat.mod_eq_of_lt (by omega)] at zero
    omega

theorem exists_window_mod (pos : 0 < n) (r p : Nat) : ∃ q, r ≤ q ∧ q < r + n ∧ q % n = p % n := by
  have split := Nat.mod_add_div r n
  have below := Nat.mod_lt r pos
  have cell := Nat.mod_lt p pos
  by_cases up : r % n ≤ p % n
  · refine ⟨p % n + n * (r / n), by omega, by omega, ?_⟩
    rw [Nat.add_mul_mod_self_left, Nat.mod_mod]
  · refine ⟨p % n + n * (r / n + 1), by rw [Nat.mul_succ]; omega, by rw [Nat.mul_succ]; omega, ?_⟩
    rw [Nat.add_mul_mod_self_left, Nat.mod_mod]

theorem add_le_of_mod_eq (same : a % n = b % n) (lt : a < b) : a + n ≤ b := by
  have zero : (b - a) % n = 0 := Nat.sub_mod_eq_zero_of_mod_eq same.symm
  by_contra short
  rw [Nat.mod_eq_of_lt (by omega)] at zero
  omega

end Window

end Ring
