import Mathlib.Data.List.Basic
import Mathlib.Data.List.Rotate
import Mathlib.Algebra.GroupWithZero.Nat

/-! Buffers as lists. `writeAt` is a `memcpy` into a buffer at an offset, and
`scatter` spreads bytes over a list of segments from a flat offset, as a copy
into an I/O vector does. Both are described by what they do to the flat view:
a write of `src` at `pos` leaves the first `pos` entries and puts `src` right
after them. -/
namespace Buffer

variable {α : Type}

/-- Overwrite `dst` from position `pos` with `src`. -/
def writeAt (dst : List α) (pos : Nat) (src : List α) : List α :=
  dst.take pos ++ src ++ dst.drop (pos + src.length)

/-- Copy `src` into the segments from the flat position `pos` on, filling each
segment up to its length and dropping what does not fit in the last one. -/
def scatter : List (List α) → Nat → List α → List (List α)
  | [], _, _ => []
  | seg :: rest, pos, src =>
      if seg.length < pos then seg :: scatter rest (pos - seg.length) src
      else
        writeAt seg pos (src.take (seg.length - pos)) ::
          scatter rest 0 (src.drop (seg.length - pos))

@[simp] theorem writeAt_nil (dst : List α) (pos : Nat) : writeAt dst pos [] = dst := by
  simp [writeAt]

theorem length_writeAt {dst src : List α} {pos : Nat} (fits : pos + src.length ≤ dst.length) :
    (writeAt dst pos src).length = dst.length := by
  simp only [writeAt, List.length_append, List.length_take, List.length_drop]
  omega

theorem getElem?_writeAt {dst src : List α} {pos : Nat} (fits : pos + src.length ≤ dst.length) (p : Nat) :
    (writeAt dst pos src)[p]? = if pos ≤ p ∧ p < pos + src.length then src[p - pos]? else dst[p]? := by
  have front : (dst.take pos).length = pos := List.length_take_of_le (by omega)
  rw [writeAt, List.append_assoc]
  by_cases before : p < pos
  · rw [List.getElem?_append_left (by omega), List.getElem?_take_of_lt before, if_neg (by omega)]
  · rw [List.getElem?_append_right (by omega), front]
    by_cases inside : p < pos + src.length
    · rw [List.getElem?_append_left (by omega), if_pos ⟨by omega, inside⟩]
    · rw [List.getElem?_append_right (by omega), List.getElem?_drop, if_neg (by omega)]
      congr 1
      omega

theorem take_writeAt {dst src : List α} {pos n : Nat} (inside : pos ≤ dst.length)
    (count : src.length = n) :
    (writeAt dst pos src).take (pos + n) = dst.take pos ++ src := by
  have prefixLength : (dst.take pos ++ src).length = pos + n := by
    simp only [List.length_append, List.length_take]
    omega
  rw [writeAt, ← prefixLength, List.take_left]

theorem take_writeAt_zero (dst : List α) {src : List α} {n : Nat} (count : src.length = n) :
    (writeAt dst 0 src).take n = src := by
  simpa using take_writeAt (Nat.zero_le dst.length) count

theorem writeAt_append_of_le {a b : List α} {pos : Nat} (behind : a.length ≤ pos) (src : List α) :
    writeAt (a ++ b) pos src = a ++ writeAt b (pos - a.length) src := by
  have start : pos - a.length + src.length = pos + src.length - a.length := by omega
  simp only [writeAt, List.take_append, List.drop_append, start, List.append_assoc]
  rw [List.take_of_length_le behind, List.drop_eq_nil_of_le (by omega), List.nil_append]

theorem writeAt_append_of_ge {a b : List α} {pos : Nat} (inside : pos ≤ a.length) (src : List α) :
    writeAt (a ++ b) pos src =
      writeAt a pos (src.take (a.length - pos)) ++ writeAt b 0 (src.drop (a.length - pos)) := by
  have front : (a ++ b).take pos = a.take pos := List.take_append_of_le_length inside
  rw [writeAt, writeAt, writeAt, front, List.drop_append, List.take_zero,
    List.nil_append, Nat.zero_add]
  rcases Nat.le_total src.length (a.length - pos) with short | long
  · have tail : pos + src.length - a.length = 0 := by omega
    rw [List.take_of_length_le short, List.drop_eq_nil_of_le short, tail]
    simp
  · have full : (src.take (a.length - pos)).length = a.length - pos := List.length_take_of_le long
    have spill : (src.drop (a.length - pos)).length = pos + src.length - a.length := by
      simp only [List.length_drop]
      omega
    rw [full, spill, List.drop_eq_nil_of_le (by omega : a.length ≤ pos + src.length),
      List.drop_eq_nil_of_le (by omega : a.length ≤ pos + (a.length - pos))]
    simp only [List.append_nil, List.append_assoc]
    rw [← List.append_assoc (src.take _), List.take_append_drop, List.nil_append]

theorem writeAt_append_of_fits {a b src : List α} {pos : Nat} (fits : pos + src.length ≤ a.length) :
    writeAt (a ++ b) pos src = writeAt a pos src ++ b := by
  rw [writeAt_append_of_ge (by omega), List.take_of_length_le (by omega),
    List.drop_eq_nil_of_le (by omega), writeAt_nil]

@[simp] theorem scatter_nil (segs : List (List α)) (pos : Nat) : scatter segs pos [] = segs := by
  induction segs generalizing pos with
  | nil => rfl
  | cons seg rest ih =>
      simp only [scatter, List.take_nil, writeAt_nil, List.drop_nil, ih]
      split <;> rfl

theorem map_length_scatter (segs : List (List α)) (pos : Nat) (src : List α) :
    (scatter segs pos src).map List.length = segs.map List.length := by
  induction segs generalizing pos src with
  | nil => rfl
  | cons seg rest ih =>
      simp only [scatter]
      split
      · simp only [List.map_cons, ih]
      · have fits : pos + (src.take (seg.length - pos)).length ≤ seg.length := by
          simp only [List.length_take]
          omega
        simp only [List.map_cons, ih, length_writeAt fits]

theorem length_flatten_scatter (segs : List (List α)) (pos : Nat) (src : List α) :
    (scatter segs pos src).flatten.length = segs.flatten.length := by
  simp only [List.length_flatten, map_length_scatter]

theorem flatten_scatter (segs : List (List α)) (pos : Nat) (src : List α) :
    (scatter segs pos src).flatten =
      writeAt segs.flatten pos (src.take (segs.flatten.length - pos)) := by
  induction segs generalizing pos src with
  | nil => simp [scatter, writeAt]
  | cons seg rest ih =>
      simp only [scatter, List.flatten_cons, List.length_append]
      split
      · rename_i behind
        rw [List.flatten_cons, ih, writeAt_append_of_le (Nat.le_of_lt behind)]
        congr 3
        omega
      · rename_i inside
        rw [List.flatten_cons, ih, writeAt_append_of_ge (by omega), List.take_take,
          List.drop_take]
        congr 3
        · omega
        · omega

theorem le_length_writeAt {dst src : List α} {pos : Nat} (inside : pos ≤ dst.length) :
    pos + src.length ≤ (writeAt dst pos src).length := by
  simp only [writeAt, List.length_append, List.length_take]
  omega

theorem writeAt_writeAt_append {dst a b : List α} {pos n : Nat} (inside : pos ≤ dst.length)
    (count : a.length = n) :
    writeAt (writeAt dst pos a) (pos + n) b = writeAt dst pos (a ++ b) := by
  subst count
  have front : (dst.take pos ++ a).length = pos + a.length := by
    simp only [List.length_append, List.length_take]
    omega
  have first : writeAt dst pos a = (dst.take pos ++ a) ++ dst.drop (pos + a.length) := rfl
  rw [first, writeAt, List.take_append_of_le_length (by omega), List.take_of_length_le (by omega),
    List.drop_append, List.drop_eq_nil_of_le (by omega), List.nil_append, List.drop_drop, front]
  simp only [writeAt, List.length_append, List.append_assoc]
  congr 4
  omega

/-- The pieces of lengths `lens` cut one after another out of `flat` from
`pos` on. -/
def pieces (flat : List α) : Nat → List Nat → List (List α)
  | _, [] => []
  | pos, len :: lens => (flat.drop pos).take len :: pieces flat (pos + len) lens

theorem flatten_pieces (flat : List α) (pos : Nat) (lens : List Nat) :
    (pieces flat pos lens).flatten = (flat.drop pos).take lens.sum := by
  induction lens generalizing pos with
  | nil => simp [pieces]
  | cons len lens ih => rw [pieces, List.flatten_cons, ih, List.sum_cons, List.take_add, List.drop_drop]

/-! Reading back a region after a write: the region written reads as what
was written, and a region beside it as before. -/

theorem drop_take_writeAt_self {dst src : List α} {pos : Nat} (fits : pos + src.length ≤ dst.length) :
    ((writeAt dst pos src).drop pos).take src.length = src := by
  have front : (dst.take pos).length = pos := List.length_take_of_le (by omega)
  rw [writeAt, List.append_assoc, List.drop_left' front, List.take_left' rfl]

theorem drop_take_writeAt_of_le {dst src : List α} {pos q c : Nat} (fits : pos + src.length ≤ dst.length)
    (before : q + c ≤ pos) : ((writeAt dst pos src).drop q).take c = (dst.drop q).take c := by
  have front : (dst.take pos).length = pos := List.length_take_of_le (by omega)
  rw [writeAt, List.append_assoc, List.drop_append_of_le_length (by omega),
    List.take_append_of_le_length (by simp only [List.length_drop]; omega), List.drop_take, List.take_take,
    Nat.min_eq_left (by omega)]

theorem drop_take_writeAt_of_ge {dst src : List α} {pos q c : Nat} (fits : pos + src.length ≤ dst.length)
    (after : pos + src.length ≤ q) : ((writeAt dst pos src).drop q).take c = (dst.drop q).take c := by
  have front : (dst.take pos ++ src).length = pos + src.length := by
    simp only [List.length_append, List.length_take]
    omega
  rw [writeAt, List.drop_append, List.drop_eq_nil_of_le (by omega), List.nil_append, front, List.drop_drop]
  congr 2
  omega

theorem writeAt_zero_of_length {dst src : List α} (same : dst.length = src.length) : writeAt dst 0 src = src := by
  rw [writeAt, List.take_zero, List.nil_append, Nat.zero_add, List.drop_eq_nil_of_le (by omega), List.append_nil]

theorem drop_take_of_take_eq {a b : List α} {cap q c : Nat} (agree : a.take cap = b.take cap)
    (below : q + c ≤ cap) : (a.drop q).take c = (b.drop q).take c := by
  have cut : ∀ l : List α, (l.drop q).take c = ((l.take cap).drop q).take c := by
    intro l
    rw [List.drop_take, List.take_take, Nat.min_eq_left (by omega)]
  rw [cut a, cut b, agree]

theorem drop_take_rotate {l : List α} {n count root r : Nat} (size : l.length = n * count) (hroot : root < n)
    (hr : r < n) :
    ((l.rotate (count * root)).drop (r * count)).take count = (l.drop ((r + root) % n * count)).take count := by
  have front : (l.drop (count * root)).length = (n - root) * count := by
    rw [List.length_drop, size, Nat.sub_mul, Nat.mul_comm count root]
  rw [List.rotate_eq_drop_append_take (by rw [size, Nat.mul_comm n]; exact Nat.mul_le_mul_left count hroot.le)]
  by_cases wrap : r + root < n
  · have room : r * count + count ≤ (n - root) * count := by
      rw [← Nat.succ_mul]
      exact Nat.mul_le_mul_right count (by omega)
    rw [Nat.mod_eq_of_lt wrap, List.drop_append_of_le_length (by omega),
      List.take_append_of_le_length (by rw [List.length_drop]; omega), List.drop_drop, Nat.add_mul,
      Nat.mul_comm count root, Nat.add_comm]
  · have past : (n - root) * count ≤ r * count := Nat.mul_le_mul_right count (by omega)
    have shift : r * count - (n - root) * count = (r + root - n) * count := by
      rw [← Nat.sub_mul]
      congr 1
      omega
    have room : (r + root - n) * count + count ≤ count * root := by
      rw [← Nat.succ_mul, Nat.mul_comm count root]
      exact Nat.mul_le_mul_right count (by omega)
    rw [Nat.mod_eq_sub_mod (by omega), Nat.mod_eq_of_lt (by omega), List.drop_append, List.drop_eq_nil_of_le (by omega),
      List.nil_append, front, shift, List.drop_take, List.take_take, Nat.min_eq_left (by omega)]

end Buffer
