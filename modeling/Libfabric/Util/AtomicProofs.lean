import Mathlib.Data.List.GetD
import Libfabric.Util.Atomic

/-! The software atomics against fi_atomic(3). `fiAtomicResult` and
`fiCompareResult` are the man page's statements on one element, and a handler
meets the page (`WriteSpec`, `ReadwriteSpec`, `SwapSpec`) when it computes them
on the first `count` elements, for every fuel that lets its compare-and-swap
loops run one round. Each template is run once over its whole array, and the
tables are then read entry by entry: an entry meets the page because its
`OFI_OP_*` does. -/
namespace Libfabric.Atomic

open Cells Datatype

/-! ## What fi_atomic(3) says -/

/-- The integer a value stands for: two's complement for the signed types. -/
def Datatype.value (d : Datatype) (a : d.Val) : Int := if d.signed then a.toInt else a.toNat

/-- `addr[i]` after `op` with `buf[i]`. -/
def fiAtomicResult (d : Datatype) : AtomicOp → (addr buf : d.Val) → d.Val
  | .min, addr, buf => if d.value buf < d.value addr then buf else addr
  | .max, addr, buf => if d.value buf > d.value addr then buf else addr
  | .sum, addr, buf => BitVec.ofInt d.width (d.value addr + d.value buf)
  | .prod, addr, buf => BitVec.ofInt d.width (d.value addr * d.value buf)
  | .lor, addr, buf => if d.value addr ≠ 0 ∨ d.value buf ≠ 0 then 1 else 0
  | .land, addr, buf => if d.value addr ≠ 0 ∧ d.value buf ≠ 0 then 1 else 0
  | .bor, addr, buf => addr ||| buf
  | .band, addr, buf => addr &&& buf
  | .lxor, addr, buf =>
    if (d.value addr ≠ 0 ∧ d.value buf = 0) ∨ (d.value addr = 0 ∧ d.value buf ≠ 0) then 1 else 0
  | .bxor, addr, buf => addr ^^^ buf
  | .atomicRead, addr, _ => addr
  | .atomicWrite, _, buf => buf

/-- `addr[i]` after the compare operation `op`: `buf[i]` where the condition
on `compare[i]` and `addr[i]` holds, and the masked swap for `FI_MSWAP`. -/
def fiCompareResult (d : Datatype) : SwapOp → (addr buf compare : d.Val) → d.Val
  | .cswap, addr, buf, compare => if d.value compare = d.value addr then buf else addr
  | .cswapNe, addr, buf, compare => if d.value compare ≠ d.value addr then buf else addr
  | .cswapLe, addr, buf, compare => if d.value compare ≤ d.value addr then buf else addr
  | .cswapLt, addr, buf, compare => if d.value compare < d.value addr then buf else addr
  | .cswapGe, addr, buf, compare => if d.value compare ≥ d.value addr then buf else addr
  | .cswapGt, addr, buf, compare => if d.value compare > d.value addr then buf else addr
  | .mswap, addr, buf, compare => (buf &&& compare) ||| (addr &&& ~~~compare)

/-- `fi_atomic`: `addr` after the operation on its first `count` elements. -/
def fiAtomic (d : Datatype) (op : AtomicOp) (addr buf : Nat → d.Val) (count : Nat) : Nat → d.Val :=
  fun i => if i < count then fiAtomicResult d op (addr i) (buf i) else addr i

/-- `fi_fetch_atomic`: `addr` after, and `result` holding the old `addr[i]`. -/
def fiFetchAtomic (d : Datatype) (op : AtomicOp) (addr buf result : Nat → d.Val) (count : Nat) :
    (Nat → d.Val) × (Nat → d.Val) :=
  (fiAtomic d op addr buf count, fun i => if i < count then addr i else result i)

/-- `fi_compare_atomic`: `addr` after, and `result` holding the old `addr[i]`. -/
def fiCompareAtomic (d : Datatype) (op : SwapOp) (addr buf compare result : Nat → d.Val) (count : Nat) :
    (Nat → d.Val) × (Nat → d.Val) :=
  (fun i => if i < count then fiCompareResult d op (addr i) (buf i) (compare i) else addr i,
    fun i => if i < count then addr i else result i)

/-- A write handler computes `fi_atomic` once its loops may run a round. -/
def WriteSpec (d : Datatype) (op : AtomicOp) (h : WriteFn d) : Prop :=
  ∀ fuel dst src cnt, h (fuel + 1) dst src cnt = some (fiAtomic d op dst src cnt)

/-- A read-write handler computes `fi_fetch_atomic`. -/
def ReadwriteSpec (d : Datatype) (op : AtomicOp) (h : ReadwriteFn d) : Prop :=
  ∀ fuel dst src res cnt, h (fuel + 1) dst src res cnt = some (fiFetchAtomic d op dst src res cnt)

/-- A swap handler computes `fi_compare_atomic`. -/
def SwapSpec (d : Datatype) (op : SwapOp) (h : SwapFn d) : Prop :=
  ∀ fuel dst src cmp res cnt, h (fuel + 1) dst src cmp res cnt = some (fiCompareAtomic d op dst src cmp res cnt)

/-- The entry is the handler of datatype `d`, and it meets `spec`. -/
def Entry.Implements {H : Datatype → Type} (e : Entry H) (d : Datatype) (spec : H d → Prop) : Prop :=
  ∃ h, e = .int d h ∧ spec h

variable {d : Datatype}

theorem fiAtomic_atomicRead (addr buf : Nat → d.Val) (count : Nat) :
    fiAtomic d .atomicRead addr buf count = addr := by
  funext i
  simp [fiAtomic, fiAtomicResult]

/-! ## The C operators on values

After the integer promotions a comparison is signed exactly for the signed
types, and a sum or product stored back is the integer one modulo
`2 ^ width`. -/

theorem cLt_iff (a b : d.Val) : cLt d a b = true ↔ d.value a < d.value b := by
  unfold cLt Datatype.value
  cases d.signed
  · simp [BitVec.ult_iff_lt, BitVec.lt_def]
  · simp [BitVec.slt_iff_toInt_lt]

theorem cLe_iff (a b : d.Val) : cLe d a b = true ↔ d.value a ≤ d.value b := by
  unfold cLe Datatype.value
  cases d.signed
  · simp [BitVec.ule_iff_le, BitVec.le_def]
  · simp [BitVec.sle_iff_toInt_le]

theorem ofInt_value (a : d.Val) : BitVec.ofInt d.width (d.value a) = a := by
  unfold Datatype.value
  cases d.signed
  · simp
  · simp

theorem value_inj {a b : d.Val} : d.value a = d.value b ↔ a = b := by
  unfold Datatype.value
  cases d.signed
  · simp [BitVec.toNat_inj]
  · simp [BitVec.toInt_inj]

theorem value_eq_zero {a : d.Val} : d.value a = 0 ↔ a = 0 := by
  rw [← value_inj]
  unfold Datatype.value
  cases d.signed <;> simp

theorem truth_eq (a : d.Val) : truth a = decide (d.value a ≠ 0) := by
  rw [Bool.eq_iff_iff]
  simp [truth, value_eq_zero]

/-! Each operation of the page, as the `OFI_OP_*` macros compute it. -/

theorem fiAtomicResult_min (a b : d.Val) : fiAtomicResult d .min a b = if cLt d b a then b else a := by
  simp only [fiAtomicResult, cLt_iff]

theorem fiAtomicResult_max (a b : d.Val) : fiAtomicResult d .max a b = if cLt d a b then b else a := by
  simp only [fiAtomicResult, cLt_iff, gt_iff_lt]

theorem fiAtomicResult_sum (a b : d.Val) : fiAtomicResult d .sum a b = a + b := by
  rw [fiAtomicResult, BitVec.ofInt_add, ofInt_value, ofInt_value]

theorem fiAtomicResult_prod (a b : d.Val) : fiAtomicResult d .prod a b = a * b := by
  rw [fiAtomicResult, BitVec.ofInt_mul, ofInt_value, ofInt_value]

theorem fiAtomicResult_lor (a b : d.Val) : fiAtomicResult d .lor a b = ofBool d (truth a || truth b) := by
  simp [fiAtomicResult, ofBool, truth_eq]

theorem fiAtomicResult_land (a b : d.Val) : fiAtomicResult d .land a b = ofBool d (truth a && truth b) := by
  simp [fiAtomicResult, ofBool, truth_eq]

theorem fiAtomicResult_lxor (a b : d.Val) :
    fiAtomicResult d .lxor a b = ofBool d ((truth a && !truth b) || (!truth a && truth b)) := by
  simp [fiAtomicResult, ofBool, truth_eq]

theorem fiCompareResult_cswap (a b c : d.Val) : fiCompareResult d .cswap a b c = if c = a then b else a := by
  simp only [fiCompareResult, value_inj]

theorem fiCompareResult_cswapNe (a b c : d.Val) :
    fiCompareResult d .cswapNe a b c = if (c != a) then b else a := by
  simp [fiCompareResult, value_inj]

theorem fiCompareResult_cswapLe (a b c : d.Val) :
    fiCompareResult d .cswapLe a b c = if cLe d c a then b else a := by
  simp only [fiCompareResult, cLe_iff]

theorem fiCompareResult_cswapLt (a b c : d.Val) :
    fiCompareResult d .cswapLt a b c = if cLt d c a then b else a := by
  simp only [fiCompareResult, cLt_iff]

theorem fiCompareResult_cswapGe (a b c : d.Val) :
    fiCompareResult d .cswapGe a b c = if cLe d a c then b else a := by
  simp only [fiCompareResult, cLe_iff, ge_iff_le]

theorem fiCompareResult_cswapGt (a b c : d.Val) :
    fiCompareResult d .cswapGt a b c = if cLt d a c then b else a := by
  simp only [fiCompareResult, cLt_iff, gt_iff_lt]

theorem Builtin.ofiOpCswapEq_spec (a b c : d.Val) :
    Builtin.ofiOpCswapEq d a b c = (fiCompareResult d .cswap a b c, a) := by
  rw [fiCompareResult_cswap]
  by_cases same : a = c
  · subst same
    simp [Builtin.ofiOpCswapEq, compareExchange]
  · simp [Builtin.ofiOpCswapEq, compareExchange, same, Ne.symm same]

/-! ## The templates, over the whole array

Each template is a `forUpTo` whose pass `i` rewrites `d[i]` (and `r[i]`)
from the old `d[i]`; a compare-and-swap loop ends in its first round
(`casLoop_succ`), so with one round of fuel the template is the plain loop
of `Cells.forUpTo_update` or `Cells.forUpTo_update₂`. -/

namespace Builtin

variable {α β : Type}

theorem ofiDefWriteFunc_eq (op : α → α → α × β) (fuel : Nat) (dst src : Nat → α) (cnt : Nat) :
    ofiDefWriteFunc op fuel dst src cnt = some fun i => if i < cnt then (op (dst i) (src i)).1 else dst i :=
  forUpTo_update (fun i c => (op c (src i)).1) cnt dst

theorem ofiDefWriteextFunc_eq [DecidableEq α] (op : α → α → α) (fuel : Nat) (dst src : Nat → α) (cnt : Nat) :
    ofiDefWriteextFunc op (fuel + 1) dst src cnt =
      some fun i => if i < cnt then op (dst i) (src i) else dst i := by
  refine Eq.trans ?_ (forUpTo_update (fun i c => op c (src i)) cnt dst)
  unfold ofiDefWriteextFunc
  simp only [casLoop_succ, Option.getD_some, Option.map_some]

theorem ofiDefWriteextCmpFunc_eq [DecidableEq α] (op : α → α → Bool) (fuel : Nat) (dst src : Nat → α)
    (cnt : Nat) :
    ofiDefWriteextCmpFunc op (fuel + 1) dst src cnt =
      some fun i => if i < cnt then (if op (dst i) (src i) then src i else dst i) else dst i := by
  refine Eq.trans ?_ (forUpTo_update (fun i c => if op c (src i) then src i else c) cnt dst)
  unfold ofiDefWriteextCmpFunc
  simp only [casLoop_succ_of_guard, Option.map_some]

theorem ofiDefReadFunc_eq (op : α → α → α) (fuel : Nat) (dst src res : Nat → α) (cnt : Nat) :
    ofiDefReadFunc op fuel dst src res cnt =
      some (dst, fun i => if i < cnt then op (dst i) (res i) else res i) := by
  -- the pass stores `d[i]` back into `d[i]`
  have run := forUpTo_update₂ (fun _ a b => (a, op a b)) cnt dst res
  simp only [Function.update_eq_self, ite_self] at run
  exact run

theorem ofiDefReadwriteFunc_eq (op : α → α → α × α) (fuel : Nat) (dst src res : Nat → α) (cnt : Nat) :
    ofiDefReadwriteFunc op fuel dst src res cnt =
      some (fun i => if i < cnt then (op (dst i) (src i)).1 else dst i,
        fun i => if i < cnt then (op (dst i) (src i)).2 else res i) :=
  forUpTo_update₂ (fun i a _ => op a (src i)) cnt dst res

theorem ofiDefReadwriteextFunc_eq [DecidableEq α] (op : α → α → α) (fuel : Nat) (dst src res : Nat → α)
    (cnt : Nat) :
    ofiDefReadwriteextFunc op (fuel + 1) dst src res cnt =
      some (fun i => if i < cnt then op (dst i) (src i) else dst i,
        fun i => if i < cnt then dst i else res i) := by
  refine Eq.trans ?_ (forUpTo_update₂ (fun i a _ => (op a (src i), a)) cnt dst res)
  unfold ofiDefReadwriteextFunc
  congr 1
  funext i s
  simp only [casLoop_succ, Option.getD_some, Option.map_some]

theorem ofiDefReadwriteextCmpFunc_eq [DecidableEq α] (op : α → α → Bool) (fuel : Nat)
    (dst src res : Nat → α) (cnt : Nat) :
    ofiDefReadwriteextCmpFunc op (fuel + 1) dst src res cnt =
      some (fun i => if i < cnt then (if op (dst i) (src i) then src i else dst i) else dst i,
        fun i => if i < cnt then dst i else res i) := by
  refine Eq.trans ?_ (forUpTo_update₂ (fun i a _ => (if op a (src i) then src i else a, a)) cnt dst res)
  unfold ofiDefReadwriteextCmpFunc
  congr 1
  funext i s
  simp only [casLoop_succ_of_guard, Option.map_some]

theorem ofiDefExchangeFunc_eq (op : α → α → α × α) (fuel : Nat) (dst src res : Nat → α) (cnt : Nat) :
    ofiDefExchangeFunc op fuel dst src res cnt =
      some (fun i => if i < cnt then (op (dst i) (src i)).1 else dst i,
        fun i => if i < cnt then (op (dst i) (src i)).2 else res i) :=
  forUpTo_update₂ (fun i a _ => op a (src i)) cnt dst res

theorem ofiDefCswapFunc_eq (op : α → α → α → α × α) (fuel : Nat) (dst src cmp res : Nat → α)
    (cnt : Nat) :
    ofiDefCswapFunc op fuel dst src cmp res cnt =
      some (fun i => if i < cnt then (op (dst i) (src i) (cmp i)).1 else dst i,
        fun i => if i < cnt then (op (dst i) (src i) (cmp i)).2 else res i) :=
  forUpTo_update₂ (fun i a _ => op a (src i) (cmp i)) cnt dst res

theorem ofiDefCswapextFunc_eq [DecidableEq α] (op : α → α → α → α) (fuel : Nat)
    (dst src cmp res : Nat → α) (cnt : Nat) :
    ofiDefCswapextFunc op (fuel + 1) dst src cmp res cnt =
      some (fun i => if i < cnt then op (dst i) (src i) (cmp i) else dst i,
        fun i => if i < cnt then dst i else res i) := by
  refine Eq.trans ?_ (forUpTo_update₂ (fun i a _ => (op a (src i) (cmp i), a)) cnt dst res)
  unfold ofiDefCswapextFunc
  congr 1
  funext i s
  simp only [casLoop_succ, Option.getD_some, Option.map_some]

theorem ofiDefCswapextCmpFunc_eq [DecidableEq α] (op : α → α → α → Bool) (fuel : Nat)
    (dst src cmp res : Nat → α) (cnt : Nat) :
    ofiDefCswapextCmpFunc op (fuel + 1) dst src cmp res cnt =
      some (fun i => if i < cnt then (if op (dst i) (src i) (cmp i) then src i else dst i) else dst i,
        fun i => if i < cnt then dst i else res i) := by
  refine Eq.trans ?_ (forUpTo_update₂ (fun i a _ => (if op a (src i) (cmp i) then src i else a, a)) cnt dst res)
  unfold ofiDefCswapextCmpFunc
  congr 1
  funext i s
  simp only [casLoop_succ_of_guard, Option.map_some]

end Builtin

namespace Fallback

variable {α : Type}

theorem ofiDefWriteFunc_eq (op : α → α → α) (fuel : Nat) (dst src : Nat → α) (cnt : Nat) :
    ofiDefWriteFunc op fuel dst src cnt = some fun i => if i < cnt then op (dst i) (src i) else dst i :=
  forUpTo_update (fun i c => op c (src i)) cnt dst

theorem ofiDefReadFunc_eq (op : α → α → α) (fuel : Nat) (dst src res : Nat → α) (cnt : Nat) :
    ofiDefReadFunc op fuel dst src res cnt =
      some (dst, fun i => if i < cnt then op (dst i) (res i) else res i) := by
  have run := forUpTo_update₂ (fun _ a b => (a, op a b)) cnt dst res
  simp only [Function.update_eq_self, ite_self] at run
  exact run

theorem ofiDefReadwriteFunc_eq (op : α → α → α) (fuel : Nat) (dst src res : Nat → α) (cnt : Nat) :
    ofiDefReadwriteFunc op fuel dst src res cnt =
      some (fun i => if i < cnt then op (dst i) (src i) else dst i, fun i => if i < cnt then dst i else res i) :=
  forUpTo_update₂ (fun i a _ => (op a (src i), a)) cnt dst res

theorem ofiDefCswapFunc_eq (op : α → α → α → α) (fuel : Nat) (dst src cmp res : Nat → α) (cnt : Nat) :
    ofiDefCswapFunc op fuel dst src cmp res cnt =
      some (fun i => if i < cnt then op (dst i) (src i) (cmp i) else dst i,
        fun i => if i < cnt then dst i else res i) :=
  forUpTo_update₂ (fun i a _ => (op a (src i) (cmp i), a)) cnt dst res

end Fallback

/-! ## The templates meet the page where their operation does -/

namespace Builtin

variable {β : Type} {aop : AtomicOp} {sop : SwapOp}

theorem ofiDefWriteFunc_spec {op : d.Val → d.Val → d.Val × β}
    (elem : ∀ a b, (op a b).1 = fiAtomicResult d aop a b) :
    WriteSpec d aop (ofiDefWriteFunc op) := by
  intro fuel dst src cnt
  rw [ofiDefWriteFunc_eq]
  simp only [elem]
  rfl

theorem ofiDefWriteextFunc_spec {op : d.Val → d.Val → d.Val}
    (elem : ∀ a b, op a b = fiAtomicResult d aop a b) :
    WriteSpec d aop (ofiDefWriteextFunc op) := by
  intro fuel dst src cnt
  rw [ofiDefWriteextFunc_eq]
  simp only [elem]
  rfl

theorem ofiDefWriteextCmpFunc_spec {op : d.Val → d.Val → Bool}
    (elem : ∀ a b, (if op a b then b else a) = fiAtomicResult d aop a b) :
    WriteSpec d aop (ofiDefWriteextCmpFunc op) := by
  intro fuel dst src cnt
  rw [ofiDefWriteextCmpFunc_eq]
  simp only [elem]
  rfl

theorem ofiDefReadFunc_spec {op : d.Val → d.Val → d.Val} (elem : ∀ a r, op a r = a) :
    ReadwriteSpec d .atomicRead (ofiDefReadFunc op) := by
  intro fuel dst src res cnt
  rw [ofiDefReadFunc_eq]
  simp only [elem, fiFetchAtomic, fiAtomic_atomicRead]

theorem ofiDefReadwriteFunc_spec {op : d.Val → d.Val → d.Val × d.Val}
    (elem : ∀ a b, op a b = (fiAtomicResult d aop a b, a)) : ReadwriteSpec d aop (ofiDefReadwriteFunc op) := by
  intro fuel dst src res cnt
  rw [ofiDefReadwriteFunc_eq]
  simp only [elem]
  rfl

theorem ofiDefReadwriteextFunc_spec {op : d.Val → d.Val → d.Val}
    (elem : ∀ a b, op a b = fiAtomicResult d aop a b) :
    ReadwriteSpec d aop (ofiDefReadwriteextFunc op) := by
  intro fuel dst src res cnt
  rw [ofiDefReadwriteextFunc_eq]
  simp only [elem]
  rfl

theorem ofiDefReadwriteextCmpFunc_spec {op : d.Val → d.Val → Bool}
    (elem : ∀ a b, (if op a b then b else a) = fiAtomicResult d aop a b) :
    ReadwriteSpec d aop (ofiDefReadwriteextCmpFunc op) := by
  intro fuel dst src res cnt
  rw [ofiDefReadwriteextCmpFunc_eq]
  simp only [elem]
  rfl

theorem ofiDefExchangeFunc_spec {op : d.Val → d.Val → d.Val × d.Val}
    (elem : ∀ a b, op a b = (fiAtomicResult d aop a b, a)) : ReadwriteSpec d aop (ofiDefExchangeFunc op) := by
  intro fuel dst src res cnt
  rw [ofiDefExchangeFunc_eq]
  simp only [elem]
  rfl

theorem ofiDefCswapFunc_spec {op : d.Val → d.Val → d.Val → d.Val × d.Val}
    (elem : ∀ a b c, op a b c = (fiCompareResult d sop a b c, a)) : SwapSpec d sop (ofiDefCswapFunc op) := by
  intro fuel dst src cmp res cnt
  rw [ofiDefCswapFunc_eq]
  simp only [elem]
  rfl

theorem ofiDefCswapextFunc_spec {op : d.Val → d.Val → d.Val → d.Val}
    (elem : ∀ a b c, op a b c = fiCompareResult d sop a b c) : SwapSpec d sop (ofiDefCswapextFunc op) := by
  intro fuel dst src cmp res cnt
  rw [ofiDefCswapextFunc_eq]
  simp only [elem]
  rfl

theorem ofiDefCswapextCmpFunc_spec {op : d.Val → d.Val → d.Val → Bool}
    (elem : ∀ a b c, (if op a b c then b else a) = fiCompareResult d sop a b c) :
    SwapSpec d sop (ofiDefCswapextCmpFunc op) := by
  intro fuel dst src cmp res cnt
  rw [ofiDefCswapextCmpFunc_eq]
  simp only [elem]
  rfl

end Builtin

namespace Fallback

variable {aop : AtomicOp} {sop : SwapOp}

theorem ofiDefWriteFunc_spec {op : d.Val → d.Val → d.Val} (elem : ∀ a b, op a b = fiAtomicResult d aop a b) :
    WriteSpec d aop (ofiDefWriteFunc op) := by
  intro fuel dst src cnt
  rw [ofiDefWriteFunc_eq]
  simp only [elem]
  rfl

theorem ofiDefReadFunc_spec {op : d.Val → d.Val → d.Val} (elem : ∀ a r, op a r = a) :
    ReadwriteSpec d .atomicRead (ofiDefReadFunc op) := by
  intro fuel dst src res cnt
  rw [ofiDefReadFunc_eq]
  simp only [elem, fiFetchAtomic, fiAtomic_atomicRead]

theorem ofiDefReadwriteFunc_spec {op : d.Val → d.Val → d.Val}
    (elem : ∀ a b, op a b = fiAtomicResult d aop a b) :
    ReadwriteSpec d aop (ofiDefReadwriteFunc op) := by
  intro fuel dst src res cnt
  rw [ofiDefReadwriteFunc_eq]
  simp only [elem]
  rfl

theorem ofiDefCswapFunc_spec {op : d.Val → d.Val → d.Val → d.Val}
    (elem : ∀ a b c, op a b c = fiCompareResult d sop a b c) : SwapSpec d sop (ofiDefCswapFunc op) := by
  intro fuel dst src cmp res cnt
  rw [ofiDefCswapFunc_eq]
  simp only [elem]
  rfl

end Fallback

/-! ## The rows and the tables -/

section Rows

variable {H : Datatype → Type} (cfg : AtomicCfg) {gen : (d : Datatype) → H d} {spec : H d → Prop}

theorem intEntries_append_getD (gen : (d : Datatype) → H d) (rest : List (Entry H)) (d : Datatype) :
    (intEntries gen ++ rest).getD d.index .null = .int d (gen d) := by
  cases d <;> rfl

/-! A row macro puts `gen d` at the column of `d`, so the entry meets what
`gen d` meets. -/

theorem ofiDefineIntHandlers_implements (holds : spec (gen d)) :
    ((ofiDefineIntHandlers cfg gen).getD d.index .null).Implements d spec := by
  rw [ofiDefineIntHandlers, List.append_assoc, intEntries_append_getD]
  exact ⟨gen d, rfl, holds⟩

theorem ofiDefineAllHandlers_implements (holds : spec (gen d)) :
    ((ofiDefineAllHandlers cfg gen).getD d.index .null).Implements d spec := by
  rw [ofiDefineAllHandlers, List.append_assoc, intEntries_append_getD]
  exact ⟨gen d, rfl, holds⟩

theorem ofiDefineRealnoHandlers_implements (holds : spec (gen d)) :
    ((ofiDefineRealnoHandlers cfg gen).getD d.index .null).Implements d spec := by
  rw [ofiDefineRealnoHandlers, List.append_assoc, intEntries_append_getD]
  exact ⟨gen d, rfl, holds⟩

end Rows

/-! Each table is read row by row, one case per operation: the row macro of
the source's row, the template it instantiates, and the `OFI_OP_*` lemma
that makes the template meet the operation. -/

section Tables

variable (cfg : AtomicCfg) (d : Datatype)

open Builtin in
theorem ofiAtomicWriteHandlers_builtin (builtin : cfg.builtinMmAtomics = true) (op : AtomicOp)
    (supported : op ≠ .atomicRead) :
    (lookup (ofiAtomicWriteHandlers cfg) op.index d.index).Implements d (WriteSpec d op) := by
  unfold lookup ofiAtomicWriteHandlers
  rw [if_pos builtin]
  cases op with
  | min =>
    exact ofiDefineRealnoHandlers_implements cfg
      (ofiDefWriteextCmpFunc_spec fun a b => (fiAtomicResult_min a b).symm)
  | max =>
    exact ofiDefineRealnoHandlers_implements cfg
      (ofiDefWriteextCmpFunc_spec fun a b => (fiAtomicResult_max a b).symm)
  | sum =>
    exact ofiDefineAllHandlers_implements cfg
      (ofiDefWriteextFunc_spec fun a b => (fiAtomicResult_sum a b).symm)
  | prod =>
    exact ofiDefineAllHandlers_implements cfg
      (ofiDefWriteextFunc_spec fun a b => (fiAtomicResult_prod a b).symm)
  | lor =>
    exact ofiDefineAllHandlers_implements cfg
      (ofiDefWriteextFunc_spec fun a b => (fiAtomicResult_lor a b).symm)
  | land =>
    exact ofiDefineAllHandlers_implements cfg
      (ofiDefWriteextFunc_spec fun a b => (fiAtomicResult_land a b).symm)
  | bor => exact ofiDefineIntHandlers_implements cfg (ofiDefWriteFunc_spec fun _ _ => rfl)
  | band => exact ofiDefineIntHandlers_implements cfg (ofiDefWriteFunc_spec fun _ _ => rfl)
  | lxor =>
    exact ofiDefineAllHandlers_implements cfg
      (ofiDefWriteextFunc_spec fun a b => (fiAtomicResult_lxor a b).symm)
  | bxor => exact ofiDefineIntHandlers_implements cfg (ofiDefWriteFunc_spec fun _ _ => rfl)
  | atomicRead => exact absurd rfl supported
  | atomicWrite => exact ofiDefineAllHandlers_implements cfg (ofiDefWriteFunc_spec fun _ _ => rfl)

open Fallback in
theorem ofiAtomicWriteHandlers_fallback (builtin : cfg.builtinMmAtomics = false) (op : AtomicOp)
    (supported : op ≠ .atomicRead) :
    (lookup (ofiAtomicWriteHandlers cfg) op.index d.index).Implements d (WriteSpec d op) := by
  unfold lookup ofiAtomicWriteHandlers
  rw [if_neg (ne_true_of_eq_false builtin)]
  cases op with
  | min =>
    exact ofiDefineRealnoHandlers_implements cfg
      (ofiDefWriteFunc_spec fun a b => (fiAtomicResult_min a b).symm)
  | max =>
    exact ofiDefineRealnoHandlers_implements cfg
      (ofiDefWriteFunc_spec fun a b => (fiAtomicResult_max a b).symm)
  | sum =>
    exact ofiDefineAllHandlers_implements cfg
      (ofiDefWriteFunc_spec fun a b => (fiAtomicResult_sum a b).symm)
  | prod =>
    exact ofiDefineAllHandlers_implements cfg
      (ofiDefWriteFunc_spec fun a b => (fiAtomicResult_prod a b).symm)
  | lor =>
    exact ofiDefineAllHandlers_implements cfg
      (ofiDefWriteFunc_spec fun a b => (fiAtomicResult_lor a b).symm)
  | land =>
    exact ofiDefineAllHandlers_implements cfg
      (ofiDefWriteFunc_spec fun a b => (fiAtomicResult_land a b).symm)
  | bor => exact ofiDefineIntHandlers_implements cfg (ofiDefWriteFunc_spec fun _ _ => rfl)
  | band => exact ofiDefineIntHandlers_implements cfg (ofiDefWriteFunc_spec fun _ _ => rfl)
  | lxor =>
    exact ofiDefineAllHandlers_implements cfg
      (ofiDefWriteFunc_spec fun a b => (fiAtomicResult_lxor a b).symm)
  | bxor => exact ofiDefineIntHandlers_implements cfg (ofiDefWriteFunc_spec fun _ _ => rfl)
  | atomicRead => exact absurd rfl supported
  | atomicWrite => exact ofiDefineAllHandlers_implements cfg (ofiDefWriteFunc_spec fun _ _ => rfl)

theorem ofiAtomicWriteHandlers_atomicRead :
    lookup (ofiAtomicWriteHandlers cfg) AtomicOp.atomicRead.index d.index = .null := by
  unfold lookup ofiAtomicWriteHandlers
  split <;> cases d <;> rfl

open Builtin in
theorem ofiAtomicReadwriteHandlers_builtin (builtin : cfg.builtinMmAtomics = true) (op : AtomicOp) :
    (lookup (ofiAtomicReadwriteHandlers cfg) op.index d.index).Implements d (ReadwriteSpec d op) := by
  unfold lookup ofiAtomicReadwriteHandlers
  rw [if_pos builtin]
  cases op with
  | min =>
    exact ofiDefineRealnoHandlers_implements cfg
      (ofiDefReadwriteextCmpFunc_spec fun a b => (fiAtomicResult_min a b).symm)
  | max =>
    exact ofiDefineRealnoHandlers_implements cfg
      (ofiDefReadwriteextCmpFunc_spec fun a b => (fiAtomicResult_max a b).symm)
  | sum =>
    exact ofiDefineAllHandlers_implements cfg
      (ofiDefReadwriteextFunc_spec fun a b => (fiAtomicResult_sum a b).symm)
  | prod =>
    exact ofiDefineAllHandlers_implements cfg
      (ofiDefReadwriteextFunc_spec fun a b => (fiAtomicResult_prod a b).symm)
  | lor =>
    exact ofiDefineAllHandlers_implements cfg
      (ofiDefReadwriteextFunc_spec fun a b => (fiAtomicResult_lor a b).symm)
  | land =>
    exact ofiDefineAllHandlers_implements cfg
      (ofiDefReadwriteextFunc_spec fun a b => (fiAtomicResult_land a b).symm)
  | bor => exact ofiDefineIntHandlers_implements cfg (ofiDefReadwriteFunc_spec fun _ _ => rfl)
  | band => exact ofiDefineIntHandlers_implements cfg (ofiDefReadwriteFunc_spec fun _ _ => rfl)
  | lxor =>
    exact ofiDefineAllHandlers_implements cfg
      (ofiDefReadwriteextFunc_spec fun a b => (fiAtomicResult_lxor a b).symm)
  | bxor => exact ofiDefineIntHandlers_implements cfg (ofiDefReadwriteFunc_spec fun _ _ => rfl)
  | atomicRead => exact ofiDefineAllHandlers_implements cfg (ofiDefReadFunc_spec fun _ _ => rfl)
  | atomicWrite => exact ofiDefineAllHandlers_implements cfg (ofiDefExchangeFunc_spec fun _ _ => rfl)

open Fallback in
theorem ofiAtomicReadwriteHandlers_fallback (builtin : cfg.builtinMmAtomics = false) (op : AtomicOp) :
    (lookup (ofiAtomicReadwriteHandlers cfg) op.index d.index).Implements d (ReadwriteSpec d op) := by
  unfold lookup ofiAtomicReadwriteHandlers
  rw [if_neg (ne_true_of_eq_false builtin)]
  cases op with
  | min =>
    exact ofiDefineRealnoHandlers_implements cfg
      (ofiDefReadwriteFunc_spec fun a b => (fiAtomicResult_min a b).symm)
  | max =>
    exact ofiDefineRealnoHandlers_implements cfg
      (ofiDefReadwriteFunc_spec fun a b => (fiAtomicResult_max a b).symm)
  | sum =>
    exact ofiDefineAllHandlers_implements cfg
      (ofiDefReadwriteFunc_spec fun a b => (fiAtomicResult_sum a b).symm)
  | prod =>
    exact ofiDefineAllHandlers_implements cfg
      (ofiDefReadwriteFunc_spec fun a b => (fiAtomicResult_prod a b).symm)
  | lor =>
    exact ofiDefineAllHandlers_implements cfg
      (ofiDefReadwriteFunc_spec fun a b => (fiAtomicResult_lor a b).symm)
  | land =>
    exact ofiDefineAllHandlers_implements cfg
      (ofiDefReadwriteFunc_spec fun a b => (fiAtomicResult_land a b).symm)
  | bor => exact ofiDefineIntHandlers_implements cfg (ofiDefReadwriteFunc_spec fun _ _ => rfl)
  | band => exact ofiDefineIntHandlers_implements cfg (ofiDefReadwriteFunc_spec fun _ _ => rfl)
  | lxor =>
    exact ofiDefineAllHandlers_implements cfg
      (ofiDefReadwriteFunc_spec fun a b => (fiAtomicResult_lxor a b).symm)
  | bxor => exact ofiDefineIntHandlers_implements cfg (ofiDefReadwriteFunc_spec fun _ _ => rfl)
  | atomicRead => exact ofiDefineAllHandlers_implements cfg (ofiDefReadFunc_spec fun _ _ => rfl)
  | atomicWrite => exact ofiDefineAllHandlers_implements cfg (ofiDefReadwriteFunc_spec fun _ _ => rfl)

open Builtin in
theorem ofiAtomicSwapHandlers_builtin (builtin : cfg.builtinMmAtomics = true) (op : SwapOp) :
    (lookup (ofiAtomicSwapHandlers cfg) (op.index - fiCswap) d.index).Implements d (SwapSpec d op) := by
  unfold lookup ofiAtomicSwapHandlers
  rw [if_pos builtin]
  cases op with
  | cswap => exact ofiDefineAllHandlers_implements cfg (ofiDefCswapFunc_spec ofiOpCswapEq_spec)
  | cswapNe =>
    exact ofiDefineAllHandlers_implements cfg
      (ofiDefCswapextCmpFunc_spec fun a b c => (fiCompareResult_cswapNe a b c).symm)
  | cswapLe =>
    exact ofiDefineRealnoHandlers_implements cfg
      (ofiDefCswapextCmpFunc_spec fun a b c => (fiCompareResult_cswapLe a b c).symm)
  | cswapLt =>
    exact ofiDefineRealnoHandlers_implements cfg
      (ofiDefCswapextCmpFunc_spec fun a b c => (fiCompareResult_cswapLt a b c).symm)
  | cswapGe =>
    exact ofiDefineRealnoHandlers_implements cfg
      (ofiDefCswapextCmpFunc_spec fun a b c => (fiCompareResult_cswapGe a b c).symm)
  | cswapGt =>
    exact ofiDefineRealnoHandlers_implements cfg
      (ofiDefCswapextCmpFunc_spec fun a b c => (fiCompareResult_cswapGt a b c).symm)
  | mswap => exact ofiDefineIntHandlers_implements cfg (ofiDefCswapextFunc_spec fun _ _ _ => rfl)

open Fallback in
theorem ofiAtomicSwapHandlers_fallback (builtin : cfg.builtinMmAtomics = false) (op : SwapOp) :
    (lookup (ofiAtomicSwapHandlers cfg) (op.index - fiCswap) d.index).Implements d (SwapSpec d op) := by
  unfold lookup ofiAtomicSwapHandlers
  rw [if_neg (ne_true_of_eq_false builtin)]
  cases op with
  | cswap =>
    exact ofiDefineAllHandlers_implements cfg
      (ofiDefCswapFunc_spec fun a b c => (fiCompareResult_cswap a b c).symm)
  | cswapNe =>
    exact ofiDefineAllHandlers_implements cfg
      (ofiDefCswapFunc_spec fun a b c => (fiCompareResult_cswapNe a b c).symm)
  | cswapLe =>
    exact ofiDefineRealnoHandlers_implements cfg
      (ofiDefCswapFunc_spec fun a b c => (fiCompareResult_cswapLe a b c).symm)
  | cswapLt =>
    exact ofiDefineRealnoHandlers_implements cfg
      (ofiDefCswapFunc_spec fun a b c => (fiCompareResult_cswapLt a b c).symm)
  | cswapGe =>
    exact ofiDefineRealnoHandlers_implements cfg
      (ofiDefCswapFunc_spec fun a b c => (fiCompareResult_cswapGe a b c).symm)
  | cswapGt =>
    exact ofiDefineRealnoHandlers_implements cfg
      (ofiDefCswapFunc_spec fun a b c => (fiCompareResult_cswapGt a b c).symm)
  | mswap => exact ofiDefineIntHandlers_implements cfg (ofiDefCswapFunc_spec fun _ _ _ => rfl)

end Tables

/-- In either build, the write entry of every operation but `FI_ATOMIC_READ`
computes `fi_atomic`, and that of `FI_ATOMIC_READ` is `NULL`; every
read-write entry computes `fi_fetch_atomic`; every swap entry computes
`fi_compare_atomic`. -/
theorem ofiAtomicHandlers_fiAtomic (cfg : AtomicCfg) (d : Datatype) :
    (∀ op, if op = .atomicRead then lookup (ofiAtomicWriteHandlers cfg) op.index d.index = .null
      else (lookup (ofiAtomicWriteHandlers cfg) op.index d.index).Implements d (WriteSpec d op)) ∧
    (∀ op, (lookup (ofiAtomicReadwriteHandlers cfg) op.index d.index).Implements d (ReadwriteSpec d op)) ∧
    ∀ op : SwapOp,
      (lookup (ofiAtomicSwapHandlers cfg) (op.index - fiCswap) d.index).Implements d (SwapSpec d op) := by
  cases builtin : cfg.builtinMmAtomics
  · refine ⟨fun op => ?_, ofiAtomicReadwriteHandlers_fallback cfg d builtin,
      ofiAtomicSwapHandlers_fallback cfg d builtin⟩
    split
    · next read => rw [read]; exact ofiAtomicWriteHandlers_atomicRead cfg d
    · next supported => exact ofiAtomicWriteHandlers_fallback cfg d builtin op supported
  · refine ⟨fun op => ?_, ofiAtomicReadwriteHandlers_builtin cfg d builtin,
      ofiAtomicSwapHandlers_builtin cfg d builtin⟩
    split
    · next read => rw [read]; exact ofiAtomicWriteHandlers_atomicRead cfg d
    · next supported => exact ofiAtomicWriteHandlers_builtin cfg d builtin op supported

end Libfabric.Atomic
