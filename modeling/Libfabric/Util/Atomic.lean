import Mathlib.Data.BitVec
import Libfabric.Lib.Cells

/-! The software atomics of `util_atomic.c` and `ofi_atomic.h` for `FI_INT8` to
`FI_UINT64`: the write, readwrite and swap dispatch tables, each row filled by
a row macro with one template per datatype, in both builds. With
`HAVE_BUILTIN_MM_ATOMICS` the `OFI_OP_*` macros are expressions and the
templates use compare-and-swap loops, which take a fuel argument here; without
it they are statements on `dst`. A value is its bits and an array a function
from the index; the floating-point, complex and 128-bit columns are
`Entry.other`. -/
namespace Libfabric.Atomic

open Cells

/-- The integer datatypes of `enum fi_datatype`. -/
inductive Datatype where
  | int8 | uint8 | int16 | uint16 | int32 | uint32 | int64 | uint64
  deriving DecidableEq, Repr

namespace Datatype

/-- The datatype's value in `enum fi_datatype`, its column in the tables. -/
def index : Datatype → Nat
  | int8 => 0 | uint8 => 1 | int16 => 2 | uint16 => 3 | int32 => 4 | uint32 => 5 | int64 => 6 | uint64 => 7

def width : Datatype → Nat
  | int8 | uint8 => 8 | int16 | uint16 => 16 | int32 | uint32 => 32 | int64 | uint64 => 64

def signed : Datatype → Bool
  | int8 | int16 | int32 | int64 => true
  | uint8 | uint16 | uint32 | uint64 => false

abbrev Val (d : Datatype) := BitVec d.width

end Datatype

open Datatype

/-- `a < b` on two values after the integer promotions. -/
def cLt (d : Datatype) (a b : d.Val) : Bool := if d.signed then a.slt b else a.ult b

/-- `a <= b` on two values after the integer promotions. -/
def cLe (d : Datatype) (a b : d.Val) : Bool := if d.signed then a.sle b else a.ule b

def truth {d : Datatype} (a : d.Val) : Bool := a != 0

/-- The `int` a C logical operator gives, stored in the datatype. -/
def ofBool (d : Datatype) (b : Bool) : d.Val := if b then 1 else 0

/-- The operations of `enum fi_op` that index the write and read-write
tables, `FI_MIN` to `FI_ATOMIC_WRITE`. -/
inductive AtomicOp where
  | min | max | sum | prod | lor | land | bor | band | lxor | bxor | atomicRead | atomicWrite
  deriving DecidableEq, Repr

def AtomicOp.index : AtomicOp → Nat
  | min => 0 | max => 1 | sum => 2 | prod => 3 | lor => 4 | land => 5 | bor => 6 | band => 7
  | lxor => 8 | bxor => 9 | atomicRead => 10 | atomicWrite => 11

/-- The compare operations of `enum fi_op`, `FI_CSWAP` to `FI_MSWAP`. -/
inductive SwapOp where
  | cswap | cswapNe | cswapLe | cswapLt | cswapGe | cswapGt | mswap
  deriving DecidableEq, Repr

def SwapOp.index : SwapOp → Nat
  | cswap => 12 | cswapNe => 13 | cswapLe => 14 | cswapLt => 15 | cswapGe => 16 | cswapGt => 17 | mswap => 18

/-- `FI_CSWAP`, where the rows of the swap table start. -/
def fiCswap : Nat := 12

/-! The handlers' signatures, with the fuel of their compare-and-swap loops. -/

/-- `void (*)(void *dst, const void *src, size_t cnt)`: the new `dst`. -/
abbrev WriteFn (d : Datatype) := Nat → (Nat → d.Val) → (Nat → d.Val) → Nat → Option (Nat → d.Val)

/-- `void (*)(void *dst, const void *src, void *res, size_t cnt)`: the new
`dst` and `res`. -/
abbrev ReadwriteFn (d : Datatype) :=
  Nat → (Nat → d.Val) → (Nat → d.Val) → (Nat → d.Val) → Nat → Option ((Nat → d.Val) × (Nat → d.Val))

/-- `void (*)(void *dst, const void *src, const void *cmp, void *res,
size_t cnt)`: the new `dst` and `res`. -/
abbrev SwapFn (d : Datatype) :=
  Nat → (Nat → d.Val) → (Nat → d.Val) → (Nat → d.Val) → (Nat → d.Val) → Nat →
    Option ((Nat → d.Val) × (Nat → d.Val))

/-! `HAVE_BUILTIN_MM_ATOMICS`: the `OFI_OP_*` macros and the templates. -/

namespace Builtin

/-- `OFI_OP_MIN`: `(dst) > (src)`. -/
def ofiOpMin (d : Datatype) (dst src : d.Val) : Bool := cLt d src dst
/-- `OFI_OP_MAX`: `(dst) < (src)`. -/
def ofiOpMax (d : Datatype) (dst src : d.Val) : Bool := cLt d dst src
def ofiOpSum (d : Datatype) (dst src : d.Val) : d.Val := dst + src
def ofiOpProd (d : Datatype) (dst src : d.Val) : d.Val := dst * src
def ofiOpLor (d : Datatype) (dst src : d.Val) : d.Val := ofBool d (truth dst || truth src)
def ofiOpLand (d : Datatype) (dst src : d.Val) : d.Val := ofBool d (truth dst && truth src)
def ofiOpLxor (d : Datatype) (dst src : d.Val) : d.Val :=
  ofBool d ((truth dst && !truth src) || (!truth dst && truth src))

/-- `__atomic_fetch_or`: the cell after, and the value it returns. -/
def ofiOpBor (d : Datatype) (dst src : d.Val) : d.Val × d.Val := (dst ||| src, dst)
def ofiOpBand (d : Datatype) (dst src : d.Val) : d.Val × d.Val := (dst &&& src, dst)
def ofiOpBxor (d : Datatype) (dst src : d.Val) : d.Val × d.Val := (dst ^^^ src, dst)

/-- `__atomic_store`: the cell after. -/
def ofiOpWrite (d : Datatype) (_dst : d.Val) (src : d.Val) : d.Val × Unit := (src, ())

/-- `__atomic_load(&dst, &res)`: what `res` receives. -/
def ofiOpRead (d : Datatype) (dst : d.Val) (_res : d.Val) : d.Val := dst

/-- `__atomic_exchange(&dst, &src, &res)`: the cell after, and `res`. -/
def ofiOpReadwrite (d : Datatype) (dst src : d.Val) : d.Val × d.Val := (src, dst)

/-- `__atomic_compare_exchange(&dst, &cmp, &src)`: the cell after, and `cmp`
after. -/
def ofiOpCswapEq (d : Datatype) (dst src cmp : d.Val) : d.Val × d.Val :=
  match compareExchange dst cmp src with
  | (cell, _, cmp) => (cell, cmp)

def ofiOpCswapNe (d : Datatype) (dst : d.Val) (_src : d.Val) (cmp : d.Val) : Bool := cmp != dst
def ofiOpCswapLe (d : Datatype) (dst : d.Val) (_src : d.Val) (cmp : d.Val) : Bool := cLe d cmp dst
def ofiOpCswapLt (d : Datatype) (dst : d.Val) (_src : d.Val) (cmp : d.Val) : Bool := cLt d cmp dst
/-- `OFI_OP_CSWAP_GE`: `(cmp) >= (dst)`. -/
def ofiOpCswapGe (d : Datatype) (dst : d.Val) (_src : d.Val) (cmp : d.Val) : Bool := cLe d dst cmp
/-- `OFI_OP_CSWAP_GT`: `(cmp) > (dst)`. -/
def ofiOpCswapGt (d : Datatype) (dst : d.Val) (_src : d.Val) (cmp : d.Val) : Bool := cLt d dst cmp
def ofiOpMswap (d : Datatype) (dst src cmp : d.Val) : d.Val :=
  (src &&& cmp) ||| (dst &&& ~~~cmp)

end Builtin

namespace Builtin

variable {α β : Type} [DecidableEq α]

/-- `OFI_DEF_WRITE_FUNC`: `op(type, d[i], s[i])`, whose value is dropped. -/
def ofiDefWriteFunc (op : α → α → α × β) (_fuel : Nat) (dst src : Nat → α) (cnt : Nat) :
    Option (Nat → α) :=
  forUpTo (fun i d => some (Function.update d i (op (d i) (src i)).1)) cnt dst

/-- `OFI_DEF_WRITEEXT_FUNC`: swap in `op(type, d[i], s[i])`. -/
def ofiDefWriteextFunc (op : α → α → α) (fuel : Nat) (dst src : Nat → α) (cnt : Nat) : Option (Nat → α) :=
  forUpTo (fun i d => (casLoop (fun target => some (op target (src i))) fuel (d i)).map
    fun (cell, _) => Function.update d i cell) cnt dst

/-- `OFI_DEF_WRITEEXT_CMP_FUNC`: swap in `s[i]` where `op(type, d[i], s[i])`. -/
def ofiDefWriteextCmpFunc (op : α → α → Bool) (fuel : Nat) (dst src : Nat → α) (cnt : Nat) :
    Option (Nat → α) :=
  forUpTo (fun i d => (casLoop (fun target => if op target (src i) then some (src i) else none) fuel (d i)).map
    fun (cell, _) => Function.update d i cell) cnt dst

/-- `OFI_DEF_READ_FUNC`: `op(type, d[i], r[i])`. -/
def ofiDefReadFunc (op : α → α → α) (_fuel : Nat) (dst _src res : Nat → α) (cnt : Nat) :
    Option ((Nat → α) × (Nat → α)) :=
  forUpTo (fun i (d, r) => some (d, Function.update r i (op (d i) (r i)))) cnt (dst, res)

/-- `OFI_DEF_READWRITE_FUNC`: `r[i] = op(type, d[i], s[i])`. -/
def ofiDefReadwriteFunc (op : α → α → α × α) (_fuel : Nat) (dst src res : Nat → α) (cnt : Nat) :
    Option ((Nat → α) × (Nat → α)) :=
  forUpTo (fun i (d, r) => some (Function.update d i (op (d i) (src i)).1,
    Function.update r i (op (d i) (src i)).2)) cnt (dst, res)

/-- `OFI_DEF_READWRITEEXT_FUNC`: swap in `op(type, d[i], s[i])`, and
`r[i] = target`. -/
def ofiDefReadwriteextFunc (op : α → α → α) (fuel : Nat) (dst src res : Nat → α) (cnt : Nat) :
    Option ((Nat → α) × (Nat → α)) :=
  forUpTo (fun i (d, r) => (casLoop (fun target => some (op target (src i))) fuel (d i)).map
    fun (cell, target) => (Function.update d i cell, Function.update r i target)) cnt (dst, res)

def ofiDefReadwriteextCmpFunc (op : α → α → Bool) (fuel : Nat) (dst src res : Nat → α) (cnt : Nat) :
    Option ((Nat → α) × (Nat → α)) :=
  forUpTo (fun i (d, r) =>
    (casLoop (fun target => if op target (src i) then some (src i) else none) fuel (d i)).map
      fun (cell, target) => (Function.update d i cell, Function.update r i target)) cnt (dst, res)

/-- `OFI_DEF_EXCHANGE_FUNC`: `op(type, d[i], s[i], r[i])`. -/
def ofiDefExchangeFunc (op : α → α → α × α) (_fuel : Nat) (dst src res : Nat → α) (cnt : Nat) :
    Option ((Nat → α) × (Nat → α)) :=
  forUpTo (fun i (d, r) => some (Function.update d i (op (d i) (src i)).1,
    Function.update r i (op (d i) (src i)).2)) cnt (dst, res)

/-- `OFI_DEF_CSWAP_FUNC`: `op(type, d[i], s[i], c[i])`, then `r[i]` is `c[i]`
as the operation left it. -/
def ofiDefCswapFunc (op : α → α → α → α × α) (_fuel : Nat) (dst src cmp res : Nat → α) (cnt : Nat) :
    Option ((Nat → α) × (Nat → α)) :=
  forUpTo (fun i (d, r) => some (Function.update d i (op (d i) (src i) (cmp i)).1,
    Function.update r i (op (d i) (src i) (cmp i)).2)) cnt (dst, res)

/-- `OFI_DEF_CSWAPEXT_FUNC`: swap in `op(type, d[i], s[i], c[i])`. -/
def ofiDefCswapextFunc (op : α → α → α → α) (fuel : Nat) (dst src cmp res : Nat → α) (cnt : Nat) :
    Option ((Nat → α) × (Nat → α)) :=
  forUpTo (fun i (d, r) => (casLoop (fun target => some (op target (src i) (cmp i))) fuel (d i)).map
    fun (cell, target) => (Function.update d i cell, Function.update r i target)) cnt (dst, res)

/-- `OFI_DEF_CSWAPEXT_CMP_FUNC`: swap in `s[i]` where `op(type, d[i], s[i], c[i])`. -/
def ofiDefCswapextCmpFunc (op : α → α → α → Bool) (fuel : Nat) (dst src cmp res : Nat → α) (cnt : Nat) :
    Option ((Nat → α) × (Nat → α)) :=
  forUpTo (fun i (d, r) =>
    (casLoop (fun target => if op target (src i) (cmp i) then some (src i) else none) fuel (d i)).map
      fun (cell, target) => (Function.update d i cell, Function.update r i target)) cnt (dst, res)

end Builtin

/-! Without `HAVE_BUILTIN_MM_ATOMICS`: the `OFI_OP_*` macros are statements
on `dst`, given here as the value they leave in it. -/

namespace Fallback

def ofiOpMin (d : Datatype) (dst src : d.Val) : d.Val := if cLt d src dst then src else dst
def ofiOpMax (d : Datatype) (dst src : d.Val) : d.Val := if cLt d dst src then src else dst
def ofiOpSum (d : Datatype) (dst src : d.Val) : d.Val := dst + src
def ofiOpProd (d : Datatype) (dst src : d.Val) : d.Val := dst * src
def ofiOpLor (d : Datatype) (dst src : d.Val) : d.Val := ofBool d (truth dst || truth src)
def ofiOpLand (d : Datatype) (dst src : d.Val) : d.Val := ofBool d (truth dst && truth src)
def ofiOpBor (d : Datatype) (dst src : d.Val) : d.Val := dst ||| src
def ofiOpBand (d : Datatype) (dst src : d.Val) : d.Val := dst &&& src
def ofiOpLxor (d : Datatype) (dst src : d.Val) : d.Val :=
  ofBool d ((truth dst && !truth src) || (!truth dst && truth src))
def ofiOpBxor (d : Datatype) (dst src : d.Val) : d.Val := dst ^^^ src
/-- `OFI_OP_READ`: the expression `(dst)`. -/
def ofiOpRead (d : Datatype) (dst : d.Val) (_src : d.Val) : d.Val := dst
def ofiOpWrite (d : Datatype) (_dst : d.Val) (src : d.Val) : d.Val := src

def ofiOpCswapEq (d : Datatype) (dst src cmp : d.Val) : d.Val := if cmp = dst then src else dst
def ofiOpCswapNe (d : Datatype) (dst src cmp : d.Val) : d.Val := if cmp != dst then src else dst
def ofiOpCswapLe (d : Datatype) (dst src cmp : d.Val) : d.Val := if cLe d cmp dst then src else dst
def ofiOpCswapLt (d : Datatype) (dst src cmp : d.Val) : d.Val := if cLt d cmp dst then src else dst
def ofiOpCswapGe (d : Datatype) (dst src cmp : d.Val) : d.Val := if cLe d dst cmp then src else dst
def ofiOpCswapGt (d : Datatype) (dst src cmp : d.Val) : d.Val := if cLt d dst cmp then src else dst
def ofiOpMswap (d : Datatype) (dst src cmp : d.Val) : d.Val :=
  (src &&& cmp) ||| (dst &&& ~~~cmp)

end Fallback

namespace Fallback

variable {α : Type}

/-- `OFI_DEF_WRITE_FUNC`: `op(type, d[i], s[i])`. -/
def ofiDefWriteFunc (op : α → α → α) (_fuel : Nat) (dst src : Nat → α) (cnt : Nat) : Option (Nat → α) :=
  forUpTo (fun i d => some (Function.update d i (op (d i) (src i)))) cnt dst

/-- `OFI_DEF_READ_FUNC`: `r[i] = op(type, d[i], r[i])`. -/
def ofiDefReadFunc (op : α → α → α) (_fuel : Nat) (dst _src res : Nat → α) (cnt : Nat) :
    Option ((Nat → α) × (Nat → α)) :=
  forUpTo (fun i (d, r) => some (d, Function.update r i (op (d i) (r i)))) cnt (dst, res)

/-- `OFI_DEF_READWRITE_FUNC`: `r[i] = d[i]`, then `op(type, d[i], s[i])`. -/
def ofiDefReadwriteFunc (op : α → α → α) (_fuel : Nat) (dst src res : Nat → α) (cnt : Nat) :
    Option ((Nat → α) × (Nat → α)) :=
  forUpTo (fun i (d, r) =>
    let r := Function.update r i (d i)
    some (Function.update d i (op (d i) (src i)), r)) cnt (dst, res)

/-- `OFI_DEF_CSWAP_FUNC`: `r[i] = d[i]`, then `op(type, d[i], s[i], c[i])`. -/
def ofiDefCswapFunc (op : α → α → α → α) (_fuel : Nat) (dst src cmp res : Nat → α) (cnt : Nat) :
    Option ((Nat → α) × (Nat → α)) :=
  forUpTo (fun i (d, r) =>
    let r := Function.update r i (d i)
    some (Function.update d i (op (d i) (src i) (cmp i)), r)) cnt (dst, res)

end Fallback

/-! The rows and the tables. -/

/-- Which build: `HAVE_BUILTIN_MM_ATOMICS`, and
`HAVE_BUILTIN_MM_INT128_ATOMICS` for the 128-bit columns. -/
structure AtomicCfg where
  builtinMmAtomics : Bool
  builtinMmInt128Atomics : Bool

/-- An entry of a dispatch table: `NULL`, the handler of an integer
datatype, or a handler of a datatype the model leaves out. -/
inductive Entry (H : Datatype → Type) where
  | null
  | int (d : Datatype) (h : H d)
  | other

section Rows

variable {H : Datatype → Type} (cfg : AtomicCfg) (gen : (d : Datatype) → H d)

def intEntries : List (Entry H) :=
  [.int .int8 (gen .int8), .int .uint8 (gen .uint8), .int .int16 (gen .int16), .int .uint16 (gen .uint16),
    .int .int32 (gen .int32), .int .uint32 (gen .uint32), .int .int64 (gen .int64), .int .uint64 (gen .uint64)]

/-- The columns `FI_INT128` and `FI_UINT128`: `NULL` without 128-bit atomics. -/
def int128Entries : List (Entry H) :=
  if cfg.builtinMmInt128Atomics then [.other, .other] else [.null, .null]

/-- `OFI_DEFINE_INT_HANDLERS`: no handler for the six floating-point columns. -/
def ofiDefineIntHandlers : List (Entry H) :=
  intEntries gen ++ [.null, .null, .null, .null, .null, .null] ++ int128Entries cfg

/-- `OFI_DEFINE_ALL_HANDLERS`: with the builtins, no `double` complex and no
`long double` handlers. -/
def ofiDefineAllHandlers : List (Entry H) :=
  intEntries gen ++
    (if cfg.builtinMmAtomics then [.other, .other, .other, .null, .null, .null]
    else [.other, .other, .other, .other, .other, .other]) ++
    int128Entries cfg

/-- `OFI_DEFINE_REALNO_HANDLERS`: the real types only. -/
def ofiDefineRealnoHandlers : List (Entry H) :=
  intEntries gen ++
    (if cfg.builtinMmAtomics then [.other, .other, .null, .null, .null, .null]
    else [.other, .other, .null, .null, .other, .null]) ++
    int128Entries cfg

/-- `OFI_OP_NOT_SUPPORTED`: sixteen `NULL`s. -/
def ofiOpNotSupported : List (Entry H) :=
  [.null, .null, .null, .null, .null, .null, .null, .null, .null, .null, .null, .null, .null, .null, .null, .null]

end Rows

def lookup {H : Datatype → Type} (table : List (List (Entry H))) (row col : Nat) : Entry H :=
  (table.getD row []).getD col .null

open Builtin Fallback in
def ofiAtomicWriteHandlers (cfg : AtomicCfg) : List (List (Entry WriteFn)) :=
  if cfg.builtinMmAtomics then
    [ofiDefineRealnoHandlers cfg fun d => Builtin.ofiDefWriteextCmpFunc (Builtin.ofiOpMin d),
      ofiDefineRealnoHandlers cfg fun d => Builtin.ofiDefWriteextCmpFunc (Builtin.ofiOpMax d),
      ofiDefineAllHandlers cfg fun d => Builtin.ofiDefWriteextFunc (Builtin.ofiOpSum d),
      ofiDefineAllHandlers cfg fun d => Builtin.ofiDefWriteextFunc (Builtin.ofiOpProd d),
      ofiDefineAllHandlers cfg fun d => Builtin.ofiDefWriteextFunc (Builtin.ofiOpLor d),
      ofiDefineAllHandlers cfg fun d => Builtin.ofiDefWriteextFunc (Builtin.ofiOpLand d),
      ofiDefineIntHandlers cfg fun d => Builtin.ofiDefWriteFunc (Builtin.ofiOpBor d),
      ofiDefineIntHandlers cfg fun d => Builtin.ofiDefWriteFunc (Builtin.ofiOpBand d),
      ofiDefineAllHandlers cfg fun d => Builtin.ofiDefWriteextFunc (Builtin.ofiOpLxor d),
      ofiDefineIntHandlers cfg fun d => Builtin.ofiDefWriteFunc (Builtin.ofiOpBxor d),
      ofiOpNotSupported,
      ofiDefineAllHandlers cfg fun d => Builtin.ofiDefWriteFunc (Builtin.ofiOpWrite d)]
  else
    [ofiDefineRealnoHandlers cfg fun d => Fallback.ofiDefWriteFunc (Fallback.ofiOpMin d),
      ofiDefineRealnoHandlers cfg fun d => Fallback.ofiDefWriteFunc (Fallback.ofiOpMax d),
      ofiDefineAllHandlers cfg fun d => Fallback.ofiDefWriteFunc (Fallback.ofiOpSum d),
      ofiDefineAllHandlers cfg fun d => Fallback.ofiDefWriteFunc (Fallback.ofiOpProd d),
      ofiDefineAllHandlers cfg fun d => Fallback.ofiDefWriteFunc (Fallback.ofiOpLor d),
      ofiDefineAllHandlers cfg fun d => Fallback.ofiDefWriteFunc (Fallback.ofiOpLand d),
      ofiDefineIntHandlers cfg fun d => Fallback.ofiDefWriteFunc (Fallback.ofiOpBor d),
      ofiDefineIntHandlers cfg fun d => Fallback.ofiDefWriteFunc (Fallback.ofiOpBand d),
      ofiDefineAllHandlers cfg fun d => Fallback.ofiDefWriteFunc (Fallback.ofiOpLxor d),
      ofiDefineIntHandlers cfg fun d => Fallback.ofiDefWriteFunc (Fallback.ofiOpBxor d),
      ofiOpNotSupported,
      ofiDefineAllHandlers cfg fun d => Fallback.ofiDefWriteFunc (Fallback.ofiOpWrite d)]

def ofiAtomicReadwriteHandlers (cfg : AtomicCfg) : List (List (Entry ReadwriteFn)) :=
  if cfg.builtinMmAtomics then
    [ofiDefineRealnoHandlers cfg fun d => Builtin.ofiDefReadwriteextCmpFunc (Builtin.ofiOpMin d),
      ofiDefineRealnoHandlers cfg fun d => Builtin.ofiDefReadwriteextCmpFunc (Builtin.ofiOpMax d),
      ofiDefineAllHandlers cfg fun d => Builtin.ofiDefReadwriteextFunc (Builtin.ofiOpSum d),
      ofiDefineAllHandlers cfg fun d => Builtin.ofiDefReadwriteextFunc (Builtin.ofiOpProd d),
      ofiDefineAllHandlers cfg fun d => Builtin.ofiDefReadwriteextFunc (Builtin.ofiOpLor d),
      ofiDefineAllHandlers cfg fun d => Builtin.ofiDefReadwriteextFunc (Builtin.ofiOpLand d),
      ofiDefineIntHandlers cfg fun d => Builtin.ofiDefReadwriteFunc (Builtin.ofiOpBor d),
      ofiDefineIntHandlers cfg fun d => Builtin.ofiDefReadwriteFunc (Builtin.ofiOpBand d),
      ofiDefineAllHandlers cfg fun d => Builtin.ofiDefReadwriteextFunc (Builtin.ofiOpLxor d),
      ofiDefineIntHandlers cfg fun d => Builtin.ofiDefReadwriteFunc (Builtin.ofiOpBxor d),
      ofiDefineAllHandlers cfg fun d => Builtin.ofiDefReadFunc (Builtin.ofiOpRead d),
      ofiDefineAllHandlers cfg fun d => Builtin.ofiDefExchangeFunc (Builtin.ofiOpReadwrite d)]
  else
    [ofiDefineRealnoHandlers cfg fun d => Fallback.ofiDefReadwriteFunc (Fallback.ofiOpMin d),
      ofiDefineRealnoHandlers cfg fun d => Fallback.ofiDefReadwriteFunc (Fallback.ofiOpMax d),
      ofiDefineAllHandlers cfg fun d => Fallback.ofiDefReadwriteFunc (Fallback.ofiOpSum d),
      ofiDefineAllHandlers cfg fun d => Fallback.ofiDefReadwriteFunc (Fallback.ofiOpProd d),
      ofiDefineAllHandlers cfg fun d => Fallback.ofiDefReadwriteFunc (Fallback.ofiOpLor d),
      ofiDefineAllHandlers cfg fun d => Fallback.ofiDefReadwriteFunc (Fallback.ofiOpLand d),
      ofiDefineIntHandlers cfg fun d => Fallback.ofiDefReadwriteFunc (Fallback.ofiOpBor d),
      ofiDefineIntHandlers cfg fun d => Fallback.ofiDefReadwriteFunc (Fallback.ofiOpBand d),
      ofiDefineAllHandlers cfg fun d => Fallback.ofiDefReadwriteFunc (Fallback.ofiOpLxor d),
      ofiDefineIntHandlers cfg fun d => Fallback.ofiDefReadwriteFunc (Fallback.ofiOpBxor d),
      ofiDefineAllHandlers cfg fun d => Fallback.ofiDefReadFunc (Fallback.ofiOpRead d),
      ofiDefineAllHandlers cfg fun d => Fallback.ofiDefReadwriteFunc (Fallback.ofiOpWrite d)]

/-- `ofi_atomic_swap_handlers`, indexed by `op - FI_CSWAP`. -/
def ofiAtomicSwapHandlers (cfg : AtomicCfg) : List (List (Entry SwapFn)) :=
  if cfg.builtinMmAtomics then
    [ofiDefineAllHandlers cfg fun d => Builtin.ofiDefCswapFunc (Builtin.ofiOpCswapEq d),
      ofiDefineAllHandlers cfg fun d => Builtin.ofiDefCswapextCmpFunc (Builtin.ofiOpCswapNe d),
      ofiDefineRealnoHandlers cfg fun d => Builtin.ofiDefCswapextCmpFunc (Builtin.ofiOpCswapLe d),
      ofiDefineRealnoHandlers cfg fun d => Builtin.ofiDefCswapextCmpFunc (Builtin.ofiOpCswapLt d),
      ofiDefineRealnoHandlers cfg fun d => Builtin.ofiDefCswapextCmpFunc (Builtin.ofiOpCswapGe d),
      ofiDefineRealnoHandlers cfg fun d => Builtin.ofiDefCswapextCmpFunc (Builtin.ofiOpCswapGt d),
      ofiDefineIntHandlers cfg fun d => Builtin.ofiDefCswapextFunc (Builtin.ofiOpMswap d)]
  else
    [ofiDefineAllHandlers cfg fun d => Fallback.ofiDefCswapFunc (Fallback.ofiOpCswapEq d),
      ofiDefineAllHandlers cfg fun d => Fallback.ofiDefCswapFunc (Fallback.ofiOpCswapNe d),
      ofiDefineRealnoHandlers cfg fun d => Fallback.ofiDefCswapFunc (Fallback.ofiOpCswapLe d),
      ofiDefineRealnoHandlers cfg fun d => Fallback.ofiDefCswapFunc (Fallback.ofiOpCswapLt d),
      ofiDefineRealnoHandlers cfg fun d => Fallback.ofiDefCswapFunc (Fallback.ofiOpCswapGe d),
      ofiDefineRealnoHandlers cfg fun d => Fallback.ofiDefCswapFunc (Fallback.ofiOpCswapGt d),
      ofiDefineIntHandlers cfg fun d => Fallback.ofiDefCswapFunc (Fallback.ofiOpMswap d)]

end Libfabric.Atomic
