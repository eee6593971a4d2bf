import Libfabric.Indexer

/-! What the indexer does from a zeroed `struct indexer`. Inserts fill chunk 0
from index 1 up, each returning the head of the free list. Once the chunk is
full the free list is empty, so `ofi_idx_remove_ordered` of an index `a`
makes `a` the whole list, and its link is the terminator `0`. Removing a
larger index `b` then walks from `a` to `0` (whose link is below `b`) and on
through the links `ofi_idx_grow` wrote, `0 → 1 → ... → a → 0`: every link on
that cycle is below `b`, so the loop never stops. -/
namespace Libfabric

open Indexer

variable {α : Type}

/-! ## Index arithmetic -/

theorem ofiIdxChunkSize_eq : ofiIdxChunkSize = 1024 := rfl

theorem ofiIdxChunkSize_sub_one : ofiIdxChunkSize - 1 = 1023 := rfl

theorem ofiIdxMaxChunks_eq : ofiIdxMaxChunks = 1024 := rfl

theorem ofiIdxOffset_of_lt {i : Nat} (h : i < 1024) : ofiIdxOffset i = i := by
  rw [ofiIdxOffset, ofiIdxChunkSize_eq, show 1024 - 1 = 2 ^ 10 - 1 from rfl,
    Nat.and_two_pow_sub_one_eq_mod, Nat.mod_eq_of_lt h]

theorem ofiIdxChunkId_of_lt {i : Nat} (h : i < 1024) : ofiIdxChunkId i = 0 := by
  rw [ofiIdxChunkId, ofiIdxOffsetBits, Nat.shiftRight_eq_div_pow]
  exact Nat.div_eq_of_lt h

/-! ## The walk of `ofi_idx_remove_ordered` -/

theorem walkFreeList_trapped {chunk : Nat → OfiIdxEntry α} {index : Nat} {S : Nat → Prop}
    (closed : ∀ t, S t → (chunk (ofiIdxOffset t)).next < index ∧ S (chunk (ofiIdxOffset t)).next) :
    ∀ fuel t, S t → walkFreeList chunk index fuel t = none := by
  intro fuel
  induction fuel with
  | zero => intro t _; rfl
  | succ fuel ih =>
    intro t ht
    obtain ⟨hbelow, hnext⟩ := closed t ht
    rw [walkFreeList, if_pos hbelow]
    exact ih _ hnext

/-! ## Filling chunk 0 -/

/-- Chunk 0 with the items `xs` at indices `1..xs.length` and the links
`ofi_idx_grow` wrote. -/
def filledChunk (xs : List α) (o : Nat) : OfiIdxEntry α :=
  ⟨if 0 < o ∧ o ≤ xs.length then xs[o - 1]? else none, if o < 1023 then o + 1 else 0⟩

/-- The indexer after the inserts of `xs`, while they fit in chunk 0. -/
def filled (xs : List α) : Indexer α :=
  ⟨Function.update zeroed.chunk 0 (filledChunk xs),
    if xs.length < 1023 then xs.length + 1 else 0, 1⟩

theorem grownChunk_zero : (grownChunk 0 0 : Nat → OfiIdxEntry α) = filledChunk [] := by
  funext o
  have hitem : (if 0 < o ∧ o ≤ 0 then ([] : List α)[o - 1]? else none) = none := if_neg (by omega)
  simp only [grownChunk, filledChunk, List.length_nil, ofiIdxChunkSize_sub_one, hitem]
  by_cases hlast : o = 1023
  · subst hlast
    rfl
  · by_cases hlow : o < 1023
    · simp [hlast, hlow]
    · simp [hlast, hlow]

theorem ofiIdxGrow_zeroed : ofiIdxGrow (zeroed : Indexer α) = some (1, filled []) := by
  rw [ofiIdxGrow, if_neg (by simp only [zeroed, ofiIdxMaxChunks_eq]; omega)]
  simp only [zeroed, setChunk, Nat.zero_mul, grownChunk_zero]
  rfl

theorem ofiIdxInsert_zeroed (x : α) : ofiIdxInsert zeroed x = ofiIdxInsert (filled []) x := by
  simp only [ofiIdxInsert, ofiIdxGrow_zeroed]
  rfl

theorem ofiIdxInsert_filled {xs : List α} (hroom : xs.length < 1023) (x : α) :
    ofiIdxInsert (filled xs) x = (((xs.length + 1 : Nat) : Int), filled (xs ++ [x])) := by
  have hoff : ofiIdxOffset (xs.length + 1) = xs.length + 1 := ofiIdxOffset_of_lt (by omega)
  have hid : ofiIdxChunkId (xs.length + 1) = 0 := ofiIdxChunkId_of_lt (by omega)
  -- the entry filled is `xs.length + 1`; its link is the new free list
  have hchunk : Function.update (filledChunk xs) (xs.length + 1)
      { filledChunk xs (xs.length + 1) with item := some x } = filledChunk (xs ++ [x]) := by
    funext o
    by_cases ho : o = xs.length + 1
    · subst ho
      simp [filledChunk]
    · rw [Function.update_of_ne ho]
      simp only [filledChunk, List.length_append, List.length_singleton]
      congr 1
      by_cases hin : 0 < o ∧ o ≤ xs.length
      · rw [if_pos hin, if_pos ⟨hin.1, by omega⟩, List.getElem?_append_left (by omega)]
      · rw [if_neg hin, if_neg (by omega)]
  have hfree : (if xs.length < 1023 then xs.length + 1 else 0) = xs.length + 1 := if_pos hroom
  simp only [ofiIdxInsert, filled, hfree, Nat.add_one_ne_zero, if_false, ofiIdxChunk, hoff, hid,
    setChunk, Function.update_self, Function.update_idem, hchunk]
  -- the link of the filled entry is the free list `filled` names for one more item
  have hnext : (filledChunk xs (xs.length + 1)).next =
      if (xs ++ [x]).length < 1023 then (xs ++ [x]).length + 1 else 0 := by
    simp only [filledChunk, List.length_append, List.length_singleton]
  rw [hnext]

/-! ## Runs -/

theorem idxRun_append {fuel : Nat} {idx : Indexer α} {ops : List (IdxOp α)}
    {r : List (IdxOut α) × Indexer α} (h : idxRun fuel idx ops = some r) (ops' : List (IdxOp α)) :
    idxRun fuel idx (ops ++ ops') = (idxRun fuel r.2 ops').map fun r' => (r.1 ++ r'.1, r'.2) := by
  induction ops generalizing idx r with
  | nil =>
    simp only [idxRun, Option.some.injEq] at h
    subst h
    simp
  | cons op ops ih =>
    simp only [idxRun] at h
    cases hcall : idxCall fuel idx op with
    | none => simp [hcall] at h
    | some c =>
      simp only [hcall, Option.map_eq_some_iff] at h
      obtain ⟨r₁, hrest, rfl⟩ := h
      simp only [List.cons_append, idxRun, hcall, ih hrest, Option.map_map]
      rfl

theorem idxRun_inserts_filled (fuel : Nat) (xs : List α) :
    ∀ ys : List α, ys.length + xs.length ≤ 1023 →
      idxRun fuel (filled ys) (xs.map IdxOp.insert) =
        some ((List.range' (ys.length + 1) xs.length).map (fun i : Nat => IdxOut.index (i : Int)),
          filled (ys ++ xs)) := by
  induction xs with
  | nil => intro ys _; simp [idxRun]
  | cons x xs ih =>
    intro ys hfit
    have hstep := @ofiIdxInsert_filled α ys (by simp only [List.length_cons] at hfit; omega) x
    have hrest := ih (ys ++ [x])
      (by simp only [List.length_append, List.length_cons, List.length_nil] at hfit ⊢; omega)
    simp only [List.map_cons, idxRun, idxCall, hstep, hrest, List.length_cons, List.length_nil,
      List.range'_succ, List.length_append, List.append_assoc, List.singleton_append, Option.map_some,
      Nat.zero_add]

theorem idxRun_inserts (fuel : Nat) {xs : List α} (hne : xs ≠ []) (hfit : xs.length ≤ 1023) :
    idxRun fuel zeroed (xs.map IdxOp.insert) =
      some ((List.range' 1 xs.length).map (fun i : Nat => IdxOut.index (i : Int)), filled xs) := by
  cases xs with
  | nil => exact absurd rfl hne
  | cons x xs =>
    have hfirst : idxCall fuel zeroed (IdxOp.insert x) = idxCall fuel (filled []) (IdxOp.insert x) := by
      simp only [idxCall, ofiIdxInsert_zeroed]
    have hrun := idxRun_inserts_filled fuel (x :: xs) [] (by simpa using hfit)
    simp only [List.map_cons, idxRun, hfirst] at hrun ⊢
    simpa using hrun

/-! ## Removing in order from a full chunk -/

/-- Chunk 0 full, then `a` removed: `a` is the whole free list, and its link
is the terminator `0`. -/
def removedOne (xs : List α) (a : Nat) : Indexer α :=
  ⟨Function.update zeroed.chunk 0 (Function.update (filledChunk xs) a ⟨none, 0⟩), a, 1⟩

theorem ofiIdxRemoveOrdered_full {xs : List α} (hxs : xs.length = 1023) {a : Nat} (ha : 0 < a)
    (ha' : a < 1024) (fuel : Nat) :
    ofiIdxRemoveOrdered (filled xs) a fuel = some (xs[a - 1]?, removedOne xs a) := by
  have hempty : (if xs.length < 1023 then xs.length + 1 else 0) = 0 := by
    rw [hxs, if_neg (by decide)]
  have hitem : (filledChunk xs a).item = xs[a - 1]? := by
    simp only [filledChunk]
    rw [if_pos ⟨ha, by omega⟩]
  simp only [ofiIdxRemoveOrdered, filled, ofiIdxChunk, ofiIdxOffset_of_lt ha', ofiIdxChunkId_of_lt ha',
    hempty, ofiIdxFreeListEmpty, setChunk, Function.update_self, Function.update_idem, hitem,
    removedOne]
  simp

theorem ofiIdxRemoveOrdered_removedOne (xs : List α) {a b : Nat} (ha : 0 < a) (hab : a < b)
    (hb : b < 1024) (fuel : Nat) : ofiIdxRemoveOrdered (removedOne xs a) b fuel = none := by
  have hwalk : ∀ fuel, walkFreeList (Function.update (Function.update (filledChunk xs) a ⟨none, 0⟩) b
      { Function.update (filledChunk xs) a ⟨none, 0⟩ b with item := none }) b fuel a = none := by
    refine fun fuel => walkFreeList_trapped (S := fun t => t ≤ a) ?_ fuel a (Nat.le_refl a)
    intro t ht
    rw [ofiIdxOffset_of_lt (by omega), Function.update_of_ne (by omega)]
    by_cases hta : t = a
    · subst hta
      simp only [Function.update_self]
      omega
    · simp only [Function.update_of_ne hta, filledChunk]
      rw [if_pos (by omega)]
      omega
  simp only [ofiIdxRemoveOrdered, removedOne, ofiIdxChunk, ofiIdxOffset_of_lt hb, ofiIdxChunkId_of_lt hb,
    ofiIdxFreeListEmpty, Function.update_self, hwalk]
  simp [Nat.ne_of_gt ha, Nat.not_lt_of_gt hab]

theorem ofiIdxLookup_removedOne {xs : List α} (hxs : xs.length = 1023) {a b : Nat} (hab : a ≠ b)
    (hb0 : 0 < b) (hb : b < 1024) : ofiIdxLookup (removedOne xs a) b = xs[b - 1]? := by
  have hvalid : ofiIdxIsValid (removedOne xs a) b = true := by
    simp only [ofiIdxIsValid, removedOne, ofiIdxChunkSize_eq, Nat.one_mul, Bool.and_eq_true,
      decide_eq_true_eq]
    exact ⟨hb0, hb⟩
  rw [ofiIdxLookup, if_pos hvalid]
  simp only [ofiIdxAt, ofiIdxChunk, removedOne, ofiIdxOffset_of_lt hb, ofiIdxChunkId_of_lt hb,
    Function.update_self, Function.update_of_ne (Ne.symm hab), filledChunk]
  exact if_pos ⟨hb0, by omega⟩

/-- From a zeroed indexer, fill chunk 0 and remove `a` in order; `b > a` is
still allocated, yet `ofi_idx_remove_ordered(b)` never returns, whatever
fuel its loop is given. -/
theorem removeOrdered_never_returns (xs : List α) (hxs : xs.length = 1023) {a b : Nat} (ha : 0 < a)
    (hab : a < b) (hb : b < 1024) :
    ∃ idx, (∀ fuel, ∃ outs, idxRun fuel zeroed (xs.map IdxOp.insert ++ [.removeOrdered a]) =
        some (outs, idx)) ∧
      ofiIdxLookup idx b = xs[b - 1]? ∧ ∀ fuel, ofiIdxRemoveOrdered idx b fuel = none := by
  refine ⟨removedOne xs a, fun fuel => ?_, ofiIdxLookup_removedOne hxs (by omega) (by omega) hb,
    ofiIdxRemoveOrdered_removedOne xs ha hab hb⟩
  have hne : xs ≠ [] := by
    intro h
    simp [h] at hxs
  rw [idxRun_append (idxRun_inserts fuel hne (by omega))]
  simp [idxRun, idxCall, ofiIdxRemoveOrdered_full hxs ha (by omega)]

/-- 1023 inserts, `ofi_idx_remove_ordered(5)`, then `ofi_idx_remove_ordered(10)`. -/
theorem removeOrdered_never_returns_five_ten :
    ∃ idx : Indexer Nat,
      (∀ fuel, ∃ outs, idxRun fuel zeroed ((List.range 1023).map IdxOp.insert ++ [.removeOrdered 5]) =
        some (outs, idx)) ∧
      ofiIdxLookup idx 10 = (List.range 1023)[10 - 1]? ∧ ∀ fuel, ofiIdxRemoveOrdered idx 10 fuel = none :=
  removeOrdered_never_returns (List.range 1023) List.length_range (by decide) (by decide) (by decide)

end Libfabric
