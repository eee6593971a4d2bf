import Mathlib.Logic.Function.Basic

/-! The indexer of `indexer.c` and `ofi_indexer.h`: items stored in chunks of
`OFI_IDX_CHUNK_SIZE` entries and found by an index whose high bits name the
chunk and whose low bits the entry. The entries that hold no item are linked
through their `next` fields into a free list that starts at `free_list` and
ends at `0`, an index that is never handed out. `ofi_idx_remove_ordered`
splices a removed index into that list in ascending order; its walk reads
every link from the removed index's own chunk, as the source does. -/
namespace Libfabric

def ofiIdxChunkBits : Nat := 10

def ofiIdxOffsetBits : Nat := 10

def ofiIdxChunkSize : Nat := 1 <<< ofiIdxOffsetBits

def ofiIdxMaxChunks : Nat := 1 <<< ofiIdxChunkBits

/-- `struct ofi_idx_entry`; a `NULL` item is `none`. The links only ever hold
indices, so `next` is a `Nat`. -/
structure OfiIdxEntry (α : Type) where
  item : Option α
  next : Nat

/-- `struct indexer`: `chunk c` is the array `chunk[c]`, allocated for
`c < size`. -/
structure Indexer (α : Type) where
  chunk : Nat → Nat → OfiIdxEntry α
  freeList : Nat
  size : Nat

def ofiIdxChunkId (index : Nat) : Nat := index >>> ofiIdxOffsetBits

def ofiIdxOffset (index : Nat) : Nat := index &&& (ofiIdxChunkSize - 1)

namespace Indexer

variable {α : Type}

/-- What a caller zeroes before the first insert: `free_list` and `size`. The
chunk pointers are never read before `ofi_idx_grow` sets them. -/
def zeroed : Indexer α := ⟨fun _ _ => ⟨none, 0⟩, 0, 0⟩

/-- Replace the array of chunk `c`. -/
def setChunk (idx : Indexer α) (c : Nat) (chunk : Nat → OfiIdxEntry α) : Indexer α :=
  { idx with chunk := Function.update idx.chunk c chunk }

end Indexer

open Indexer

variable {α : Type}

def ofiIdxIsValid (idx : Indexer α) (index : Nat) : Bool :=
  index > 0 && index < idx.size * ofiIdxChunkSize

def ofiIdxChunk (idx : Indexer α) (index : Nat) : Nat → OfiIdxEntry α :=
  idx.chunk (ofiIdxChunkId index)

def ofiIdxAt (idx : Indexer α) (index : Nat) : Option α :=
  (ofiIdxChunk idx index (ofiIdxOffset index)).item

def ofiIdxLookup (idx : Indexer α) (index : Nat) : Option α :=
  if ofiIdxIsValid idx index then ofiIdxAt idx index else none

def ofiIdxFreeListEmpty (idx : Indexer α) : Bool := idx.freeList == 0

/-- The array `ofi_idx_grow` allocates with `calloc` for the chunk starting at
`startIndex`: each entry links to the next index, and the last one to the
old free list. -/
def grownChunk (startIndex freeList : Nat) : Nat → OfiIdxEntry α := fun i =>
  if i = ofiIdxChunkSize - 1 then ⟨none, freeList⟩
  else if i < ofiIdxChunkSize - 1 then ⟨none, startIndex + i + 1⟩
  else ⟨none, 0⟩

/-- `ofi_idx_grow`, with `calloc` succeeding: the index it returns and the
indexer after, or `none` (`-1` with `ENOMEM`) when all chunks are in use.
Index 0 is reserved, so a first chunk starts its free list at 1. -/
def ofiIdxGrow (idx : Indexer α) : Option (Nat × Indexer α) :=
  if idx.size ≥ ofiIdxMaxChunks then none
  else
    let startIndex := idx.size * ofiIdxChunkSize
    let chunk := grownChunk startIndex idx.freeList
    let startIndex := if startIndex = 0 then startIndex + 1 else startIndex
    some (startIndex, { idx.setChunk idx.size chunk with freeList := startIndex, size := idx.size + 1 })

/-- `ofi_idx_insert`: the index returned, `-1` when the indexer cannot grow. -/
def ofiIdxInsert (idx : Indexer α) (item : α) : Int × Indexer α :=
  let slot := if idx.freeList = 0 then ofiIdxGrow idx else some (idx.freeList, idx)
  match slot with
  | none => (-1, idx)
  | some (index, idx) =>
      let chunk := ofiIdxChunk idx index
      let entry := chunk (ofiIdxOffset index)
      (index, { idx.setChunk (ofiIdxChunkId index)
          (Function.update chunk (ofiIdxOffset index) { entry with item := some item }) with
        freeList := entry.next })

/-- `ofi_idx_remove`: the item, and the index pushed on the free list. -/
def ofiIdxRemove (idx : Indexer α) (index : Nat) : Option α × Indexer α :=
  let chunk := ofiIdxChunk idx index
  let offset := ofiIdxOffset index
  (⟨(chunk offset).item, { idx.setChunk (ofiIdxChunkId index)
      (Function.update chunk offset ⟨none, idx.freeList⟩) with freeList := index }⟩)

/-- The loop of `ofi_idx_remove_ordered`, for at most `fuel` tests: from
`temp`, follow the links of `chunk` while they are below `index`, and return
the `temp_index` it stops at. `none` when the fuel runs out. -/
def walkFreeList (chunk : Nat → OfiIdxEntry α) (index : Nat) : Nat → Nat → Option Nat
  | 0, _ => none
  | fuel + 1, temp =>
      if (chunk (ofiIdxOffset temp)).next < index then
        walkFreeList chunk index fuel (chunk (ofiIdxOffset temp)).next
      else some temp

/-- `ofi_idx_remove_ordered`, with its loop given `fuel` tests: the item and
the indexer after, or `none` if the loop has not ended by then. -/
def ofiIdxRemoveOrdered (idx : Indexer α) (index fuel : Nat) : Option (Option α × Indexer α) :=
  let offset := ofiIdxOffset index
  let chunk := ofiIdxChunk idx index
  let item := (chunk offset).item
  let chunk := Function.update chunk offset { chunk offset with item := none }
  if ofiIdxFreeListEmpty idx || index < idx.freeList then
    some (item, { idx.setChunk (ofiIdxChunkId index)
      (Function.update chunk offset { chunk offset with next := idx.freeList }) with freeList := index })
  else
    match walkFreeList chunk index fuel idx.freeList with
    | none => none
    | some temp =>
        let chunk := Function.update chunk offset { chunk offset with next := (chunk (ofiIdxOffset temp)).next }
        let chunk := Function.update chunk (ofiIdxOffset temp) { chunk (ofiIdxOffset temp) with next := index }
        some (item, idx.setChunk (ofiIdxChunkId index) chunk)

def ofiIdxReplace (idx : Indexer α) (index : Nat) (item : Option α) : Indexer α :=
  let chunk := ofiIdxChunk idx index
  idx.setChunk (ofiIdxChunkId index)
    (Function.update chunk (ofiIdxOffset index) { chunk (ofiIdxOffset index) with item := item })

/-- `ofi_idx_reset`: the chunks are freed and the free list emptied. -/
def ofiIdxReset (idx : Indexer α) : Indexer α := { idx with freeList := 0, size := 0 }

/-! A caller's calls, each `ofi_idx_remove_ordered` given the same fuel. -/

inductive IdxOp (α : Type) where
  | insert (item : α)
  | removeOrdered (index : Nat)

inductive IdxOut (α : Type) where
  | index (i : Int)
  | item (x : Option α)

def idxCall (fuel : Nat) (idx : Indexer α) : IdxOp α → Option (IdxOut α × Indexer α)
  | .insert item => some (.index (ofiIdxInsert idx item).1, (ofiIdxInsert idx item).2)
  | .removeOrdered index => (ofiIdxRemoveOrdered idx index fuel).map fun r => (.item r.1, r.2)

def idxRun (fuel : Nat) (idx : Indexer α) : List (IdxOp α) → Option (List (IdxOut α) × Indexer α)
  | [] => some ([], idx)
  | op :: ops =>
      match idxCall fuel idx op with
      | none => none
      | some (out, idx) => (idxRun fuel idx ops).map fun r => (out :: r.1, r.2)

end Libfabric
