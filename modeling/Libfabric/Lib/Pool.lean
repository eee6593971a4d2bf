import Mathlib.Data.List.Perm.Basic
import Mathlib.Data.List.Nodup

/-! A pool of resources handed out to holders. The free resources are a list
and each holder holds a part of them; the pool is accounted for while the free
list and the held parts together are a permutation of everything the pool
started with. Handing a prefix of the free list to a new holder and taking a
holder's part back both keep the account. Holders are looked up by a key that
no two of them share, as a resource's owner is found by its id. -/
namespace Pool

open scoped List

variable {α β κ : Type}

/-- Everything the holders hold, holder by holder. -/
def held (part : β → List α) (holders : List β) : List α := holders.flatMap part

@[simp] theorem held_nil (part : β → List α) : held part [] = [] := rfl

@[simp] theorem held_append (part : β → List α) (hs hs' : List β) :
    held part (hs ++ hs') = held part hs ++ held part hs' := List.flatMap_append

@[simp] theorem held_singleton (part : β → List α) (h : β) : held part [h] = part h := by
  simp [held]

theorem take_prefix_perm (part : β → List α) (pool : List α) (holders : List β) {h : β} (n : Nat)
    (takes : part h = pool.take n) :
    pool.drop n ++ held part (holders ++ [h]) ~ pool ++ held part holders := by
  have split : pool = pool.take n ++ pool.drop n := (List.take_append_drop n pool).symm
  calc pool.drop n ++ held part (holders ++ [h])
      = pool.drop n ++ (held part holders ++ pool.take n) := by simp [takes]
    _ ~ pool.drop n ++ (pool.take n ++ held part holders) :=
        List.Perm.append_left _ List.perm_append_comm
    _ = (pool.drop n ++ pool.take n) ++ held part holders := (List.append_assoc _ _ _).symm
    _ ~ (pool.take n ++ pool.drop n) ++ held part holders :=
        List.Perm.append_right _ List.perm_append_comm
    _ = pool ++ held part holders := by rw [← split]

section Release

variable [DecidableEq β]

theorem held_perm_erase (part : β → List α) {holders : List β} {h : β} (holds : h ∈ holders) :
    held part holders ~ part h ++ held part (holders.erase h) := by
  have := (List.perm_cons_erase holds).flatMap_right part
  simpa [held] using this

theorem release_perm (part : β → List α) (pool : List α) {holders : List β} {h : β}
    (holds : h ∈ holders) :
    (part h ++ pool) ++ held part (holders.erase h) ~ pool ++ held part holders := by
  calc (part h ++ pool) ++ held part (holders.erase h)
      ~ (pool ++ part h) ++ held part (holders.erase h) :=
        List.Perm.append_right _ List.perm_append_comm
    _ = pool ++ (part h ++ held part (holders.erase h)) := List.append_assoc _ _ _
    _ ~ pool ++ held part holders := List.Perm.append_left _ (held_perm_erase part holds).symm

theorem mem_map_erase_iff (key : β → κ) {holders : List β} {h : β} (holds : h ∈ holders)
    (unique : (holders.map key).Nodup) (k : κ) :
    k ∈ (holders.erase h).map key ↔ k ∈ holders.map key ∧ k ≠ key h := by
  have perm : holders.map key ~ key h :: (holders.erase h).map key :=
    (List.perm_cons_erase holds).map key
  have fresh : key h ∉ (holders.erase h).map key := (List.nodup_cons.mp (perm.nodup_iff.mp unique)).1
  rw [perm.mem_iff, List.mem_cons]
  constructor
  · intro kept
    exact ⟨Or.inr kept, fun same => fresh (same ▸ kept)⟩
  · rintro ⟨here | kept, other⟩
    · exact absurd here other
    · exact kept

theorem nodup_map_erase (key : β → κ) {holders : List β} {h : β} (holds : h ∈ holders)
    (unique : (holders.map key).Nodup) : ((holders.erase h).map key).Nodup := by
  have perm : holders.map key ~ key h :: (holders.erase h).map key :=
    (List.perm_cons_erase holds).map key
  exact (List.nodup_cons.mp (perm.nodup_iff.mp unique)).2

end Release

end Pool
