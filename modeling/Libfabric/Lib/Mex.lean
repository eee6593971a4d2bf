import Mathlib.Data.List.Basic

/-! The least natural number missing from a list: the length of the longest
prefix `0, 1, ..., k - 1` that the list contains. The search is bounded by one
more than the largest element, which is never in the list. -/
namespace Mex

/-- Search upwards from `k` for a number not in `xs`, for at most `fuel` steps. -/
def mexFrom (xs : List Nat) : Nat → Nat → Nat
  | k, 0 => k
  | k, fuel + 1 => if k ∈ xs then mexFrom xs (k + 1) fuel else k

/-- One more than the largest element; no element reaches it. -/
def ceiling (xs : List Nat) : Nat := xs.foldr max 0 + 1

def mex (xs : List Nat) : Nat := mexFrom xs 0 (ceiling xs + 1)

theorem lt_ceiling {xs : List Nat} {x : Nat} (member : x ∈ xs) : x < ceiling xs := by
  induction xs with
  | nil => cases member
  | cons y ys ih =>
      simp only [ceiling, List.foldr_cons] at ih ⊢
      rcases List.mem_cons.mp member with rfl | rest
      · omega
      · have := ih rest
        omega

theorem ceiling_not_mem (xs : List Nat) : ceiling xs ∉ xs :=
  fun member => Nat.lt_irrefl _ (lt_ceiling member)

theorem mexFrom_spec (xs : List Nat) (fuel k gap : Nat) (missing : gap ∉ xs) (above : k ≤ gap)
    (reach : gap < k + fuel) :
    (∀ i, k ≤ i → i < mexFrom xs k fuel → i ∈ xs) ∧ mexFrom xs k fuel ∉ xs := by
  induction fuel generalizing k with
  | zero => omega
  | succ fuel ih =>
      simp only [mexFrom]
      split
      · rename_i present
        have next : k + 1 ≤ gap := by
          rcases Nat.lt_or_eq_of_le above with lower | rfl
          · exact lower
          · exact absurd present missing
        obtain ⟨below, outside⟩ := ih (k + 1) next (by omega)
        refine ⟨fun i low high => ?_, outside⟩
        rcases Nat.lt_or_eq_of_le low with lower | rfl
        · exact below i lower high
        · exact present
      · exact ⟨fun i low high => absurd high (by omega), ‹_›⟩

theorem mem_of_lt_mex {xs : List Nat} {i : Nat} (below : i < mex xs) : i ∈ xs :=
  (mexFrom_spec xs _ 0 _ (ceiling_not_mem xs) (Nat.zero_le _) (by omega)).1 i
    (Nat.zero_le _) below

theorem mex_not_mem (xs : List Nat) : mex xs ∉ xs :=
  (mexFrom_spec xs _ 0 _ (ceiling_not_mem xs) (Nat.zero_le _) (by omega)).2

theorem mex_eq_of {xs : List Nat} {k : Nat} (below : ∀ i < k, i ∈ xs) (missing : k ∉ xs) :
    mex xs = k := by
  rcases Nat.lt_trichotomy (mex xs) k with smaller | same | larger
  · exact absurd (below _ smaller) (mex_not_mem xs)
  · exact same
  · exact absurd (mem_of_lt_mex larger) missing

end Mex
