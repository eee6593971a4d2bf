import Mathlib.Logic.Function.Basic

/-! Loops over the cells of arrays. `forUpTo` is `for (i = 0; i < n; i++)`
over a state a pass may fail on, and `CellArray` is a state whose cell `i`
can be read and written on its own, such as one array or several arrays read
at the same index. A loop whose pass `i` rewrites cell `i` from its old value
leaves every cell below `n` rewritten and every other cell as it was.

`compareExchange` is a compare-and-swap on one cell, and `casLoop` the
retry loop around it: read the cell, compute what to store, and swap it in
if the cell still holds what was read. With no other writer the cell never
changes between the read and the swap, so one round ends the loop. -/
namespace Cells

variable {σ γ α β : Type}

/-! ## `for` loops -/

/-- `for (i = 0; i < n; i++) s = body(i, s)`, stopping at the first pass
that fails. -/
def forUpTo (body : Nat → σ → Option σ) : Nat → σ → Option σ
  | 0, s => some s
  | n + 1, s => (forUpTo body n s).bind (body n)

@[simp] theorem forUpTo_zero (body : Nat → σ → Option σ) (s : σ) : forUpTo body 0 s = some s := rfl

theorem forUpTo_succ (body : Nat → σ → Option σ) (n : Nat) (s : σ) :
    forUpTo body (n + 1) s = (forUpTo body n s).bind (body n) := rfl

theorem forUpTo_ok (P : Nat → σ → Prop) {body : Nat → σ → Option σ} {n : Nat} {s : σ} (start : P 0 s)
    (pass : ∀ i < n, ∀ a, P i a → ∃ b, body i a = some b ∧ P (i + 1) b) :
    ∃ r, forUpTo body n s = some r ∧ P n r := by
  induction n with
  | zero => exact ⟨s, rfl, start⟩
  | succ n ih =>
    obtain ⟨a, ran, holds⟩ := ih fun i below => pass i (by omega)
    obtain ⟨b, step, next⟩ := pass n (by omega) a holds
    exact ⟨b, by rw [forUpTo_succ, ran, Option.bind_some, step], next⟩

/-! ## Arrays of cells -/

/-- A state whose cell `i` can be read and written without touching the
others. -/
structure CellArray (σ γ : Type) where
  read : σ → Nat → γ
  write : σ → Nat → γ → σ
  read_write_self : ∀ s i c, read (write s i c) i = c
  read_write_of_ne : ∀ s i j c, j ≠ i → read (write s i c) j = read s j

/-- One array. -/
def CellArray.fn : CellArray (Nat → α) α where
  read a i := a i
  write a i c := Function.update a i c
  read_write_self a i c := Function.update_self i c a
  read_write_of_ne a _ _ c ne := Function.update_of_ne ne c a

/-- Two arrays read and written at the same index. -/
def CellArray.pair (A : CellArray σ α) (B : CellArray γ β) : CellArray (σ × γ) (α × β) where
  read s i := (A.read s.1 i, B.read s.2 i)
  write s i c := (A.write s.1 i c.1, B.write s.2 i c.2)
  read_write_self s i c := by simp [A.read_write_self, B.read_write_self]
  read_write_of_ne s i j c ne := by simp [A.read_write_of_ne _ _ _ _ ne, B.read_write_of_ne _ _ _ _ ne]

/-- A pass that rewrites cell `i` from its old value, or fails. -/
def CellArray.pass (A : CellArray σ γ) (f : Nat → γ → Option γ) (i : Nat) (s : σ) : Option σ :=
  (f i (A.read s i)).map (A.write s i)

theorem CellArray.forUpTo_pass (A : CellArray σ γ) (f : Nat → γ → γ) (n : Nat) (s : σ) :
    ∃ r, forUpTo (A.pass fun i c => some (f i c)) n s = some r ∧
      ∀ j, A.read r j = if j < n then f j (A.read s j) else A.read s j := by
  refine forUpTo_ok (fun i a => ∀ j, A.read a j = if j < i then f j (A.read s j) else A.read s j)
    (fun j => by simp) fun i _ a holds => ⟨A.write a i (f i (A.read a i)), rfl, fun j => ?_⟩
  -- the cell of this pass is new, every other cell is as the pass found it
  by_cases here : j = i
  · subst here
    rw [A.read_write_self, holds j, if_neg (Nat.lt_irrefl j), if_pos (Nat.lt_succ_self j)]
  · rw [A.read_write_of_ne _ _ _ _ here, holds j]
    by_cases below : j < i
    · rw [if_pos below, if_pos (Nat.lt_succ_of_lt below)]
    · rw [if_neg below, if_neg (by omega)]

theorem forUpTo_update (f : Nat → α → α) (n : Nat) (a : Nat → α) :
    forUpTo (fun i a => some (Function.update a i (f i (a i)))) n a =
      some fun j => if j < n then f j (a j) else a j := by
  obtain ⟨r, ran, cells⟩ := CellArray.fn.forUpTo_pass f n a
  exact ran.trans (congrArg some (funext cells))

theorem forUpTo_update₂ (f : Nat → α → β → α × β) (n : Nat) (a : Nat → α) (b : Nat → β) :
    forUpTo (fun i (s : (Nat → α) × (Nat → β)) =>
        some (Function.update s.1 i (f i (s.1 i) (s.2 i)).1, Function.update s.2 i (f i (s.1 i) (s.2 i)).2)) n
      (a, b) =
      some (fun j => if j < n then (f j (a j) (b j)).1 else a j,
        fun j => if j < n then (f j (a j) (b j)).2 else b j) := by
  obtain ⟨r, ran, cells⟩ := (CellArray.fn.pair CellArray.fn).forUpTo_pass (fun i c => f i c.1 c.2) n (a, b)
  refine ran.trans (congrArg some (Prod.ext (funext fun j => ?_) (funext fun j => ?_)))
  · have cell := congrArg Prod.fst (cells j)
    simp only [CellArray.pair, CellArray.fn] at cell
    rw [cell]
    by_cases below : j < n <;> simp [below]
  · have cell := congrArg Prod.snd (cells j)
    simp only [CellArray.pair, CellArray.fn] at cell
    rw [cell]
    by_cases below : j < n <;> simp [below]

/-! ## Compare-and-swap -/

section Cas

variable [DecidableEq α]

/-- `__atomic_compare_exchange(cell, expected, desired)`: the cell after,
whether it swapped, and `expected` after, which a failed swap overwrites
with what the cell holds. -/
def compareExchange (cell expected desired : α) : α × Bool × α :=
  if cell = expected then (desired, true, expected) else (cell, false, cell)

theorem compareExchange_self (cell desired : α) : compareExchange cell cell desired = (desired, true, cell) := by
  simp [compareExchange]

/-- The retry loop of a read-modify-write: each round reads the cell as
`target`, asks `next` for the value to store (`none`: store nothing and stop),
and swaps it in if the cell still holds `target`. It returns the cell after
and the `target` of the last round; `fuel` bounds the rounds. -/
def casLoop (next : α → Option α) : Nat → α → Option (α × α)
  | 0, _ => none
  | fuel + 1, cell =>
    let target := cell
    match next target with
    | none => some (cell, target)
    | some val =>
      match compareExchange cell target val with
      | (cell, true, _) => some (cell, target)
      | (cell, false, _) => casLoop next fuel cell

theorem casLoop_succ (next : α → Option α) (fuel : Nat) (cell : α) :
    casLoop next (fuel + 1) cell = some ((next cell).getD cell, cell) := by
  unfold casLoop
  dsimp only
  cases stores : next cell with
  | none => rfl
  | some val => simp only [compareExchange_self, Option.getD_some]

theorem casLoop_succ_of_guard (p : α → Bool) (v : α) (fuel : Nat) (cell : α) :
    casLoop (fun target => if p target then some v else none) (fuel + 1) cell = some (if p cell then v else cell, cell) := by
  rw [casLoop_succ]
  cases p cell <;> rfl

end Cas

end Cells
