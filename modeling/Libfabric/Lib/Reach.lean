import Mathlib.Logic.Relation

/-! Runs of a machine given by a partial step function `step : σ → α → Option σ`,
where an action that is not enabled in a state has no step. A state reaches
another when some list of enabled actions leads there, and what every step
keeps holds of every state a run reaches. -/
namespace Reach

variable {σ α : Type*} {step : σ → α → Option σ} {s t : σ}

/-- One enabled action leads from `s` to `t`. -/
def Step (step : σ → α → Option σ) (s t : σ) : Prop := ∃ a, step s a = some t

/-- `t` is reached from `s` by a run of enabled actions. -/
def Reaches (step : σ → α → Option σ) : σ → σ → Prop := Relation.ReflTransGen (Step step)

/-- Apply the actions in order; `none` at the first one that is not enabled. -/
def run (step : σ → α → Option σ) (s : σ) : List α → Option σ
  | [] => some s
  | a :: acts => (step s a).bind fun t => run step t acts

theorem Reaches.refl (s : σ) : Reaches step s s := Relation.ReflTransGen.refl

theorem reaches_of_run : ∀ {s t : σ} {acts : List α}, run step s acts = some t → Reaches step s t
  | s, t, [], ran => by
    cases Option.some.inj ran
    exact Reaches.refl s
  | s, t, a :: acts, ran => by
    obtain ⟨u, stepped, rest⟩ := Option.bind_eq_some_iff.mp ran
    exact Relation.ReflTransGen.head ⟨a, stepped⟩ (reaches_of_run rest)

theorem Reaches.invariant {I : σ → Prop} (keep : ∀ {s a t}, I s → step s a = some t → I t)
    (reach : Reaches step s t) (start : I s) : I t := by
  induction reach with
  | refl => exact start
  | tail _ stepped holds =>
    obtain ⟨a, stepped⟩ := stepped
    exact keep holds stepped

end Reach
