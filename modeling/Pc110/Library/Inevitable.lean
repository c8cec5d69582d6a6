import Mathlib.Logic.Basic

/-! What a step relation cannot avoid. A property is inevitable at a state when it holds there, or
when there is a next state and it is inevitable at every one: no choice of the steps gets past
it, and none gets stuck before it. -/
namespace Inevitability

variable {σ : Type} {R : σ → σ → Prop} {P Q : σ → Prop} {s : σ}

inductive Inevitable (R : σ → σ → Prop) (Q : σ → Prop) : σ → Prop where
  | now {s : σ} : Q s → Inevitable R Q s
  | step {s : σ} : (∃ t, R s t) → (∀ t, R s t → Inevitable R Q t) → Inevitable R Q s

theorem Inevitable.trans (first : Inevitable R P s) (next : ∀ t, P t → Inevitable R Q t) : Inevitable R Q s := by
  induction first with
  | now here => exact next _ here
  | step moves _ ih => exact .step moves ih

theorem Inevitable.mono (first : Inevitable R P s) (implies : ∀ t, P t → Q t) : Inevitable R Q s :=
  first.trans fun t here => .now (implies t here)

/-- An endless run meets what is inevitable at its start. -/
theorem Inevitable.met (first : Inevitable R Q s) (run : Nat → σ) (start : run 0 = s)
    (steps : ∀ n, R (run n) (run (n + 1))) : ∃ n, Q (run n) := by
  induction first generalizing run with
  | now here => exact ⟨0, start ▸ here⟩
  | step _ _ ih =>
    obtain ⟨n, here⟩ := ih (run 1) (start ▸ steps 0) (fun n => run (n + 1)) rfl fun n => steps (n + 1)
    exact ⟨n + 1, here⟩

end Inevitability
