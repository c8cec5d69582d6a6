import Mathlib.Data.List.Forall2

/-! A cascade of tests in source order. Each stage either ends the call with a verdict or
falls through to the next one, with whatever it changed on the way. -/
namespace Cascade

inductive Flow (σ ρ : Type) where
  | next (s : σ)
  | done (verdict : ρ) (s : σ)

abbrev Stage (σ ρ : Type) := σ → Flow σ ρ

variable {σ ρ : Type}

/-- The verdict `last` is the one of falling through every stage. -/
def run (last : ρ) : List (Stage σ ρ) → σ → ρ × σ
  | [], s => (last, s)
  | stage :: rest, s =>
    match stage s with
    | .next s' => run last rest s'
    | .done verdict s' => (verdict, s')

def guarded (c : σ → Prop) [DecidablePred c] (stage : Stage σ ρ) : Stage σ ρ :=
  fun s => if c s then stage s else .next s

@[simp] theorem run_nil (last : ρ) (s : σ) : run last [] s = (last, s) := rfl

theorem run_next (last : ρ) (stage : Stage σ ρ) (rest : List (Stage σ ρ)) (s s' : σ)
    (h : stage s = .next s') : run last (stage :: rest) s = run last rest s' := by
  simp [run, h]

theorem run_done (last verdict : ρ) (stage : Stage σ ρ) (rest : List (Stage σ ρ)) (s s' : σ)
    (h : stage s = .done verdict s') : run last (stage :: rest) s = (verdict, s') := by
  simp [run, h]

theorem guarded_pass {c : σ → Prop} [DecidablePred c] {s : σ} (stage : Stage σ ρ) (h : ¬ c s) :
    guarded c stage s = .next s := if_neg h

theorem guarded_enter {c : σ → Prop} [DecidablePred c] {s : σ} (stage : Stage σ ρ) (h : c s) :
    guarded c stage s = stage s := if_pos h

/-- Stages that leave a state alone are skipped there. -/
theorem run_skip (last : ρ) (front back : List (Stage σ ρ)) (s : σ)
    (quiet : ∀ stage ∈ front, stage s = .next s) :
    run last (front ++ back) s = run last back s := by
  induction front with
  | nil => rfl
  | cons stage front ih =>
    obtain ⟨first, others⟩ := List.forall_mem_cons.mp quiet
    rw [List.cons_append, run_next last stage _ s s first]
    exact ih others

/-- A call that meets a guarded stage enters it or passes it. -/
theorem run_branch {P : ρ × σ → Prop} {last : ρ} {c : σ → Prop} [DecidablePred c]
    {stage : Stage σ ρ} {rest : List (Stage σ ρ)} {s : σ}
    (enter : c s → P (run last (stage :: rest) s)) (pass : ¬ c s → P (run last rest s)) :
    P (run last (guarded c stage :: rest) s) := by
  by_cases h : c s
  · have entered := enter h
    simp only [run, guarded_enter stage h] at entered ⊢
    exact entered
  · rw [run_next last _ rest s s (guarded_pass stage h)]
    exact pass h

section Kept
variable {α : Type} {observed : σ → α}

def Flow.state : Flow σ ρ → σ
  | .next s => s
  | .done _ s => s

def Keeps (observed : σ → α) (stage : Stage σ ρ) : Prop := ∀ s, observed (stage s).state = observed s

theorem guarded_keeps {c : σ → Prop} [DecidablePred c] {stage : Stage σ ρ} (keeps : Keeps observed stage) :
    Keeps observed (guarded c stage) := by
  intro s
  unfold guarded
  split
  · exact keeps s
  · rfl

theorem run_keeps (last : ρ) {stages : List (Stage σ ρ)} (keeps : ∀ stage ∈ stages, Keeps observed stage) (s : σ) :
    observed (run last stages s).2 = observed s := by
  induction stages generalizing s with
  | nil => rfl
  | cons stage rest ih =>
    obtain ⟨first, others⟩ := List.forall_mem_cons.mp keeps
    have same := first s
    unfold run
    split
    case h_1 s' passes =>
      rw [passes] at same
      exact (ih others s').trans same
    case h_2 verdict s' ends =>
      rw [ends] at same
      exact same

/-- Stages that fall through under an invariant that each keeps. -/
theorem run_falls {I : σ → Prop} (last : ρ) {front : List (Stage σ ρ)} (back : List (Stage σ ρ))
    (falls : ∀ stage ∈ front, ∀ s, I s → ∃ s', stage s = .next s' ∧ I s') (s : σ) (initial : I s) :
    ∃ s', I s' ∧ run last (front ++ back) s = run last back s' := by
  induction front generalizing s with
  | nil => exact ⟨s, initial, rfl⟩
  | cons stage front ih =>
    obtain ⟨first, others⟩ := List.forall_mem_cons.mp falls
    obtain ⟨s', passes, kept⟩ := first s initial
    rw [List.cons_append, run_next last stage _ s s' passes]
    exact ih others s' kept

end Kept

section Related
variable {R : σ → σ → Prop}

/-- Flows that go the same way, in related states. -/
inductive Flow.Agree (R : σ → σ → Prop) : Flow σ ρ → Flow σ ρ → Prop where
  | next {s t} : R s t → Agree R (.next s) (.next t)
  | done {verdict s t} : R s t → Agree R (.done verdict s) (.done verdict t)

/-- Stages that take related states the same way. -/
def Alike (R : σ → σ → Prop) (stage stage' : Stage σ ρ) : Prop := ∀ s t, R s t → (stage s).Agree R (stage' t)

theorem guarded_alike {c c' : σ → Prop} [DecidablePred c] [DecidablePred c'] {stage stage' : Stage σ ρ}
    (same : ∀ s t, R s t → (c s ↔ c' t)) (alike : Alike R stage stage') :
    Alike R (guarded c stage) (guarded c' stage') := by
  intro s t related
  by_cases enters : c s
  · rw [guarded_enter _ enters, guarded_enter _ ((same s t related).mp enters)]
    exact alike s t related
  · rw [guarded_pass _ enters, guarded_pass _ (mt (same s t related).mpr enters)]
    exact .next related

/-- Cascades whose stages are alike one by one end with one verdict, in related states. -/
theorem run_alike (last : ρ) {stages stages' : List (Stage σ ρ)} (alike : List.Forall₂ (Alike R) stages stages')
    (s t : σ) (related : R s t) :
    (run last stages s).1 = (run last stages' t).1 ∧ R (run last stages s).2 (run last stages' t).2 := by
  induction alike generalizing s t with
  | nil => exact ⟨rfl, related⟩
  | @cons stage stage' rest rest' first _ ih =>
    have agree := first s t related
    unfold run
    generalize stage s = flow, stage' t = flow' at agree
    cases agree with
    | next related => exact ih _ _ related
    | done related => exact ⟨rfl, related⟩

end Related

end Cascade
