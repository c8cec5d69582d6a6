import Mathlib.Order.Basic

/-! Loops whose body either goes round again or leaves with a result. Fuel makes
such a loop a total function; a decreasing measure shows that enough fuel is never
exhausted, so that the fuel does not appear in what is concluded about a result. -/
namespace StepLoop

inductive Pass (σ ρ : Type*) where
  | again (state : σ)
  | leave (result : ρ)
  deriving DecidableEq, Repr

def iterate (body : σ → Pass σ ρ) : Nat → σ → Option ρ
  | 0, _ => none
  | fuel + 1, s => match body s with
    | .again next => iterate body fuel next
    | .leave result => some result

@[simp] theorem iterate_zero (body : σ → Pass σ ρ) (s : σ) : iterate body 0 s = none := rfl

theorem iterate_again {body : σ → Pass σ ρ} (pass : body s = .again next) (fuel : Nat) :
    iterate body (fuel + 1) s = iterate body fuel next := by
  simp only [iterate, pass]

theorem iterate_leave {body : σ → Pass σ ρ} (pass : body s = .leave result) (fuel : Nat) :
    iterate body (fuel + 1) s = some result := by
  simp only [iterate, pass]

/-- Exactly `n` consecutive passes, none of which leaves the loop. -/
inductive Rounds (body : σ → Pass σ ρ) : Nat → σ → σ → Prop where
  | refl : Rounds body 0 s s
  | step : body s = .again t → Rounds body n t u → Rounds body (n + 1) s u

theorem Rounds.single {body : σ → Pass σ ρ} (pass : body s = .again t) : Rounds body 1 s t :=
  .step pass .refl

theorem Rounds.trans {body : σ → Pass σ ρ} (first : Rounds body m s t)
    (second : Rounds body n t u) : Rounds body (m + n) s u := by
  induction first with
  | refl => simpa using second
  | step pass _ ih =>
    rw [Nat.add_right_comm]
    exact .step pass (ih second)

theorem Rounds.iterate_eq {body : σ → Pass σ ρ} (rounds : Rounds body n s t) (fuel : Nat) :
    iterate body (n + fuel) s = iterate body fuel t := by
  induction rounds with
  | refl => rw [Nat.zero_add]
  | step pass _ ih => rw [Nat.add_right_comm, iterate_again pass, ih]

/-- A result is left from a state that some passes reach. -/
theorem iterate_leaves {body : σ → Pass σ ρ} {fuel : Nat} (found : iterate body fuel s = some result) :
    ∃ n t, Rounds body n s t ∧ body t = .leave result := by
  induction fuel generalizing s with
  | zero => simp at found
  | succ fuel ih =>
    cases pass : body s with
    | again next =>
      rw [iterate_again pass] at found
      obtain ⟨n, t, rounds, left⟩ := ih found
      exact ⟨n + 1, t, .step pass rounds, left⟩
    | leave r =>
      rw [iterate_leave pass, Option.some.injEq] at found
      exact ⟨0, s, .refl, found ▸ pass⟩

/-- More fuel never changes a result. -/
theorem iterate_mono {body : σ → Pass σ ρ} {fuel larger : Nat} (le : fuel ≤ larger)
    (found : iterate body fuel s = some result) : iterate body larger s = some result := by
  induction fuel generalizing s larger with
  | zero => simp at found
  | succ fuel ih =>
    obtain ⟨larger, rfl⟩ : ∃ k, larger = k + 1 := ⟨larger - 1, by omega⟩
    cases pass : body s with
    | again next =>
      rw [iterate_again pass] at found ⊢
      exact ih (by omega) found
    | leave r =>
      rw [iterate_leave pass] at found ⊢
      exact found

/-- Enough fuel finds the result that the passes lead to, and no other. -/
theorem Rounds.unique {body : σ → Pass σ ρ} {result other : ρ} (rounds : Rounds body n s t)
    (left : body t = .leave result) {fuel : Nat} (found : iterate body fuel s = some other) :
    other = result := by
  have ended : iterate body (n + 1) s = some result := by rw [rounds.iterate_eq, iterate_leave left]
  have both := iterate_mono (Nat.le_max_left (n + 1) fuel) ended
  rw [iterate_mono (Nat.le_max_right (n + 1) fuel) found] at both
  exact Option.some.inj both

/-- A measure that every further round decreases bounds the fuel that is needed. -/
theorem iterate_terminates {body : σ → Pass σ ρ} (property : σ → Prop) (measure : σ → Nat)
    (decreases : ∀ s t, property s → body s = .again t → property t ∧ measure t < measure s)
    {fuel : Nat} (initial : property s) (enough : measure s < fuel) :
    ∃ result, iterate body fuel s = some result := by
  induction fuel generalizing s with
  | zero => omega
  | succ fuel ih =>
    cases pass : body s with
    | again next =>
      obtain ⟨kept, less⟩ := decreases s next initial pass
      rw [iterate_again pass]
      exact ih kept (by omega)
    | leave result => exact ⟨result, iterate_leave pass fuel⟩

/-- Two passes agree when both go round again to related states or both leave with
related results. -/
inductive Pass.Related (states : σ → τ → Prop) (results : ρ → υ → Prop) :
    Pass σ ρ → Pass τ υ → Prop where
  | again : states s t → Pass.Related states results (.again s) (.again t)
  | leave : results r q → Pass.Related states results (.leave r) (.leave q)

/-- Lock-step simulation: loops whose bodies preserve a relation have related results. -/
theorem iterate_simulation {body : σ → Pass σ ρ} {other : τ → Pass τ υ}
    {states : σ → τ → Prop} {results : ρ → υ → Prop}
    (simulates : ∀ s t, states s t → Pass.Related states results (body s) (other t))
    (related : states s t) (fuel : Nat) :
    Option.Rel results (iterate body fuel s) (iterate other fuel t) := by
  induction fuel generalizing s t with
  | zero => exact .none
  | succ fuel ih =>
    have pass := simulates s t related
    generalize hs : body s = left at pass
    generalize ht : other t = right at pass
    cases pass with
    | again next =>
      rw [iterate_again hs, iterate_again ht]
      exact ih next
    | leave equal =>
      rw [iterate_leave hs, iterate_leave ht]
      exact .some equal

/-- What one loop reaches is related to what the other reaches. -/
theorem Rounds.related {body : σ → Pass σ ρ} {other : τ → Pass τ υ} {states : σ → τ → Prop}
    {results : ρ → υ → Prop}
    (simulates : ∀ s t, states s t → Pass.Related states results (body s) (other t))
    (rounds : Rounds body n s u) (related : states s t) : ∃ v, Rounds other n t v ∧ states u v := by
  induction rounds generalizing t with
  | refl => exact ⟨t, .refl, related⟩
  | @step s next n u pass _ ih =>
    have both := simulates s t related
    rw [pass] at both
    generalize moved : other t = right at both
    cases both with
    | again kept =>
      obtain ⟨v, rounds, states⟩ := ih kept
      exact ⟨v, .step moved rounds, states⟩

end StepLoop
