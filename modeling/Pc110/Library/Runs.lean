/-! Runs of a deterministic machine over a list of events, and properties of every step
of a run. A property may look at history by pairing the machine with what it records. -/
namespace Runs

variable {σ ε : Type} (step : ε → σ → σ)

def run : List ε → σ → σ
  | [], s => s
  | e :: events, s => run events (step e s)

/-- `P` holds before every step of the run, of the state and the event about to happen. -/
def Always (P : σ → ε → Prop) : List ε → σ → Prop
  | [], _ => True
  | e :: events, s => P s e ∧ Always P events (step e s)

theorem run_append (front back : List ε) (s : σ) :
    run step (front ++ back) s = run step back (run step front s) := by
  induction front generalizing s with
  | nil => rfl
  | cons e front ih => exact ih (step e s)

theorem foldl_eq_run (events : List ε) (s : σ) : events.foldl (fun s e => step e s) s = run step events s := by
  induction events generalizing s with
  | nil => rfl
  | cons e events ih => exact ih (step e s)

/-- What no step changes is at the end what it was. -/
theorem run_keeps {α : Type} {observed : σ → α} (keeps : ∀ e s, observed (step e s) = observed s)
    (events : List ε) (s : σ) : observed (run step events s) = observed s := by
  induction events generalizing s with
  | nil => rfl
  | cons e events ih => exact (ih (step e s)).trans (keeps e s)

/-- What each event either puts or leaves is what the last one put, or what was there. -/
theorem run_last {α : Type} {observed : σ → α} {put : ε → Option α}
    (moves : ∀ e s, observed (step e s) = (put e).getD (observed s)) (events : List ε) (s : σ) :
    observed (run step events s) = ((events.filterMap put).getLast?).getD (observed s) := by
  induction events generalizing s with
  | nil => rfl
  | cons e events ih =>
    rw [run, ih, moves]
    cases written : put e with
    | none => rw [List.filterMap_cons_none written, Option.getD_none]
    | some v => rw [List.filterMap_cons_some written, List.getLast?_cons, Option.getD_some, Option.getD_some]

/-- A property of every step is one of the step behind any beginning of the run. -/
theorem Always.at {P : σ → ε → Prop} {front back : List ε} {e : ε} {s : σ}
    (h : Always step P (front ++ e :: back) s) : P (run step front s) e := by
  induction front generalizing s with
  | nil => exact h.1
  | cons _ front ih => exact ih h.2

/-- An invariant and what it implies hold throughout. -/
theorem always_of_invariant {I : σ → Prop} {P : σ → ε → Prop} (keep : ∀ s e, I s → I (step e s))
    (holds : ∀ s e, I s → P s e) (events : List ε) (s : σ) (initial : I s) :
    Always step P events s := by
  induction events generalizing s with
  | nil => trivial
  | cons e events ih => exact ⟨holds s e initial, ih (step e s) (keep s e initial)⟩

/-- Under a condition on every step, an invariant and what it implies hold throughout. -/
theorem always_under {I : σ → Prop} {C P : σ → ε → Prop}
    (keep : ∀ s e, I s → C s e → I (step e s)) (holds : ∀ s e, I s → C s e → P s e)
    (events : List ε) (s : σ) (initial : I s) (clean : Always step C events s) :
    Always step P events s := by
  induction events generalizing s with
  | nil => trivial
  | cons e events ih =>
    obtain ⟨now, later⟩ := clean
    exact ⟨holds s e initial now, ih (step e s) (keep s e initial now) later⟩

/-- What every step of a run keeps under a condition is there at its end. -/
theorem run_under {I : σ → Prop} {C : σ → ε → Prop} (keep : ∀ s e, I s → C s e → I (step e s))
    (events : List ε) (s : σ) (initial : I s) (clean : Always step C events s) : I (run step events s) := by
  induction events generalizing s with
  | nil => exact initial
  | cons e events ih => exact ih (step e s) (keep s e initial clean.1) clean.2

/-- Properties that agree wherever the invariant holds agree on runs. The invariant need
survive the steps that have the property only. -/
theorem always_iff {I : σ → Prop} {P Q : σ → ε → Prop} (keep : ∀ s e, I s → P s e → I (step e s))
    (equiv : ∀ s e, I s → (P s e ↔ Q s e)) (events : List ε) (s : σ) (initial : I s) :
    Always step P events s ↔ Always step Q events s := by
  constructor
  · exact always_under step keep (fun s e inv => (equiv s e inv).mp) events s initial
  · apply always_under step _ (fun s e inv => (equiv s e inv).mpr) events s initial
    intro s e inv now
    exact keep s e inv ((equiv s e inv).mpr now)

def recorded {α : Type} (records : ε → σ → Option α) : List ε → σ → List α
  | [], _ => []
  | e :: events, s => (records e s).toList ++ recorded records events (step e s)

/-- An invariant of what has been recorded and the state. -/
theorem run_recorded {α : Type} {records : ε → σ → Option α} {I : List α → σ → Prop}
    (keep : ∀ past s e, I past s → I (past ++ (records e s).toList) (step e s)) (events : List ε) (past : List α)
    (s : σ) (initial : I past s) : I (past ++ recorded step records events s) (run step events s) := by
  induction events generalizing past s with
  | nil =>
    rw [recorded, List.append_nil]
    exact initial
  | cons e events ih =>
    rw [recorded, ← List.append_assoc]
    exact ih _ _ (keep past s e initial)

theorem recorded_append {α : Type} (records : ε → σ → Option α) (front back : List ε) (s : σ) :
    recorded step records (front ++ back) s =
      recorded step records front s ++ recorded step records back (run step front s) := by
  induction front generalizing s with
  | nil => rfl
  | cons e front ih =>
    rw [List.cons_append, recorded, ih, recorded, List.append_assoc]
    rfl

def count (P : ε → σ → Bool) : List ε → σ → Nat
  | [], _ => 0
  | e :: events, s => (P e s).toNat + count P events (step e s)

/-- A latch that `P` alone sets, and that keeps `P` from happening, has counted it. -/
theorem count_latch {I : σ → Prop} {P : ε → σ → Bool} (latch : σ → Bool) (keep : ∀ s e, I s → I (step e s))
    (sets : ∀ s e, I s → latch (step e s) = (latch s || P e s))
    (bars : ∀ s e, I s → latch s = true → P e s = false) (events : List ε) (s : σ) (initial : I s) :
    (latch s).toNat + count step P events s = (latch (run step events s)).toNat := by
  induction events generalizing s with
  | nil => rfl
  | cons e events ih =>
    have later := ih (step e s) (keep s e initial)
    rw [sets s e initial] at later
    rw [count, run, ← later]
    cases set : latch s with
    | true => rw [bars s e initial set, Bool.true_or, Bool.toNat_false, Nat.zero_add]
    | false => rw [Bool.false_or, Bool.toNat_false, Nat.zero_add]

theorem count_le_one {I : σ → Prop} {P : ε → σ → Bool} (latch : σ → Bool) (keep : ∀ s e, I s → I (step e s))
    (sets : ∀ s e, I s → latch (step e s) = (latch s || P e s))
    (bars : ∀ s e, I s → latch s = true → P e s = false) (events : List ε) (s : σ) (initial : I s) :
    count step P events s ≤ 1 := by
  have balance := count_latch step latch keep sets bars events s initial
  have bound := Bool.toNat_le (latch (run step events s))
  omega

end Runs
