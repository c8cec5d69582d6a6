/-! Programs that may fault half-way, in core's `EStateM`: a fault leaves the state as it
was then. `Ends` states what holds of every way a program ends. -/
namespace Faulting

variable {ε σ α β : Type} {x : EStateM ε σ α} {f : α → EStateM ε σ β} {s s' : σ}

/-- The program ends with `Q` of its result, or faults with `E`. -/
def Ends (x : EStateM ε σ α) (s : σ) (Q : α → σ → Prop) (E : ε → σ → Prop) : Prop :=
  match x s with
  | .ok a s' => Q a s'
  | .error e s' => E e s'

theorem bind_ok {a : α} (ran : x s = .ok a s') : (x >>= f) s = f a s' := by
  change EStateM.bind x f s = _
  simp only [EStateM.bind, ran]

theorem bind_error {e : ε} (ran : x s = .error e s') : (x >>= f) s = .error e s' := by
  change EStateM.bind x f s = _
  simp only [EStateM.bind, ran]

theorem of_bind_ok {b : β} (ran : (x >>= f) s = .ok b s') :
    ∃ a t, x s = .ok a t ∧ f a t = .ok b s' := by
  cases first : x s with
  | ok a t => exact ⟨a, t, rfl, (bind_ok first).symm.trans ran⟩
  | error e t =>
    rw [bind_error first] at ran
    cases ran

theorem get_bind (f : σ → EStateM ε σ β) (s : σ) : ((get : EStateM ε σ σ) >>= f) s = f s s := rfl

namespace Ends
variable {Q : α → σ → Prop} {E : ε → σ → Prop} {R : β → σ → Prop}

theorem of_ok {a : α} (ends : Ends x s Q E) (ran : x s = .ok a s') : Q a s' := by
  simpa only [Ends, ran] using ends

theorem of_error {e : ε} (ends : Ends x s Q E) (ran : x s = .error e s') : E e s' := by
  simpa only [Ends, ran] using ends

/-- Sequencing: the rest ends well behind whatever the first part leaves. -/
theorem bind (first : Ends x s Q E) (rest : ∀ a s', Q a s' → Ends (f a) s' R E) :
    Ends (x >>= f) s R E := by
  cases ran : x s with
  | ok a s' =>
    have next := rest a s' (first.of_ok ran)
    simpa only [Ends, bind_ok ran] using next
  | error e s' =>
    have fault := first.of_error ran
    simpa only [Ends, bind_error ran] using fault

theorem mono {Q' : α → σ → Prop} {E' : ε → σ → Prop} (ends : Ends x s Q E)
    (result : ∀ a s', Q a s' → Q' a s') (fault : ∀ e s', E e s' → E' e s') : Ends x s Q' E' := by
  cases ran : x s with
  | ok a s' =>
    have done := result a s' (ends.of_ok ran)
    simpa only [Ends, ran] using done
  | error e s' =>
    have failed := fault e s' (ends.of_error ran)
    simpa only [Ends, ran] using failed

end Ends

end Faulting
