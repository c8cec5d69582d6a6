import Mathlib.Logic.Basic

/-! Devices that answer every access and move on. Two states are alike when no sequence of
accesses tells them apart; bisimulations show that they are, experiments that they are not. -/
namespace Device

variable {σ ι ο : Type} (step : σ → ι → ο × σ)

def after : List ι → σ → σ
  | [], s => s
  | i :: accesses, s => after accesses (step s i).2

def answers : List ι → σ → List ο
  | [], _ => []
  | i :: accesses, s => (step s i).1 :: answers accesses (step s i).2

/-- Every sequence of accesses gets the same answers. -/
def Alike (s t : σ) : Prop := ∀ accesses, answers step accesses s = answers step accesses t

/-- Related states answer alike and stay related. -/
structure Bisimulation (R : σ → σ → Prop) : Prop where
  answer : ∀ {s t} i, R s t → (step s i).1 = (step t i).1
  next : ∀ {s t} i, R s t → R (step s i).2 (step t i).2

variable {step}

theorem Bisimulation.alike {R : σ → σ → Prop} (bisimulation : Bisimulation step R) {s t : σ}
    (related : R s t) : Alike step s t := by
  intro accesses
  induction accesses generalizing s t with
  | nil => rfl
  | cons i accesses ih =>
    exact congrArg₂ List.cons (bisimulation.answer i related) (ih (bisimulation.next i related))

namespace Alike
variable {s t : σ}

theorem symm (alike : Alike step s t) : Alike step t s := fun accesses => (alike accesses).symm

theorem answer (alike : Alike step s t) (i : ι) : (step s i).1 = (step t i).1 :=
  (List.cons.inj (alike [i])).1

theorem next (alike : Alike step s t) (i : ι) : Alike step (step s i).2 (step t i).2 :=
  fun accesses => (List.cons.inj (alike (i :: accesses))).2

/-- An experiment: what is answered behind any accesses. -/
theorem after (alike : Alike step s t) (accesses : List ι) :
    Alike step (after step accesses s) (Device.after step accesses t) := by
  induction accesses generalizing s t with
  | nil => exact alike
  | cons i accesses ih => exact ih (alike.next i)

end Alike

/-- What every access keeps holds behind any accesses. -/
theorem invariant_after {I : σ → Prop} (keep : ∀ s i, I s → I (step s i).2) (accesses : List ι) {s : σ}
    (initial : I s) : I (after step accesses s) := by
  induction accesses generalizing s with
  | nil => exact initial
  | cons i accesses ih => exact ih (keep s i initial)

end Device
