import Pc110.Library.Device

/-! Registers as their history leaves them: the newest write, or what was there before any.
A history lists its accesses newest first. -/
namespace History

variable {ι σ ο α : Type}

/-- The newest value `written` finds in a history. What an access writes may depend on the
accesses before it. -/
def last (written : List ι → ι → Option α) (initial : α) : List ι → α
  | [] => initial
  | x :: past => (written past x).getD (last written initial past)

variable {written : List ι → ι → Option α} {initial : α}

theorem last_skipped {past : List ι} {x : ι} (skipped : written past x = none) :
    last written initial (x :: past) = last written initial past := by
  rw [last, skipped, Option.getD_none]

/-- Accesses that write nothing behind the newest write leave it in force. -/
theorem last_newest {v : α} {past : List ι} {x : ι} (writes : written past x = some v) (later : List ι)
    (skipped : ∀ newer y older, later = newer ++ y :: older → written (older ++ x :: past) y = none) :
    last written initial (later ++ x :: past) = v := by
  induction later with
  | nil => rw [List.nil_append, last, writes, Option.getD_some]
  | cons y older ih =>
    rw [List.cons_append, last_skipped (skipped [] y older rfl)]
    exact ih fun newer z rest split => skipped (y :: newer) z rest (congrArg (y :: ·) split)

/-- A relation between histories and states that every access keeps holds behind any accesses. -/
theorem follows_after {step : σ → ι → ο × σ} {Follows : List ι → σ → Prop}
    (keep : ∀ past s x, Follows past s → Follows (x :: past) (step s x).2) {s : σ} {past : List ι}
    (initially : Follows past s) (accesses : List ι) :
    Follows (accesses.reverse ++ past) (Device.after step accesses s) := by
  induction accesses generalizing s past with
  | nil => exact initially
  | cons x accesses ih =>
    rw [List.reverse_cons, List.append_assoc]
    exact ih (keep past s x initially)

end History
