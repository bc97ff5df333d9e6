/-
**Isolation between the users of one state.**

* `heard_filter` — **the rule of unwinding.** Requests that keep a relation to a state which has not
  seen them leave no trace in the answers of the others.
-/

import Mathlib.Data.List.Basic
import Mathlib.Tactic.Common

namespace Interaction

variable {Q A S : Type} (step : Q → S → A × S)

/-- The answers that the heard requests of a history get. -/
def heard (hears : Q → Bool) : List Q → S → List A
  | [], _ => []
  | q :: history, s =>
    (if hears q then [(step q s).1] else []) ++ heard hears history (step q s).2

variable {step}

/-- **Unwinding.** A dropped request is not heard and keeps the relation on its side; every other
one keeps it in lockstep, with the same answer where it is heard. -/
theorem heard_filter {drops : Q → Bool} {R : S → S → Prop} {good : Q → Prop}
    (hidden : ∀ q s t, good q → drops q = true → R s t → hears q = false ∧ R (step q s).2 t)
    (visible : ∀ q s t, good q → drops q = false → R s t → R (step q s).2 (step q t).2 ∧
      (hears q = true → (step q s).1 = (step q t).1))
    (allGood : ∀ q ∈ history, good q) {s t : S} (related : R s t) :
    heard step hears history s = heard step hears (history.filter fun q => !drops q) t := by
  induction history generalizing s t with
  | nil => rfl
  | cons q history ih =>
    obtain ⟨isGood, others⟩ := List.forall_mem_cons.mp allGood
    cases dropped : drops q with
    | true => grind [heard]
    | false =>
      obtain ⟨kept, answers⟩ := visible q s t isGood dropped related
      rw [List.filter_cons_of_pos (by simp [dropped]), heard, heard, ih others kept]
      cases isHeard : hears q with
      | true => rw [answers isHeard]
      | false => rfl

end Interaction
