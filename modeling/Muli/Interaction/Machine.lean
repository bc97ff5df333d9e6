/-
**Threads as state machines on a shared state.**

For code whose loops have no bound, such as a compare-and-swap that may fail any number of times: a
thread is a control state, one atomic step moves it together with the shared state, and a schedule
names the thread that moves.

* `System.run_induction` — what every step keeps holds after every schedule; `System.Along`
  restricts the steps a schedule may take. `System.along_of_run` — the same from the end backwards.
* `System.effect_eq` — **the ledger rule.** Where every step moves a quantity between the shared
  state and the thread, all that a thread has done to the shared quantity is what it holds less than
  before.
-/

import Mathlib.Algebra.BigOperators.Group.List.Basic
import Mathlib.Algebra.Order.BigOperators.Group.List
import Mathlib.Algebra.Order.Group.Nat
import Mathlib.Tactic.Common
import Mathlib.Tactic.Abel

namespace Interaction

open List

variable {L S M : Type}

/-- One atomic step of a thread: its next control state and the shared state, `none` when it has
finished. -/
abbrev Machine (L S : Type) := L → S → Option (L × S)

structure System (L S : Type) where
  threads : List L
  shared : S

namespace System

variable (step : Machine L S)

/-- Thread `i` moves; a turn given to a thread that has finished passes. -/
def move (sys : System L S) (i : ℕ) : System L S :=
  match sys.threads[i]? with
  | none => sys
  | some l =>
    match step l sys.shared with
    | none => sys
    | some (l', s') => ⟨sys.threads.set i l', s'⟩

def run : System L S → List ℕ → System L S
  | sys, [] => sys
  | sys, i :: schedule => run (sys.move step i) schedule

/-- Every turn of the schedule is good where it is taken. -/
def Along (good : System L S → ℕ → Prop) : System L S → List ℕ → Prop
  | _, [] => True
  | sys, i :: schedule => good sys i ∧ Along good (sys.move step i) schedule

instance decidableAlong {good : System L S → ℕ → Prop} [∀ sys i, Decidable (good sys i)] :
    (sys : System L S) → (schedule : List ℕ) → Decidable (Along step good sys schedule)
  | _, [] => .isTrue trivial
  | sys, i :: schedule =>
    have : Decidable (Along step good (sys.move step i) schedule) := decidableAlong _ schedule
    inferInstanceAs (Decidable (good sys i ∧ Along step good (sys.move step i) schedule))

/-- The changes that the turns of thread `i` make to a shared quantity, added up. -/
def effect [AddGroup M] (stock : S → M) (i : ℕ) : System L S → List ℕ → M
  | _, [] => 0
  | sys, j :: schedule =>
    (if j = i then stock (sys.move step j).shared - stock sys.shared else 0) +
      effect stock i (sys.move step j) schedule

variable {step} {sys : System L S}

/-- **A turn does nothing, or the thread takes one step.** -/
theorem move_cases (step : Machine L S) (sys : System L S) (i : ℕ) :
    sys.move step i = sys ∨ ∃ l l' s', sys.threads[i]? = some l ∧
      step l sys.shared = some (l', s') ∧ sys.move step i = ⟨sys.threads.set i l', s'⟩ := by
  unfold move
  cases isThread : sys.threads[i]? with
  | none => exact .inl rfl
  | some l =>
    cases steps : step l sys.shared with
    | none => exact .inl (by simp only [steps])
    | some moved => exact .inr ⟨l, moved.1, moved.2, rfl, steps, by simp only [steps]⟩

variable {schedule : List ℕ}

/-- **What every good step keeps holds after every schedule of good turns.** -/
theorem run_induction (good : System L S → ℕ → Prop) {P : System L S → Prop} (start : P sys)
    (keeps : ∀ (sys : System L S) i l l' s', P sys → good sys i → sys.threads[i]? = some l →
      step l sys.shared = some (l', s') → P ⟨sys.threads.set i l', s'⟩)
    (along : sys.Along step good schedule) : P (sys.run step schedule) := by
  induction schedule generalizing sys with
  | nil => exact start
  | cons i schedule ih =>
    refine ih ?_ along.2
    rcases move_cases step sys i with same | ⟨l, l', s', isThread, steps, moved⟩
    · rw [same]
      exact start
    · rw [moved]
      exact keeps sys i l l' s' start along.1 isThread steps

theorem length_run (schedule : List ℕ) :
    (sys.run step schedule).threads.length = sys.threads.length := by
  induction schedule generalizing sys with
  | nil => rfl
  | cons i schedule ih =>
    refine ih.trans ?_
    rcases move_cases step sys i with same | ⟨l, l', s', -, -, moved⟩
    · rw [same]
    · rw [moved]
      exact length_set

theorem exists_thread_of_run {i : ℕ} {l : L}
    (isThread : (sys.run step schedule).threads[i]? = some l) :
    ∃ l₀, sys.threads[i]? = some l₀ := by
  obtain ⟨inRange, -⟩ := List.getElem?_eq_some_iff.mp isThread
  rw [length_run] at inRange
  exact ⟨_, getElem?_eq_getElem inRange⟩

variable {good : System L S → ℕ → Prop}

/-- **What the end has and no turn can bring about held all along.** -/
theorem along_of_run (P : System L S → Prop) (back : ∀ sys i, P (sys.move step i) → P sys ∧
    good sys i) (atEnd : P (sys.run step schedule)) : P sys ∧ sys.Along step good schedule := by
  induction schedule generalizing sys with
  | nil => exact ⟨atEnd, trivial⟩
  | cons i schedule ih =>
    obtain ⟨next, along⟩ := ih atEnd
    obtain ⟨before, isGood⟩ := back sys i next
    exact ⟨before, isGood, along⟩

theorem Along.and {good good' : System L S → ℕ → Prop}
    (along : sys.Along step good schedule) (along' : sys.Along step good' schedule) :
    sys.Along step (fun sys i => good sys i ∧ good' sys i) schedule := by
  induction schedule generalizing sys with
  | nil => exact trivial
  | cons i schedule ih => exact ⟨⟨along.1, along'.1⟩, ih along.2 along'.2⟩

theorem along_of_forall (all : ∀ sys i, good sys i) (schedule : List ℕ) :
    sys.Along step good schedule := by
  induction schedule generalizing sys with
  | nil => exact trivial
  | cons i schedule ih => exact ⟨all sys i, ih⟩

end System

/-! ### What the threads hold together -/

/-- When thread `i` goes from `l` to `l'`, the total changes by what it holds. -/
theorem sum_set_add [AddCommMonoid M] (held : L → M) {threads : List L} {l : L}
    (isThread : threads[i]? = some l) (l' : L) :
    ((threads.set i l').map held).sum + held l = (threads.map held).sum + held l' := by
  induction threads generalizing i with
  | nil => cases isThread
  | cons first rest ih =>
    cases i <;> grind

theorem sum_map_eq_countP (isOne : ∀ l, held l = if holds l then 1 else 0) (threads : List L) :
    (threads.map held).sum = threads.countP holds := by
  induction threads with
  | nil => rfl
  | cons l threads ih => rw [map_cons, sum_cons, ih, countP_cons, isOne, add_comm]

theorem held_le_sum (held : L → ℕ) {threads : List L} {i : ℕ} {l : L}
    (isThread : threads[i]? = some l) : held l ≤ (threads.map held).sum :=
  single_le_sum (fun _ _ => Nat.zero_le _) _
    (mem_map_of_mem (mem_of_getElem? isThread))

/-! ### The ledger rule -/

namespace System

variable {step : Machine L S} {sys : System L S}

/-- **Where every step moves a quantity between the shared state and the thread, all that a thread
has done to the shared quantity is what it holds less than before.** -/
theorem effect_eq [AddCommGroup M] (good : System L S → ℕ → Prop) {P : System L S → Prop}
    (stock : S → M) (held : L → M) {l : L} (start : P sys)
    (keeps : ∀ (sys : System L S) i l l' s', P sys → good sys i → sys.threads[i]? = some l →
      step l sys.shared = some (l', s') → P ⟨sys.threads.set i l', s'⟩ ∧ stock s' + held l' =
      stock sys.shared + held l)
    (along : sys.Along step good schedule) (before : sys.threads[i]? = some l)
    (after : (sys.run step schedule).threads[i]? = some l') :
    sys.effect step stock i schedule = held l - held l' := by
  induction schedule generalizing sys l with
  | nil =>
    obtain rfl := Option.some.inj (before.symm.trans after)
    exact (sub_self _).symm
  | cons j schedule ih =>
    rcases move_cases step sys j with same | ⟨lj, lj', s', isThread, steps, moved⟩
    · have rest := ih (same.symm ▸ start) along.2 (same.symm ▸ before) after
      rw [effect, rest, same, sub_self, ite_self, zero_add]
    · obtain ⟨kept, conserved⟩ := keeps sys j lj lj' s' start along.1 isThread steps
      have inRange : j < sys.threads.length := (List.getElem?_eq_some_iff.mp isThread).1
      by_cases own : j = i
      · subst own
        obtain rfl := Option.some.inj (isThread.symm.trans before)
        have next : (sys.move step j).threads[j]? = some lj' := by simp [*]
        have rest := ih (moved.symm ▸ kept) along.2 next after
        have change : stock s' - stock sys.shared = held lj - held lj' := by
          rw [sub_eq_sub_iff_add_eq_add, conserved, add_comm]
        rw [effect, if_pos rfl, rest, moved, change]
        exact sub_add_sub_cancel _ _ _
      · have next : (sys.move step j).threads[i]? = some l := by simp [*]
        have rest := ih (moved.symm ▸ kept) along.2 next after
        rw [effect, if_neg own, zero_add, rest]

end System

end Interaction
