/-
**Invariants that know in which phase each program is.**

Programs that obey a protocol carry their phases along as a second state: what a thread holds or has
claimed is in its phase, and an invariant may relate the phases of all threads to the shared state.

* `Pool.phases` — **what every permitted call keeps, every run keeps**: each call of a run meets
  phases and a state with the invariant, and is one that the phase of its thread permits.
-/

import Mathlib.Logic.Function.Basic
import Muli.Interaction.Typestate

namespace Interaction

variable {I : Interface} {S E Φ : Type} {H : Handler I S E} {P : Protocol I Φ}

def Protocol.advance (P : Protocol I Φ) (phases : ℕ → Φ) (i : ℕ) (op : I.Op)
    (answer : I.Answer op) : ℕ → Φ :=
  Function.update phases i (P.next (phases i) op answer)

theorem Protocol.advance_self (phases : ℕ → Φ) (i : ℕ) (op : I.Op) (answer : I.Answer op) :
    P.advance phases i op answer i = P.next (phases i) op answer :=
  Function.update_self ..

theorem Protocol.advance_of_ne (other : j ≠ i) (phases : ℕ → Φ) (op : I.Op) (answer : I.Answer op) :
    P.advance phases i op answer j = phases j :=
  Function.update_of_ne other ..

theorem Protocol.phaseAfter_advance (phases : ℕ → Φ) (j : ℕ) (event : Event I S E)
    (later : List (ℕ × Event I S E)) :
    (fun i => phaseAfter H P i (phases i) ((j, event) :: later)) =
      fun i => phaseAfter H P i (P.advance phases j event.op (event.answer H) i) later := by
  funext i
  by_cases own : j = i
  · subst own
    rw [P.advance_self, phaseAfter, if_pos rfl]
  · rw [P.advance_of_ne (Ne.symm own), phaseAfter, if_neg own]

theorem phaseAfter_of_absent (phase : Φ) (i : ℕ) {run : List (ℕ × Event I S E)}
    (absent : ∀ event ∈ run, event.1 ≠ i) : phaseAfter H P i phase run = phase := by
  induction run with
  | nil => rfl
  | cons event run ih =>
    rw [phaseAfter, if_neg (absent event List.mem_cons_self)]
    exact ih fun event mem => absent event (List.mem_cons_of_mem _ mem)

/-- **An invariant of phases and state that permitted calls keep holds along every run** of threads
that obey the protocol; `assume` is what is known of the calls of the run, in the phases they are
made. -/
theorem Pool.phases_along (assume : (ℕ → Φ) → ℕ → Event I S E → Prop) (meets : H.Meets P)
    (inv : (ℕ → Φ) → S → Prop)
    (step : ∀ phases s i e op, inv phases s → P.permits (phases i) op → assume phases i ⟨s, e, op⟩ →
      inv (P.advance phases i op (H e op s).1) (H e op s).2)
    {pool : Pool I S} {phases : ℕ → Φ}
    (obey : ∀ i (p : Prog I Unit), pool.threads[i]? = some p → p.Obeys P (fun _ _ => True)
    (phases i)) (start : inv phases pool.shared)
    (assumed : ∀ earlier event later, pool.trace H schedule = earlier ++ event :: later →
      assume (fun i => phaseAfter H P i (phases i) earlier) event.1 event.2) :
    ∀ earlier event later, pool.trace H schedule = earlier ++ event :: later →
      inv (fun i => phaseAfter H P i (phases i) earlier) event.2.before ∧
        P.permits (phaseAfter H P event.1 (phases event.1) earlier) event.2.op := by
  induction schedule generalizing pool phases with
  | nil =>
    intro earlier event later split
    simp [Pool.trace] at split
  | cons turn schedule ih =>
    obtain ⟨i, decision⟩ := turn
    unfold Pool.trace at assumed ⊢
    cases moves : pool.step H i decision with
    | none =>
      simp only [moves] at assumed
      exact ih obey start assumed
    | some moved =>
      obtain ⟨event, pool'⟩ := moved
      obtain ⟨op, next, isCall, rfl, rfl⟩ := Pool.step_eq_some moves
      simp only [moves] at assumed
      obtain ⟨permitted, obeys⟩ := obey i _ isCall
      have kept := step phases pool.shared i decision op start permitted (assumed [] _ _ rfl)
      intro earlier event later split
      cases earlier with
      | nil =>
        obtain ⟨rfl, -⟩ := List.cons.inj split
        exact ⟨start, permitted⟩
      | cons first earlier =>
        obtain ⟨rfl, tail⟩ := List.cons.inj split
        have along := @ih ⟨_, (H decision op pool.shared).2⟩
          (P.advance phases i op (H decision op pool.shared).1) ?_ kept
          (fun earlier event later split => ?_) earlier event later tail
        · exact (P.phaseAfter_advance phases i ⟨pool.shared, decision, op⟩ earlier) ▸
            ⟨along.1, congrFun (P.phaseAfter_advance phases i ⟨pool.shared, decision, op⟩ earlier)
              event.1 ▸ along.2⟩
        · intro j p isThread
          by_cases own : j = i
          · subst own
            have inRange : j < pool.threads.length := (List.getElem?_eq_some_iff.mp isCall).1
            rw [List.getElem?_set_self inRange] at isThread
            rw [P.advance_self, ← Option.some.inj isThread]
            exact obeys _ (meets decision op pool.shared)
          · grind [Protocol.advance_of_ne]
        · have known := assumed ((i, ⟨pool.shared, decision, op⟩) :: earlier) event later
            (congrArg (_ :: ·) split)
          rwa [P.phaseAfter_advance] at known

/-- The same where nothing is known of the phases. -/
theorem Pool.phases (assume : ℕ → Event I S E → Prop) (meets : H.Meets P) {inv : (ℕ → Φ) → S → Prop}
    (step : ∀ phases s i e op, inv phases s → P.permits (phases i) op → assume i ⟨s, e, op⟩ →
      inv (P.advance phases i op (H e op s).1) (H e op s).2)
    {pool : Pool I S} {phases : ℕ → Φ}
    (obey : ∀ i (p : Prog I Unit), pool.threads[i]? = some p → p.Obeys P (fun _ _ => True)
      (phases i))
    (start : inv phases pool.shared)
    (assumed : ∀ event ∈ pool.trace H schedule, assume event.1 event.2) :
    ∀ event ∈ pool.trace H schedule, ∃ phases', inv phases' event.2.before ∧
      P.permits (phases' event.1) event.2.op := by
  intro event mem
  obtain ⟨earlier, later, split⟩ := List.append_of_mem mem
  refine ⟨_, Pool.phases_along (fun _ => assume) meets _ step obey start ?_ earlier event
    later split⟩
  exact fun earlier event later split => assumed event (by simp [split])

end Interaction
