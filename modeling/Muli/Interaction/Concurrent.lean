/-
**Programs that interleave on one shared state.**

A pool is a list of programs and the state they share. A schedule names, step by step, the program
that moves and what the environment decides there; `trace` lists the operations it performs, and
each of them meets the state the one before it left (`Chained`).

* `Guarded` — **rely and guarantee for one program.** Before each of its operations the others may
  have moved the state along `rely`; the operation then satisfies `ok`, and the program goes on only
  from operations that satisfy `assume`.
* `Pool.Guarded.trace` — a pool of guarded programs, every `assume`d operation being one the others
  rely on: along every schedule an operation satisfies `ok` as long as all earlier ones satisfied
  `assume`.
* `forall_trace_iff` — the case `ok = (law ↔ fresh)`, `assume = law`: every operation of a run obeys
  the law **exactly** when every operation is fresh.
-/

import Mathlib.Data.List.Induction
import Muli.Interaction.Program

namespace Interaction

open List

variable {I : Interface} {S E : Type}

structure Event (I : Interface) (S E : Type) where
  before : S
  decision : E
  op : I.Op

section Events

variable (H : Handler I S E)

def Event.after (event : Event I S E) : S := (H event.decision event.op event.before).2

def Event.answer (event : Event I S E) : I.Answer event.op :=
  (H event.decision event.op event.before).1

structure Pool (I : Interface) (S : Type) where
  threads : List (Prog I Unit)
  shared : S

/-- One move of thread `i`: the operation it performs and the pool afterwards, `none` when the
thread has returned. -/
def Pool.step (pool : Pool I S) (i : ℕ) (decision : E) : Option (Event I S E × Pool I S) :=
  match pool.threads[i]? with
  | some (.call op next) =>
    let event : Event I S E := ⟨pool.shared, decision, op⟩
    some (event, ⟨pool.threads.set i (next (event.answer H)), event.after H⟩)
  | _ => none

/-- The operations performed along a schedule, each with the thread that performed it. A turn given
to a thread that has returned passes. -/
def Pool.trace : Pool I S → List (ℕ × E) → List (ℕ × Event I S E)
  | _, [] => []
  | pool, (i, decision) :: schedule =>
    match pool.step H i decision with
    | some (event, pool') => (i, event) :: Pool.trace pool' schedule
    | none => Pool.trace pool schedule

/-- The pool at the end of a schedule. -/
def Pool.final : Pool I S → List (ℕ × E) → Pool I S
  | pool, [] => pool
  | pool, (i, decision) :: schedule =>
    match pool.step H i decision with
    | some (_, pool') => Pool.final pool' schedule
    | none => Pool.final pool schedule

def Pool.returned (pool : Pool I S) (schedule : List (ℕ × E)) (i : ℕ) : Bool :=
  match (pool.final H schedule).threads[i]? with
  | some (.pure _) => true
  | _ => false

variable {H} {pool : Pool I S}

theorem Pool.step_of_call {next : I.Answer op → Prog I Unit}
    (isThread : pool.threads[i]? = some (.call op next)) (decision : E) :
    pool.step H i decision = some (⟨pool.shared, decision, op⟩,
      ⟨pool.threads.set i (next (H decision op pool.shared).1),
        (H decision op pool.shared).2⟩) := by
  unfold Pool.step
  rw [isThread]
  rfl

theorem Pool.step_eq_some (moves : pool.step H i decision = some (event, pool')) :
    ∃ op next, pool.threads[i]? = some (.call op next) ∧ event = ⟨pool.shared, decision, op⟩ ∧
      pool' = ⟨pool.threads.set i (next (H decision op pool.shared).1), event.after H⟩ := by
  unfold Pool.step at moves
  split at moves
  next op next found =>
    obtain ⟨rfl, rfl⟩ := Prod.mk.inj (Option.some.inj moves)
    exact ⟨op, next, found, rfl, rfl⟩
  next => cases moves

variable {event : ℕ × Event I S E} {schedule : List (ℕ × E)}

/-- The first operation of a run meets the pool's state; the rest is the run of another pool that
starts where the operation ended. -/
theorem Pool.trace_cons (split : pool.trace H schedule = event :: later) :
    event.2.before = pool.shared ∧ ∃ (pool' : Pool I S) (schedule' : List (ℕ × E)),
      pool'.shared = event.2.after H ∧ pool'.trace H schedule' = later := by
  induction schedule with
  | nil => cases split
  | cons turn schedule ih =>
    obtain ⟨i, decision⟩ := turn
    unfold Pool.trace at split
    cases moves : pool.step H i decision with
    | none => exact ih (by simpa only [moves] using split)
    | some moved =>
      obtain ⟨first, pool'⟩ := moved
      simp only [moves] at split
      obtain ⟨rfl, rfl⟩ := cons.inj split
      obtain ⟨op, next, -, rfl, rfl⟩ := Pool.step_eq_some moves
      exact ⟨rfl, _, _, rfl, rfl⟩

variable (H) in
/-- Each operation meets the state the one before it left. -/
def Chained : S → List (ℕ × Event I S E) → Prop
  | _, [] => True
  | s, event :: later => event.2.before = s ∧ Chained (event.2.after H) later

theorem Pool.trace_chained (pool : Pool I S) (schedule : List (ℕ × E)) :
    Chained H pool.shared (pool.trace H schedule) := by
  induction run : pool.trace H schedule generalizing pool schedule with
  | nil => exact trivial
  | cons event later ih =>
    obtain ⟨atStart, pool', schedule', next, rest⟩ := Pool.trace_cons run
    refine ⟨atStart, ?_⟩
    rw [← next]
    exact ih pool' schedule' rest

variable {earlier later : List (ℕ × Event I S E)} {s : S}

theorem Chained.suffix (chained : Chained H s (earlier ++ event :: later)) :
    Chained H event.2.before (event :: later) := by
  induction earlier generalizing s with
  | nil => exact ⟨rfl, chained.2⟩
  | cons first earlier ih => exact ih chained.2

theorem Chained.left (chained : Chained H s (earlier ++ later)) : Chained H s earlier := by
  induction earlier generalizing s with
  | nil => trivial
  | cons first earlier ih => exact ⟨chained.1, ih chained.2⟩

variable {history : List (ℕ × Event I S E)}

/-- **What every operation of a history keeps, the history keeps.** -/
theorem Chained.preserves {P : S → Prop} (chained : Chained H s history)
    (keeps : ∀ event ∈ history, P event.2.before → P (event.2.after H)) (start : P s) :
    ∀ event ∈ history, P event.2.before ∧ P (event.2.after H) := by
  induction history generalizing s with
  | nil => exact nofun
  | cons first later ih =>
    obtain ⟨atStart, rest⟩ := chained
    have before : P first.2.before := atStart ▸ start
    have after : P (first.2.after H) := keeps first mem_cons_self before
    refine forall_mem_cons.mpr ⟨⟨before, after⟩, ih rest ?_ after⟩
    exact fun event mem => keeps event (.tail _ mem)

theorem Chained.holds_at {P : S → Prop} (chained : Chained H s (earlier ++ event :: later))
    (keeps : ∀ past ∈ earlier, P past.2.before → P (past.2.after H)) (start : P s) :
    P event.2.before := by
  induction earlier generalizing s with
  | nil => exact chained.1 ▸ start
  | cons first earlier ih =>
    obtain ⟨atStart, rest⟩ := chained
    refine ih rest (fun past mem => keeps past (.tail _ mem)) ?_
    exact keeps first mem_cons_self (atStart ▸ start)

variable (H) in
def endState : S → List (ℕ × Event I S E) → S
  | s, [] => s
  | _, event :: later => endState (event.2.after H) later

theorem endState_append_singleton (s : S) (earlier : List (ℕ × Event I S E))
    (event : ℕ × Event I S E) : endState H s (earlier ++ [event]) = event.2.after H := by
  induction earlier generalizing s with
  | nil => rfl
  | cons first earlier ih => exact ih _

theorem Chained.before_eq
    (chained : Chained H s (earlier ++ event :: later)) :
    event.2.before = endState H s earlier := by
  induction earlier generalizing s with
  | nil => exact chained.1
  | cons first earlier ih => exact ih chained.2

/-- **What every operation keeps, given the history before it, holds where the history ends.** -/
theorem Chained.concludes
    {P : List (ℕ × Event I S E) → S → Prop} (chained : Chained H s history) (start : P [] s)
    (step : ∀ earlier event later, history = earlier ++ event :: later → P earlier event.2.before →
      P (earlier ++ [event]) (event.2.after H)) : P history (endState H s history) := by
  induction history using reverseRecOn with
  | nil => exact start
  | append_singleton earlier event ih =>
    rw [endState_append_singleton]
    refine step earlier event [] rfl ?_
    rw [chained.before_eq]
    refine ih chained.left ?_
    intro earlier' event' later' split
    exact step earlier' event' (later' ++ [event]) (by rw [split, append_assoc]; rfl)

/-- **A thread that is given enough turns makes its last call**: one more than the calls of the
program before it. -/
theorem Pool.exists_call_of_turns {α : Type} {p : Prog I α} {last : α → I.Op}
    (bounded : p.Bounded n)
    (isThread : pool.threads[i]? = some (p >>= fun value => .call (last value) fun _ => .pure ()))
    (turns : n < schedule.countP fun turn => turn.1 = i) :
    ∃ value, ∃ event ∈ pool.trace H schedule, event.1 = i ∧ event.2.op = last value := by
  obtain ⟨threads, shared⟩ := pool
  induction schedule generalizing threads shared p n with
  | nil => exact absurd turns (Nat.not_lt_zero n)
  | cons turn schedule ih =>
    obtain ⟨j, decision⟩ := turn
    unfold Pool.trace
    by_cases own : j = i
    · subst own
      rw [countP_cons_of_pos (by simp)] at turns
      have inRange : j < threads.length := (List.getElem?_eq_some_iff.mp isThread).1
      cases p with
      | pure value =>
        rw [Pool.step_of_call isThread]
        exact ⟨value, _, .head _, rfl, rfl⟩
      | call op next =>
        rw [Pool.step_of_call isThread]
        have enough : n - 1 < schedule.countP fun turn => turn.1 = j := by
          have := bounded.1
          omega
        obtain ⟨value, event, mem, found⟩ :=
          ih (bounded.2 _) enough (threads.set j _) _ (getElem?_set_self inRange)
        exact ⟨value, event, .tail _ mem, found⟩
    · rw [countP_cons_of_neg (by simpa using own)] at turns
      cases moves : Pool.step H ⟨threads, shared⟩ j decision with
      | none => exact ih bounded turns threads shared isThread
      | some moved =>
        obtain ⟨event, pool'⟩ := moved
        obtain ⟨op, next, -, rfl, rfl⟩ := Pool.step_eq_some moves
        obtain ⟨value, later, mem, found⟩ := ih bounded turns (threads.set j _) _
          ((getElem?_set_ne own).trans isThread)
        exact ⟨value, later, .tail _ mem, found⟩

end Events

/-! ### Rely and guarantee -/

section Rely

variable (H : Handler I S E) (rely : S → S → Prop) (ok assume : Event I S E → Prop)

/-- **One program among others.** At each operation the others have moved the state along `rely`. -/
def Prog.Guarded {α : Type} : Prog I α → (α → S → Prop) → S → Prop
  | .pure value, post, s => post value s
  | .call op next, post, s => ∀ s', rely s s' → ∀ decision,
      ok ⟨s', decision, op⟩ ∧ (assume ⟨s', decision, op⟩ →
        Prog.Guarded (next (H decision op s').1) post (H decision op s').2)

variable {H rely ok assume} {α β : Type} {p : Prog I α}

theorem Prog.guarded_bind {f : α → Prog I β} {post : β → S → Prop} {s : S} :
    (p >>= f).Guarded H rely ok assume post s ↔
      p.Guarded H rely ok assume (fun value s' => (f value).Guarded H rely ok assume post s')
      s := by
  induction p generalizing s with
  | pure value => rfl
  | call op next ih =>
    exact forall_congr' fun s' => forall_congr' fun _ => forall_congr' fun decision =>
      and_congr_right fun _ => forall_congr' fun _ => ih _

theorem Prog.Guarded.mono {post post' : α → S → Prop} {s : S}
    (holds : p.Guarded H rely ok assume post s)
    (weaker : ∀ value s', post value s' → post' value s') : p.Guarded H rely ok assume post' s := by
  induction p generalizing s with
  | pure value => exact weaker value s holds
  | call op next ih =>
    intro s' moved decision
    obtain ⟨good, goOn⟩ := holds s' moved decision
    exact ⟨good, fun assumed => ih _ (goOn assumed)⟩

theorem Prog.Guarded.stable [IsTrans S rely] {post : α → S → Prop} {s : S}
    (holds : p.Guarded H rely ok assume post s) (moved : rely s s')
    (postStable : ∀ value, post value s → post value s') : p.Guarded H rely ok assume post s' := by
  cases p with
  | pure value => exact postStable value holds
  | call op next =>
    intro s'' moved' decision
    exact holds s'' (IsTrans.trans _ _ _ moved moved') decision

/-! ### Runs of a pool -/

/-- Every program of the pool is guarded from the shared state on. -/
def Pool.Guarded (H : Handler I S E) (rely : S → S → Prop) (ok assume : Event I S E → Prop)
    (pool : Pool I S) : Prop :=
  ∀ thread ∈ pool.threads, thread.Guarded H rely ok assume (fun _ _ => True) pool.shared

variable [IsTrans S rely] [Std.Refl rely] {pool : Pool I S}
  (guarded : pool.Guarded H rely ok assume)
  (assumeRely : ∀ event, assume event → rely event.before (event.after H))
include guarded assumeRely

/-- One move of a guarded pool satisfies `ok`, and the pool stays guarded if it was `assume`d. -/
theorem Pool.Guarded.step
    (moves : pool.step H i decision = some (event, pool')) :
    ok event ∧ (assume event → pool'.Guarded H rely ok assume) := by
  obtain ⟨op, next, found, rfl, rfl⟩ := Pool.step_eq_some moves
  have mem : Prog.call op next ∈ pool.threads := mem_of_getElem? found
  obtain ⟨good, goOn⟩ := guarded _ mem pool.shared (Std.Refl.refl _) decision
  refine ⟨good, fun assumed thread inPool => ?_⟩
  rcases mem_or_eq_of_mem_set inPool with old | new
  · exact (guarded thread old).stable (assumeRely _ assumed) fun _ _ => trivial
  · exact new ▸ goOn assumed

/-- **Along every schedule an operation is `ok` as long as all earlier ones were `assume`d.** -/
theorem Pool.Guarded.trace
    (schedule : List (ℕ × E)) (split : pool.trace H schedule = earlier ++ event :: later)
    (assumed : ∀ past ∈ earlier, assume past.2) : ok event.2 := by
  induction schedule generalizing pool earlier with
  | nil => simp [Pool.trace] at split
  | cons turn schedule ih =>
    obtain ⟨i, decision⟩ := turn
    unfold Pool.trace at split
    cases moves : pool.step H i decision with
    | none => exact ih guarded (by simpa [moves] using split) assumed
    | some next =>
      obtain ⟨first, pool'⟩ := next
      obtain ⟨good, goOn⟩ := guarded.step assumeRely moves
      simp only [moves] at split
      cases earlier <;> grind

end Rely

/-! ### Laws and the steps that keep them -/

theorem forall_mem_of_split {α : Type} {P : α → Prop} {entries : List α}
    (step : ∀ earlier entry later, entries = earlier ++ entry :: later →
      (∀ past ∈ earlier, P past) → P entry) : ∀ entry ∈ entries, P entry := by
  induction entries using reverseRecOn with
  | nil => exact fun _ mem => absurd mem (not_mem_nil)
  | append_singleton entries last ih =>
    have before : ∀ entry ∈ entries, P entry := ih fun earlier entry later split =>
      step earlier entry (later ++ [last]) (by simp [split])
    intro entry mem
    rcases mem_append.mp mem with old | new
    · exact before entry old
    · grind

/-- **The run obeys the law exactly when each of its operations is fresh.** -/
theorem forall_trace_iff {H : Handler I S E} {rely : S → S → Prop} [IsTrans S rely]
    [Std.Refl rely] {law fresh : Event I S E → Prop} {pool : Pool I S}
    (guarded : pool.Guarded H rely (fun event => law event ↔ fresh event) law)
    (lawRely : ∀ event, law event → rely event.before (event.after H)) (schedule : List (ℕ × E)) :
    (∀ event ∈ pool.trace H schedule, law event.2) ↔ ∀ event ∈ pool.trace H schedule,
    fresh event.2 := by
  constructor
  · intro lawful event mem
    obtain ⟨earlier, later, split⟩ := append_of_mem mem
    refine (guarded.trace lawRely schedule split fun past inEarlier => ?_).mp (lawful _ mem)
    exact lawful past (split ▸ mem_append_left _ inEarlier)
  · intro allFresh
    refine forall_mem_of_split fun earlier event later split lawful => ?_
    refine (guarded.trace lawRely schedule split lawful).mpr (allFresh event ?_)
    exact split ▸ mem_append_right _ (.head _ ..)

end Interaction
