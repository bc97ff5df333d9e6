/-
**The race between the executor and a cancel request.**

The executor is one thread, each request another; they interleave call by call.

* `cancellationLaw_of_timely` — **every interleaving of timely requests keeps the law.**
-/

import Muli.Pipeline.Dependencies
import Muli.Server.CancelPipeline

namespace Muli

open Interaction List

/-! ### The row of a step run -/

/-- **The invariant for one step row**, with what is still to come: if the row is cancelled and the
executor is at work on it, the executor makes no further call on it. -/
structure RowSafe (runId id : String) (world : PipelineWorld) (phase : RowPhase)
    (history : History) : Prop where
  chained : Chained dagHandle world history
  conforms : Conforms dagHandle (executorProtocol runId id) 0 phase history
  cancels : ∀ event ∈ history, event.1 ≠ 0 → CancelCall event.2.op
  notStale : phase ≠ .stale
  quiet : world.steps.stateOf id = some .cancelled → phase = .active →
    ∀ event ∈ history, ¬ ExecutorOnRow id event
  timely : ∀ earlier cancel later, history = earlier ++ cancel :: later → CancelsRow id cancel →
    (phase = .untouched ∧ ∀ past ∈ earlier, ¬ ExecutorOnRow id past) ∨
      ∀ next ∈ later, ¬ ExecutorOnRow id next

namespace RowSafe

variable {runId id : String} {world : PipelineWorld} {phase : RowPhase} {later : History}
  {event : ℕ × Event Dag PipelineWorld DagMoment}

section

variable (safe : RowSafe runId id world phase (event :: later))
include safe

theorem timely_tail
    (same : ¬ ExecutorOnRow id event → phase' = phase) :
    ∀ earlier cancel rest, later = earlier ++ cancel :: rest → CancelsRow id cancel →
      (phase' = .untouched ∧ ∀ past ∈ earlier, ¬ ExecutorOnRow id past) ∨
        ∀ next ∈ rest, ¬ ExecutorOnRow id next := by
  intro earlier cancel rest split isCancel
  refine (safe.timely (event :: earlier) cancel rest (congrArg (event :: ·) split)
    isCancel).imp_left ?_
  rintro ⟨untouched, none⟩
  refine ⟨(same (none event mem_cons_self)).trans untouched, fun past mem => ?_⟩
  exact none past (.tail _ mem)

theorem request_step (thread : event.1 ≠ 0) :
    KeepsRow id event.2 ∧ RowSafe runId id (event.2.after dagHandle) phase later := by
  obtain ⟨rfl, rest⟩ := safe.chained
  have conforms := (conforms_cons_of_ne thread).mp safe.conforms
  have isCancel : CancelCall event.2.op := safe.cancels event mem_cons_self thread
  have effect := stateOf_dagHandle event.2.decision event.2.op event.2.before id
  refine ⟨fun cancelled => ⟨?_, ?_⟩, ⟨rest, conforms, ?_, safe.notStale, ?_, ?_⟩⟩
  · rcases effect with same | ⟨-, state, isWritten, after⟩
    · exact same.trans cancelled
    · exact after.trans (congrArg some (isCancel.written isWritten).2)
  · exact isCancel.not_submits
  · exact fun event' mem => safe.cancels event' (.tail _ mem)
  · intro cancelled active
    rcases effect with same | ⟨performed, state, isWritten, -⟩
    · exact fun event' mem =>
        safe.quiet (same.symm.trans cancelled) active event' (.tail _ mem)
    · rcases safe.timely [] event later rfl ⟨thread, performed, (isCancel.written isWritten).1⟩ with
        ⟨untouched, -⟩ | none
      · grind
      · exact none
  · exact safe.timely_tail fun _ => rfl

theorem executor_step_off
    (thread : event.1 = 0) (off : ¬ OnRow id event.2.op) :
    KeepsRow id event.2 ∧ RowSafe runId id (event.2.after dagHandle) phase later := by
  obtain ⟨rfl, rest⟩ := safe.chained
  obtain ⟨-, conforms⟩ := (conforms_cons_self thread).mp safe.conforms
  have same : (event.2.after dagHandle).steps.stateOf id = event.2.before.steps.stateOf id := by
    rcases stateOf_dagHandle event.2.decision event.2.op event.2.before id with
      same | ⟨-, state, isWritten, -⟩
    · exact same
    · rw [written_eq_none _ off] at isWritten
      cases isWritten
  have samePhase : (executorProtocol runId id).next phase event.2.op (event.2.answer dagHandle) =
      phase := rowNext_of_not_onRow event.2.op off phase _
  rw [samePhase] at conforms
  refine ⟨fun cancelled => ⟨same.trans cancelled, fun submits => off submits.onRow⟩,
    ⟨rest, conforms, ?_, safe.notStale, ?_, ?_⟩⟩
  · exact fun event' mem => safe.cancels event' (.tail _ mem)
  · exact fun cancelled active event' mem =>
      safe.quiet (same.symm.trans cancelled) active event' (.tail _ mem)
  · exact safe.timely_tail fun _ => rfl

end

theorem rowNext_of_cancelled (cancelled : world.steps.stateOf id = some .cancelled) :
    rowNext id .untouched (.getStep id) (dagHandle moment (.getStep id) world).1 = .closed := by
  show (if id = id then RowPhase.read .untouched (stored moment world (.ok _) world).1 else _) = _
  rw [if_pos rfl]
  rcases stored_cases moment world (.ok (world.steps.find id)) world with ⟨e, failed⟩ | answered
  · rw [failed]
    rfl
  · rw [answered]
    exact if_pos cancelled

theorem stateOf_getStep (moment : DagMoment) (world : PipelineWorld) (id id' : String) :
    (dagHandle moment (.getStep id') world).2.steps.stateOf id = world.steps.stateOf id := by
  rcases stateOf_dagHandle moment (.getStep id') world id with same | ⟨-, _, ⟨⟩, -⟩
  exact same

theorem read_ne_stale (live : world.steps.stateOf id ≠ some .cancelled)
    (notStale : phase ≠ .stale) :
    phase.read (stored moment world (.ok (world.steps.find id)) world).1 ≠ .stale := by
  rcases stored_cases moment world (.ok (world.steps.find id)) world with ⟨e, failed⟩ | answered
  · rw [failed]
    cases phase with
    | stale => exact absurd rfl notStale
    | _ => exact nofun
  · rw [answered]
    cases phase with
    | stale => exact absurd rfl notStale
    | closed => exact nofun
    | _ => exact ne_of_eq_of_ne (if_neg live) (by decide)

theorem rowNext_of_live (moment : DagMoment) (op : DagOp)
    (live : world.steps.stateOf id ≠ some .cancelled)
    (firstReads : phase = .untouched → op = .getStep id) (notStale : phase ≠ .stale) :
    rowNext id phase op (dagHandle moment op world).1 ≠ .stale ∧
      ((dagHandle moment op world).2.steps.stateOf id = some .cancelled →
        rowNext id phase op (dagHandle moment op world).1 ≠ .active) := by
  by_cases isRead : ∃ id', op = .getStep id'
  · obtain ⟨id', rfl⟩ := isRead
    rw [stateOf_getStep]
    refine ⟨?_, fun cancelled => absurd cancelled live⟩
    show (if id' = id then phase.read _ else phase) ≠ .stale
    split_ifs with same
    · subst same
      exact read_ne_stale live notStale
    · exact notStale
  · have atWork : phase ≠ .untouched := fun untouched => isRead ⟨id, firstReads untouched⟩
    have isWrite : rowNext id phase op (dagHandle moment op world).1 =
        phase.write (written id op) := by
      cases op with
      | getStep id' => exact absurd ⟨id', rfl⟩ isRead
      | _ => rfl
    rw [isWrite]
    refine ⟨RowPhase.write_ne_stale notStale, fun cancelled => ?_⟩
    rcases stateOf_dagHandle moment op world id with same | ⟨-, state, isWritten, after⟩
    · exact absurd (same.symm.trans cancelled) live
    · rw [isWritten, Option.some.inj (after.symm.trans cancelled)]
      cases phase with
      | untouched => exact absurd rfl atWork
      | _ => exact nofun

/-- **A call of the executor on the row** finds it live, or is the first read, which shows it
cancelled and closes it. -/
theorem executor_step_on (safe : RowSafe runId id world phase (event :: later))
    (thread : event.1 = 0) (onRow : OnRow id event.2.op) :
    KeepsRow id event.2 ∧ RowSafe runId id (event.2.after dagHandle)
      (rowNext id phase event.2.op (event.2.answer dagHandle)) later := by
  obtain ⟨rfl, rest⟩ := safe.chained
  obtain ⟨⟨-, permitted⟩, conforms⟩ := (conforms_cons_self thread).mp safe.conforms
  obtain ⟨firstReads, notClosed⟩ := permitted onRow
  have here : ExecutorOnRow id event := ⟨thread, onRow⟩
  have cancels : ∀ event' ∈ later, event'.1 ≠ 0 → CancelCall event'.2.op :=
    fun event' mem => safe.cancels event' (.tail _ mem)
  have timely := safe.timely_tail fun off => (absurd here off :
    rowNext id phase event.2.op (event.2.answer dagHandle) = phase)
  by_cases cancelled : event.2.before.steps.stateOf id = some .cancelled
  · -- no phase but the first lets the executor meet a cancelled row
    have untouched : phase = .untouched := by
      cases phase with
      | untouched => rfl
      | active => exact absurd here (safe.quiet cancelled rfl event mem_cons_self)
      | stale => exact absurd rfl safe.notStale
      | closed => exact absurd rfl notClosed
    subst untouched
    obtain ⟨thread, before, decision, op⟩ := event
    obtain rfl : op = .getStep id := firstReads rfl
    have closes : rowNext id .untouched (.getStep id) (dagHandle decision (.getStep id) before).1 =
        .closed := rowNext_of_cancelled cancelled
    have same := stateOf_getStep decision before id id
    refine ⟨fun _ => ⟨same.trans cancelled, not_false⟩, ⟨rest, conforms, cancels, ?_, ?_, timely⟩⟩
    · exact ne_of_eq_of_ne closes (by decide)
    · exact fun _ active => absurd (closes.symm.trans active) (by decide)
  · obtain ⟨notStale, closes⟩ := rowNext_of_live event.2.decision event.2.op
      cancelled firstReads safe.notStale
    refine ⟨fun isCancelled => absurd isCancelled cancelled,
      ⟨rest, conforms, cancels, notStale, ?_, timely⟩⟩
    exact fun isCancelled active => absurd active (closes isCancelled)

theorem step (safe : RowSafe runId id world phase (event :: later)) :
    KeepsRow id event.2 ∧ ∃ phase', RowSafe runId id (event.2.after dagHandle) phase' later := by
  by_cases thread : event.1 = 0
  · by_cases onRow : OnRow id event.2.op
    · obtain ⟨keeps, safe'⟩ := safe.executor_step_on thread onRow
      exact ⟨keeps, _, safe'⟩
    · obtain ⟨keeps, safe'⟩ := safe.executor_step_off thread onRow
      exact ⟨keeps, _, safe'⟩
  · obtain ⟨keeps, safe'⟩ := safe.request_step thread
    exact ⟨keeps, _, safe'⟩

/-- **Along a history that is safe for a row, every call keeps the row.** -/
theorem run (safe : RowSafe runId id world phase history) :
    ∀ event ∈ history, KeepsRow id event.2 := by
  induction history generalizing world phase with
  | nil => exact fun _ mem => absurd mem not_mem_nil
  | cons event later ih =>
    obtain ⟨keeps, phase', safe'⟩ := safe.step
    exact forall_mem_cons.mpr ⟨keeps, ih safe'⟩

end RowSafe

/-! ### Every interleaving -/

namespace Execution

variable (execution : Execution) (requests : List CancelPipelineRequest)
  (schedule : List (ℕ × DagMoment))

def cancelHistory : History :=
  Pool.trace dagHandle
    ⟨asThread (execution.executor.execute execution.pipeline execution.run execution.stepRuns) ::
      requests.map fun request => asThread (cancelPipelineImpl request), execution.world⟩ schedule

variable {execution requests schedule}

theorem chained_cancelHistory :
    Chained dagHandle execution.world (execution.cancelHistory requests schedule) :=
  Pool.trace_chained ⟨_, execution.world⟩ schedule

theorem conforms_cancelHistory (id : String) :
    Conforms dagHandle (executorProtocol execution.run.id id) 0 (execution.rowStart id)
      (execution.cancelHistory requests schedule) :=
  Pool.trace_conforms (dagHandle_meets _ _) rfl (execution.execute_adheres id).asThread schedule

theorem cancelCall_cancelHistory : ∀ event ∈ execution.cancelHistory requests schedule,
    event.1 ≠ 0 → CancelCall event.2.op := by
  intro event mem notExecutor
  have inRange := Pool.exists_thread mem
  obtain ⟨i, isThread⟩ := Nat.exists_eq_succ_of_ne_zero notExecutor
  rw [isThread, length_cons, Nat.succ_lt_succ_iff, length_map] at inRange
  have conforms : Conforms dagHandle cancelProtocol (i + 1) ()
      (execution.cancelHistory requests schedule) := by
    refine Pool.trace_conforms (fun _ _ _ => trivial)
      (p := asThread (cancelPipelineImpl requests[i]))
      ?_ (cancelPipelineImpl_keeps requests[i] ()).asThread schedule
    simp [inRange]
  exact conforms.forall_mem (fun _ _ => id) event mem isThread

theorem rowSafe_cancelHistory
    (timely : StepsTimely execution (execution.cancelHistory requests schedule)) (id : String) :
    RowSafe execution.run.id id execution.world (execution.rowStart id)
      (execution.cancelHistory requests schedule) where
  chained := chained_cancelHistory
  conforms := conforms_cancelHistory id
  cancels := cancelCall_cancelHistory
  notStale := by
    rcases execution.rowStart_fresh id with isStart | isStart
    · exact ne_of_eq_of_ne isStart (by decide)
    · exact ne_of_eq_of_ne isStart (by decide)
  quiet := by
    -- a step run that will be skipped is still pending
    intro cancelled active
    obtain ⟨sr, mem, rfl, -⟩ := exists_of_rowStart active
    unfold StepTable.stateOf at cancelled
    rw [execution.stored sr mem, Option.map_some, execution.pending sr mem] at cancelled
    cases cancelled
  timely := fun earlier cancel later split isCancel =>
    (timely earlier cancel later id split isCancel).imp_left fun early =>
      ⟨rowStart_of_live early.1, early.2⟩

/-- **What is cancelled stays cancelled in every interleaving in which each request cancels a row
before the executor takes it up or after the executor is done with it.** -/
theorem cancellationLaw_of_timely (execution : Execution) (requests : List CancelPipelineRequest)
    (schedule : List (ℕ × DagMoment))
    (live : execution.world.runs.stateOf execution.run.id ≠ some .cancelled)
    (runTimely : RunTimely execution.run.id (execution.cancelHistory requests schedule))
    (stepsTimely : StepsTimely execution (execution.cancelHistory requests schedule)) :
    CancellationLaw execution.run.id (execution.cancelHistory requests schedule) := by
  have executorCalls : ∀ event ∈ execution.cancelHistory requests schedule, event.1 = 0 →
      RunCall execution.run.id event.2.op :=
    (conforms_cancelHistory "").forall_mem fun _ _ permitted => permitted.1
  have known : execution.world.runs.stateOf execution.run.id ≠ none := by
    unfold RunTable.stateOf
    simpa using execution.runStored
  refine ⟨?_, stepsStayCancelled_of_forall chained_cancelHistory fun id => ?_⟩
  · exact (runStaysCancelled_iff chained_cancelHistory executorCalls cancelCall_cancelHistory known
      live).mpr runTimely
  · exact (rowSafe_cancelHistory stepsTimely id).run

theorem timely_of_executor_first
    (first : history.Pairwise fun earlier later => earlier.1 ≠ 0 → later.1 ≠ 0) (runId : String) :
    RunTimely runId history ∧ StepsTimely execution history := by
  have after : ∀ earlier cancel later, history = earlier ++ cancel :: later → cancel.1 ≠ 0 →
      ∀ next ∈ later, next.1 ≠ 0 := by
    rintro earlier cancel later rfl isRequest next mem
    obtain ⟨-, rest, -⟩ := pairwise_append.mp first
    exact (pairwise_cons.mp rest).1 next mem isRequest
  constructor
  · intro earlier cancel later split isCancel next mem isWrite
    exact after earlier cancel later split isCancel.1 next mem isWrite.1
  · intro earlier cancel later id split isCancel
    refine .inr fun next mem onRow => ?_
    exact after earlier cancel later split isCancel.1 next mem onRow.1

def cancelRequest : CancelPipelineRequest := ⟨some "tenant", "tenant", "run", ""⟩

def turns (thread n : ℕ) : List (ℕ × DagMoment) := replicate n ⟨thread, {}⟩

/-- The executor runs the build to its end and stops where it cannot store that the deployment has
started; then the request comes. -/
def cancelAfterwards : List (ℕ × DagMoment) :=
  replicate 27 (0, { job := .ok (some (jobIn .succeeded)) }) ++
    [(0, { storeFailure := some "disk I/O error" })] ++ turns 1 7

/-- The build that has ended stays as it is; the deployment and the run are cancelled for good. -/
theorem cancellationLaw_cancelAfterwards :
    CancellationLaw "run"
    ((deployRun (failing [])).cancelHistory [cancelRequest] cancelAfterwards) ∧
      ∃ event ∈ (deployRun (failing [])).cancelHistory [cancelRequest] cancelAfterwards,
        (event.2.after dagHandle).runs.stateOf "run" = some .cancelled ∧
          (event.2.after dagHandle).steps.stateOf "build" = some .succeeded ∧
          (event.2.after dagHandle).steps.stateOf "deploy" = some .cancelled := by
  have first : ((deployRun (failing [])).cancelHistory [cancelRequest] cancelAfterwards).Pairwise
      fun earlier later => earlier.1 ≠ 0 → later.1 ≠ 0 := by decide
  obtain ⟨runTimely, stepsTimely⟩ := timely_of_executor_first first "run"
  refine ⟨?_, by decide⟩
  exact cancellationLaw_of_timely (deployRun (failing [])) [cancelRequest] cancelAfterwards
    (by decide) runTimely stepsTimely

/-- The request comes when the executor has read the row of the build for the first time. -/
def cancelMidway : List (ℕ × DagMoment) :=
  turns 0 5 ++ turns 1 7 ++ turns 0 30

/-- **The cancelled run ends up Degraded, and its cancelled build is started.** -/
theorem not_cancellationLaw_cancelMidway : ¬ RunStaysCancelled "run"
        ((deployRun (failing [])).cancelHistory [cancelRequest] cancelMidway) ∧ ¬ StepsStayCancelled
        ((deployRun (failing [])).cancelHistory [cancelRequest] cancelMidway) := by
  constructor
  · intro stays
    have revived : ∃ event ∈ (deployRun (failing [])).cancelHistory [cancelRequest] cancelMidway,
        event.2.before.runs.stateOf "run" = some .cancelled ∧
          (event.2.after dagHandle).runs.stateOf "run" = some .degraded := by decide
    obtain ⟨event, member, before, after⟩ := revived
    obtain ⟨earlier, later, split⟩ := append_of_mem member
    have kept := stays earlier event later split before event mem_cons_self
    rw [kept] at after
    cases after
  · intro stay
    have revived : ∃ event ∈ (deployRun (failing [])).cancelHistory [cancelRequest] cancelMidway,
        event.2.before.steps.stateOf "build" = some .cancelled ∧
          (event.2.after dagHandle).steps.stateOf "build" = some .running := by decide
    obtain ⟨event, member, before, after⟩ := revived
    obtain ⟨earlier, later, split⟩ := append_of_mem member
    have kept := (stay earlier event later split "build" before event mem_cons_self).1
    rw [kept] at after
    cases after

end Execution

end Muli
