/-
**The executor and the log flusher on one step row.**

While a job runs, its log lines are flushed every two seconds and once more at its end; a flush
reads the row of the step run, updates the substeps in it and writes the whole row back. The
executor reads and writes the same row when it records the job and its outcome.

* `nothingLost_progressHistory` — **along every undisturbed run the row has the executor's last job
  id, state and times and the flusher's last substeps.**
-/

import Muli.Engine.Logs
import Muli.Interaction.CheckThenAct
import Muli.Server.CancelRace

namespace Muli

open Interaction Option Table

/-! ### The log flusher -/

/-- What a log line changes in the entry of its substep; `none` for a line of an unknown kind. -/
def JobSubstepRun.record (line : LogLine) (substep : JobSubstepRun) : Option JobSubstepRun :=
  if line.eventType = "substep_started" then
    some { substep with
      startedAt := substep.startedAt.or (some line.timestamp)
      -- `saturating_add` on a `u64`
      logStartSequence := substep.logStartSequence.or (some (min (line.sequence + 1) (2 ^ 64 - 1)))
      state := .running }
  else if line.eventType = "line" then
    some { substep with
      logStartSequence := substep.logStartSequence.or (some line.sequence)
      logEndSequence := some line.sequence }
  else if line.eventType = "substep_finished" then
    some { substep with
      finishedAt := some line.timestamp
      exitCode := line.exitCode
      logEndSequence := substep.logEndSequence.or (substep.logStartSequence.bind fun start =>
        if start < line.sequence then some (line.sequence - 1) else none)
      state := if line.exitCode.getD 1 = 0 then .succeeded else .failed }
  else none

/-- A log line applied to the substeps, and whether that changed them. A line of a substep that the
step does not know creates its entry. -/
def applyLine (substeps : List JobSubstepRun) (line : LogLine) : List JobSubstepRun × Bool :=
  match line.substepName with
  | none => (substeps, false)
  | some name =>
    let known := substeps.any fun entry => entry.name = name
    let seeded := if known then substeps else substeps ++ [JobSubstepRun.new name]
    let index := seeded.findIdx fun entry => entry.name = name
    match seeded[index]?.bind (JobSubstepRun.record line) with
    | some recorded => (seeded.set index recorded, true)
    | none => (seeded, !known)

def applyLines (lines : List LogLine) (substeps : List JobSubstepRun) : List JobSubstepRun × Bool :=
  lines.foldl (fun (substeps, changed) line =>
    ((applyLine substeps line).1, changed || (applyLine substeps line).2)) (substeps, false)

/-- Apply log lines to the substeps of a step run: read the row, write it back. -/
def updatePipelineSubsteps (stepRunId : String) (lines : List LogLine) : Prog Dag Unit := do
  match ← Prog.perform (I := Dag) (.getStep stepRunId) with
  | .ok (some step) =>
    if (applyLines lines step.substeps).2 then do
      let _ ← Prog.perform (I := Dag)
        (.updateStep { step with substeps := (applyLines lines step.substeps).1 })
    else pure ()
  | _ => pure ()

/-- The flushes one of task, in order: the ticks of the periodic task, or the drain at the end. A
task that is aborted gets no further turn. -/
structure LogFlusher where
  stepRunId : String
  flushes : List (List LogLine)

def LogFlusher.program (flusher : LogFlusher) : Prog Dag Unit :=
  flusher.flushes.forM fun lines =>
    if lines.isEmpty then pure () else updatePipelineSubsteps flusher.stepRunId lines

theorem applyLine_ne_nil (substeps : List JobSubstepRun) (line : LogLine)
    (either : substeps ≠ [] ∨ (applyLine substeps line).2 = true) :
    (applyLine substeps line).1 ≠ [] := by
  unfold applyLine at either ⊢
  cases isName : line.substepName with
  | none => simp_all
  | some name =>
    dsimp only
    have seeded : (if (substeps.any fun entry => entry.name = name) then substeps
        else substeps ++ [JobSubstepRun.new name]) ≠ [] := by
      split_ifs with known
      · rintro rfl
        cases known
      · simp
    split
    · exact fun empty => seeded (by simpa using empty)
    · exact seeded

theorem applyLines_ne_nil (lines : List LogLine) (substeps : List JobSubstepRun)
    (changed : (applyLines lines substeps).2 = true) : (applyLines lines substeps).1 ≠ [] := by
  let Sound (state : List JobSubstepRun × Bool) : Prop := state.2 = true → state.1 ≠ []
  have sound : ∀ (lines : List LogLine) state, Sound state →
      Sound (lines.foldl (fun (substeps, changed) line =>
        ((applyLine substeps line).1, changed || (applyLine substeps line).2)) state) := by
    intro lines
    induction lines with
    | nil => exact fun _ => id
    | cons line lines ih => grind [applyLine_ne_nil]
  exact sound lines (substeps, false) (fun none => by cases none) changed

/-! ### What each side writes -/

def stepRead : (op : DagOp) → op.Answer → Option StepRun
  | .getStep _, .ok row => row
  | _, _ => none

/-- A side that makes these calls, and whose writes are edits of the row it has read last. -/
def editing (edits : StepRun → StepRun → Prop) (calls : DagOp → Prop) :
    Protocol Dag (Option StepRun) :=
  remembering (fun _ _ => True) stepRead fun read op =>
    match op with
    | .updateStep step => calls op ∧ ∃ row, read = some row ∧ edits row step
    | op => calls op

variable {edits : StepRun → StepRun → Prop} {calls : DagOp → Prop}

theorem editing_calls {read : Option StepRun} (permitted : (editing edits calls).permits read op) :
    calls op := by
  cases op with
  | updateStep step => exact permitted.1
  | _ => exact permitted

/-- **An edit of the executor keeps the substeps**, unless there are none, and a job id, unless it
sets one. -/
structure ExecutorEdit (row step : StepRun) : Prop where
  id : step.id = row.id
  jobId : step.jobId = row.jobId ∨ step.jobId ≠ none
  substeps : step.substeps = row.substeps ∨ row.substeps = []

/-- **An edit of the flusher keeps everything but the substeps.** -/
structure FlusherEdit (row step : StepRun) : Prop where
  fields : step = { row with substeps := step.substeps }
  substeps : step.substeps ≠ []

theorem FlusherEdit.id (edit : FlusherEdit row step) : step.id = row.id := by
  have same := congrArg StepRun.id edit.fields
  exact same

def ExecutorCall : DagOp → Prop
  | .createStep _ => False
  | _ => True

def FlusherCall : DagOp → Prop
  | .getStep _ | .updateStep _ => True
  | _ => False

def executorEdits : Protocol Dag (Option StepRun) := editing ExecutorEdit ExecutorCall

def flusherEdits : Protocol Dag (Option StepRun) := editing FlusherEdit FlusherCall

section Obeying

open DagExecutor

theorem rewriteStep_within (id : String)
    (edits : ∀ row changedAt updatedAt, ExecutorEdit row (change row changedAt updatedAt))
    (otherwise : missing.run.Within executorEdits fun _ => True) :
    (rewriteStep id change missing).run.Within executorEdits fun _ => True := by
  intro phase _
  refine .call (P := executorEdits) trivial fun answer _ => ?_
  rcases answer with error | (_ | row)
  · trivial
  · exact otherwise _ trivial
  · refine .call (P := executorEdits) trivial fun changedAt _ => ?_
    refine .call (P := executorEdits) trivial fun updatedAt _ => ?_
    exact ⟨⟨trivial, row, rfl, edits row changedAt updatedAt⟩, fun _ _ => trivial⟩

theorem linkJob_within (sr : StepRun) (jobId : String) :
    (linkJob sr jobId).run.Within executorEdits fun _ => True := by
  intro phase _
  refine .call (P := executorEdits) trivial fun answer _ => ?_
  rcases answer with error | (_ | row)
  · trivial
  · trivial
  · refine .call (P := executorEdits) trivial fun updatedAt _ => ?_
    exact ⟨⟨trivial, row, rfl, rfl, .inr (some_ne_none jobId), .inl rfl⟩, fun _ _ => trivial⟩

theorem executorCall_within (permitted : ∀ phase, executorEdits.permits phase op) :
    (Prog.perform (I := Dag) op).Within executorEdits fun _ => True :=
  Prog.Within.perform (fun phase _ => permitted phase) fun _ _ _ _ => trivial

theorem executorEdits_editClosed :
    EditClosed fun _ p => p.run.Within executorEdits fun _ => True where
  pure value := .pure (Except.ok value)
  bind := .exceptBind
  getStep _ := executorCall_within fun _ => trivial
  updateStepState _ _ := executorCall_within fun _ => trivial
  updateRun _ := executorCall_within fun _ => trivial
  getJob _ := executorCall_within fun _ => trivial
  newUuid := .exceptLift (executorCall_within fun _ => trivial)
  utcNow := .exceptLift (executorCall_within fun _ => trivial)
  waitForJob jobId deadline polls attempt := by
    refine .exceptLift ((waitForJob_callsOnly jobId deadline polls attempt).within ?_)
    intro phase op waits
    cases op with
    | checkDeadline | pollJob => trivial
    | _ => exact waits.elim
  startStep sr substeps := by
    refine rewriteStep_within sr.id (fun row startedAt updatedAt => ⟨rfl, .inl rfl, ?_⟩)
      (executorCall_within fun _ => trivial)
    cases isSubsteps : row.substeps with
    | nil => exact .inr rfl
    | cons first others => exact .inl rfl
  linkJob := linkJob_within
  failSubmission sr e := by
    refine rewriteStep_within sr.id (fun row finishedAt updatedAt => ⟨rfl, .inl rfl, .inl rfl⟩)
      (executorCall_within fun _ => trivial)
  finishStep sr stepState errorMessage := by
    refine rewriteStep_within sr.id (fun row finishedAt updatedAt => ⟨rfl, .inl rfl, .inl rfl⟩)
      (.pure _)

theorem execute_within (executor : DagExecutor) (pipeline : PipelineDef) (run : PipelineRun)
    (stepRuns : List StepRun) :
    (executor.execute pipeline run stepRuns).run.Within executorEdits fun _ => True :=
  executorEdits_editClosed.execute fun _ _ _ _ _ _ _ _ _ =>
    Prog.Within.exceptLift (executorCall_within fun _ => trivial)

theorem updatePipelineSubsteps_within (stepRunId : String) (lines : List LogLine) :
    (updatePipelineSubsteps stepRunId lines).Within flusherEdits fun _ => True := by
  intro phase _
  refine .call (P := flusherEdits) trivial fun answer _ => ?_
  rcases answer with error | (_ | row)
  · trivial
  · trivial
  · dsimp only
    split_ifs with changed
    · exact ⟨⟨trivial, row, rfl, rfl, applyLines_ne_nil lines row.substeps changed⟩,
        fun _ _ => trivial⟩
    · trivial

theorem LogFlusher.program_within (flusher : LogFlusher) :
    flusher.program.Within flusherEdits fun _ => True := by
  unfold LogFlusher.program
  induction flusher.flushes with
  | nil => exact .pure ()
  | cons lines flushes ih =>
    refine .bind ?_ fun _ => ih
    dsimp only
    split_ifs
    · exact .pure ()
    · exact updatePipelineSubsteps_within flusher.stepRunId lines

end Obeying

/-! ### The run -/

/-- The calls of the executor (thread 0) and of the flushers, in the order they happen. -/
def progressHistory (executor : DagExecutor) (pipeline : PipelineDef) (run : PipelineRun)
    (stepRuns : List StepRun) (flushers : List LogFlusher) (world : PipelineWorld)
    (schedule : List (ℕ × DagMoment)) : History :=
  Pool.trace dagHandle
    ⟨asThread (executor.execute pipeline run stepRuns) :: flushers.map LogFlusher.program,
      world⟩ schedule

def WritesRow (id : String) (event : Event Dag PipelineWorld DagMoment) : Prop :=
  event.decision.storeFailure = none ∧ written id event.op ≠ none
deriving Decidable

/-- The row has not been written since the thread read it. -/
def UndisturbedWrite (earlier : History) (entry : ℕ × Event Dag PipelineWorld DagMoment) : Prop :=
  match entry.2.op with
  | .updateStep step => ∀ found ∈ lastRead dagHandle stepRead entry.1 earlier,
      ∀ other ∈ found.2.2, ¬ WritesRow step.id other.2
  | _ => True

instance (earlier : History) (entry : ℕ × Event Dag PipelineWorld DagMoment) :
    Decidable (UndisturbedWrite earlier entry) := by
  unfold UndisturbedWrite
  cases entry.2.op <;> infer_instance

/-- **No row is written between a thread's read of it and its write.** -/
def Undisturbed (history : History) : Prop := AtEach UndisturbedWrite history
deriving Decidable

/-! ### What was written last -/

def lastOf {β : Type} (select : ℕ × Event Dag PipelineWorld DagMoment → Option β)
    (history : History) : Option β :=
  history.reverse.findSome? select

theorem lastOf_append_singleton {β : Type}
    (select : ℕ × Event Dag PipelineWorld DagMoment → Option β)
    (history : History) (entry : ℕ × Event Dag PipelineWorld DagMoment) :
    lastOf select (history ++ [entry]) = (select entry).or (lastOf select history) := by
  unfold lastOf
  rw [List.reverse_append, List.reverse_singleton, List.singleton_append, List.findSome?_cons]
  cases select entry <;> rfl

/-- The row that a call of a thread with `side` writes as a whole. -/
def rowWritten (side : ℕ → Bool) (id : String) (entry : ℕ × Event Dag PipelineWorld DagMoment) :
    Option StepRun :=
  match entry.2.op, entry.2.decision.storeFailure with
  | .updateStep step, none => if side entry.1 ∧ step.id = id then some step else none
  | _, _ => none

def isExecutor (i : ℕ) : Bool := i == 0

def isFlusher (i : ℕ) : Bool := i != 0

def executorJobId (id : String) (entry : ℕ × Event Dag PipelineWorld DagMoment) : Option String :=
  (rowWritten isExecutor id entry).bind StepRun.jobId

def executorState (id : String) (entry : ℕ × Event Dag PipelineWorld DagMoment) :
    Option StepRunState :=
  if isExecutor entry.1 ∧ entry.2.decision.storeFailure = none then written id entry.2.op else none

def executorTimes (id : String) (entry : ℕ × Event Dag PipelineWorld DagMoment) :
    Option (Option Timestamp × Option Timestamp) :=
  (rowWritten isExecutor id entry).map fun step => (step.startedAt, step.finishedAt)

def flusherSubsteps (id : String) (entry : ℕ × Event Dag PipelineWorld DagMoment) :
    Option (List JobSubstepRun) :=
  (rowWritten isFlusher id entry).map StepRun.substeps

/-- **The record has the executor's last job id, state and times and the flusher's last substeps**;
`row` is the record before the history. -/
structure NothingLost (id : String) (row : StepRun) (history : History) (record : StepRun) :
    Prop where
  jobId : record.jobId = (lastOf (executorJobId id) history).or row.jobId
  state : record.state = (lastOf (executorState id) history).getD row.state
  times : (record.startedAt, record.finishedAt) =
    (lastOf (executorTimes id) history).getD (row.startedAt, row.finishedAt)
  substeps : ∀ substeps, lastOf (flusherSubsteps id) history = some substeps →
    record.substeps = substeps

/-! ### One call -/

section Calls

variable {id : String} {row record : StepRun} {history : History}
  {entry : ℕ × Event Dag PipelineWorld DagMoment}

theorem find_of_not_writesRow (off : ¬ WritesRow id event) :
    (event.after dagHandle).steps.find id = event.before.steps.find id := by
  obtain ⟨world, moment, op⟩ := event
  let Same (after : PipelineWorld) : Prop := after.steps.find id = world.steps.find id
  show Same (dagHandle moment op world).2
  have unwritten : moment.storeFailure = none → written id op = none := fun works =>
    not_not.mp fun wrote => off ⟨works, wrote⟩
  cases op with
  | updateStep step =>
    refine stored_elim Same rfl fun works => ?_
    have other : ¬ step.id = id := fun same => by simpa [written, same] using unwritten works
    exact (find_put ..).trans (if_neg (Ne.symm other))
  | updateStepState id' state =>
    refine stored_elim Same rfl fun works => ?_
    have other : ¬ id' = id := fun same => by simpa [written, same] using unwritten works
    unfold StepTable.updateStepState
    cases found : find world.steps id' with
    | none => rfl
    | some step =>
      obtain rfl : step.id = id' := find_key found
      exact (find_put ..).trans (if_neg (Ne.symm other))
  | createStep step =>
    rw [dagHandle_createStep]
    split_ifs with clash
    · exact stored_elim Same rfl fun _ => rfl
    · refine stored_elim Same rfl fun works => ?_
      have other : ¬ step.id = id := fun same => by simpa [written, same] using unwritten works
      show List.find? _ (world.steps.rows ++ [step]) = _
      rw [List.find?_append]
      cases found : world.steps.rows.find? fun row => row.id = id with
      | some row => exact found.symm
      | none =>
        rw [show world.steps.find id = none from found]
        simp [other]
  | getStep | listByRun | getRun | updateRun => exact stored_elim Same rfl fun _ => rfl
  | _ => rfl

theorem rowWritten_of_not_writesRow (side : ℕ → Bool) (off : ¬ WritesRow id entry.2) :
    rowWritten side id entry = none := by
  unfold rowWritten
  split
  · next step isWrite works =>
      refine if_neg fun same => off ⟨works, ?_⟩
      simp [isWrite, written, same.2]
  · rfl

/-- A call that writes what the record then has. -/
theorem NothingLost.append (kept : NothingLost id row history record)
    (jobId : record'.jobId = (executorJobId id entry).or record.jobId)
    (state : record'.state = (executorState id entry).getD record.state)
    (times : (record'.startedAt, record'.finishedAt) =
      (executorTimes id entry).getD (record.startedAt, record.finishedAt))
    (substeps : ∀ substeps, (flusherSubsteps id entry).or (lastOf (flusherSubsteps id) history) =
      some substeps → record'.substeps = substeps) :
    NothingLost id row (history ++ [entry]) record' := by
  constructor
  · rw [lastOf_append_singleton, Option.or_assoc, ← kept.jobId, jobId]
  · rw [lastOf_append_singleton, getD_or, ← kept.state, state]
  · rw [lastOf_append_singleton, getD_or, ← kept.times, times]
  · rwa [lastOf_append_singleton]

theorem NothingLost.quiet (kept : NothingLost id row history record)
    (off : ¬ WritesRow id entry.2) : NothingLost id row (history ++ [entry]) record := by
  have state : executorState id entry = none := by
    unfold executorState
    split_ifs with executes
    · exact not_not.mp fun wrote => off ⟨executes.2, wrote⟩
    · rfl
  apply kept.append
  · rw [executorJobId, rowWritten_of_not_writesRow isExecutor off]
    rfl
  · rw [state]
    rfl
  · rw [executorTimes, rowWritten_of_not_writesRow isExecutor off]
    rfl
  · rw [flusherSubsteps, rowWritten_of_not_writesRow isFlusher off]
    exact kept.substeps

variable {world : PipelineWorld} {moment : DagMoment} {step : StepRun}
    (works : moment.storeFailure = none)
include works

theorem rowWritten_updateStep :
    rowWritten side step.id (i, ⟨world, moment, .updateStep step⟩) = if side i then some step
    else none := by
  unfold rowWritten
  simp only [works, and_true]

/-- **An edit of the executor** of the stored row is its last write and keeps what was flushed last.
-/
theorem NothingLost.executes (kept : NothingLost step.id row history record)
    (edit : ExecutorEdit record step)
    (flushed : lastOf (flusherSubsteps step.id) history ≠ none → record.substeps ≠ []) :
    NothingLost step.id row (history ++ [(0, ⟨world, moment, .updateStep step⟩)]) step ∧
      (lastOf (flusherSubsteps step.id) (history ++ [(0, ⟨world, moment, .updateStep step⟩)]) ≠
        none → step.substeps ≠ []) := by
  have own : rowWritten isExecutor step.id (0, ⟨world, moment, .updateStep step⟩) = some step :=
    rowWritten_updateStep works
  have other : flusherSubsteps step.id (0, ⟨world, moment, .updateStep step⟩) = none := by
    rw [flusherSubsteps, rowWritten_updateStep works]
    rfl
  have state : executorState step.id (0, ⟨world, moment, .updateStep step⟩) = some step.state := by
    unfold executorState
    rw [if_pos ⟨rfl, works⟩]
    exact if_pos rfl
  have substeps : lastOf (flusherSubsteps step.id) history ≠ none →
      step.substeps = record.substeps :=
    fun isFlushed => edit.substeps.resolve_right (flushed isFlushed)
  rw [lastOf_append_singleton (flusherSubsteps step.id), other, none_or]
  refine ⟨kept.append ?_ ?_ ?_ ?_, fun isFlushed => substeps isFlushed ▸ flushed isFlushed⟩
  · rw [executorJobId, own, bind_some]
    cases isJob : step.jobId with
    | some jobId => rfl
    | none =>
      rw [none_or, ← isJob]
      exact edit.jobId.resolve_right fun given => given isJob
  · rw [state]
    rfl
  · rw [executorTimes, own]
    rfl
  · intro written isWritten
    rw [other, none_or] at isWritten
    rw [substeps (isWritten ▸ some_ne_none written)]
    exact kept.substeps written isWritten

/-- **A change of the state alone** is the executor's last state. -/
theorem NothingLost.setsState {state : StepRunState}
    (kept : NothingLost id row history record) :
    NothingLost id row (history ++ [(0, ⟨world, moment, .updateStepState id state⟩)])
      { record with state := state } := by
  have isState : executorState id (0, ⟨world, moment, .updateStepState id state⟩) = some state := by
    unfold executorState
    rw [if_pos ⟨rfl, works⟩]
    exact if_pos rfl
  refine kept.append rfl ?_ rfl kept.substeps
  rw [isState]
  rfl

/-- **An edit of a flusher** of the stored row keeps what the executor wrote last. -/
theorem NothingLost.flushes (kept : NothingLost step.id row history record)
    (edit : FlusherEdit record step) (other : i ≠ 0) :
    NothingLost step.id row (history ++ [(i, ⟨world, moment, .updateStep step⟩)]) step := by
  have notExecutor : isExecutor i = false := by simpa [isExecutor] using other
  have whole : rowWritten isExecutor step.id (i, ⟨world, moment, .updateStep step⟩) = none := by
    rw [rowWritten_updateStep works, notExecutor]
    rfl
  have own : rowWritten isFlusher step.id (i, ⟨world, moment, .updateStep step⟩) = some step := by
    rw [rowWritten_updateStep works, if_pos (by simpa [isFlusher] using other)]
  have state : executorState step.id (i, ⟨world, moment, .updateStep step⟩) = none := by
    unfold executorState
    rw [notExecutor]
    rfl
  apply kept.append
  · rw [executorJobId, whole]
    exact (congrArg StepRun.jobId edit.fields :)
  · rw [state]
    exact (congrArg StepRun.state edit.fields :)
  · rw [executorTimes, whole]
    exact congrArg (fun step => (step.startedAt, step.finishedAt)) edit.fields
  · intro written isWritten
    rw [flusherSubsteps, own] at isWritten
    exact some.inj isWritten

end Calls

/-! ### The stored row -/

/-- The row is stored, nothing written to it is lost, and what was flushed is there. -/
def RowIntact (id : String) (row : StepRun) (history : History) (world : PipelineWorld) : Prop :=
  ∃ record, world.steps.find id = some record ∧ NothingLost id row history record ∧
    (lastOf (flusherSubsteps id) history ≠ none → record.substeps ≠ [])

namespace RowIntact

variable {id : String} {row record step : StepRun} {history : History} {world : PipelineWorld}
  {moment : DagMoment}

theorem quiet (intact : RowIntact id row history entry.2.before) (off : ¬ WritesRow id entry.2) :
    RowIntact id row (history ++ [entry]) (entry.2.after dagHandle) := by
  obtain ⟨record, isRecord, kept, flushed⟩ := intact
  refine ⟨record, (find_of_not_writesRow off).trans isRecord, kept.quiet off, ?_⟩
  rw [lastOf_append_singleton, flusherSubsteps, rowWritten_of_not_writesRow isFlusher off,
    map_none, none_or]
  exact flushed

variable (works : moment.storeFailure = none)
include works

section

variable (isRecord : world.steps.find step.id = some record)
include isRecord

theorem find_updateStep :
    (Event.after dagHandle ⟨world, moment, .updateStep step⟩).steps.find step.id = some step := by
  show (stored moment world (.ok ()) _).2.steps.find step.id = some step
  unfold stored
  rw [works]
  exact find_put_self step isRecord

theorem executes (intact : RowIntact step.id row history world) (edit : ExecutorEdit record step) :
    RowIntact step.id row (history ++ [(0, ⟨world, moment, .updateStep step⟩)])
      (Event.after dagHandle ⟨world, moment, .updateStep step⟩) := by
  obtain ⟨record', isRecord', kept, flushed⟩ := intact
  obtain rfl : record' = record := some.inj (isRecord'.symm.trans isRecord)
  exact ⟨step, find_updateStep works isRecord, kept.executes works edit flushed⟩

theorem flushes (intact : RowIntact step.id row history world) (edit : FlusherEdit record step)
    (other : i ≠ 0) :
    RowIntact step.id row (history ++ [(i, ⟨world, moment, .updateStep step⟩)])
      (Event.after dagHandle ⟨world, moment, .updateStep step⟩) := by
  obtain ⟨record', isRecord', kept, -⟩ := intact
  obtain rfl : record' = record := some.inj (isRecord'.symm.trans isRecord)
  exact ⟨step, find_updateStep works isRecord, kept.flushes works edit other,
    fun _ => edit.substeps⟩

end

theorem setsState (intact : RowIntact id row history world) :
    RowIntact id row (history ++ [(0, ⟨world, moment, .updateStepState id state⟩)])
      (Event.after dagHandle ⟨world, moment, .updateStepState id state⟩) := by
  obtain ⟨record, isRecord, kept, flushed⟩ := intact
  refine ⟨{ record with state := state }, ?_, kept.setsState works, ?_⟩
  · show (stored moment world (.ok ()) _).2.steps.find id = _
    unfold stored StepTable.updateStepState
    rw [works, isRecord, ← find_key isRecord]
    exact find_put_self { record with state := state } (find_key isRecord ▸ isRecord)
  · rw [lastOf_append_singleton]
    exact flushed

end RowIntact

/-! ### Whole runs -/

section Runs

variable {id : String} {row : StepRun} {world : PipelineWorld} {history earlier later : History}
  {event : Event Dag PipelineWorld DagMoment}

theorem stored_of_stepRead (isRead : stepRead event.op (event.answer dagHandle) = some row) :
    (event.after dagHandle).steps.find row.id = some row := by
  obtain ⟨world, moment, op⟩ := event
  cases op with
  | getStep id =>
    change stepRead (.getStep id)
      (stored moment world (.ok (world.steps.find id)) world).1 = _ at isRead
    show (stored moment world (.ok (world.steps.find id)) world).2.steps.find row.id = some row
    rcases stored_cases moment world (.ok (world.steps.find id)) world with ⟨e, failed⟩ | found
    · rw [failed] at isRead
      cases isRead
    · rw [found] at isRead ⊢
      have isRow : world.steps.find id = some row := isRead
      rw [find_key isRow]
      exact isRow
  | _ => cases isRead

/-- **In an undisturbed run a thread that edits what it read edits what is stored.** -/
theorem stored_of_undisturbed (sameId : ∀ row step, edits row step → step.id = row.id)
    (chained : Chained dagHandle world (earlier ++ (i, event) :: later))
    (conforms : Conforms dagHandle (editing edits calls) i none (earlier ++ (i, event) :: later))
    (undisturbed : UndisturbedWrite earlier (i, event)) (isWrite : event.op = .updateStep step) :
    ∃ row, event.before.steps.find step.id = some row ∧ edits row step := by
  obtain ⟨phase, permitted, remembers⟩ :=
    conforms.permits_lastRead stepRead (fun phase => phase) fun _ _ _ => rfl
  rw [isWrite] at permitted
  obtain ⟨-, row, isRow, edit⟩ := permitted
  rw [isRow, or_none] at remembers
  obtain ⟨⟨row', check, since⟩, found, rfl⟩ := map_eq_some_iff.mp remembers.symm
  refine ⟨row', ?_, edit⟩
  refine chained.since_lastRead (P := fun world => world.steps.find step.id = some row') found ?_ ?_
  · rw [sameId _ _ edit]
    exact stored_of_stepRead (lastRead_split found).2
  · intro other mem stored
    unfold UndisturbedWrite at undisturbed
    simp only [isWrite] at undisturbed
    rw [find_of_not_writesRow (undisturbed _ found other mem)]
    exact stored

/-- A history of the executor and flushers in which no write is disturbed. -/
structure ProgressRun (world : PipelineWorld) (history : History) : Prop where
  chained : Chained dagHandle world history
  executor : Conforms dagHandle executorEdits 0 none history
  flusher : ∀ entry ∈ history, entry.1 ≠ 0 → Conforms dagHandle flusherEdits entry.1 none history
  undisturbed : Undisturbed history

/-- **Every call keeps the row intact.** -/
theorem rowIntact_step (progress : ProgressRun world history)
    (split : history = earlier ++ entry :: later)
    (intact : RowIntact id row earlier entry.2.before) :
    RowIntact id row (earlier ++ [entry]) (entry.2.after dagHandle) := by
  by_cases writes : WritesRow id entry.2
  case neg => exact intact.quiet writes
  case pos =>
    have mem : entry ∈ history := split ▸ List.mem_append_right _ List.mem_cons_self
    have undisturbed := progress.undisturbed.of_split split
    have executorCall := progress.executor.forall_mem fun _ _ => editing_calls
    have flusherCall : entry.1 ≠ 0 → FlusherCall entry.2.op := fun other =>
      (progress.flusher entry mem other).forall_mem (fun _ _ => editing_calls) entry mem rfl
    obtain ⟨chained, executor, flusher, -⟩ := progress
    rw [split] at chained executor
    obtain ⟨i, world', moment, op⟩ := entry
    obtain ⟨works, wrote⟩ := writes
    cases op with
    | updateStep step =>
      obtain rfl : step.id = id := by
        by_contra other
        exact wrote (if_neg other)
      by_cases isExecutor : i = 0
      · subst isExecutor
        obtain ⟨record, isRecord, edit⟩ :=
          stored_of_undisturbed (fun _ _ edit => edit.id) chained executor undisturbed rfl
        exact intact.executes works isRecord edit
      · have conforms := split ▸ flusher _ mem isExecutor
        obtain ⟨record, isRecord, edit⟩ :=
          stored_of_undisturbed (fun _ _ edit => edit.id) chained conforms undisturbed rfl
        exact intact.flushes works isRecord edit isExecutor
    | updateStepState id' state =>
      obtain rfl : id' = id := by
        by_contra other
        exact wrote (if_neg other)
      obtain rfl : i = 0 := by
        by_contra other
        exact flusherCall other
      exact intact.setsState works
    | createStep step =>
      by_cases isExecutor : i = 0
      · exact (executorCall _ mem isExecutor).elim
      · exact (flusherCall isExecutor).elim
    | _ => exact absurd rfl wrote

theorem progressRun_progressHistory
    (undisturbed : Undisturbed
      (progressHistory executor pipeline run stepRuns flushers world schedule)) :
    ProgressRun world (progressHistory executor pipeline run stepRuns flushers world schedule) := by
  have chained := Pool.trace_chained (H := dagHandle)
    ⟨asThread (executor.execute pipeline run stepRuns) :: flushers.map LogFlusher.program,
      world⟩ schedule
  refine ⟨chained, ?_, ?_, undisturbed⟩
  · refine Pool.trace_conforms (fun _ _ _ => trivial) rfl ?_ schedule
    exact Adheres.asThread (.ofWithin (execute_within executor pipeline run stepRuns) trivial)
  · intro entry mem other
    have inRange := Pool.exists_thread mem
    obtain ⟨i, isIndex⟩ := Nat.exists_eq_succ_of_ne_zero other
    rw [isIndex] at inRange ⊢
    have inFlushers : i < flushers.length := by simpa using inRange
    refine Pool.trace_conforms (fun _ _ _ => trivial) (p := (flushers[i]).program) ?_ ?_ schedule
    · simp [inFlushers]
    · exact (flushers[i]).program_within.obeys trivial

end Runs

/-- **For every run of the executor with flushers in which no row is written between a thread's read
of it and its write, every row has the executor's last job id, state and times and the flusher's
last substeps.** -/
theorem nothingLost_progressHistory (executor : DagExecutor) (pipeline : PipelineDef)
    (run : PipelineRun)
    (stepRuns : List StepRun) (flushers : List LogFlusher) (world : PipelineWorld)
    (schedule : List (ℕ × DagMoment)) (id : String) (row : StepRun)
    (isRow : world.steps.find id = some row)
    (undisturbed : Undisturbed
      (progressHistory executor pipeline run stepRuns flushers world schedule)) :
    ∃ record,
    (endState dagHandle world (progressHistory executor pipeline run stepRuns flushers world
        schedule)).steps.find id = some record ∧
      NothingLost id row (progressHistory executor pipeline run stepRuns flushers world schedule)
      record := by
  have progress := progressRun_progressHistory undisturbed
  have start : RowIntact id row [] world :=
    ⟨row, isRow, ⟨rfl, rfl, rfl, fun _ none => by cases none⟩, fun some => absurd rfl some⟩
  obtain ⟨record, isRecord, kept, -⟩ := progress.chained.concludes start
    fun _ _ _ split intact => rowIntact_step progress split intact
  exact ⟨record, isRecord, kept⟩

def compileStarted : LogLine where
  timestamp := 5
  stream := .stdout
  message := "compile"
  substepName := "compile"
  eventType := "substep_started"
  sequence := 0

def buildProgress (schedule : List (ℕ × DagMoment)) : History :=
  let execution := Execution.deployRun (Execution.failing [])
  progressHistory execution.executor execution.pipeline execution.run execution.stepRuns
    [⟨"build", [[compileStarted]]⟩] execution.world schedule

def buildEnd (schedule : List (ℕ × DagMoment)) : PipelineWorld :=
  endState dagHandle (Execution.deployRun (Execution.failing [])).world (buildProgress schedule)

def submitBuild : List (ℕ × DagMoment) :=
  Execution.turns 0 11 ++ [(0, { submitted := .ok "job" })]

/-- The flush reads the row before the executor records the job and writes it after that. -/
def flushAround : List (ℕ × DagMoment) :=
  submitBuild ++ Execution.turns 1 1 ++ Execution.turns 0 3 ++ Execution.turns 1 1 ++
    Execution.turns 0 40

def flushAfterwards : List (ℕ × DagMoment) :=
  submitBuild ++ Execution.turns 0 3 ++ Execution.turns 1 2 ++ Execution.turns 0 40

/-- When the flush does not come in between, the row has the job id and the marker. -/
theorem nothingLost_flushAfterwards :
      ∃ record, (buildEnd flushAfterwards).steps.find "build" = some record ∧
      NothingLost "build" (Execution.stepRunOf Execution.buildStep)
      (buildProgress flushAfterwards) record :=
  nothingLost_progressHistory _ _ _ _ _ _ _ "build" (Execution.stepRunOf Execution.buildStep)
    (by decide +kernel) (by decide +kernel)

/-- **A flush takes the job id away:** the executor recorded a job, and in the end, with the
pipeline done, the row has none. -/
theorem jobId_lost : lastOf (executorJobId "build") (buildProgress flushAround) = some "job" ∧
      ((buildEnd flushAround).steps.find "build").map StepRun.jobId = some none ∧
      ¬ ∃ record, (buildEnd flushAround).steps.find "build" = some record ∧
        NothingLost "build" (Execution.stepRunOf Execution.buildStep)
        (buildProgress flushAround) record := by
  have recorded : lastOf (executorJobId "build") (buildProgress flushAround) = some "job" := by
    decide +kernel
  have missing : ((buildEnd flushAround).steps.find "build").map StepRun.jobId = some none := by
    decide +kernel
  refine ⟨recorded, missing, ?_⟩
  rintro ⟨record, isRecord, kept⟩
  rw [isRecord] at missing
  have isJob := kept.jobId
  rw [recorded, some.inj missing] at isJob
  cases isJob

end Muli
