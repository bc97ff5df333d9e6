/-
**Pipeline runs and step runs, and the calls that store them.**

A run has one row, each of its step runs has one row; the executor and the cancel request read and
write whole rows, without a guard on the state they replace.
-/

import Muli.Core.Job
import Muli.Interaction.Concurrent

namespace Muli

open Interaction Option Table

/-! ### The records -/

inductive PipelineRunState where
  | pending
  | running
  | succeeded
  | failed
  | cancelled
  | degraded
deriving DecidableEq, Repr

def PipelineRunState.isTerminal : PipelineRunState → Bool
  | succeeded | failed | cancelled | degraded => true
  | _ => false

def PipelineRunState.asStr : PipelineRunState → String
  | pending => "Pending"
  | running => "Running"
  | succeeded => "Succeeded"
  | failed => "Failed"
  | cancelled => "Cancelled"
  | degraded => "Degraded"

inductive StepRunState where
  | pending
  | ready
  | running
  | succeeded
  | failed
  | skipped
  | cancelled
deriving DecidableEq, Repr

def StepRunState.isTerminal : StepRunState → Bool
  | succeeded | failed | skipped | cancelled => true
  | _ => false

/-- What a failure does to the rest of the run. -/
inductive FailureStrategy where
  | stop
  | continued
  | ignore
deriving DecidableEq, Repr

/-- What has started a run. -/
inductive PipelineTrigger where
  | push (refName : String) (changedPaths : List String)
  | pullRequest (prNumber : ℕ) (event : String) (changedPaths : List String)
  | manual (triggeredBy : String)
  | schedule (cron : String)
  | retry (originalRunId : String)
deriving DecidableEq, Repr

/-- A row of `pipeline_runs`. -/
structure PipelineRun where
  id : String
  tenantId : String
  repoId : String
  refName : String
  trigger : PipelineTrigger
  state : PipelineRunState
  startedAt : Option Timestamp
  finishedAt : Option Timestamp
  updatedAt : Timestamp
  pipelineId : String := ""
  /-- The number of the run among those of its pipeline. -/
  runNumber : ℕ := 0
  commitSha : String := ""
  yamlContent : String := ""
  envVars : EnvMap := ∅
  createdAt : Timestamp := 0
deriving DecidableEq, Repr

/-- A new run is pending. -/
def PipelineRun.new (id : String) (now : Timestamp) (pipelineId tenantId repoId : String)
    (runNumber : ℕ) (commitSha refName : String) (trigger : PipelineTrigger)
    (yamlContent : String) : PipelineRun where
  id := id
  tenantId := tenantId
  repoId := repoId
  refName := refName
  trigger := trigger
  state := .pending
  startedAt := none
  finishedAt := none
  updatedAt := now
  pipelineId := pipelineId
  runNumber := runNumber
  commitSha := commitSha
  yamlContent := yamlContent
  createdAt := now

/-- A substep of a step run, as it is shown. -/
structure JobSubstepRun where
  name : String
  state : StepRunState
  startedAt : Option Timestamp
  finishedAt : Option Timestamp
  exitCode : Option ℤ
  logStartSequence : Option ℕ
  logEndSequence : Option ℕ
deriving DecidableEq, Repr

def JobSubstepRun.new (name : String) : JobSubstepRun :=
  ⟨name, .pending, none, none, none, none, none⟩

/-- A row of `step_runs`. -/
structure StepRun where
  id : String
  runId : String
  stepName : String
  jobId : Option String
  state : StepRunState
  dependsOn : List String
  errorMessage : Option String
  substeps : List JobSubstepRun
  failureStrategy : FailureStrategy
  startedAt : Option Timestamp
  finishedAt : Option Timestamp
  createdAt : Timestamp
  updatedAt : Timestamp
  tenantId : String := ""
  /-- The combination of matrix values the step run was expanded for. -/
  matrixValues : Option EnvMap := none
deriving DecidableEq, Repr

/-- A new step run is pending. -/
def StepRun.new (id : String) (now : Timestamp) (runId stepName : String)
    (failureStrategy : FailureStrategy) (tenantId : String := "")
    (matrixValues : Option EnvMap := none) : StepRun where
  id := id
  runId := runId
  stepName := stepName
  jobId := none
  state := .pending
  dependsOn := []
  errorMessage := none
  substeps := []
  failureStrategy := failureStrategy
  startedAt := none
  finishedAt := none
  createdAt := now
  updatedAt := now
  tenantId := tenantId
  matrixValues := matrixValues

abbrev StepTable := Table StepRun.id

abbrev RunTable := Table PipelineRun.id

def StepTable.stateOf (steps : StepTable) (id : String) : Option StepRunState :=
  (find steps id).map StepRun.state

/-- `update_step_state`: read the row, change its state, write it back. -/
def StepTable.updateStepState (steps : StepTable) (id : String) (state : StepRunState) :
    StepTable :=
  match find steps id with
  | some step => put steps { step with state := state }
  | none => steps

/-! ### The calls -/

/-- The calls of the executor and of the cancel request. -/
inductive DagOp where
  | getStep (id : String)
  | updateStep (step : StepRun)
  | updateStepState (id : String) (state : StepRunState)
  | listByRun (runId : String)
  | createStep (step : StepRun)
  | getRun (id : String)
  | updateRun (run : PipelineRun)
  /-- `JobSubmitter::submit`. -/
  | submit (job : Job)
  /-- `Utc::now() > deadline` in the wait for a job. -/
  | checkDeadline (jobId : String) (attempt : ℕ) (deadline : Timestamp)
  /-- `JobStore::get_job` in the wait for a job. -/
  | pollJob (jobId : String) (attempt : ℕ)
  /-- `JobStore::get_job`, for the message of a failed job. -/
  | getJob (jobId : String)
  | newUuid
  | now

abbrev DagOp.Answer : DagOp → Type
  | getStep _ => Except MuliError (Option StepRun)
  | updateStep _ => Except MuliError Unit
  | updateStepState .. => Except MuliError Unit
  | listByRun _ => Except MuliError (List StepRun)
  | createStep _ => Except MuliError Unit
  | getRun _ => Except MuliError (Option PipelineRun)
  | updateRun _ => Except MuliError Unit
  | submit _ => Except MuliError String
  | checkDeadline .. => Bool
  | pollJob .. => Except MuliError (Option Job)
  | getJob _ => Except MuliError (Option Job)
  | newUuid => String
  | now => Timestamp

abbrev Dag : Interface := ⟨DagOp, DagOp.Answer⟩

/-- A job that was submitted, and the step rows at that moment. -/
structure Submission where
  job : Job
  steps : StepTable

/-- The tables of runs and step runs, and the jobs that were submitted. -/
structure PipelineWorld where
  runs : RunTable
  steps : StepTable
  submissions : List Submission

/-- What is decided at a moment: time, id, a failure, what becomes of jobs. -/
structure DagMoment where
  now : Timestamp := 0
  uuid : String := ""
  /-- The reason a store call fails at this moment, if it does. -/
  storeFailure : Option String := none
  submitted : Except MuliError String := .ok ""
  job : Except MuliError (Option Job) := .ok none

/-- A store call that may fail without reaching the store. -/
def stored {α : Type} (moment : DagMoment) (world : PipelineWorld) (answer : Except MuliError α)
    (after : PipelineWorld) : Except MuliError α × PipelineWorld :=
  match moment.storeFailure with
  | some reason => (.error (.storage reason), world)
  | none => (answer, after)

theorem stored_cases {α : Type} (moment : DagMoment) (world : PipelineWorld)
    (answer : Except MuliError α) (after : PipelineWorld) :
    (∃ e, stored moment world answer after = (.error e, world)) ∨
      stored moment world answer after = (answer, after) := by
  unfold stored
  cases moment.storeFailure with
  | some reason => exact .inl ⟨_, rfl⟩
  | none => exact .inr rfl

/-- A step run clashes with a row: the same id, or the same name in the same run. -/
def StepTable.Clashes (steps : StepTable) (step : StepRun) : Prop :=
  ∃ row ∈ steps.rows, row.id = step.id ∨ row.runId = step.runId ∧ row.stepName = step.stepName
deriving Decidable

def StepTable.insert (steps : StepTable) (step : StepRun) (fits : ¬ steps.Clashes step) :
    StepTable where
  rows := steps.rows ++ [step]
  nodup := by
    rw [List.map_append, List.nodup_append]
    refine ⟨steps.nodup, List.nodup_singleton _, fun id old id' new => ?_⟩
    obtain ⟨row, member, rfl⟩ := List.mem_map.mp old
    obtain rfl : id' = step.id := by simpa using new
    exact fun same => fits ⟨row, member, .inl same⟩

/-- **What a call answers and how it changes the world.** -/
def dagHandle : Handler Dag PipelineWorld DagMoment
  | moment, .getStep id, world => stored moment world (.ok (world.steps.find id)) world
  | moment, .updateStep step, world =>
    stored moment world (.ok ()) { world with steps := world.steps.put step }
  | moment, .updateStepState id state, world =>
    stored moment world (.ok ()) { world with steps := world.steps.updateStepState id state }
  | moment, .listByRun runId, world =>
    stored moment world (.ok (world.steps.rows.filter fun step => step.runId = runId)) world
  | moment, .createStep step, world =>
    if clash : world.steps.Clashes step then
      stored moment world (.error (.storage "UNIQUE constraint failed")) world
    else stored moment world (.ok ()) { world with steps := world.steps.insert step clash }
  | moment, .getRun id, world => stored moment world (.ok (world.runs.find id)) world
  | moment, .updateRun run, world =>
    stored moment world (.ok ()) { world with runs := world.runs.put run }
  | moment, .submit job, world =>
    (moment.submitted,
      { world with submissions := world.submissions ++ [⟨job, world.steps⟩] })
  | moment, .checkDeadline _ _ deadline, world => (decide (moment.now > deadline), world)
  | moment, .pollJob .., world => (moment.job, world)
  | moment, .getJob _, world => (moment.job, world)
  | moment, .newUuid, world => (moment.uuid, world)
  | moment, .now, world => (moment.now, world)

/-! ### The stored states -/

namespace StepTable

variable {steps : StepTable} {id : String}

theorem stateOf_put (step : StepRun) (known : steps.stateOf step.id ≠ none) (id : String) :
    stateOf (put steps step) id = if id = step.id then some step.state else steps.stateOf id :=
  map_find_put known id

theorem stateOf_updateStepState (known : steps.stateOf id ≠ none) (state : StepRunState)
    (id' : String) :
    (steps.updateStepState id state).stateOf id' = if id' = id then some state
    else steps.stateOf id' := by
  obtain ⟨old, found⟩ := ne_none_iff_exists'.mp known
  obtain ⟨step, isRow, -⟩ := map_eq_some_iff.mp found
  obtain rfl : step.id = id := find_key isRow
  unfold updateStepState
  rw [isRow]
  exact stateOf_put { step with state := state } known id'

theorem stateOf_put_cases (steps : StepTable) (step : StepRun) (id : String) :
    stateOf (put steps step) id = steps.stateOf id ∨
      step.id = id ∧ stateOf (put steps step) id = some step.state := by
  refine (find_put_cases steps step id).imp (congrArg (Option.map StepRun.state)) ?_
  exact fun wrote => ⟨wrote.1, congrArg (Option.map StepRun.state) wrote.2⟩

theorem stateOf_updateStepState_cases (steps : StepTable) (id : String) (state : StepRunState)
    (id' : String) : (steps.updateStepState id state).stateOf id' = steps.stateOf id' ∨
      id = id' ∧ (steps.updateStepState id state).stateOf id' = some state := by
  unfold updateStepState
  cases found : find steps id with
  | none => exact .inl rfl
  | some step =>
    rw [← find_key found]
    exact stateOf_put_cases steps { step with state := state } id'

theorem stateOf_insert_cases (step : StepRun) (fits : ¬ steps.Clashes step) (id : String) :
    (steps.insert step fits).stateOf id = steps.stateOf id ∨
      step.id = id ∧ (steps.insert step fits).stateOf id = some step.state := by
  unfold stateOf find insert
  rw [List.find?_append]
  cases steps.rows.find? fun row => row.id = id with
  | some row => exact .inl rfl
  | none =>
    by_cases same : step.id = id
    · exact .inr ⟨same, by simp [same]⟩
    · exact .inl (by simp [same])

end StepTable

/-! ### Calls on one row -/

/-- The call is about the step row: it reads or writes it, or submits a job for it. -/
def OnRow (id : String) : DagOp → Prop
  | .getStep id' | .updateStepState id' _ => id' = id
  | .updateStep step | .createStep step => step.id = id
  | .submit job => job.spec.pipelineStepRunId = some id
  | _ => False

/-- The state that a call writes into the row. -/
def written (id : String) : DagOp → Option StepRunState
  | .updateStep step | .createStep step => if step.id = id then some step.state else none
  | .updateStepState id' state => if id' = id then some state else none
  | _ => none

theorem written_eq_none {id : String} (op : DagOp) (off : ¬ OnRow id op) :
    written id op = none := by
  cases op with
  | updateStep | updateStepState | createStep => exact if_neg off
  | _ => rfl

/-! ### What a call stores -/

def RunTable.stateOf (runs : RunTable) (id : String) : Option PipelineRunState :=
  (find runs id).map PipelineRun.state

theorem stored_elim {α : Type} {answer : Except MuliError α} (P : PipelineWorld → Prop)
    (failed : P world) (performed : moment.storeFailure = none → P after) :
    P (stored moment world answer after).2 := by
  unfold stored
  cases reaches : moment.storeFailure with
  | some reason => exact failed
  | none => exact performed reaches

theorem dagHandle_createStep (moment : DagMoment) (step : StepRun) (world : PipelineWorld) :
    dagHandle moment (.createStep step) world =
      if clash : world.steps.Clashes step then
        stored moment world (.error (.storage "UNIQUE constraint failed")) world
      else stored moment world (.ok ()) { world with steps := world.steps.insert step clash } :=
  rfl

/-- **A call leaves the state of a step row, or stores the state it writes.** -/
theorem stateOf_dagHandle (moment : DagMoment) (op : DagOp) (world : PipelineWorld) (id : String) :
    (dagHandle moment op world).2.steps.stateOf id = world.steps.stateOf id ∨
      moment.storeFailure = none ∧ ∃ state, written id op = some state ∧
        (dagHandle moment op world).2.steps.stateOf id = some state := by
  let Effect (after : PipelineWorld) : Prop := after.steps.stateOf id = world.steps.stateOf id ∨
    moment.storeFailure = none ∧ ∃ state, written id op = some state ∧
      after.steps.stateOf id = some state
  have unchanged : Effect world := .inl rfl
  cases op with
  | updateStep step =>
    refine stored_elim Effect unchanged fun performed => ?_
    refine (StepTable.stateOf_put_cases world.steps step id).imp_right ?_
    exact fun wrote => ⟨performed, step.state, if_pos wrote.1, wrote.2⟩
  | updateStepState id' state =>
    refine stored_elim Effect unchanged fun performed => ?_
    refine (StepTable.stateOf_updateStepState_cases world.steps id' state id).imp_right ?_
    exact fun wrote => ⟨performed, state, if_pos wrote.1, wrote.2⟩
  | createStep step =>
    rw [dagHandle_createStep]
    split_ifs with clash
    · exact stored_elim Effect unchanged fun _ => unchanged
    · refine stored_elim Effect unchanged fun performed => ?_
      refine (StepTable.stateOf_insert_cases step clash id).imp_right ?_
      exact fun wrote => ⟨performed, step.state, if_pos wrote.1, wrote.2⟩
  | getStep | listByRun | getRun => exact stored_elim Effect unchanged fun _ => unchanged
  | updateRun run => exact stored_elim Effect unchanged fun _ => .inl rfl
  | _ => exact unchanged

theorem runStateOf_dagHandle (moment : DagMoment) (op : DagOp) (world : PipelineWorld)
    (id : String) : (dagHandle moment op world).2.runs.stateOf id = world.runs.stateOf id ∨
      moment.storeFailure = none ∧ ∃ run, op = .updateRun run ∧ run.id = id ∧
        (dagHandle moment op world).2.runs.stateOf id = some run.state := by
  let Effect (after : PipelineWorld) : Prop := after.runs.stateOf id = world.runs.stateOf id ∨
    moment.storeFailure = none ∧ ∃ run, op = .updateRun run ∧ run.id = id ∧
      after.runs.stateOf id = some run.state
  show Effect (dagHandle moment op world).2
  have unchanged : Effect world := .inl rfl
  cases op with
  | updateRun run =>
    refine stored_elim Effect unchanged fun performed => ?_
    refine (find_put_cases world.runs run id).imp (congrArg (Option.map _)) ?_
    exact fun wrote => ⟨performed, run, rfl, wrote.1, congrArg (Option.map _) wrote.2⟩
  | updateStep | updateStepState => exact stored_elim Effect unchanged fun _ => .inl rfl
  | createStep step =>
    rw [dagHandle_createStep]
    split_ifs
    · exact stored_elim Effect unchanged fun _ => unchanged
    · exact stored_elim Effect unchanged fun _ => .inl rfl
  | getStep | listByRun | getRun => exact stored_elim Effect unchanged fun _ => unchanged
  | _ => exact unchanged

theorem runStateOf_ne_none (event : Event Dag PipelineWorld DagMoment) {id : String}
    (known : event.before.runs.stateOf id ≠ none) :
    (event.after dagHandle).runs.stateOf id ≠ none := by
  rcases runStateOf_dagHandle event.decision event.op event.before id with
    same | ⟨-, run, -, -, after⟩
  · exact ne_of_eq_of_ne same known
  · exact ne_of_eq_of_ne after (some_ne_none _)

theorem runStateOf_updateRun (performed : moment.storeFailure = none)
    (known : world.runs.stateOf run.id ≠ none) :
    (dagHandle moment (.updateRun run) world).2.runs.stateOf run.id = some run.state := by
  show (stored moment world (.ok ()) _).2.runs.stateOf run.id = some run.state
  unfold stored
  rw [performed]
  obtain ⟨old, found⟩ := ne_none_iff_exists'.mp known
  obtain ⟨row, isRow, -⟩ := map_eq_some_iff.mp found
  exact congrArg (Option.map PipelineRun.state) (find_put_self run isRow)

/-! ### The retention sweep -/

/-- A finished run that was created before the time. -/
def PipelineRun.Old (before : Timestamp) (run : PipelineRun) : Prop :=
  run.state.isTerminal = true ∧ run.createdAt < before
deriving Decidable

/-- `delete_old_runs` in one database. The step runs of every finished run whose text has the time
in it go too. -/
def PipelineWorld.deleteOldRuns (mentions : PipelineRun → Timestamp → Bool) (before : Timestamp)
    (world : PipelineWorld) : ℕ × PipelineWorld :=
  let mentioned := world.runs.rows.filter fun run => run.state.isTerminal && mentions run before
  let old := world.runs.rows.filter fun run => run.Old before
  (old.length, { world with
    steps := world.steps.keep fun step => step.runId ∉ (mentioned ++ old).map PipelineRun.id
    runs := world.runs.keep fun run => run.id ∉ old.map PipelineRun.id })

/-- **The sweep takes the old runs and exactly their step runs, unless another finished run with
step runs has the time in its text.** -/
theorem deleteOldRuns_exact_iff (mentions : PipelineRun → Timestamp → Bool) (before : Timestamp)
    (world : PipelineWorld) : let after := (world.deleteOldRuns mentions before).2
    ((∀ run, run ∈ after.runs.rows ↔ run ∈ world.runs.rows ∧ ¬ run.Old before) ∧
      ∀ step, step ∈ after.steps.rows ↔ step ∈ world.steps.rows ∧
        ∀ run ∈ world.runs.rows, run.Old before → step.runId ≠ run.id) ↔
    ∀ run ∈ world.runs.rows, run.state.isTerminal = true → mentions run before = true →
      ¬ run.Old before → ∀ step ∈ world.steps.rows, step.runId ≠ run.id := by
  intro after
  have same : ∀ run ∈ world.runs.rows, ∀ run' ∈ world.runs.rows, run.id = run'.id → run = run' :=
    fun _ mem _ mem' sameId => eq_of_mem mem mem' sameId
  have runs : ∀ run, run ∈ after.runs.rows ↔ run ∈ world.runs.rows ∧ ¬ run.Old before := by
    simp only [after, PipelineWorld.deleteOldRuns, keep]
    grind
  rw [and_iff_right runs]
  simp only [after, PipelineWorld.deleteOldRuns, keep]
  grind

/-- The text of the cut-off, as `to_rfc3339` writes it, is in the YAML of a younger run, which loses
its step runs. -/
theorem deleteOldRuns_takes_steps :
    let epoch := "1970-01-01T00:00:00+00:00"
    let run := { PipelineRun.new "run" 5 "" "" "" 1 "" "" (.manual "") ("# since " ++ epoch) with
      state := .succeeded }
    let mentions (run : PipelineRun) (time : Timestamp) : Bool :=
      time == 0 && run.yamlContent.toList.tails.any epoch.toList.isPrefixOf
    let after := (PipelineWorld.deleteOldRuns mentions 0
      ⟨⟨[run], by decide⟩, ⟨[.new "step" 5 "run" "build" .stop], by decide⟩, []⟩).2
    after.runs.rows.length = 1 ∧ after.steps.rows.length = 0 := by
  decide +kernel

end Muli
