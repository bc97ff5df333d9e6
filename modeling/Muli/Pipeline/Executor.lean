/-
**The executor: a pipeline level by level.**

`DagExecutor.execute` is the program that runs a pipeline: it marks the run started, skips the step
runs whose condition or path filter does not hold, and then takes the levels of the graph in order,
submitting a job for every step run of a level and waiting for all of them before the next level.
-/

import Muli.Pipeline.DagGraph
import Muli.Pipeline.Runs

namespace Muli

open Graph Interaction Prog

/-- A program of the executor; an error of the store ends it. -/
abbrev DagM := ExceptT MuliError (Prog Dag)

/-! ### The calls -/

def getStep (id : String) : DagM (Option StepRun) := ExceptT.mk (perform (I := Dag) (.getStep id))

def updateStep (step : StepRun) : DagM Unit := ExceptT.mk (perform (I := Dag) (.updateStep step))

def updateStepState (id : String) (state : StepRunState) : DagM Unit :=
  ExceptT.mk (perform (I := Dag) (.updateStepState id state))

def updateRun (run : PipelineRun) : DagM Unit := ExceptT.mk (perform (I := Dag) (.updateRun run))

def getJob (jobId : String) : DagM (Option Job) := ExceptT.mk (perform (I := Dag) (.getJob jobId))

/-- The executor handles a refused submission itself. -/
def submit (job : Job) : DagM (Except MuliError String) :=
  ExceptT.lift (perform (I := Dag) (.submit job))

def newUuid : DagM String := ExceptT.lift (perform (I := Dag) .newUuid)

def utcNow : DagM Timestamp := ExceptT.lift (perform (I := Dag) .now)

/-! ### What the executor computes from the run -/

/-- What a condition can refer to. -/
structure ExpressionContext where
  branch : String
  event : String
  tag : Option String

/-- What is left of a text after the given beginning. -/
def afterStart (start text : String) : Option String :=
  if start.toList <+: text.toList then some (String.ofList (text.toList.drop start.length))
    else none

/-- The name of the event; a pushed tag is an event of its own. -/
def triggerEventStr : PipelineTrigger → String
  | .push refName _ => if (afterStart "refs/tags/" refName).isSome then "tag" else "push"
  | .pullRequest .. => "pull_request"
  | .manual _ => "manual"
  | .schedule _ => "schedule"
  | .retry _ => "retry"

def makeExprCtx (run : PipelineRun) : ExpressionContext where
  branch := (afterStart "refs/heads/" run.refName).getD ""
  event := triggerEventStr run.trigger
  tag := afterStart "refs/tags/" run.refName

/-- Only pushes and pull requests have changed paths. -/
def changedPathsForTrigger : PipelineTrigger → Option (List String)
  | .push _ changedPaths | .pullRequest _ _ changedPaths => some changedPaths
  | .manual _ | .schedule _ | .retry _ => none

/-- A failure that did not stop the run makes it degraded. -/
def computeFinalState (hadFailure hadStopFailure : Bool) : PipelineRunState :=
  if hadStopFailure then .failed else if hadFailure then .degraded else .succeeded

/-- The definition a step run is assigned to: the first name it equals or extends by ` (`. -/
def findOriginalName (srName : String) (originalNames : List String) : Option String :=
  originalNames.find? fun name => srName = name ∨ (name ++ " (").toList <+: srName.toList

/-- The step run with a name; the last one, as later entries replace earlier ones. -/
def stepRunMap (stepRuns : List StepRun) (srName : String) : Option StepRun :=
  stepRuns.reverse.find? fun sr => sr.stepName = srName

/-- The step runs that are assigned to a definition. -/
def originalToRuns (stepRuns : List StepRun) (originalNames : List String) (orig : String) :
    List String :=
  (stepRuns.filter fun sr => findOriginalName sr.stepName originalNames = some orig).map
    StepRun.stepName

/-- What the executor reads off a definition, in either format. -/
structure DagPlan where
  deps : List (String × List String)
  conditionFor : String → Option String
  pathsFor : String → List String

namespace DagPlan

def names (plan : DagPlan) : List String := plan.deps.map Prod.fst

end DagPlan

/-- The plan of a pipeline in jobs mode. -/
def PipelineDef.jobsPlan (pipeline : PipelineDef) : DagPlan where
  deps := pipeline.jobs.map fun job => (job.1, job.2.needs)
  conditionFor name := (pipeline.jobs.lookup name).bind JobDef.condition
  pathsFor name := ((pipeline.jobs.lookup name).map JobDef.paths).getD []

/-- In steps mode there are no path filters. -/
def PipelineDef.stepsPlan (pipeline : PipelineDef) : DagPlan where
  deps := pipeline.steps.map fun step => (step.name, step.needs)
  conditionFor name :=
    (pipeline.steps.reverse.find? fun step => step.name = name).bind StepDef.condition
  pathsFor _ := []

def PipelineDef.plan (pipeline : PipelineDef) : DagPlan :=
  if pipeline.jobsMode then pipeline.jobsPlan else pipeline.stepsPlan

theorem PipelineDef.plan_deps (pipeline : PipelineDef) : pipeline.plan.deps = pipeline.nodes := by
  unfold plan nodes
  split_ifs <;> rfl

theorem PipelineDef.plan_names (pipeline : PipelineDef) : pipeline.plan.names = pipeline.names := by
  unfold DagPlan.names names
  rw [plan_deps]

/-- What the executor depends on besides the store: the language of conditions, the path filter, the
job builder, the order in which hash sets are iterated, and how often a job is polled before the
deadline passes. -/
structure DagExecutor where
  order : HashOrder String
  evaluateCondition : String → ExpressionContext → Bool
  matchesAnyPath : List String → List String → Bool
  jobSpec : PipelineDef → PipelineRun → String → StepRun → JobSpec
  polls : ℕ

namespace DagExecutor

variable (executor : DagExecutor) (pipeline : PipelineDef) (plan : DagPlan) (run : PipelineRun)
  (stepRuns : List StepRun)

/-! ### Conditions and path filters -/

/-- The condition of the definition is false for the run. -/
def failsCondition (sr : StepRun) : Bool :=
  match (findOriginalName sr.stepName plan.names).bind plan.conditionFor with
  | some cond => !executor.evaluateCondition cond (makeExprCtx run)
  | none => false

/-- The definition has path filters, and no changed path matches. -/
def failsPaths (changedPaths : List String) (sr : StepRun) : Bool :=
  match findOriginalName sr.stepName plan.names with
  | some orig =>
    !(plan.pathsFor orig).isEmpty && !executor.matchesAnyPath (plan.pathsFor orig) changedPaths
  | none => false

/-- Store the step run as skipped if it fails the check. -/
def skipRun (fails : StepRun → Bool) (sr : StepRun) : DagM Unit :=
  if fails sr then updateStepState sr.id .skipped else pure ()

def evaluateConditions : DagM Unit := stepRuns.forM (skipRun (executor.failsCondition plan run))

/-- Path filters apply only where the trigger has changed paths. -/
def evaluateJobPaths : DagM Unit :=
  match changedPathsForTrigger run.trigger with
  | some changedPaths => stepRuns.forM (skipRun (executor.failsPaths plan changedPaths))
  | none => pure ()

/-! ### Submission -/

/-- The job of a step run, which is linked to its row. -/
def buildFn (orig srName : String) : Option JobSpec :=
  if orig ∈ plan.names then
    (stepRunMap stepRuns srName).map fun sr =>
      { executor.jobSpec pipeline run orig sr with pipelineStepRunId := some sr.id }
  else none

/-- What became of a step run: nothing to do, a job, or a failure. -/
inductive SubmitOutcome where
  | passed
  | submitted (jobId : String)
  | failed
deriving DecidableEq

/-- Read the row of a step run and write it back changed, with two readings of the clock. -/
def rewriteStep (id : String) (change : StepRun → Timestamp → Timestamp → StepRun)
    (missing : DagM Unit) : DagM Unit := do
  match ← getStep id with
  | some step => do
    let changedAt ← utcNow
    let updatedAt ← utcNow
    updateStep (change step changedAt updatedAt)
  | none => missing

/-- Store the step run as running before its job is submitted. -/
def startStep (sr : StepRun) (substeps : List JobSubstepRun) : DagM Unit :=
  rewriteStep sr.id
    (fun step startedAt updatedAt => { step with
      state := .running, startedAt := some startedAt, errorMessage := none,
      substeps := if step.substeps.isEmpty then substeps else step.substeps,
      updatedAt := updatedAt })
    (updateStepState sr.id .running)

/-- Store the id of the job in the row. -/
def linkJob (sr : StepRun) (jobId : String) : DagM Unit := do
  match ← getStep sr.id with
  | some step => do
    let updatedAt ← utcNow
    updateStep { step with jobId := some jobId, updatedAt := updatedAt }
  | none => pure ()

/-- Store the step run as failed, with the reason. -/
def failSubmission (sr : StepRun) (e : MuliError) : DagM Unit :=
  rewriteStep sr.id
    (fun step finishedAt updatedAt => { step with
      state := .failed, finishedAt := some finishedAt,
      errorMessage := some ("Job submission failed: " ++ e.toString), updatedAt := updatedAt })
    (updateStepState sr.id .failed)

/-- Submit the job of a step run, unless its row is skipped or cancelled. -/
def submitRun (orig srName : String) : DagM SubmitOutcome := do
  match stepRunMap stepRuns srName with
  | none => pure .passed
  | some sr => do
    let current ← getStep sr.id
    let state := current.map StepRun.state
    if state = some .skipped ∨ state = some .cancelled then pure .passed
    else
      match executor.buildFn pipeline plan run stepRuns orig srName with
      | none => pure .passed
      | some spec => do
        let uuid ← newUuid
        let createdAt ← utcNow
        startStep sr (spec.substeps.map fun substep => JobSubstepRun.new substep.name)
        match ← submit (Job.new uuid createdAt spec) with
        | .ok jobId => do
          linkJob sr jobId
          pure (.submitted jobId)
        | .error e => do
          failSubmission sr e
          pure .failed

/-- Whether a failure of the step run stops the pipeline. -/
def stopsOnFailure (srName : String) : Bool :=
  (stepRunMap stepRuns srName).any fun sr => sr.failureStrategy = .stop

/-- Submit all runs of a level: the jobs submitted, and the two failure flags. -/
def submitLevel : List (String × String) → DagM (List (String × String) × Bool × Bool)
  | [] => pure ([], false, false)
  | (orig, srName) :: pairs => do
    let outcome ← executor.submitRun pipeline plan run stepRuns orig srName
    let (submitted, hadFailure, hadStop) ← submitLevel pairs
    match outcome with
    | .passed => pure (submitted, hadFailure, hadStop)
    | .submitted jobId => pure ((srName, jobId) :: submitted, hadFailure, hadStop)
    | .failed => pure (submitted, true, stopsOnFailure stepRuns srName || hadStop)

/-! ### Waiting -/

/-- Poll a job until it is terminal; the deadline has passed when no poll is left. -/
def waitForJob (jobId : String) (deadline : Timestamp) : ℕ → ℕ → Prog Dag (Option JobState)
  | 0, _ => .pure (some .timedOut)
  | polls + 1, attempt =>
    .call (.checkDeadline jobId attempt deadline) fun expired =>
      if expired then .pure (some .timedOut)
      else .call (.pollJob jobId attempt) fun answer =>
        match answer with
        | .ok (some job) =>
          if job.state.isTerminal then .pure (some job.state)
          else waitForJob jobId deadline polls (attempt + 1)
        | .ok none => .pure none
        | .error _ => waitForJob jobId deadline polls (attempt + 1)

/-- The state of a step run by that of its job; a lost job has failed. -/
def stepStateOf : Option JobState → StepRunState
  | some .succeeded => .succeeded
  | some .cancelled => .cancelled
  | _ => .failed

/-- The message of a failed job, if it has one. -/
def failureMessage (jobId : String) (stepState : StepRunState) : DagM (Option String) :=
  if stepState = .failed then do
    let job ← getJob jobId
    pure ((job.bind Job.result).bind fun result =>
      if isBlank result.message then none else some result.message)
  else pure none

/-- Store how the step run ended. -/
def finishStep (sr : StepRun) (stepState : StepRunState) (errorMessage : Option String) :
    DagM Unit :=
  rewriteStep sr.id
    (fun step finishedAt updatedAt => { step with
      state := stepState, finishedAt := some finishedAt, errorMessage := errorMessage,
      updatedAt := updatedAt })
    (pure ())

/-- Wait for the jobs of a level one after the other: the two failure flags. -/
def waitLevel (deadline : Timestamp) : List (String × String) → DagM (Bool × Bool)
  | [] => pure (false, false)
  | (stepName, jobId) :: submitted =>
    match stepRunMap stepRuns stepName with
    | none => waitLevel deadline submitted
    | some sr => do
      let jobState ← ExceptT.lift (waitForJob jobId deadline executor.polls 0)
      let stepState := stepStateOf jobState
      let errorMessage ← failureMessage jobId stepState
      finishStep sr stepState errorMessage
      let (hadFailure, hadStop) ← waitLevel deadline submitted
      if stepState = .failed then pure (true, decide (sr.failureStrategy = .stop) || hadStop)
      else pure (hadFailure, hadStop)

/-! ### The levels -/

/-- Store a step run as cancelled that has not ended. -/
def cancelRun (rn : String) : DagM Unit := do
  match stepRunMap stepRuns rn with
  | none => pure ()
  | some sr => do
    match ← getStep sr.id with
    | some step => if step.state.isTerminal then pure () else updateStepState sr.id .cancelled
    | none => pure ()

def cancelLevelRuns (level : List String) : DagM Unit :=
  (level.flatMap (originalToRuns stepRuns plan.names)).forM (cancelRun stepRuns)

/-- The step runs of a level with the names of their definitions. -/
def levelRunPairs (level : List String) : List (String × String) :=
  level.flatMap fun orig => (originalToRuns stepRuns plan.names orig).map fun sr => (orig, sr)

/-- The loop over the levels, with the failure flags so far. -/
def executeDagLevels (deadline : Timestamp) : List (List String) → Bool → Bool → DagM (Bool × Bool)
  | [], hadFailure, hadStopFailure => pure (hadFailure, hadStopFailure)
  | level :: levels, hadFailure, true => do
    cancelLevelRuns plan stepRuns level
    executeDagLevels deadline levels hadFailure true
  | level :: levels, hadFailure, false => do
    let (submitted, submitFailed, submitStop) ←
      executor.submitLevel pipeline plan run stepRuns (levelRunPairs plan stepRuns level)
    let (waitFailed, waitStop) ← executor.waitLevel stepRuns deadline submitted
    executeDagLevels deadline levels (hadFailure || submitFailed || waitFailed)
      (submitStop || waitStop)

/-! ### The run -/

def markRunStarted : DagM PipelineRun := do
  let startedAt ← utcNow
  let updatedAt ← utcNow
  let started := { run with
    state := .running, startedAt := some startedAt, updatedAt := updatedAt }
  updateRun started
  pure started

/-- Store how the run ended. -/
def finalizeRun (hadFailure hadStopFailure : Bool) : DagM PipelineRunState := do
  let state := computeFinalState hadFailure hadStopFailure
  let finishedAt ← utcNow
  let updatedAt ← utcNow
  updateRun { run with state := state, finishedAt := some finishedAt, updatedAt := updatedAt }
  pure state

/-- `MAX_PIPELINE_DURATION`, in nanoseconds. -/
def maxPipelineDuration : ℤ := 3600000000000

def executePlan : DagM PipelineRunState := do
  let run ← markRunStarted run
  executor.evaluateConditions plan run stepRuns
  executor.evaluateJobPaths plan run stepRuns
  let levels := (DagGraph.fromSteps plan.deps).topologicalLevels executor.order
  let startedAt ← utcNow
  let (hadFailure, hadStopFailure) ←
    executor.executeDagLevels pipeline plan run stepRuns (startedAt + maxPipelineDuration) levels
      false false
  finalizeRun run hadFailure hadStopFailure

def executeJobs : DagM PipelineRunState :=
  executor.executePlan pipeline pipeline.jobsPlan run stepRuns

def executeSteps : DagM PipelineRunState :=
  executor.executePlan pipeline pipeline.stepsPlan run stepRuns

/-- **Execute a pipeline run end-to-end.** -/
def execute : DagM PipelineRunState :=
  if pipeline.jobsMode then executor.executeJobs pipeline run stepRuns
  else executor.executeSteps pipeline run stepRuns

end DagExecutor

end Muli
