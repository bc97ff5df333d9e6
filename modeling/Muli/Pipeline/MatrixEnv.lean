/-
**The environment of the jobs of a matrix.**

The copies of a definition are told apart by their names and, in jobs mode, by the values recorded
in their step runs. The jobs are built from the definition itself, so all copies get the same
variables.

* `submission_built` — **every job the executor submits is the one built for a step run from the
  definition it is assigned to.**
-/

import Muli.Pipeline.Dependencies
import Muli.Pipeline.JobBuilder

namespace Muli

open Interaction List Option

/-! ### What the executor submits -/

/-- The call is no submission, or one of such a job. -/
def SubmitsBuilt (built : JobSpec → Prop) : DagOp → Prop
  | .submit job => built job.spec
  | _ => True

variable {built : JobSpec → Prop}

theorem Waits.submitsBuilt (op : DagOp) (waits : Waits op) : SubmitsBuilt built op := by
  cases op with
  | submit job => exact waits.elim
  | _ => trivial

theorem submitsBuilt_callClosed (built : JobSpec → Prop) :
    CallClosed fun _ p => p.run.CallsOnly (SubmitsBuilt built) where
  pure value := .pure (Except.ok value)
  bind := .exceptBind
  getStep _ := .perform trivial
  updateStep _ := .perform trivial
  updateStepState _ _ := .perform trivial
  updateRun _ := .perform trivial
  getJob _ := .perform trivial
  newUuid := .exceptPerform trivial
  utcNow := .exceptPerform trivial
  waitForJob jobId deadline polls attempt :=
    Prog.Within.exceptLift ((waitForJob_callsOnly jobId deadline polls attempt).within
      fun _ => Waits.submitsBuilt)

def AllBuilt (built : JobSpec → Prop) (world : PipelineWorld) : Prop :=
  ∀ submission ∈ world.submissions, built submission.job.spec

theorem allBuilt_dagHandle (op : DagOp) (isBuilt : SubmitsBuilt built op)
    (moment : DagMoment) (world : PipelineWorld) (holds : AllBuilt built world) :
    AllBuilt built (dagHandle moment op world).2 := by
  cases op with
  | submit job =>
    intro submission mem
    rcases mem_append.mp mem with old | new
    · exact holds submission old
    · rw [mem_singleton.mp new]
      exact isBuilt
  | createStep step =>
    rw [dagHandle_createStep]
    split_ifs <;> exact stored_elim (AllBuilt built) holds fun _ => holds
  | checkDeadline | pollJob | getJob | newUuid | now => exact holds
  | getStep | updateStep | updateStepState | listByRun | getRun | updateRun =>
    exact stored_elim (AllBuilt built) holds fun _ => holds

def Execution.Builds (execution : Execution) (spec : JobSpec) : Prop :=
  ∃ sr ∈ execution.stepRuns, ∃ orig startedAt updatedAt, execution.assigned sr = some orig ∧
    spec = { execution.executor.jobSpec execution.pipeline
      (execution.run.started startedAt updatedAt) orig sr with pipelineStepRunId := some sr.id }

variable {env : ℕ → DagMoment} {submission : Submission}

/-- **Every job the executor submits was built for a step run, from the definition it is assigned
to.** -/
theorem Execution.submission_built (execution : Execution)
    (mem : submission ∈ (execution.result env).2.submissions) :
    execution.Builds submission.job.spec := by
  have only : (execution.executor.execute execution.pipeline execution.run
      execution.stepRuns).run.CallsOnly (SubmitsBuilt execution.Builds) := by
    refine (submitsBuilt_callClosed execution.Builds).execute ?_
    intro startedAt updatedAt orig srName assigned spec built uuid createdAt
    refine .exceptLift (Prog.CallsOnly.perform ?_)
    unfold DagExecutor.buildFn at built
    split_ifs at built
    obtain ⟨sr, known, rfl⟩ := map_eq_some_iff.mp built
    have isStepRun := mem_reverse.mp (mem_of_find?_eq_some known)
    have sameName : sr.stepName = srName := by simpa using find?_some known
    rw [PipelineDef.plan_names, ← sameName] at assigned
    exact ⟨sr, isStepRun, orig, startedAt, updatedAt, assigned, rfl⟩
  have start : AllBuilt execution.Builds execution.world := by
    intro submission none
    rw [execution.unsubmitted] at none
    cases none
  exact only.run (fun op isBuilt moment => allBuilt_dagHandle op isBuilt _) start env submission
    mem

/-! ### The variables of a job -/

structure EnvSources where
  pipelineEnv : EnvMap
  itemEnv : EnvMap
  nameKey : String
  nameVal : String
  cloneUrl : Option String
  registryUrl : Option String
  registryToken : Option String

namespace EnvSources

variable (sources : EnvSources) (run : PipelineRun)

def envVars : EnvTable :=
  buildEnvVars sources.pipelineEnv sources.itemEnv run sources.nameKey sources.nameVal
    sources.cloneUrl sources.registryUrl sources.registryToken

/-- **The value of a variable:** its last definition, with the references in it replaced. -/
def valueOf (name : String) : Option String :=
  (lastDefinition (envDefinitions sources.pipelineEnv sources.itemEnv run sources.nameKey
    sources.nameVal sources.cloneUrl sources.registryUrl sources.registryToken) name).map fun var =>
      interpolate var.value run.envVars (assembleEnv sources.pipelineEnv sources.itemEnv run
        sources.nameKey sources.nameVal sources.cloneUrl sources.registryUrl
        sources.registryToken).toMap

theorem filter_envVars (name : String) :
      ((sources.envVars run).rows.filter fun var => var.name = name) =
      ((sources.valueOf run name).map fun value => ⟨name, value⟩).toList := by
  rw [Table.filter_rows, envVars, find_buildEnvVars, valueOf, Option.map_map]
  unfold lastDefinition
  cases found : find? _ _ with
  | none => rfl
  | some var =>
    have isName : var.name = name := by simpa using find?_some found
    rw [← isName]
    rfl

end EnvSources

namespace JobContext

variable (context : JobContext) (pipeline : PipelineDef)

def envSources (orig : String) : Option EnvSources :=
  if pipeline.jobsMode then
    (pipeline.jobs.lookup orig).map fun job => ⟨pipeline.env, job.env, "PIPELINE_JOB_NAME", orig,
      none, context.registryUrl, jobRegistryToken job context.registryToken⟩
  else
    (pipeline.steps.reverse.find? fun step => step.name = orig).map fun step =>
      ⟨pipeline.env, step.env, "PIPELINE_STEP_NAME", step.name, context.cloneUrl,
        context.registryUrl, context.registryToken⟩

variable {context pipeline}

theorem exists_envSources (declared : orig ∈ pipeline.names) :
    ∃ sources, context.envSources pipeline orig = some sources := by
  unfold PipelineDef.names PipelineDef.nodes at declared
  unfold envSources
  split_ifs at declared ⊢ with jobs
  · rw [List.map_map] at declared
    obtain ⟨job, mem, rfl⟩ := mem_map.mp declared
    show ∃ sources, .map _ (pipeline.jobs.lookup job.1) = some sources
    cases found : pipeline.jobs.lookup job.1 with
    | none => grind
    | some job => exact ⟨_, rfl⟩
  · rw [List.map_map] at declared
    obtain ⟨step, mem, rfl⟩ := mem_map.mp declared
    show ∃ sources, .map _
      (pipeline.steps.reverse.find? fun other => other.name = step.name) = some sources
    cases found : pipeline.steps.reverse.find? fun other => other.name = step.name with
    | none => grind
    | some step => exact ⟨_, rfl⟩

theorem envVars_jobSpec (known : context.envSources pipeline orig = some sources)
    (run : PipelineRun) (startedAt updatedAt : Timestamp) (sr : StepRun) :
    (context.jobSpec pipeline (run.started startedAt updatedAt) orig sr).envVars =
      (sources.envVars run).rows := by
  unfold envSources at known
  unfold jobSpec
  split_ifs at known ⊢ with jobs
  · obtain ⟨job, declared, rfl⟩ := map_eq_some_iff.mp known
    rw [declared]
    rfl
  · obtain ⟨step, declared, rfl⟩ := map_eq_some_iff.mp known
    rw [declared]
    rfl

end JobContext

/-- **The job submitted for a step run has the variables of the definition it is assigned to**, and
the step run has no part in them. -/
theorem Execution.submission_variables {execution : Execution} {context : JobContext}
    (builds : execution.executor.jobSpec = context.jobSpec)
    (mem : submission ∈ (execution.result env).2.submissions) (isStepRun : sr ∈ execution.stepRuns)
    (isFor : IsFor submission sr) :
    ∃ sources, (execution.assigned sr).bind (context.envSources execution.pipeline) = some sources ∧
      submission.job.spec.envVars = (sources.envVars execution.run).rows := by
  obtain ⟨sr', isStepRun', orig, startedAt, updatedAt, assigned, built⟩ :=
    execution.submission_built mem
  have sameId : some sr'.id = some sr.id := by
    have names : submission.job.spec.pipelineStepRunId = some sr'.id := by rw [built]
    exact names.symm.trans isFor
  obtain rfl := execution.eq_of_id isStepRun' isStepRun (some.inj sameId)
  obtain ⟨sources, known⟩ := JobContext.exists_envSources (mem_of_find?_eq_some assigned)
  refine ⟨sources, ?_, ?_⟩
  · rw [assigned]
    exact known
  · rw [built, builds]
    exact JobContext.envVars_jobSpec known execution.run startedAt updatedAt sr'

/-! ### The variables of a combination -/

/-- The job has exactly one variable for each entry of the combination, with the entry's value. -/
def MatrixInjected (toUppercase : String → String) (job : Job)
    (assignment : List (String × String)) : Prop :=
  ∀ entry ∈ assignment, (job.spec.envVars.filter fun var => var.name = toUppercase entry.1) =
    [⟨toUppercase entry.1, entry.2⟩]

namespace Execution

variable (execution : Execution)

/-- The step run was created for this combination of the matrix of its definition. -/
def IsVariant (sr : StepRun) (assignment : List (String × String)) : Prop :=
  ∃ matrix, (execution.nodeOf sr).matrix = some matrix ∧ ∃ combo ∈ matrix.combos,
    sr.stepName = expandedName (execution.nodeOf sr).name matrix combo ∧
      assignment = matrix.assignment combo

/-- The variables of the combination have its values without the matrix: the last of the variables
of the pipeline, of the definition and of the run and the built-in ones gives them. -/
def Predefined (context : JobContext) (toUppercase : String → String) (sr : StepRun)
    (assignment : List (String × String)) : Prop :=
  ∃ sources, (execution.assigned sr).bind (context.envSources execution.pipeline) = some sources ∧
    ∀ entry ∈ assignment, sources.valueOf execution.run (toUppercase entry.1) = some entry.2

variable {execution}

/-- **The job submitted for a combination has its values exactly if they are defined without the
matrix.** -/
theorem matrixInjected_iff (context : JobContext) (toUppercase : String → String)
    (builds : execution.executor.jobSpec = context.jobSpec) {env : ℕ → DagMoment}
    {submission : Submission} (member : submission ∈ (execution.result env).2.submissions)
    {sr : StepRun} (isStepRun : sr ∈ execution.stepRuns) (isFor : IsFor submission sr) :
    ∀ assignment, execution.IsVariant sr assignment →
    (MatrixInjected toUppercase submission.job assignment ↔
        execution.Predefined context toUppercase sr assignment) := by
  intro assignment _
  obtain ⟨sources, known, envVars⟩ := submission_variables builds member isStepRun isFor
  have single : ∀ (name value : String),
      ((sources.envVars execution.run).rows.filter fun var => var.name = name) = [⟨name, value⟩] ↔
        sources.valueOf execution.run name = some value := by
    intro name value
    rw [sources.filter_envVars]
    cases sources.valueOf execution.run name <;> simp
  unfold MatrixInjected Predefined
  rw [envVars]
  simp only [single]
  constructor
  · exact fun defined => ⟨sources, known, defined⟩
  · simp [*]

end Execution

/-! ### A matrix of versions -/

open Execution

def versions : Matrix := ⟨[("node_version", ["18", "20"])], nodup_singleton _⟩

def versionsPipeline (env : EnvMap) : PipelineDef where
  jobs := [("test", { matrix := some versions, env := env })]
  jobsNodup := nodup_singleton _
  steps := []

def versionStep (version : String) : StepRun :=
  StepRun.new version 0 "run" ("test (node_version=" ++ version ++ ")") .stop

def versionsRun (env : EnvMap) : Execution where
  pipeline := versionsPipeline env
  valid := rfl
  run := createdRun
  stepRuns := [versionStep "18", versionStep "20"]
  nodeOf _ := ⟨"test", [], some versions, .stop⟩
  declared _ _ := mem_singleton.mpr rfl
  expands := by
    have expanded : expandNames "job" "test" (some versions) =
        .ok [(versionStep "18").stepName, (versionStep "20").stepName] := by decide +kernel
    intro sr member
    refine ⟨?_, _, expanded, mem_map_of_mem (f := StepRun.stepName) member⟩
    rcases mem_pair.mp member with rfl | rfl <;> rfl
  namesNodup := by decide +kernel
  pending := by
    intro sr member
    rcases mem_pair.mp member with rfl | rfl <;> rfl
  world := ⟨⟨[createdRun], nodup_createdRun⟩,
    ⟨[versionStep "18", versionStep "20"], by decide +kernel⟩, []⟩
  stored := fun sr member => Table.find_eq_some.mpr ⟨member, rfl⟩
  runStored := some_ne_none createdRun
  unsubmitted := rfl
  executor := { plainExecutor with jobSpec := JobContext.jobSpec {} }
  outcomes := failing []

def firstVersion : EnvMap := ⟨[("NODE_VERSION", "18")], nodup_singleton _⟩

theorem versionsRun_isVariant (env : EnvMap) :
    (versionsRun env).IsVariant (versionStep "18") [("node_version", "18")] :=
  ⟨versions, rfl, ["18"], by decide +kernel, rfl, rfl⟩

theorem matrixInjected_firstVersion :
    ∃ submission ∈ ((versionsRun firstVersion).result fun _ => {}).2.submissions,
      IsFor submission (versionStep "18") ∧
        MatrixInjected capitals submission.job [("node_version", "18")] := by
  have submitted : ∃ submission ∈ ((versionsRun firstVersion).result fun _ => {}).2.submissions,
      IsFor submission (versionStep "18") := by decide +kernel
  obtain ⟨submission, member, isFor⟩ := submitted
  refine ⟨submission, member, isFor, ?_⟩
  have injected := matrixInjected_iff {} capitals rfl member mem_cons_self isFor _
    (versionsRun_isVariant firstVersion)
  refine injected.mpr ⟨_, rfl, ?_⟩
  decide +kernel

/-- **Without such a definition the job of a combination has no variable for it.** -/
theorem not_matrixInjected_versions :
    (versionsRun ∅).IsVariant (versionStep "18") [("node_version", "18")] ∧
    ∃ submission ∈ ((versionsRun ∅).result fun _ => {}).2.submissions,
    IsFor submission (versionStep "18") ∧
        ¬ MatrixInjected capitals submission.job [("node_version", "18")] := by
  refine ⟨versionsRun_isVariant ∅, ?_⟩
  unfold MatrixInjected
  decide +kernel

end Muli
