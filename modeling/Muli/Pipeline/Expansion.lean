/-
**Matrix expansion: from definitions to stored step runs.**

Before a run is executed each definition becomes one step run per combination of its matrix, stored
as pending.
-/

import Muli.Pipeline.Executor

namespace Muli

open Interaction List

/-! ### Expansion of one definition -/

/-- One entry per combination of values, the first variable varying slowest. -/
def Matrix.combos (matrix : Matrix) : List (List String) :=
  matrix.entries.foldl
    (fun combos entry => combos.flatMap fun combo => entry.2.map fun value => combo ++ [value]) [[]]

def expandedName (name : String) (matrix : Matrix) (combo : List String) : String :=
  name ++ " (" ++ ", ".intercalate (zipWith (fun entry value => entry.1 ++ "=" ++ value)
    matrix.entries combo) ++ ")"

/-- Expand a definition: what it gives without a matrix, or one variant per combination. -/
def expandWith {α : Type} (kind name : String) (matrix : Option Matrix) (plain : α)
    (variant : Matrix → List String → α) : Except MuliError (List α) :=
  match matrix with
  | none => .ok [plain]
  | some matrix =>
    if matrix.entries.isEmpty then .ok [plain]
    else if matrix.combos.length > maxMatrixSize then
      yamlError (kind ++ " '" ++ name ++ "' matrix produces " ++ matrix.combos.length.repr ++
        " combinations (max " ++ maxMatrixSize.repr ++ ")")
    else .ok (matrix.combos.map (variant matrix))

def expandNames (kind name : String) (matrix : Option Matrix) : Except MuliError (List String) :=
  expandWith kind name matrix name (expandedName name)

variable {matrix : Option Matrix}

theorem mem_expandWith {α : Type} {plain : α} {variant : Matrix → List String → α}
    {expanded : List α} (ok : expandWith kind name matrix plain variant = .ok expanded) {result : α}
    (mem : result ∈ expanded) : result = plain ∨ ∃ matrix combo, result = variant matrix combo := by
  unfold expandWith at ok
  split at ok
  next => grind
  next matrix =>
    split_ifs at ok with empty tooMany
    · grind
    · cases ok
    · grind

theorem toList_isPrefix_append (start rest : String) : start.toList <+: (start ++ rest).toList := by
  rw [String.toList_append]
  exact prefix_append _ _

theorem mem_expandNames {srName : String} {expanded : List String}
    (ok : expandNames kind name matrix = .ok expanded) (mem : srName ∈ expanded) :
    srName = name ∨ (name ++ " (").toList <+: srName.toList := by
  rcases mem_expandWith ok mem with plain | ⟨matrix, combo, rfl⟩
  · exact .inl plain
  · unfold expandedName
    rw [String.append_assoc]
    exact .inr (toList_isPrefix_append _ _)

/-! ### The definitions of a pipeline -/

structure NodeDef where
  name : String
  needs : List String
  matrix : Option Matrix
  failureStrategy : FailureStrategy

def NodeDef.Expands (kind : String) (node : NodeDef) (sr : StepRun) : Prop :=
  sr.failureStrategy = node.failureStrategy ∧
    ∃ expanded, expandNames kind node.name node.matrix = .ok expanded ∧ sr.stepName ∈ expanded

def failureStrategyOf : Option String → FailureStrategy
  | some text => if text = "continue" then .continued else if text = "ignore" then .ignore
      else .stop
  | none => .stop

namespace PipelineDef

def nodeDefs (pipeline : PipelineDef) : List NodeDef :=
  if pipeline.jobsMode then
    pipeline.jobs.map fun job =>
      ⟨job.1, job.2.needs, job.2.matrix, failureStrategyOf job.2.failureStrategy⟩
  else
    pipeline.steps.map fun step =>
      ⟨step.name, step.needs, step.matrix, failureStrategyOf step.failureStrategy⟩

/-- `"job"` or `"step"`. -/
def kind (pipeline : PipelineDef) : String := if pipeline.jobsMode then "job" else "step"

theorem nodes_eq_map_nodeDefs (pipeline : PipelineDef) :
    pipeline.nodes = pipeline.nodeDefs.map fun node => (node.name, node.needs) := by
  unfold nodes nodeDefs
  split_ifs <;> simp

end PipelineDef

/-! ### The step runs of a definition -/

/-- The combination as pairs of a variable and its value. -/
def Matrix.assignment (matrix : Matrix) (combo : List String) : List (String × String) :=
  zip (matrix.entries.map Prod.fst) combo

def expandJobMatrix (jobName : String) (job : JobDef) :
    Except MuliError (List (String × Option EnvMap)) :=
  expandWith "job" jobName job.matrix (jobName, none) fun matrix combo =>
    (expandedName jobName matrix combo, some (Table.upsertAll ∅ (matrix.assignment combo)))

/-- The copies of a step, each with its combination in the environment. -/
def expandMatrix (toUppercase : String → String) (step : StepDef) :
    Except MuliError (List StepDef) :=
  expandWith "step" step.name step.matrix step fun matrix combo =>
    { step with
      name := expandedName step.name matrix combo
      env := step.env.upsertAll ((matrix.assignment combo).map fun entry =>
        (toUppercase entry.1, entry.2))
      matrix := none }

/-- The capitals of a text in the Latin alphabet, for definitions that use no other letters. -/
def capitals (text : String) : String := String.ofList (text.toList.map Char.toUpper)

/-- What expansion decides about a step run: everything but its id, its run and its times. -/
structure PlannedStep where
  stepName : String
  failureStrategy : FailureStrategy
  matrixValues : Option EnvMap
  dependsOn : List String
deriving DecidableEq, Repr

def planJob (jobName : String) (job : JobDef) : Except MuliError (List PlannedStep) :=
  (expandJobMatrix jobName job).map fun expanded => expanded.map fun entry =>
    ⟨entry.1, failureStrategyOf job.failureStrategy, entry.2, job.needs⟩

/-- The step runs of a step. Of each copy only the name, the strategy and the dependencies are read,
not the environment. -/
def planStep (toUppercase : String → String) (step : StepDef) :
    Except MuliError (List PlannedStep) :=
  (expandMatrix toUppercase step).map fun expanded => expanded.map fun copy =>
    ⟨copy.name, failureStrategyOf copy.failureStrategy, none, copy.needs⟩

def PipelineDef.plans (toUppercase : String → String) (pipeline : PipelineDef) :
    List (Except MuliError (List PlannedStep)) :=
  if pipeline.jobsMode then pipeline.jobs.map fun job => planJob job.1 job.2
  else pipeline.steps.map (planStep toUppercase)

/-! ### Creating the step runs -/

def PlannedStep.toStepRun (planned : PlannedStep) (uuid : String) (createdAt : Timestamp)
    (runId tenantId : String) : StepRun :=
  { StepRun.new uuid createdAt runId planned.stepName planned.failureStrategy tenantId
      planned.matrixValues with dependsOn := planned.dependsOn }

def createPlanned (runId tenantId : String) (planned : PlannedStep) :
    Prog Dag (Except MuliError StepRun) := do
  let uuid ← Prog.perform (I := Dag) .newUuid
  let createdAt ← Prog.perform (I := Dag) .now
  let stepRun := planned.toStepRun uuid createdAt runId tenantId
  let answer ← Prog.perform (I := Dag) (.createStep stepRun)
  pure (answer.map fun () => stepRun)

/-- Create the step runs of one definition; one that cannot be stored is left out. -/
def createSteps (runId tenantId : String) : List PlannedStep → Prog Dag (List StepRun)
  | [] => pure []
  | planned :: plan => do
    match ← createPlanned runId tenantId planned with
    | .ok stepRun => do
      let created ← createSteps runId tenantId plan
      pure (stepRun :: created)
    | .error _ => createSteps runId tenantId plan

/-- Create the step runs of some definitions, none for one whose matrix cannot be expanded. -/
def expandEach (runId tenantId : String) :
    List (Except MuliError (List PlannedStep)) → Prog Dag (List StepRun)
  | [] => pure []
  | .error _ :: plans => expandEach runId tenantId plans
  | .ok plan :: plans => do
    let created ← createSteps runId tenantId plan
    let rest ← expandEach runId tenantId plans
    pure (created ++ rest)

/-- **Expand all definitions and store the step runs.** -/
def expandSteps (toUppercase : String → String) (tenantId : String) (pipeline : PipelineDef)
    (runId : String) : Prog Dag (List StepRun) :=
  expandEach runId tenantId (pipeline.plans toUppercase)

/-! ### Runs that are ready to execute -/

/-- **A run that is ready to execute:** an accepted definition, and step runs that were expanded
from its jobs or steps and are stored as pending. -/
structure PreparedRun where
  pipeline : PipelineDef
  valid : validatePipeline pipeline = .ok ()
  run : PipelineRun
  stepRuns : List StepRun
  nodeOf : StepRun → NodeDef
  declared : ∀ sr ∈ stepRuns, nodeOf sr ∈ pipeline.nodeDefs
  expands : ∀ sr ∈ stepRuns, (nodeOf sr).Expands pipeline.kind sr
  namesNodup : (stepRuns.map StepRun.stepName).Nodup
  pending : ∀ sr ∈ stepRuns, sr.state = .pending
  world : PipelineWorld
  stored : ∀ sr ∈ stepRuns, world.steps.find sr.id = some sr
  runStored : world.runs.find run.id ≠ none
  unsubmitted : world.submissions = []

namespace PreparedRun

variable (prepared : PreparedRun)

def names : List String := prepared.pipeline.names

theorem eq_of_id (mem : sr ∈ prepared.stepRuns) (mem' : sr' ∈ prepared.stepRuns)
    (same : sr.id = sr'.id) : sr = sr' := by
  have found := prepared.stored sr mem
  rw [same, prepared.stored sr' mem'] at found
  exact (Option.some.inj found).symm

theorem nodup : prepared.stepRuns.Nodup := List.Nodup.of_map _ prepared.namesNodup

variable {sr : StepRun}

section

variable (mem : sr ∈ prepared.stepRuns)
include mem

theorem stepRunMap_eq :
    stepRunMap prepared.stepRuns sr.stepName = some sr := by
  unfold stepRunMap
  cases found : prepared.stepRuns.reverse.find? fun sr' => sr'.stepName = sr.stepName with
  | none =>
    have absent := find?_eq_none.mp found sr (mem_reverse.mpr mem)
    simp at absent
  | some sr' =>
    have same : sr'.stepName = sr.stepName := by simpa using find?_some found
    have mem' := mem_reverse.mp (mem_of_find?_eq_some found)
    rw [inj_on_of_nodup_map prepared.namesNodup mem' mem same]

theorem name_mem_names : (prepared.nodeOf sr).name ∈ prepared.names := by
  unfold names PipelineDef.names
  rw [PipelineDef.nodes_eq_map_nodeDefs, map_map]
  exact mem_map_of_mem (f := fun node : NodeDef => node.name) (prepared.declared sr mem)

/-- **The executor assigns every step run to some definition.** -/
theorem exists_findOriginalName :
    ∃ orig ∈ prepared.names, findOriginalName sr.stepName prepared.names = some orig := by
  obtain ⟨-, expanded, ok, isExpanded⟩ := prepared.expands sr mem
  cases found : findOriginalName sr.stepName prepared.names with
  | some orig => exact ⟨orig, mem_of_find?_eq_some found, rfl⟩
  | none =>
    have none := find?_eq_none.mp found _ (prepared.name_mem_names mem)
    exact absurd (mem_expandNames ok isExpanded) (by simpa using none)

end

end PreparedRun

end Muli
