/-
**What is submitted, and when.**

A level is submitted when the levels before it are over, whatever came of them. Two laws about the
submissions of a run, both in terms of the definitions the step runs were expanded from:

* `dependencyLaw_iff` — **the first law holds in every run exactly if no job that is launched needs
  one that ends badly before**; the level loop does not look at what a dependency came to.
* `orderLaw_of_filed` — **the second law holds in every run whose step runs are all taken up at the
  level of their own definition**; a step run is assigned to the first name it extends, which need
  not be its own.
* `result_finished` — **a run ends in a terminal state, and every step run in one.**
-/

import Muli.Pipeline.Returns
import Muli.Pipeline.Verdict

namespace Muli

open Graph Interaction List Option Outcomes

namespace Execution

variable (execution : Execution)

def origin (sr : StepRun) : String := (execution.nodeOf sr).name

def needs (name : String) : List String :=
  (DagGraph.fromSteps execution.pipeline.nodes).dependenciesOf name

def IsFor (submission : Submission) (sr : StepRun) : Prop :=
  submission.job.spec.pipelineStepRunId = some sr.id
deriving Decidable

/-- **No job is submitted after a dependency came to a bad end.** -/
def DependencyLaw (world : PipelineWorld) : Prop :=
  ∀ submission ∈ world.submissions, ∀ sr ∈ execution.stepRuns, IsFor submission sr →
    (∀ sr' ∈ execution.stepRuns, execution.origin sr' ∈ execution.needs (execution.origin sr) →
      submission.steps.stateOf sr'.id ≠ some .failed ∧
      submission.steps.stateOf sr'.id ≠ some .cancelled ∧
      -- a dependency is skipped by its own condition only
      (submission.steps.stateOf sr'.id = some .skipped → execution.skips sr' = true)) ∧
    ∀ sr' ∈ execution.stepRuns, sr'.failureStrategy = .continued →
      Relation.TransGen (Needed execution.needs) (execution.origin sr') (execution.origin sr) →
      submission.steps.stateOf sr'.id ≠ some .failed

/-- The job of `sr'` has failed when the job of `sr` is submitted. -/
def FailedBefore (sr' sr : StepRun) : Prop :=
  execution.skips sr' = false ∧
    (execution.stage sr' < execution.stage sr ∧ execution.ended sr' = .failed ∨
      execution.Before sr' sr ∧ execution.outcomes.refused sr' = true)

/-- The job of `sr'` has been cancelled when the job of `sr` is submitted. -/
def CancelledBefore (sr' sr : StepRun) : Prop :=
  execution.skips sr' = false ∧
    execution.stage sr' < execution.stage sr ∧ execution.ended sr' = .cancelled

/-- Nothing that is launched depends on a job that has come to a bad end before. -/
def CleanDependencies : Prop :=
  ∀ sr ∈ execution.stepRuns, execution.Launched sr → ∀ sr' ∈ execution.stepRuns,
    (execution.origin sr' ∈ execution.needs (execution.origin sr) →
      ¬ execution.FailedBefore sr' sr ∧ ¬ execution.CancelledBefore sr' sr) ∧
    (sr'.failureStrategy = .continued →
      Relation.TransGen (Needed execution.needs) (execution.origin sr') (execution.origin sr) →
      ¬ execution.FailedBefore sr' sr)

def levelOf (name : String) : ℕ := execution.levels.findIdx fun level => decide (name ∈ level)

/-- **A job is submitted when all it needs has ended, and not after a stop in an earlier level.** -/
def OrderLaw (world : PipelineWorld) : Prop :=
  ∀ submission ∈ world.submissions, ∀ sr ∈ execution.stepRuns, IsFor submission sr →
    (∀ sr' ∈ execution.stepRuns, execution.origin sr' ∈ execution.needs (execution.origin sr) →
      ∃ state, submission.steps.stateOf sr'.id = some state ∧ state.isTerminal = true) ∧
    ∀ sr' ∈ execution.stepRuns, sr'.failureStrategy = .stop →
      execution.levelOf (execution.origin sr') < execution.levelOf (execution.origin sr) →
      submission.steps.stateOf sr'.id ≠ some .failed

/-- **After a stop everything of a later level ends cancelled**, unless it was skipped before. -/
def CancelLaw (world : PipelineWorld) : Prop :=
  ∀ sr' ∈ execution.stepRuns, sr'.failureStrategy = .stop → Ends world sr' .failed →
    ∀ sr ∈ execution.stepRuns,
      execution.levelOf (execution.origin sr') < execution.levelOf (execution.origin sr) →
      Ends world sr .cancelled ∨ Ends world sr .skipped

/-- Every step run is taken up at the level of the definition it was expanded from. -/
def Filed : Prop :=
  ∀ sr ∈ execution.stepRuns, execution.stage sr = execution.levelOf (execution.origin sr)

instance : Decidable execution.Filed := inferInstanceAs (Decidable (∀ sr ∈ execution.stepRuns, _))

variable {execution}

/-! ### What a submission meets -/

theorem not_before_self (sr : StepRun) : ¬ execution.Before sr sr := by
  rintro ⟨level, isLevel, twice⟩
  have nodup := (nodup_levelRuns isLevel).sublist twice
  simp at nodup

theorem stage_eq_of_before (before : execution.Before sr' sr) :
    execution.stage sr' = execution.stage sr := by
  obtain ⟨level, isLevel, sub⟩ := before
  obtain ⟨k, atIndex⟩ := getElem?_of_mem isLevel
  have first : sr' ∈ execution.levelRuns level := sub.subset (by simp)
  have second : sr ∈ execution.levelRuns level := sub.subset (by simp)
  rw [((mem_levelRuns atIndex).mp first).2, ((mem_levelRuns atIndex).mp second).2]

variable {sr sr' : StepRun}

theorem seen_eq_iff : (execution.seen sr sr' = .failed ↔ execution.FailedBefore sr' sr) ∧
    (execution.seen sr sr' = .cancelled ↔ execution.CancelledBefore sr' sr) := by
  unfold seen FailedBefore CancelledBefore
  by_cases same : sr' = sr
  · subst same
    simp [not_before_self]
  rw [if_neg same]
  cases execution.skips sr' with
  | true => simp
  | false =>
    by_cases earlier : execution.stage sr' < execution.stage sr
    · have notBefore : ¬ execution.Before sr' sr := fun before =>
        absurd (stage_eq_of_before before) earlier.ne
      simp [earlier, notBefore]
    · by_cases before : execution.Before sr' sr
      · unfold started refused
        cases execution.outcomes.submit sr'.id <;> simp [earlier, before]
      · simp [earlier, before]

theorem seen_eq_failed_iff : execution.seen sr sr' = .failed ↔ execution.FailedBefore sr' sr :=
  seen_eq_iff.1

theorem skips_of_seen (seen : execution.seen sr sr' = .skipped) : execution.skips sr' = true := by
  unfold Execution.seen at seen
  split_ifs at seen with same skipped earlier before
  · exact skipped
  · rcases execution.ended_cases sr' with ended | ended | ended <;> simp [ended] at seen
  · unfold started at seen
    cases answer : execution.outcomes.submit sr'.id <;> simp [answer] at seen

variable {env : ℕ → DagMoment}

/-- **What the submission for a step run met is what `seen` says.** -/
theorem submission_seen (mem : submission ∈ (execution.result env).2.submissions)
    (isStepRun : sr ∈ execution.stepRuns) (isFor : IsFor submission sr) :
    execution.Launched sr ∧ ∀ sr' ∈ execution.stepRuns,
      submission.steps.stateOf sr'.id = some (execution.seen sr sr') := by
  obtain ⟨sr₀, isStepRun₀, launched, names, states⟩ :=
    launches_forecast env submission.launch (mem_map_of_mem mem)
  have same : sr₀ = sr := execution.eq_of_id isStepRun₀ isStepRun
    (some.inj (names.symm.trans isFor))
  subst same
  exact ⟨launched, states⟩

variable {state : PipelineRunState}

theorem exists_submission (returned : (execution.result env).1 = .ok state)
    (isStepRun : sr ∈ execution.stepRuns) (launched : execution.Launched sr) :
    ∃ submission ∈ (execution.result env).2.submissions, IsFor submission sr := by
  obtain ⟨launch, isLaunch, names⟩ :=
    (asForecast_of_ok returned).complete sr isStepRun launched
  obtain ⟨submission, mem, rfl⟩ := mem_map.mp isLaunch
  exact ⟨submission, mem, names⟩

theorem result_returns (execution : Execution) (env : ℕ → DagMoment)
    (quiet : ∀ n, (env n).Quiet) : ∃ state, (execution.result env).1 = .ok state := by
  have returns := DagExecutor.execute_returns execution.outcomes execution.executor
    execution.pipeline execution.run execution.stepRuns
  obtain ⟨state, returned⟩ := returns.run (fun n => ⟨env n, quiet n⟩) execution.world
  unfold quietly at returned
  rw [Prog.run_comap] at returned
  exact ⟨state, returned⟩

/-- **Where no store call fails, a run comes to its end:** it and its step runs are stored in
terminal states, and a job was submitted for exactly the step runs that are neither skipped nor
behind a stop. -/
theorem result_finished (execution : Execution) (env : ℕ → {moment : DagMoment // moment.Quiet}) :
    let result := execution.result fun n => (env n).1
    ∃ state, result.1 = .ok state ∧ result.2.runs.stateOf execution.run.id = some state ∧
    state.isTerminal ∧
      ∀ sr ∈ execution.stepRuns, (∃ final, Ends result.2 sr final ∧ final.isTerminal) ∧
        ((∃ submission ∈ result.2.submissions, IsFor submission sr) ↔ execution.Launched sr) := by
  obtain ⟨state, returned⟩ := execution.result_returns _ fun n => (env n).2
  have asForecast := asForecast_of_ok returned
  refine ⟨state, returned, asForecast.run, ?_, fun sr isStepRun =>
    ⟨⟨_, asForecast.states sr isStepRun, ?_⟩, ?_⟩⟩
  · rw [asForecast.verdict, verdict, computeFinalState]
    split_ifs <;> rfl
  · unfold finalState
    split_ifs
    · rfl
    · rcases execution.ended_cases sr with ended | ended | ended <;> rw [ended] <;> rfl
    · rfl
  · refine ⟨?_, exists_submission returned isStepRun⟩
    rintro ⟨submission, member, isFor⟩
    exact (submission_seen member isStepRun isFor).1

/-! ### Dependencies that came to a bad end -/

theorem dependencyLaw_of_clean (clean : execution.CleanDependencies) (env : ℕ → DagMoment) :
    execution.DependencyLaw (execution.result env).2 := by
  intro submission mem sr isStepRun isFor
  obtain ⟨launched, states⟩ := submission_seen mem isStepRun isFor
  refine ⟨fun sr' isStepRun' needed => ?_, fun sr' isStepRun' continued depends => ?_⟩
  · obtain ⟨notFailed, notCancelled⟩ := (clean sr isStepRun launched sr' isStepRun').1 needed
    rw [states sr' isStepRun', Ne, Ne, some_inj, some_inj, some_inj,
      seen_eq_failed_iff, seen_eq_iff.2]
    exact ⟨notFailed, notCancelled, skips_of_seen⟩
  · rw [states sr' isStepRun', Ne, some_inj, seen_eq_failed_iff]
    exact (clean sr isStepRun launched sr' isStepRun').2 continued depends

theorem clean_of_dependencyLaw (returned : (execution.result env).1 = .ok state)
    (law : execution.DependencyLaw (execution.result env).2) : execution.CleanDependencies := by
  intro sr isStepRun launched sr' isStepRun'
  obtain ⟨submission, mem, isFor⟩ := exists_submission returned isStepRun launched
  obtain ⟨-, states⟩ := submission_seen mem isStepRun isFor
  obtain ⟨direct, indirect⟩ := law submission mem sr isStepRun isFor
  refine ⟨fun needed => ?_, fun continued depends failed => ?_⟩
  · grind [seen_eq_iff]
  · grind [seen_eq_iff]

/-- **The dependency law holds in every run exactly if nothing that is launched depends on a job
that has come to a bad end before.** -/
theorem dependencyLaw_iff (execution : Execution) :
    (∀ env, execution.DependencyLaw (execution.result env).2) ↔ execution.CleanDependencies := by
  constructor
  · intro law
    obtain ⟨state, returned⟩ :=
      execution.result_returns (fun _ => {}) fun _ => ⟨rfl, none, rfl⟩
    exact clean_of_dependencyLaw returned (law _)
  · exact dependencyLaw_of_clean

/-! ### The order of the levels -/

theorem inLevel_levelOf (declared : name ∈ execution.names) :
    InLevel execution.levels (execution.levelOf name) name := by
  obtain ⟨i, level, atIndex, mem⟩ :=
    exists_inLevel_of_valid execution.valid execution.executor.order declared
  have inRange : execution.levelOf name < execution.levels.length :=
    findIdx_lt_length_of_exists ⟨level, mem_of_getElem? atIndex, decide_eq_true mem⟩
  have atLevel := findIdx_getElem (w := inRange)
  exact ⟨_, getElem?_eq_getElem inRange, of_decide_eq_true atLevel⟩

theorem origin_mem_names (mem : sr ∈ execution.stepRuns) :
    execution.origin sr ∈ execution.names := execution.name_mem_names mem

theorem levelOf_lt_of_needs (mem : sr ∈ execution.stepRuns) (mem' : sr' ∈ execution.stepRuns)
    (needed : execution.origin sr' ∈ execution.needs (execution.origin sr)) :
    execution.levelOf (execution.origin sr') < execution.levelOf (execution.origin sr) :=
  inLevel_lt_of_valid execution.valid needed (inLevel_levelOf (origin_mem_names mem))
    (inLevel_levelOf (origin_mem_names mem'))

theorem isTerminal_seen (earlier : execution.stage sr' < execution.stage sr) :
    (execution.seen sr sr').isTerminal = true := by
  have different : sr' ≠ sr := by
    rintro rfl
    exact lt_irrefl _ earlier
  unfold seen
  rw [if_neg different]
  cases execution.skips sr' with
  | true => rfl
  | false =>
    rw [if_neg Bool.false_ne_true, if_pos earlier]
    rcases execution.ended_cases sr' with ended | ended | ended <;> rw [ended] <;> rfl

/-- **Runs whose step runs are all filed under their own level** obey the order of the levels. -/
theorem orderLaw_of_filed (execution : Execution) (filed : execution.Filed) (env : ℕ → DagMoment) :
    execution.OrderLaw (execution.result env).2 ∧ ∀ state, (execution.result env).1 = .ok state →
        execution.CancelLaw (execution.result env).2 := by
  constructor
  · intro submission member sr isStepRun isFor
    obtain ⟨launched, states⟩ := submission_seen member isStepRun isFor
    refine ⟨fun sr' isStepRun' needed => ?_, fun sr' isStepRun' stop earlier => ?_⟩
    · refine ⟨_, states sr' isStepRun', isTerminal_seen ?_⟩
      rw [filed sr isStepRun, filed sr' isStepRun']
      exact levelOf_lt_of_needs isStepRun isStepRun' needed
    · rw [← filed sr isStepRun, ← filed sr' isStepRun'] at earlier
      rw [states sr' isStepRun', Ne, some_inj, seen_eq_failed_iff]
      rintro ⟨live, ⟨-, failed⟩ | ⟨before, -⟩⟩
      · exact launched.2 sr' isStepRun' earlier ⟨live, stop, failed⟩
      · exact absurd (stage_eq_of_before before) earlier.ne
  · intro state returned sr' isStepRun' stop ends sr isStepRun earlier
    have asForecast := asForecast_of_ok returned
    rw [← filed sr isStepRun, ← filed sr' isStepRun'] at earlier
    obtain ⟨launched', failed⟩ :=
      finalState_eq_failed.mp ((asForecast.ends_iff isStepRun').mp ends)
    have notLaunched : ¬ execution.Launched sr := fun launched =>
      launched.2 sr' isStepRun' earlier ⟨launched'.1, stop, failed⟩
    rw [asForecast.ends_iff isStepRun, asForecast.ends_iff isStepRun]
    unfold finalState
    rw [if_neg notLaunched]
    cases execution.skips sr with
    | true => exact .inr rfl
    | false => exact .inl rfl

/-! ### Runs of steps without matrices -/

def stepsPipeline (steps : List StepDef) : PipelineDef :=
  { jobs := [], jobsNodup := nodup_nil, steps := steps }

def stepRunOf (step : StepDef) : StepRun :=
  StepRun.new step.name 0 "run" step.name (failureStrategyOf step.failureStrategy)

def nodeOfStep (step : StepDef) : NodeDef :=
  ⟨step.name, step.needs, none, failureStrategyOf step.failureStrategy⟩

def nodeNamed (steps : List StepDef) (name : String) : NodeDef :=
  ((steps.find? fun step => step.name = name).map nodeOfStep).getD ⟨"", [], none, .stop⟩

theorem nodeNamed_eq (nodup : (steps.map StepDef.name).Nodup) (mem : step ∈ steps) :
    nodeNamed steps step.name = nodeOfStep step := by
  unfold nodeNamed
  cases found : steps.find? fun other => other.name = step.name with
  | none => grind
  | some other =>
    have same : other.name = step.name := by simpa using find?_some found
    rw [inj_on_of_nodup_map nodup (mem_of_find?_eq_some found) mem same]
    rfl

def stepsRun (steps : List StepDef) (valid : validatePipeline (stepsPipeline steps) = .ok ())
    (plain : ∀ step ∈ steps, step.matrix = none) (outcomes : Outcomes) : Execution :=
  have nodup : (steps.map StepDef.name).Nodup := by
    simpa [PipelineDef.names, PipelineDef.nodes, PipelineDef.jobsMode, stepsPipeline,
      Function.comp_def] using nodup_names_of_valid valid
  have ids : ((steps.map stepRunOf).map StepRun.id).Nodup := by
    simpa [Function.comp_def, stepRunOf, StepRun.new] using nodup
  { pipeline := stepsPipeline steps
    valid := valid
    run := createdRun
    stepRuns := steps.map stepRunOf
    nodeOf := fun sr => nodeNamed steps sr.stepName
    declared := by
      intro sr member
      obtain ⟨step, isStep, rfl⟩ := mem_map.mp member
      show nodeNamed steps step.name ∈ _
      rw [nodeNamed_eq nodup isStep, nodeOfStep, ← plain step isStep]
      exact mem_map_of_mem isStep
    expands := by
      intro sr member
      obtain ⟨step, isStep, rfl⟩ := mem_map.mp member
      show (nodeNamed steps step.name).Expands _ _
      rw [nodeNamed_eq nodup isStep]
      exact ⟨rfl, [step.name], rfl, mem_singleton.mpr rfl⟩
    namesNodup := by simpa [Function.comp_def, stepRunOf, StepRun.new] using nodup
    pending := by
      intro sr member
      obtain ⟨step, -, rfl⟩ := mem_map.mp member
      rfl
    world := ⟨⟨[createdRun], nodup_createdRun⟩, ⟨steps.map stepRunOf, ids⟩, []⟩
    stored := fun sr member => Table.find_eq_some.mpr ⟨member, rfl⟩
    runStored := some_ne_none createdRun
    unsubmitted := rfl
    executor := plainExecutor
    outcomes := outcomes }

/-- Every job is accepted; those of the named step runs fail, the others succeed. -/
def failing (names : List String) : Outcomes where
  submit id := .ok id
  expires _ _ := false
  observe jobId _ := .ok (some (jobIn (if jobId ∈ names then .failed else .succeeded)))

def buildStep : StepDef := { name := "build", failureStrategy := some "continue" }

def deployStep : StepDef := { name := "deploy", needs := ["build"] }

def deployRun (outcomes : Outcomes) : Execution :=
  stepsRun [buildStep, deployStep] rfl (by simp [buildStep, deployStep]) outcomes

/-- **The build fails, and the deployment that needs it is submitted.** -/
theorem not_dependencyLaw_deployRun : ¬ (deployRun (failing ["build"])).DependencyLaw
      ((deployRun (failing ["build"])).result fun _ => {}).2 := by
  intro law
  have submitted :
      ∃ submission ∈ ((deployRun (failing ["build"])).result fun _ => {}).2.submissions,
      IsFor submission (stepRunOf deployStep) ∧
        submission.steps.stateOf (stepRunOf buildStep).id = some .failed := by decide
  obtain ⟨submission, member, isFor, failed⟩ := submitted
  have clean := (law submission member (stepRunOf deployStep) (by decide) isFor).1
    (stepRunOf buildStep) (by decide) (by decide)
  exact clean.1 failed

/-- When the build succeeds, the deployment waits for it. -/
theorem orderLaw_deployRun :
    (deployRun (failing [])).OrderLaw ((deployRun (failing [])).result fun _ => {}).2 :=
  (orderLaw_of_filed (deployRun (failing [])) (by decide) fun _ => {}).1

/-- `c` needs `a (b)`, and `a` needs `c`; the name `a (b)` extends the name `a`. -/
def misfiledSteps : List StepDef :=
  [{ name := "a", needs := ["c"] }, { name := "a (b)" }, { name := "c", needs := ["a (b)"] }]

def misfiledRun : Execution :=
  stepsRun misfiledSteps rfl (by simp [misfiledSteps]) (failing [])

/-- **The step run of `a (b)` is taken for one of `a`, and `c` is submitted while it is pending.**
-/
theorem not_orderLaw_misfiledRun : ¬ misfiledRun.OrderLaw (misfiledRun.result fun _ => {}).2 := by
  intro law
  have submitted : ∃ submission ∈ (misfiledRun.result fun _ => {}).2.submissions,
      submission.job.spec.pipelineStepRunId = some "c" ∧
        submission.steps.stateOf "a (b)" = some .pending := by decide
  obtain ⟨submission, member, isFor, pending⟩ := submitted
  obtain ⟨state, stored, terminal⟩ :=
    (law submission member (stepRunOf { name := "c", needs := ["a (b)"] }) (by decide) isFor).1
      (stepRunOf { name := "a (b)" }) (by decide) (by decide)
  obtain rfl : .pending = state := some.inj (pending.symm.trans stored)
  cases terminal

end Execution

end Muli
