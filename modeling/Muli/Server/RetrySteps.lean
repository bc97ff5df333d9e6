/-
**The step runs of a retried run.**

A retry reads the stored YAML again and creates its step runs with an expansion of its own. Where
`expandSteps` leaves out what fails, `createStepsFromYaml` stops; and it does not record the
dependencies of a step.

* `retriedSteps_iff` — **the two create the same rows up to ids exactly for the definitions in which
  every matrix expands, no two step runs share a name, and no step has dependencies**; where they
  read the maps in different orders, exactly if they plan the same rows up to order.
-/

import Mathlib.Algebra.Order.BigOperators.Group.List
import Mathlib.Algebra.Ring.Nat
import Muli.Pipeline.Expansion
import Muli.Server.Actors

namespace Muli

open Interaction List Except

/-! ### The second expansion -/

def planStepAgain (toUppercase : String → String) (step : StepDef) :
    Except MuliError (List PlannedStep) :=
  (expandMatrix toUppercase step).map fun expanded => expanded.map fun copy =>
    ⟨copy.name, failureStrategyOf copy.failureStrategy, none, []⟩

def PipelineDef.plansAgain (toUppercase : String → String) (pipeline : PipelineDef) :
    List (Except MuliError (List PlannedStep)) :=
  if pipeline.jobsMode then pipeline.jobs.map fun job => planJob job.1 job.2
  else pipeline.steps.map (planStepAgain toUppercase)

/-- Create the step runs of one definition, up to the first that cannot be stored. -/
def createOrFail (runId tenantId : String) :
    List PlannedStep → ExceptT Status (Prog Dag) (List StepRun)
  | [] => pure []
  | planned :: plan => do
    match ← ExceptT.lift (createPlanned runId tenantId planned) with
    | .ok stepRun => do
      let created ← createOrFail runId tenantId plan
      pure (stepRun :: created)
    | .error e => throw ⟨.internal, "Failed to create step: " ++ e.toString⟩

/-- Create the step runs of some definitions, up to the first whose matrix cannot be expanded. -/
def createEachOrFail (runId tenantId : String) :
    List (Except MuliError (List PlannedStep)) → ExceptT Status (Prog Dag) (List StepRun)
  | [] => pure []
  | .error e :: _ => throw ⟨.invalidArgument, "Matrix expansion failed: " ++ e.toString⟩
  | .ok plan :: plans => do
    let created ← createOrFail runId tenantId plan
    let rest ← createEachOrFail runId tenantId plans
    pure (created ++ rest)

/-- **Create the step runs of a retried run**; `parsed` is what the parser makes of the YAML. -/
def createStepsFromYaml (toUppercase : String → String) (parsed : Except MuliError PipelineDef)
    (runId tenantId : String) : ExceptT Status (Prog Dag) (List StepRun) :=
  match parsed with
  | .error e => throw ⟨.invalidArgument, "Invalid pipeline YAML: " ++ e.toString⟩
  | .ok pipeline =>
    match validatePipeline pipeline with
    | .error e => throw ⟨.invalidArgument, "Pipeline validation failed: " ++ e.toString⟩
    | .ok () => createEachOrFail runId tenantId (pipeline.plansAgain toUppercase)

/-! ### A store that answers -/

/-- What an environment decides in which no store call fails and a generated id is not in use. -/
def Working : Type :=
  {decision : PipelineWorld → DagMoment // ∀ world, (decision world).storeFailure = none ∧
    ∀ row ∈ world.steps.rows, row.id ≠ (decision world).uuid}

def workingHandle : Handler Dag PipelineWorld Working := fun working op world =>
  dagHandle (working.1 world) op world

def Unused (runId : String) (names : List String) (world : PipelineWorld) : Prop :=
  ∀ row ∈ world.steps.rows, row.runId = runId → row.stepName ∉ names

/-- The names of the step runs of the run. -/
def PipelineWorld.takenNames (world : PipelineWorld) (runId : String) : List String :=
  (world.steps.rows.filter fun row => row.runId = runId).map StepRun.stepName

/-- The first step run of each name that is not taken. -/
def firstOfEach : List String → List PlannedStep → List PlannedStep
  | _, [] => []
  | taken, planned :: plan =>
    if planned.stepName ∈ taken then firstOfEach taken plan
    else planned :: firstOfEach (taken ++ [planned.stepName]) plan

def CanStore (runId : String) (plan : List PlannedStep) (world : PipelineWorld) : Prop :=
  (plan.map PlannedStep.stepName).Nodup ∧ Unused runId (plan.map PlannedStep.stepName) world

/-- The row without what differs from run to run: ids and times. -/
def StepRun.anonymous (sr : StepRun) : StepRun :=
  { sr with id := "", runId := "", createdAt := 0, updatedAt := 0 }

/-- The row of a planned step run without ids and times. -/
def PlannedStep.row (tenantId : String) (planned : PlannedStep) : StepRun :=
  planned.toStepRun "" 0 "" tenantId

/-- The planned step runs were all stored. -/
structure Added (runId tenantId : String) (plan : List PlannedStep) (before : PipelineWorld)
    (created : List StepRun) (after : PipelineWorld) : Prop where
  rows : after.steps.rows = before.steps.rows ++ created
  ofRun : ∀ sr ∈ created, sr.runId = runId
  alike : created.map StepRun.anonymous = plan.map (PlannedStep.row tenantId)

section Store

variable {runId tenantId : String} {plan plan' : List PlannedStep}
  {world world' world'' : PipelineWorld} {created created' : List StepRun}

theorem Added.nil : Added runId tenantId [] world [] world :=
  ⟨(append_nil _).symm, fun _ mem => absurd mem not_mem_nil, rfl⟩

theorem Added.append (first : Added runId tenantId plan world created world')
    (second : Added runId tenantId plan' world' created' world'') :
    Added runId tenantId (plan ++ plan') world (created ++ created') world'' := by
  refine ⟨by rw [second.rows, first.rows, append_assoc], fun sr mem => ?_, ?_⟩
  · rcases mem_append.mp mem with old | new
    · exact first.ofRun sr old
    · exact second.ofRun sr new
  · rw [map_append, map_append, first.alike, second.alike]

theorem Added.names (added : Added runId tenantId plan world created world') :
    created.map StepRun.stepName = plan.map PlannedStep.stepName := by
  have names := congrArg (map StepRun.stepName) added.alike
  simpa [Function.comp_def, StepRun.anonymous, PlannedStep.row, PlannedStep.toStepRun,
    StepRun.new] using names

theorem CanStore.left (fits : CanStore runId (plan ++ plan') world) :
    CanStore runId plan world := by
  unfold CanStore Unused at fits ⊢
  rw [map_append] at fits
  refine ⟨(nodup_append.mp fits.1).1, fun row stored ofRun used => ?_⟩
  exact fits.2 row stored ofRun (mem_append_left _ used)

/-- **After the first plan the second fits exactly if both fit together.** -/
theorem Added.canStore_iff (added : Added runId tenantId plan world created world')
    (fits : CanStore runId plan world) :
    CanStore runId plan' world' ↔ CanStore runId (plan ++ plan') world := by
  unfold CanStore Unused at fits ⊢
  rw [map_append, nodup_append, ← added.names, added.rows]
  rw [← added.names] at fits
  constructor
  · rintro ⟨nodup, unused⟩
    refine ⟨⟨fits.1, nodup, fun name old name' new same => ?_⟩, fun row stored ofRun used => ?_⟩
    · obtain ⟨sr, mem, rfl⟩ := mem_map.mp old
      exact unused sr (mem_append_right _ mem) (added.ofRun sr mem) (same ▸ new)
    · rcases mem_append.mp used with inFirst | inSecond
      · exact fits.2 row stored ofRun inFirst
      · exact unused row (mem_append_left _ stored) ofRun inSecond
  · rintro ⟨⟨-, nodup, apart⟩, unused⟩
    refine ⟨nodup, fun row stored ofRun used => ?_⟩
    rcases mem_append.mp stored with old | new
    · exact unused row old ofRun (mem_append_right _ used)
    · exact apart _ (mem_map_of_mem new) _ used rfl

theorem canStore_singleton : CanStore runId [planned] world ↔
    planned.stepName ∉ world.takenNames runId := by
  unfold CanStore Unused PipelineWorld.takenNames
  simp only [map_cons, map_nil, nodup_singleton, true_and, mem_singleton, mem_map, mem_filter,
    decide_eq_true_eq, not_exists, not_and]
  exact ⟨fun free row stored => free row stored.1 stored.2, fun free row stored ofRun =>
    free row ⟨stored, ofRun⟩⟩

/-- **Where the store answers, a step run is created exactly if its name is unused**; otherwise
nothing changes. -/
theorem createPlanned_stores (runId tenantId : String) (planned : PlannedStep)
    (world : PipelineWorld) :
    (createPlanned runId tenantId planned).Ensures workingHandle (fun outcome world' =>
      (CanStore runId [planned] world ∧ ∃ sr, outcome = .ok sr ∧
        Added runId tenantId [planned] world [sr] world') ∨
      ¬ CanStore runId [planned] world ∧ world' = world ∧ ∃ e, outcome = .error e) world := by
  intro moment moment' moment''
  let stepRun := planned.toStepRun (moment.1 world).uuid (moment'.1 world).now runId tenantId
  have clashes : world.steps.Clashes stepRun ↔ ¬ CanStore runId [planned] world := by
    have newId : ∀ row ∈ world.steps.rows, row.id ≠ stepRun.id := (moment.2 world).2
    constructor
    · rintro ⟨row, stored, sameId | ⟨ofRun, sameName⟩⟩ fits
      · exact newId row stored sameId
      · exact fits.2 row stored ofRun (mem_singleton.mpr sameName)
    · intro misfit
      by_contra free
      refine misfit ⟨nodup_singleton _, fun row stored ofRun used => free ?_⟩
      exact ⟨row, stored, .inr ⟨ofRun, mem_singleton.mp used⟩⟩
  have answers : (moment''.1 world).storeFailure = none := (moment''.2 world).1
  let answer := dagHandle (moment''.1 world) (.createStep stepRun) world
  show (CanStore runId [planned] world ∧ ∃ sr, answer.1.map (fun _ => stepRun) = .ok sr ∧
      Added runId tenantId [planned] world [sr] answer.2) ∨
    ¬ CanStore runId [planned] world ∧ answer.2 = world ∧
      ∃ e, answer.1.map (fun _ => stepRun) = .error e
  simp only [answer]
  rw [dagHandle_createStep]
  by_cases clash : world.steps.Clashes stepRun
  · rw [dif_pos clash, stored, answers]
    exact .inr ⟨clashes.mp clash, rfl, _, rfl⟩
  · rw [dif_neg clash, stored, answers]
    refine .inl ⟨not_not.mp (mt clashes.mpr clash), stepRun, rfl, rfl, fun sr mem => ?_, rfl⟩
    rw [mem_singleton.mp mem]
    rfl

theorem createPlanned_working (runId tenantId : String) (planned : PlannedStep)
    (world : PipelineWorld) :
    Decides workingHandle (ExceptT.mk (createPlanned runId tenantId planned))
      (CanStore runId [planned] world)
      (fun sr => Added runId tenantId [planned] world [sr]) world :=
  (createPlanned_stores runId tenantId planned world).mono fun _ _ result =>
    result.imp_right fun ⟨misfit, _, failed⟩ => ⟨misfit, failed⟩

/-! ### What the two programs create -/

variable {plan : List PlannedStep} {world : PipelineWorld}

theorem createSteps_working (runId tenantId : String) (plan : List PlannedStep)
    (world : PipelineWorld) : (createSteps runId tenantId plan).Ensures workingHandle
      (Added runId tenantId (firstOfEach (world.takenNames runId) plan) world) world := by
  induction plan generalizing world with
  | nil => exact .nil
  | cons planned plan ih =>
    refine Prog.ensures_bind.mpr ?_
    refine (createPlanned_stores runId tenantId planned world).mono fun outcome world' result => ?_
    rw [canStore_singleton, not_not] at result
    rcases result with ⟨free, sr, rfl, added⟩ | ⟨taken, rfl, e, rfl⟩
    · have names : world'.takenNames runId = world.takenNames runId ++ [planned.stepName] := by
        have ofRun := added.ofRun sr mem_cons_self
        have isName := added.names
        unfold PipelineWorld.takenNames
        simp_all [added.rows]
      refine Prog.ensures_bind.mpr ((ih world').mono fun created world'' later => ?_)
      rw [names] at later
      rw [firstOfEach, if_neg free]
      exact added.append later
    · rw [firstOfEach, if_pos taken]
      exact ih _

theorem createSteps_append (runId tenantId : String) (plan plan' : List PlannedStep) :
    createSteps runId tenantId (plan ++ plan') =
      createSteps runId tenantId plan >>= fun created =>
        createSteps runId tenantId plan' >>= fun rest => pure (created ++ rest) := by
  induction plan with
  | nil => simp [createSteps]
  | cons planned plan ih =>
    simp only [cons_append, createSteps, ih, bind_assoc]
    refine congrArg _ (funext fun outcome => ?_)
    cases outcome <;> simp

/-- One definition after the other, or all step runs at once. -/
theorem expandEach_eq (runId tenantId : String)
    (plans : List (Except MuliError (List PlannedStep))) : expandEach runId tenantId plans =
      createSteps runId tenantId (plans.filterMap Except.toOption).flatten := by
  induction plans with
  | nil => rfl
  | cons first plans ih =>
    cases first with
    | error e => exact ih
    | ok plan =>
      rw [expandEach, ih]
      exact (createSteps_append runId tenantId plan _).symm

theorem firstOfEach_of_nodup {taken : List String}
    (nodup : (taken ++ plan.map PlannedStep.stepName).Nodup) : firstOfEach taken plan = plan := by
  induction plan generalizing taken with
  | nil => rfl
  | cons planned plan ih =>
    have free : planned.stepName ∉ taken := fun used =>
      (nodup_append.mp nodup).2.2 _ used _ mem_cons_self rfl
    rw [firstOfEach, if_neg free, ih (by simpa using nodup)]

theorem createOrFail_working (runId tenantId : String) (plan : List PlannedStep)
    (world : PipelineWorld) :
    Decides workingHandle (createOrFail runId tenantId plan) (CanStore runId plan world)
      (Added runId tenantId plan world) world := by
  induction plan generalizing world with
  | nil => exact .pure ⟨nodup_nil, fun _ _ _ => not_mem_nil⟩ Added.nil
  | cons planned plan ih =>
    refine .liftBind ?_
    have first := createPlanned_working runId tenantId planned world
    refine .mono first fun outcome world' created => ?_
    rcases created with ⟨head, sr, rfl, added⟩ | ⟨misfit, e, rfl⟩
    · have rest := (ih world').congr (added.canStore_iff head)
      refine rest.bind id fun created world'' fits added' => ?_
      exact .pure fits (added.append added')
    · refine .throw fun fits => misfit ?_
      have both : CanStore runId ([planned] ++ plan) world := fits
      exact both.left

def joinPlans : List (Except MuliError (List PlannedStep)) → Except MuliError (List PlannedStep)
  | [] => .ok []
  | .error e :: _ => .error e
  | .ok plan :: plans => (joinPlans plans).map (plan ++ ·)

theorem flatten_of_joinPlans (joined : joinPlans plans = .ok plan) :
    (plans.filterMap Except.toOption).flatten = plan := by
  induction plans generalizing plan with
  | nil => exact ok.inj joined
  | cons first plans ih =>
    cases first with
    | error e => cases joined
    | ok first =>
      cases rest : joinPlans plans with
      | error e =>
        rw [joinPlans, rest] at joined
        cases joined
      | ok later =>
        rw [joinPlans, rest] at joined
        cases joined
        exact congrArg (first ++ ·) (ih rest)

theorem createEachOrFail_working (runId tenantId : String)
    (plans : List (Except MuliError (List PlannedStep))) (world : PipelineWorld) :
    Decides workingHandle (createEachOrFail runId tenantId plans)
      (∃ plan, joinPlans plans = .ok plan ∧ CanStore runId plan world)
      (fun created world' => ∃ plan, joinPlans plans = .ok plan ∧
        Added runId tenantId plan world created world') world := by
  induction plans generalizing world with
  | nil =>
    exact .pure ⟨[], rfl, nodup_nil, fun _ _ _ => not_mem_nil⟩
      ⟨[], rfl, .nil⟩
  | cons first plans ih =>
    cases first with
    | error e => exact .throw fun ⟨_, joined, _⟩ => nomatch joined
    | ok first =>
      have joins : ∀ plan, joinPlans (.ok first :: plans) = .ok plan ↔
          ∃ later, joinPlans plans = .ok later ∧ first ++ later = plan := by
        intro plan
        rw [joinPlans]
        cases joinPlans plans <;> simp [Except.map]
      simp only [joins]
      refine (createOrFail_working runId tenantId first world).bind ?_ ?_
      · rintro ⟨_, ⟨later, -, rfl⟩, fits⟩
        exact fits.left
      · intro created world' fits added
        have same : (∃ later, joinPlans plans = .ok later ∧ CanStore runId later world') ↔
            ∃ plan, (∃ later, joinPlans plans = .ok later ∧ first ++ later = plan) ∧
              CanStore runId plan world := by
          constructor
          · rintro ⟨later, joined, fits'⟩
            exact ⟨_, ⟨later, joined, rfl⟩, (added.canStore_iff fits).mp fits'⟩
          · rintro ⟨_, ⟨later, joined, rfl⟩, both⟩
            exact ⟨later, joined, (added.canStore_iff fits).mpr both⟩
        refine ((ih world').congr same).bind id fun created' world'' holds result => ?_
        obtain ⟨later, joined, added'⟩ := result
        exact .pure holds ⟨_, ⟨later, joined, rfl⟩, added.append added'⟩

theorem canStore_iff_of_new (new : ∀ row ∈ world.steps.rows, row.runId ≠ runId) :
    CanStore runId plan world ↔ (plan.map PlannedStep.stepName).Nodup :=
  ⟨fun fits => fits.1, fun nodup => ⟨nodup, fun row stored ofRun => absurd ofRun (new row stored)⟩⟩

end Store

/-! ### The two plans -/

def PlannedStep.withoutNeeds (planned : PlannedStep) :
    PlannedStep := { planned with dependsOn := [] }

theorem planStepAgain_eq (toUppercase : String → String) (step : StepDef) :
      planStepAgain toUppercase step =
      (planStep toUppercase step).map (map PlannedStep.withoutNeeds) := by
  unfold planStepAgain planStep
  cases expandMatrix toUppercase step with
  | error e => rfl
  | ok expanded =>
    simp only [Except.map, map_map]
    rfl

theorem joinPlans_map (f : PlannedStep → PlannedStep)
    (plans : List (Except MuliError (List PlannedStep))) :
    joinPlans (plans.map (Except.map (map f))) = (joinPlans plans).map (map f) := by
  induction plans with
  | nil => rfl
  | cons first plans ih =>
    cases first with
    | error e => rfl
    | ok first =>
      rw [map_cons, Except.map, joinPlans, joinPlans, ih]
      cases joinPlans plans with
      | error e => rfl
      | ok later => simp [Except.map]

/-- What a retry plans: the same in jobs mode, the same without dependencies in steps mode. -/
def PipelineDef.replan (pipeline : PipelineDef) (planned : PlannedStep) : PlannedStep :=
  if pipeline.jobsMode then planned else planned.withoutNeeds

theorem joinPlans_plansAgain (toUppercase : String → String) (pipeline : PipelineDef) :
    joinPlans (pipeline.plansAgain toUppercase) =
      (joinPlans (pipeline.plans toUppercase)).map (map pipeline.replan) := by
  rw [← joinPlans_map]
  unfold PipelineDef.plansAgain PipelineDef.plans PipelineDef.replan
  split_ifs with jobs
  · have unchanged : ∀ outcome : Except MuliError (List PlannedStep),
        outcome.map (.map fun planned => planned) = outcome := by
      intro outcome
      cases outcome <;> simp [Except.map]
    simp only [unchanged, map_map, Function.comp_def]
  · simp only [map_map, Function.comp_def, ← planStepAgain_eq]

theorem replan_stepName (pipeline : PipelineDef) (planned : PlannedStep) :
    (pipeline.replan planned).stepName = planned.stepName := by
  unfold PipelineDef.replan
  split_ifs <;> rfl

theorem map_row_replan_iff (tenantId : String) (pipeline : PipelineDef) (plan : List PlannedStep) :
    (plan.map pipeline.replan).map (PlannedStep.row tenantId) =
    plan.map (PlannedStep.row tenantId) ↔
      pipeline.jobsMode ∨ ∀ planned ∈ plan, planned.dependsOn = [] := by
  unfold PipelineDef.replan
  rw [map_map, map_inj_left]
  by_cases jobs : pipeline.jobsMode
  · simp [jobs]
  · simp only [jobs, Bool.false_eq_true, if_false, false_or, Function.comp_def]
    refine forall₂_congr fun planned _ => ?_
    constructor
    · exact fun same => (congrArg StepRun.dependsOn same).symm
    · intro noNeeds
      unfold PlannedStep.withoutNeeds
      rw [← noNeeds]

theorem row_injective (tenantId : String) : Function.Injective (PlannedStep.row tenantId) := by
  intro planned planned' same
  cases planned
  cases planned'
  cases same
  rfl

/-- The step runs that a trigger creates: the first of each name. -/
def PipelineDef.created (toUppercase : String → String) (pipeline : PipelineDef) :
    List PlannedStep :=
  firstOfEach [] ((pipeline.plans toUppercase).filterMap Except.toOption).flatten

theorem created_of_nodup (joined : joinPlans (PipelineDef.plans toUppercase pipeline) = .ok plan)
    (nodup : (plan.map PlannedStep.stepName).Nodup) : pipeline.created toUppercase = plan := by
  unfold PipelineDef.created
  rw [flatten_of_joinPlans joined]
  exact firstOfEach_of_nodup nodup

/-! ### The two paths -/

section Paths

variable (toUppercase : String → String) (pipeline : PipelineDef) (tenantId : String)
  {runId : String} {world : PipelineWorld}

section

variable (new : ∀ row ∈ world.steps.rows, row.runId ≠ runId)
include new

theorem expandSteps_working :
    (expandSteps toUppercase tenantId pipeline runId).Ensures workingHandle
      (fun created _ => created.map StepRun.anonymous =
        (pipeline.created toUppercase).map (PlannedStep.row tenantId)) world := by
  have none : world.takenNames runId = [] := by
    unfold PipelineWorld.takenNames
    rw [filter_eq_nil_iff.mpr (by simpa using new), map_nil]
  unfold expandSteps
  rw [expandEach_eq]
  refine (createSteps_working runId tenantId _ world).mono fun _ _ added => ?_
  rw [none] at added
  exact added.alike

theorem createStepsFromYaml_working :
    Decides workingHandle (createStepsFromYaml toUppercase (.ok pipeline) runId tenantId)
      (validatePipeline pipeline = .ok () ∧ ∃ plan,
        joinPlans (pipeline.plans toUppercase) = .ok plan ∧ (plan.map PlannedStep.stepName).Nodup)
      (fun created _ => ∃ plan, joinPlans (pipeline.plans toUppercase) = .ok plan ∧
        created.map StepRun.anonymous = (plan.map pipeline.replan).map (PlannedStep.row tenantId))
        world := by
  have names : ∀ plan : List PlannedStep, (plan.map pipeline.replan).map PlannedStep.stepName =
      plan.map PlannedStep.stepName := fun plan => by
    rw [map_map]
    exact map_congr_left fun planned _ => replan_stepName pipeline planned
  have joins : ∀ again, joinPlans (pipeline.plansAgain toUppercase) = .ok again ↔
      ∃ plan, joinPlans (pipeline.plans toUppercase) = .ok plan ∧
        plan.map pipeline.replan = again := by
    intro again
    rw [joinPlans_plansAgain]
    cases joinPlans (pipeline.plans toUppercase) <;> simp [Except.map]
  cases accepted : validatePipeline pipeline with
  | error e => grind [createStepsFromYaml, Decides.throw]
  | ok _ =>
    simp only [createStepsFromYaml, accepted]
    refine ((createEachOrFail_working runId tenantId _ world).congr ?_).mono ?_
    · constructor
      · rintro ⟨again, joined, fits⟩
        obtain ⟨plan, planned, rfl⟩ := (joins again).mp joined
        exact ⟨trivial, plan, planned, names plan ▸ fits.1⟩
      · rintro ⟨-, plan, planned, nodup⟩
        refine ⟨_, (joins _).mpr ⟨plan, planned, rfl⟩, (canStore_iff_of_new new).mpr ?_⟩
        exact (names plan).symm ▸ nodup
    · rintro created world' ⟨again, joined, added⟩
      obtain ⟨plan, planned, rfl⟩ := (joins again).mp joined
      exact ⟨plan, planned, added.alike⟩

/-- A retry creates rows with a property exactly if it plans such rows, each under a name of its
own. -/
theorem retried_iff (env : ℕ → Working) (R : List StepRun → Prop) :
    (∃ created,
      ((createStepsFromYaml toUppercase (.ok pipeline) runId tenantId).run.run workingHandle
        env world).1 = .ok created ∧ R (created.map StepRun.anonymous)) ↔
      validatePipeline pipeline = .ok () ∧
      ∃ plan, joinPlans (pipeline.plans toUppercase) = .ok plan ∧
        (plan.map PlannedStep.stepName).Nodup ∧
        R ((plan.map pipeline.replan).map (PlannedStep.row tenantId)) := by
  rcases Prog.Ensures.run (createStepsFromYaml_working toUppercase pipeline tenantId new) env with
    ⟨⟨valid, plan, joined, nodup⟩, created, answer, plan', joined', rows⟩ | ⟨refused, stop, answer⟩
  · obtain rfl : plan = plan' := ok.inj (joined.symm.trans joined')
    rw [answer]
    constructor
    · rintro ⟨_, ⟨⟩, holds⟩
      exact ⟨valid, plan, joined, nodup, rows ▸ holds⟩
    · rintro ⟨-, plan', joined', -, holds⟩
      obtain rfl : plan = plan' := ok.inj (joined.symm.trans joined')
      exact ⟨created, rfl, rows ▸ holds⟩
  · rw [answer]
    constructor
    · rintro ⟨_, ⟨⟩, -⟩
    · rintro ⟨valid, plan, joined, nodup, -⟩
      exact absurd ⟨valid, plan, joined, nodup⟩ refused

end

end Paths

/-- **A retry of the definition expands like a trigger:** the definition is accepted, every matrix
expands, no two step runs share a name, and no dependency of a step is lost. -/
def PipelineDef.RetriesAlike (toUppercase : String → String) (pipeline : PipelineDef) : Prop :=
  validatePipeline pipeline = .ok () ∧ ∃ plan, joinPlans (pipeline.plans toUppercase) = .ok plan ∧
    (plan.map PlannedStep.stepName).Nodup ∧
    (pipeline.jobsMode ∨ ∀ planned ∈ plan, planned.dependsOn = [])

/-- **A retry that reads the definition as `reread` plans what a trigger created from `pipeline`**,
in any order. -/
def PipelineDef.RereadAlike (toUppercase : String → String) (pipeline reread : PipelineDef) :
    Prop :=
  validatePipeline reread = .ok () ∧ ∃ plan, joinPlans (reread.plans toUppercase) = .ok plan ∧
    (plan.map PlannedStep.stepName).Nodup ∧
    (plan.map reread.replan).Perm (pipeline.created toUppercase)

/-- **The step runs a retry creates are those a trigger created**, up to ids and times; the two
paths may read the YAML into maps with different iteration orders. -/
def SameSteps (toUppercase : String → String) (triggered retried : PipelineDef)
    (tenantId runId retryId : String) (world world' : PipelineWorld) (env env' : ℕ → Working) :
    Prop :=
  ((createStepsFromYaml toUppercase (.ok retried) retryId tenantId).run.run workingHandle env'
      world').1.map (map StepRun.anonymous) =
    .ok (((expandSteps toUppercase tenantId triggered runId).run workingHandle env world).1.map
      StepRun.anonymous)

/-- The same rows in any order. -/
def SameRows (toUppercase : String → String) (triggered retried : PipelineDef)
    (tenantId runId retryId : String) (world world' : PipelineWorld) (env env' : ℕ → Working) :
    Prop :=
  ∃ created, ((createStepsFromYaml toUppercase (.ok retried) retryId tenantId).run.run workingHandle
      env' world').1 = .ok created ∧
    (created.map StepRun.anonymous).Perm
      (((expandSteps toUppercase tenantId triggered runId).run workingHandle env world).1.map
        StepRun.anonymous)

/-- **A retry that reads the maps in the same order creates the same step runs exactly if the
definition retries alike**; with another reading it creates the same rows, in any order, exactly if
it plans them. -/
theorem retriedSteps_iff (toUppercase : String → String) (pipeline : PipelineDef)
    (tenantId : String) {runId retryId : String} {world world' : PipelineWorld}
    (new : ∀ row ∈ world.steps.rows, row.runId ≠ runId)
    (new' : ∀ row ∈ world'.steps.rows, row.runId ≠ retryId) (env env' : ℕ → Working) :
    (SameSteps toUppercase pipeline pipeline tenantId runId retryId world world' env env' ↔
      pipeline.RetriesAlike toUppercase) ∧
    ∀ reread, SameRows toUppercase pipeline reread tenantId runId retryId world world' env env' ↔
      pipeline.RereadAlike toUppercase reread := by
  have triggered := (expandSteps_working toUppercase pipeline tenantId new).run env
  unfold SameSteps SameRows
  rw [triggered]
  refine ⟨?_, fun reread => ?_⟩
  · have isOk : ∀ (outcome : Except Status (List StepRun)) (rows : List StepRun),
        outcome.map (map StepRun.anonymous) = .ok rows ↔
          ∃ created, outcome = .ok created ∧ created.map StepRun.anonymous = rows := by
      intro outcome rows
      cases outcome <;> simp [Except.map]
    rw [isOk, retried_iff toUppercase pipeline tenantId new' env' (· = _)]
    refine and_congr_right fun _ => exists_congr fun plan => and_congr_right fun joined =>
      and_congr_right fun nodup => ?_
    rw [created_of_nodup joined nodup, map_row_replan_iff]
  · rw [retried_iff toUppercase reread tenantId new' env' (Perm · _)]
    refine and_congr_right fun _ => exists_congr fun plan => and_congr_right fun _ =>
      and_congr_right fun _ => ?_
    rw [map_perm_map_iff (row_injective tenantId)]

/-! ### Definitions that retry alike, and others -/

def unusedId (world : PipelineWorld) : String :=
  String.ofList (replicate (1 + (world.steps.rows.map fun row => row.id.length).sum) 'x')

theorem unusedId_ne (stored : row ∈ world.steps.rows) : row.id ≠ unusedId world := by
  intro same
  have length := congrArg String.length same
  have bound : row.id.length ≤ (world.steps.rows.map fun row => row.id.length).sum :=
    le_sum_of_mem (mem_map_of_mem stored)
  simp only [unusedId, String.length_ofList, length_replicate] at length
  omega

def drawUnused : Working :=
  ⟨fun world => { uuid := unusedId world }, fun _ => ⟨rfl, fun _ stored => unusedId_ne stored⟩⟩

def noSteps : PipelineWorld := ⟨∅, ∅, []⟩

def matrixJobs : PipelineDef where
  jobs := [("build", { matrix := some ⟨[("os", ["linux", "mac"])], by decide⟩ }),
    ("test", { needs := ["build"] })]
  jobsNodup := by decide
  steps := []

/-- The same definition, with its jobs read in the other order. -/
def matrixJobsReread : PipelineDef where
  jobs := matrixJobs.jobs.reverse
  jobsNodup := by decide
  steps := []

theorem retriedSteps_matrixJobs :
    matrixJobs.RetriesAlike capitals ∧
    SameSteps capitals matrixJobs matrixJobs "tenant" "run" "retry"
      noSteps noSteps (fun _ => drawUnused) (fun _ => drawUnused) ∧
    SameRows capitals matrixJobs matrixJobsReread "tenant" "run" "retry" noSteps noSteps
      (fun _ => drawUnused) fun _ => drawUnused := by
  have alike : matrixJobs.RetriesAlike capitals :=
    ⟨by decide +kernel, _, rfl, by decide +kernel, .inl rfl⟩
  have rereadAlike : matrixJobs.RereadAlike capitals matrixJobsReread :=
    ⟨by decide +kernel, _, rfl, by decide +kernel, by decide +kernel⟩
  have none : ∀ runId, ∀ row ∈ noSteps.steps.rows, row.runId ≠ runId :=
    fun _ _ absent => absurd absent not_mem_nil
  obtain ⟨same, sameRows⟩ := retriedSteps_iff capitals matrixJobs "tenant" (none "run")
    (none "retry") (fun _ => drawUnused) fun _ => drawUnused
  exact ⟨alike, same.mpr alike, (sameRows matrixJobsReread).mpr rereadAlike⟩

def buildThenDeploy : PipelineDef where
  jobs := []
  jobsNodup := nodup_nil
  steps := [{ name := "build" }, { name := "deploy", needs := ["build"] }]

def repeatedValue : PipelineDef where
  jobs := [("build", { matrix := some ⟨[("os", ["linux", "linux"])], by decide⟩ })]
  jobsNodup := by decide
  steps := []

def twoVariables (entries : List (String × List String)) (nodup : (entries.map Prod.fst).Nodup) :
    PipelineDef where
  jobs := [("build", { matrix := some ⟨entries, nodup⟩ })]
  jobsNodup := nodup_singleton _
  steps := []

/-- **A retry loses the dependencies of steps, refuses a repeated name that a trigger leaves out,
and names the step runs after the order in which it reads the matrix.** -/
theorem not_sameSteps :
      (∀ pipeline ∈ [buildThenDeploy, repeatedValue], validatePipeline pipeline = .ok () ∧
      ¬ SameSteps capitals pipeline pipeline "tenant" "run" "retry" noSteps noSteps
        (fun _ => drawUnused) fun _ => drawUnused) ∧ ¬ SameSteps capitals
      (twoVariables [("os", ["linux"]), ("arch", ["arm"])] (by decide))
      (twoVariables [("arch", ["arm"]), ("os", ["linux"])] (by decide))
      "tenant" "run" "retry" noSteps noSteps (fun _ => drawUnused) fun _ => drawUnused := by
  unfold SameSteps
  decide +kernel

end Muli
