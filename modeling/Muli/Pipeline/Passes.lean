/-
**What holds of all calls of the executor holds of the executor.**

The executor is put together from calls on the stores, waits and submissions by sequencing and by
loops over lists. A property of programs that sequencing keeps carries over from the parts to the
whole.

* `EditClosed.execute` — **the executor has such a property if the submissions it makes have it**:
  those of the jobs that `buildFn` builds for the step runs assigned to a definition.
-/

import Muli.Interaction.Typestate
import Muli.Pipeline.Executor

namespace Muli

open Interaction DagExecutor

def PipelineRun.started (run : PipelineRun) (startedAt updatedAt : Timestamp) : PipelineRun :=
  { run with state := .running, startedAt := some startedAt, updatedAt := updatedAt }

def Waits : DagOp → Prop
  | .checkDeadline .. | .pollJob .. => True
  | _ => False

theorem waitForJob_callsOnly (jobId : String) (deadline : Timestamp) (polls attempt : ℕ) :
    (waitForJob jobId deadline polls attempt).CallsOnly Waits := by
  induction polls generalizing attempt with
  | zero => exact .pure _
  | succ polls ih =>
    have deadlineCall : (Prog.perform (I := Dag) (.checkDeadline jobId attempt deadline)).CallsOnly
        Waits := .perform trivial
    have pollCall : (Prog.perform (I := Dag) (.pollJob jobId attempt)).CallsOnly Waits :=
      Prog.CallsOnly.perform trivial
    refine deadlineCall.bind (f := fun expired => _) fun expired => ?_
    cases expired with
    | true => exact .pure _
    | false =>
      refine pollCall.bind (f := fun answer => _) fun answer => ?_
      cases answer with
      | error e => exact ih (attempt + 1)
      | ok row =>
        cases row with
        | none => exact .pure _
        | some job =>
          dsimp only
          split_ifs
          · exact .pure _
          · exact ih (attempt + 1)

/-- **A property of programs of the executor that sequencing keeps** and all calls have but
submissions. -/
structure CallClosed (C : (α : Type) → DagM α → Prop) : Prop where
  pure {α : Type} (value : α) : C α (pure value)
  bind {α β : Type} {p : DagM α} {f : α → DagM β} (first : C α p) (next : ∀ value, C β (f value)) :
    C β (p >>= f)
  getStep (id : String) : C _ (getStep id)
  updateStep (step : StepRun) : C _ (updateStep step)
  updateStepState (id : String) (state : StepRunState) : C _ (updateStepState id state)
  updateRun (run : PipelineRun) : C _ (updateRun run)
  getJob (jobId : String) : C _ (getJob jobId)
  newUuid : C _ newUuid
  utcNow : C _ utcNow
  waitForJob (jobId : String) (deadline : Timestamp) (polls attempt : ℕ) :
    C _ (ExceptT.lift (waitForJob jobId deadline polls attempt))

/-- **A property of programs of the executor that sequencing keeps** and that the edits of a row and
all other calls have but submissions. -/
structure EditClosed (C : (α : Type) → DagM α → Prop) : Prop where
  pure {α : Type} (value : α) : C α (pure value)
  bind {α β : Type} {p : DagM α} {f : α → DagM β} (first : C α p) (next : ∀ value, C β (f value)) :
    C β (p >>= f)
  getStep (id : String) : C _ (getStep id)
  updateStepState (id : String) (state : StepRunState) : C _ (updateStepState id state)
  updateRun (run : PipelineRun) : C _ (updateRun run)
  getJob (jobId : String) : C _ (getJob jobId)
  newUuid : C _ newUuid
  utcNow : C _ utcNow
  waitForJob (jobId : String) (deadline : Timestamp) (polls attempt : ℕ) :
    C _ (ExceptT.lift (waitForJob jobId deadline polls attempt))
  startStep (sr : StepRun) (substeps : List JobSubstepRun) : C _ (startStep sr substeps)
  linkJob (sr : StepRun) (jobId : String) : C _ (linkJob sr jobId)
  failSubmission (sr : StepRun) (e : MuliError) : C _ (failSubmission sr e)
  finishStep (sr : StepRun) (stepState : StepRunState) (errorMessage : Option String) :
    C _ (finishStep sr stepState errorMessage)

namespace CallClosed

variable {C : (α : Type) → DagM α → Prop} (closed : CallClosed C)
include closed

theorem rewriteStep (id : String) (change : StepRun → Timestamp → Timestamp → StepRun)
    (holds : C _ missing) : C _ (rewriteStep id change missing) := by
  refine closed.bind (closed.getStep id) fun row => ?_
  cases row with
  | none => exact holds
  | some step =>
    exact closed.bind closed.utcNow fun _ => closed.bind closed.utcNow fun _ =>
      closed.updateStep _

theorem linkJob (sr : StepRun) (jobId : String) : C _ (linkJob sr jobId) := by
  refine closed.bind (closed.getStep sr.id) fun row => ?_
  cases row with
  | none => exact closed.pure ()
  | some step => exact closed.bind closed.utcNow fun _ => closed.updateStep _

theorem edits : EditClosed C where
  pure := closed.pure
  bind := closed.bind
  getStep := closed.getStep
  updateStepState := closed.updateStepState
  updateRun := closed.updateRun
  getJob := closed.getJob
  newUuid := closed.newUuid
  utcNow := closed.utcNow
  waitForJob := closed.waitForJob
  startStep _ _ := closed.rewriteStep _ _ (closed.updateStepState _ _)
  linkJob := closed.linkJob
  failSubmission _ _ := closed.rewriteStep _ _ (closed.updateStepState _ _)
  finishStep _ _ _ := closed.rewriteStep _ _ (closed.pure ())

end CallClosed

namespace EditClosed

open DagExecutor

variable {C : (α : Type) → DagM α → Prop} (closed : EditClosed C)
include closed

theorem forM {ι : Type} {items : List ι} {f : ι → DagM Unit} (each : ∀ item, C Unit (f item)) :
    C Unit (items.forM f) := by
  induction items with
  | nil => exact closed.pure ()
  | cons item items ih => exact closed.bind (each item) fun _ => ih

/-! ### The passes -/

theorem skipRun (fails : StepRun → Bool) (sr : StepRun) : C _ (skipRun fails sr) := by
  unfold DagExecutor.skipRun
  split_ifs
  · exact closed.updateStepState _ _
  · exact closed.pure ()

theorem failureMessage (jobId : String) (state : StepRunState) :
    C _ (failureMessage jobId state) := by
  unfold DagExecutor.failureMessage
  split_ifs
  · exact closed.bind (closed.getJob jobId) fun _ => closed.pure _
  · exact closed.pure _

variable {executor : DagExecutor} {pipeline : PipelineDef} {plan : DagPlan} {run : PipelineRun}
  {stepRuns : List StepRun}

theorem submitRun
    (submits : ∀ spec, executor.buildFn pipeline plan run stepRuns orig srName = some spec →
      ∀ uuid createdAt, C _ (submit (Job.new uuid createdAt spec))) :
    C _ (executor.submitRun pipeline plan run stepRuns orig srName) := by
  unfold DagExecutor.submitRun
  cases stepRunMap stepRuns srName with
  | none => exact closed.pure _
  | some sr =>
    refine closed.bind (closed.getStep sr.id) fun current => ?_
    dsimp only
    split_ifs
    · exact closed.pure _
    · cases built : executor.buildFn pipeline plan run stepRuns orig srName with
      | none => exact closed.pure _
      | some spec =>
        refine closed.bind closed.newUuid fun uuid => ?_
        refine closed.bind closed.utcNow fun createdAt => ?_
        refine closed.bind (closed.startStep _ _) fun _ => ?_
        refine closed.bind (submits spec built uuid createdAt) fun answer => ?_
        cases answer with
        | ok jobId => exact closed.bind (closed.linkJob sr jobId) fun _ => closed.pure _
        | error e => exact closed.bind (closed.failSubmission sr e) fun _ => closed.pure _

theorem submitLevel
    (submits : ∀ pair ∈ pairs, ∀ spec, executor.buildFn pipeline plan run stepRuns pair.1 pair.2 =
      some spec → ∀ uuid createdAt, C _ (submit (Job.new uuid createdAt spec))) :
    C _ (executor.submitLevel pipeline plan run stepRuns pairs) := by
  induction pairs with
  | nil => exact closed.pure _
  | cons pair pairs ih =>
    refine closed.bind (closed.submitRun (submits pair List.mem_cons_self)) fun outcome => ?_
    refine closed.bind (ih fun later mem => submits later (.tail _ mem)) ?_
    intro result
    cases outcome <;> exact closed.pure _

theorem waitLevel (deadline : Timestamp) (submitted : List (String × String)) :
    C _ (executor.waitLevel stepRuns deadline submitted) := by
  induction submitted with
  | nil => exact closed.pure _
  | cons pair submitted ih =>
    unfold DagExecutor.waitLevel
    cases stepRunMap stepRuns pair.1 with
    | none => exact ih
    | some sr =>
      refine closed.bind (closed.waitForJob _ _ _ _) fun jobState => ?_
      refine closed.bind (closed.failureMessage _ _) fun errorMessage => ?_
      refine closed.bind (closed.finishStep _ _ _) fun _ => ?_
      refine closed.bind ih fun flags => ?_
      split_ifs <;> exact closed.pure _

theorem cancelRun (rn : String) : C _ (cancelRun stepRuns rn) := by
  unfold DagExecutor.cancelRun
  cases stepRunMap stepRuns rn with
  | none => exact closed.pure ()
  | some sr =>
    refine closed.bind (closed.getStep sr.id) fun row => ?_
    cases row with
    | none => exact closed.pure ()
    | some step =>
      dsimp only
      split_ifs
      · exact closed.pure ()
      · exact closed.updateStepState _ _

/-- What the executor submits in the run, taken on its own, has the property. -/
def Submits (C : (α : Type) → DagM α → Prop) (executor : DagExecutor) (pipeline : PipelineDef)
    (plan : DagPlan) (run : PipelineRun) (stepRuns : List StepRun) : Prop :=
  ∀ orig srName, findOriginalName srName plan.names = some orig → ∀ spec,
    executor.buildFn pipeline plan run stepRuns orig srName = some spec →
      ∀ uuid createdAt, C _ (submit (Job.new uuid createdAt spec))

omit closed in
theorem findOriginalName_of_mem_levelRunPairs (mem : pair ∈ levelRunPairs plan stepRuns level) :
    findOriginalName pair.2 plan.names = some pair.1 := by
  obtain ⟨orig, -, inRuns⟩ := List.mem_flatMap.mp mem
  obtain ⟨srName, isRun, rfl⟩ := List.mem_map.mp inRuns
  obtain ⟨sr, filed, rfl⟩ := List.mem_map.mp isRun
  simpa using (List.mem_filter.mp filed).2

theorem executeDagLevels (submits : Submits C executor pipeline plan run stepRuns)
    (deadline : Timestamp) (levels : List (List String)) (hadFailure hadStopFailure : Bool) :
    C _ (executor.executeDagLevels pipeline plan run stepRuns deadline levels hadFailure
      hadStopFailure) := by
  induction levels generalizing hadFailure hadStopFailure with
  | nil => exact closed.pure _
  | cons level levels ih =>
    cases hadStopFailure with
    | true => exact closed.bind (closed.forM closed.cancelRun) fun _ => ih _ _
    | false =>
      refine closed.bind (closed.submitLevel fun pair mem => ?_) fun _ => ?_
      · exact submits _ _ (findOriginalName_of_mem_levelRunPairs mem)
      · exact closed.bind (closed.waitLevel _ _) fun _ => ih _ _

/-! ### The run -/

theorem markRunStarted {α : Type} {next : PipelineRun → DagM α}
    (holds : ∀ startedAt updatedAt, C _ (next (run.started startedAt updatedAt))) :
    C _ (markRunStarted run >>= next) := by
  unfold DagExecutor.markRunStarted
  simp only [bind_assoc, pure_bind]
  exact closed.bind closed.utcNow fun startedAt => closed.bind closed.utcNow fun updatedAt =>
    closed.bind (closed.updateRun _) fun _ => holds startedAt updatedAt

theorem executePlan (submits : ∀ startedAt updatedAt,
      Submits C executor pipeline plan (run.started startedAt updatedAt) stepRuns) :
    C _ (executor.executePlan pipeline plan run stepRuns) := by
  refine closed.markRunStarted fun startedAt updatedAt => ?_
  refine closed.bind (closed.forM (closed.skipRun _)) fun _ => ?_
  refine closed.bind ?paths fun _ => ?_
  case paths =>
    unfold evaluateJobPaths
    cases changedPathsForTrigger (run.started startedAt updatedAt).trigger with
    | none => exact closed.pure ()
    | some changedPaths => exact closed.forM (closed.skipRun _)
  refine closed.bind closed.utcNow fun _ => ?_
  refine closed.bind (closed.executeDagLevels (submits startedAt updatedAt) _ _ _ _) fun flags => ?_
  exact closed.bind closed.utcNow fun _ => closed.bind closed.utcNow fun _ =>
    closed.bind (closed.updateRun _) fun _ => closed.pure _

/-- **The executor has the property if its submissions have it.** -/
theorem execute (submits : ∀ startedAt updatedAt,
      Submits C executor pipeline pipeline.plan (run.started startedAt updatedAt) stepRuns) :
    C _ (executor.execute pipeline run stepRuns) := by
  have holds := closed.executePlan submits
  unfold PipelineDef.plan at holds
  unfold DagExecutor.execute
  split_ifs at holds ⊢ <;> exact holds

end EditClosed

theorem CallClosed.execute {C : (α : Type) → DagM α → Prop} (closed : CallClosed C)
    (submits : ∀ startedAt updatedAt, EditClosed.Submits C executor pipeline pipeline.plan
      (run.started startedAt updatedAt) stepRuns) :
    C _ (executor.execute pipeline run stepRuns) :=
  closed.edits.execute submits

end Muli
