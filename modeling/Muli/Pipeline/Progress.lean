/-
**What the executor does to the stored states, for a given assignment of outcomes.**

`Outcomes` fixes how every job of a run fares; store failures, times and fresh ids stay with the
environment. `RunProgress` is a run seen from outside: the state of the run and of each step run,
and for each submission the states of the step runs when it was made.

* `submitLevel_delivers`, `waitLevel_delivers`, `cancelRun_forM_delivers` — **the three passes over
  a level, as functions of the progress.** Where a store call fails on the way, every submission
  made so far is one the pass makes.
-/

import Muli.Pipeline.Expansion

namespace Muli

open Graph Interaction Function

/-! ### Outcomes of the jobs -/

structure Outcomes where
  /-- What the submitter answers to the job of a step run. -/
  submit : String → Except MuliError String
  /-- Whether the deadline has passed when a job is polled for the n-th time. -/
  expires : String → ℕ → Bool
  /-- What the n-th poll of a job shows. -/
  observe : String → ℕ → Except MuliError (Option Job)

namespace Outcomes

variable (outcomes : Outcomes)

def settle (moment : DagMoment) : DagOp → DagMoment
  | .submit job =>
    { moment with submitted := outcomes.submit (job.spec.pipelineStepRunId.getD "") }
  | .checkDeadline jobId attempt deadline =>
    { moment with now := if outcomes.expires jobId attempt then deadline + 1 else deadline }
  | .pollJob jobId attempt => { moment with job := outcomes.observe jobId attempt }
  | _ => moment

def handle : Handler Dag PipelineWorld DagMoment :=
  fun moment op world => dagHandle (outcomes.settle moment op) op world

/-- What the wait for a job returns. -/
def fate (jobId : String) : ℕ → ℕ → Option JobState
  | 0, _ => some .timedOut
  | polls + 1, attempt =>
    if outcomes.expires jobId attempt then some .timedOut
    else match outcomes.observe jobId attempt with
      | .ok (some job) =>
        if job.state.isTerminal then some job.state else fate jobId polls (attempt + 1)
      | .ok none => none
      | .error _ => fate jobId polls (attempt + 1)

def outcome (sr : StepRun) : DagExecutor.SubmitOutcome :=
  match outcomes.submit sr.id with
  | .ok jobId => .submitted jobId
  | .error _ => .failed

/-- The state of a step run once its job was submitted or refused. -/
def started (sr : StepRun) : StepRunState :=
  match outcomes.submit sr.id with
  | .ok _ => .running
  | .error _ => .failed

def refused (sr : StepRun) : Bool :=
  match outcomes.submit sr.id with
  | .ok _ => false
  | .error _ => true

def submittedJob (sr : StepRun) : Option (String × String) :=
  match outcomes.submit sr.id with
  | .ok jobId => some (sr.stepName, jobId)
  | .error _ => none

def ended (polls : ℕ) (sr : StepRun) : StepRunState :=
  match outcomes.submit sr.id with
  | .ok jobId => DagExecutor.stepStateOf (outcomes.fate jobId polls 0)
  | .error _ => .failed

variable {outcomes}

theorem ended_of_refused (refused : outcomes.refused sr = true) :
    outcomes.ended polls sr = .failed := by
  unfold Outcomes.refused at refused
  unfold ended
  cases answer : outcomes.submit sr.id with
  | ok jobId => simp [answer] at refused
  | error e => rfl

theorem started_eq_ended_of_refused (refused : outcomes.refused sr = true) :
    outcomes.started sr = outcomes.ended polls sr := by
  rw [ended_of_refused refused]
  unfold Outcomes.refused at refused
  unfold started
  cases answer : outcomes.submit sr.id with
  | ok jobId => simp [answer] at refused
  | error e => rfl

end Outcomes

open Outcomes

/-! ### Progress -/

abbrev States := String → Option StepRunState

/-- A submission seen from outside: the step run, and the states when it was made. -/
structure Launch where
  stepRun : Option String
  states : States

@[ext] structure RunProgress where
  run : String → Option PipelineRunState
  states : States
  launches : List Launch

def Submission.launch (submission : Submission) : Launch :=
  ⟨submission.job.spec.pipelineStepRunId, submission.steps.stateOf⟩

def PipelineWorld.progress (world : PipelineWorld) : RunProgress where
  run id := (world.runs.find id).map PipelineRun.state
  states := world.steps.stateOf
  launches := world.submissions.map Submission.launch

def States.set (states : States) (id : String) (state : StepRunState) : States :=
  update states id (some state)

@[simp] theorem States.set_self (states : States) (id : String) (state : StepRunState) :
    states.set id state id = some state := update_self ..

theorem States.set_of_ne (states : States) {id : String} (state : StepRunState) (ne : id' ≠ id) :
    states.set id state id' = states id' := update_of_ne ne ..

def RunProgress.set (progress : RunProgress) (id : String) (state : StepRunState) : RunProgress :=
  { progress with states := progress.states.set id state }

def RunProgress.launch (progress : RunProgress) (id : String) : RunProgress :=
  { progress with launches := progress.launches ++ [⟨some id, progress.states⟩] }

/-- A step run is marked running, its job is submitted, and the answer is recorded. -/
def RunProgress.submit (progress : RunProgress) (outcomes : Outcomes) (sr : StepRun) :
    RunProgress :=
  ((progress.set sr.id .running).launch sr.id).set sr.id (outcomes.started sr)

def States.setAll (states : States) (state : StepRun → StepRunState) (stepRuns : List StepRun) :
    States :=
  stepRuns.foldl (fun states sr => states.set sr.id (state sr)) states

variable {states : States} {state : StepRun → StepRunState} {id : String} {stepRuns : List StepRun}

theorem States.setAll_of_not_mem (other : id ∉ stepRuns.map StepRun.id) :
    states.setAll state stepRuns id = states id := by
  induction stepRuns generalizing states with
  | nil => rfl
  | cons sr stepRuns ih =>
    rw [List.map_cons, List.mem_cons, not_or] at other
    exact (ih other.2).trans (States.set_of_ne _ _ other.1)

theorem States.setAll_of_mem (ids : (stepRuns.map StepRun.id).Nodup) (mem : sr ∈ stepRuns) :
    states.setAll state stepRuns sr.id = some (state sr) := by
  induction stepRuns generalizing states with
  | nil => cases mem
  | cons first stepRuns ih =>
    obtain ⟨fresh, ids⟩ := List.nodup_cons.mp ids
    rcases List.mem_cons.mp mem with rfl | later
    · exact (setAll_of_not_mem fresh).trans (States.set_self ..)
    · exact ih ids later

theorem States.set_ne_none {state : StepRunState} (known : states id ≠ none) :
    states.set id' state id ≠ none := by
  by_cases same : id = id'
  · simp [*]
  · rwa [States.set_of_ne _ _ same]

theorem States.setAll_ne_none (known : states id ≠ none) :
    states.setAll state stepRuns id ≠ none := by
  induction stepRuns generalizing states with
  | nil => exact known
  | cons sr stepRuns ih =>
    exact ih (set_ne_none known)

def Outcomes.launches (outcomes : Outcomes) : States → List StepRun → List Launch
  | _, [] => []
  | states, sr :: stepRuns =>
    ⟨some sr.id, states.set sr.id .running⟩ ::
      outcomes.launches (states.set sr.id (outcomes.started sr)) stepRuns

/-- **Each launch of a pass** meets the step runs before it as they were answered. -/
theorem Outcomes.mem_launches {outcomes : Outcomes} :
    launch ∈ outcomes.launches states live ↔ ∃ earlier sr later, live = earlier ++ sr :: later ∧
      launch = ⟨some sr.id, (states.setAll outcomes.started earlier).set sr.id .running⟩ := by
  induction live generalizing states with
  | nil => simp [launches]
  | cons first live ih =>
    rw [launches, List.mem_cons, ih]
    constructor
    · rintro (rfl | ⟨earlier, sr, later, rfl, rfl⟩)
      · exact ⟨[], first, live, rfl, rfl⟩
      · exact ⟨first :: earlier, sr, later, rfl, rfl⟩
    · rintro ⟨earlier, sr, later, split, rfl⟩
      cases earlier with
      | nil =>
        obtain ⟨rfl, rfl⟩ := List.cons.inj split
        exact .inl rfl
      | cons head earlier =>
        obtain ⟨rfl, rfl⟩ := List.cons.inj split
        exact .inr ⟨earlier, sr, later, rfl, rfl⟩

section Writes

variable {world : PipelineWorld}

theorem progress_put (step : StepRun) (known : world.progress.states step.id ≠ none) :
    PipelineWorld.progress { world with steps := world.steps.put step } =
      world.progress.set step.id step.state := by
  refine RunProgress.ext rfl (funext fun id => ?_) rfl
  exact (StepTable.stateOf_put step known id).trans (update_apply ..).symm

theorem progress_updateStepState (known : world.progress.states id ≠ none) (state : StepRunState) :
    PipelineWorld.progress { world with steps := world.steps.updateStepState id state } =
      world.progress.set id state := by
  refine RunProgress.ext rfl (funext fun id' => ?_) rfl
  exact (StepTable.stateOf_updateStepState known state id').trans (update_apply ..).symm

theorem progress_run_put (run : PipelineRun) (known : world.progress.run run.id ≠ none) :
    (PipelineWorld.progress { world with runs := world.runs.put run }).run run.id =
      some run.state := by
  show ((Table.put world.runs run).find run.id).map PipelineRun.state = some run.state
  obtain ⟨state, found⟩ := Option.ne_none_iff_exists'.mp known
  obtain ⟨old, isRow, -⟩ := Option.map_eq_some_iff.mp found
  rw [Table.find_put_self run isRow]
  rfl

theorem progress_submit (names : job.spec.pipelineStepRunId = some id) : PipelineWorld.progress
      { world with submissions := world.submissions ++ [⟨job, world.steps⟩] } =
        world.progress.launch id := by
  refine RunProgress.ext rfl rfl ?_
  show List.map Submission.launch (world.submissions ++ [⟨job, world.steps⟩]) = _
  rw [List.map_append, List.map_singleton, Submission.launch, names]
  rfl

theorem exists_row (known : world.progress.states id ≠ none) :
    ∃ step, world.steps.find id = some step ∧ step.id = id ∧
    world.progress.states id = some step.state := by
  obtain ⟨state, found⟩ := Option.ne_none_iff_exists'.mp known
  obtain ⟨step, isRow, rfl⟩ := Option.map_eq_some_iff.mp found
  exact ⟨step, isRow, Table.find_key isRow, found⟩

end Writes

def OnlyLaunches (expected : Launch → Prop) (world : PipelineWorld) : Prop :=
  ∀ launch ∈ world.progress.launches, expected launch

/-- The postcondition where a part of the executor ends, and only expected launches where the store
fails. -/
def Brings {α : Type} (outcomes : Outcomes) (expected : Launch → Prop) (p : DagM α)
    (post : α → PipelineWorld → Prop) : PipelineWorld → Prop :=
  Delivers outcomes.handle p post (OnlyLaunches expected)

/-! ### The calls -/

section Calls

variable {outcomes : Outcomes} {expected : Launch → Prop} {world : PipelineWorld}

theorem stored_settles {α : Type} {post : α → PipelineWorld → Prop} {fail : PipelineWorld → Prop}
    (moment : DagMoment) {value : α} (failed : fail world) (holds : post value after) :
    Settles post fail (stored moment world (.ok value) after).1
      (stored moment world (.ok value) after).2 := by
  unfold stored
  cases moment.storeFailure with
  | some reason => exact failed
  | none => exact holds

theorem delivers_getStep {post : Option StepRun → PipelineWorld → Prop}
    (safe : OnlyLaunches expected world) (holds : post (world.steps.find id) world) :
    Brings outcomes expected (getStep id) post world :=
  fun moment => stored_settles moment safe holds

variable {post : Unit → PipelineWorld → Prop}

section

variable (safe : OnlyLaunches expected world)
include safe

theorem delivers_updateStep {step : StepRun}
    (holds : post () { world with steps := world.steps.put step }) :
    Brings outcomes expected (updateStep step) post world :=
  fun moment => stored_settles moment safe holds

theorem delivers_updateStepState {state : StepRunState}
    (holds : post () { world with steps := world.steps.updateStepState id state }) :
    Brings outcomes expected (updateStepState id state) post world :=
  fun moment => stored_settles moment safe holds

theorem delivers_updateRun {run : PipelineRun}
    (holds : post () { world with runs := world.runs.put run }) :
    Brings outcomes expected (updateRun run) post world :=
  fun moment => stored_settles moment safe holds

theorem delivers_getJob {post : Option Job → PipelineWorld → Prop} (holds : ∀ job, post job world) :
    Brings outcomes expected (getJob jobId) post world := by
  intro moment
  show Settles post (OnlyLaunches expected) moment.job world
  cases moment.job with
  | ok job => exact holds job
  | error e => exact safe

end

theorem delivers_utcNow {post : Timestamp → PipelineWorld → Prop} (holds : ∀ now, post now world) :
    Brings outcomes expected utcNow post world :=
  fun moment => holds moment.now

theorem delivers_newUuid {post : String → PipelineWorld → Prop} (holds : ∀ uuid, post uuid world) :
    Brings outcomes expected newUuid post world :=
  fun moment => holds moment.uuid

theorem delivers_submit {post : Except MuliError String → PipelineWorld → Prop}
    (holds : post (outcomes.submit (job.spec.pipelineStepRunId.getD ""))
      { world with submissions := world.submissions ++ [⟨job, world.steps⟩] }) :
    Brings outcomes expected (submit job) post world :=
  fun _ => holds

/-- **The wait for a job returns its fate.** -/
theorem waitForJob_ensures (jobId : String) (deadline : Timestamp) (polls attempt : ℕ) :
    (DagExecutor.waitForJob jobId deadline polls attempt).Ensures outcomes.handle
      (fun fate world' => fate = outcomes.fate jobId polls attempt ∧ world' = world) world := by
  induction polls generalizing attempt with
  | zero => exact ⟨rfl, rfl⟩
  | succ polls ih =>
    intro moment
    have answered : (outcomes.handle moment (.checkDeadline jobId attempt deadline) world).1 =
        outcomes.expires jobId attempt := by
      show decide ((if outcomes.expires jobId attempt then deadline + 1 else deadline) > deadline)
        = outcomes.expires jobId attempt
      cases outcomes.expires jobId attempt <;> simp
    rw [answered, fate]
    cases outcomes.expires jobId attempt with
    | true => exact ⟨rfl, rfl⟩
    | false =>
      intro moment'
      have polled : outcomes.handle moment' (.pollJob jobId attempt) world =
          (outcomes.observe jobId attempt, world) := rfl
      have unchanged : (outcomes.handle moment (.checkDeadline jobId attempt deadline) world).2 =
          world := rfl
      rw [unchanged, polled]
      cases outcomes.observe jobId attempt with
      | error e => exact ih (attempt + 1)
      | ok found =>
        cases found with
        | none => exact ⟨rfl, rfl⟩
        | some job =>
          by_cases terminal : job.state.isTerminal
          · simp only [terminal, if_true, Bool.false_eq_true, if_false]
            exact ⟨rfl, rfl⟩
          · simp [*]

end Calls

/-! ### One step run -/

section StepRun

variable {outcomes : Outcomes} {expected : Launch → Prop} {world : PipelineWorld} {sr : StepRun}
  (known : world.progress.states sr.id ≠ none) (safe : OnlyLaunches expected world)
include known safe

theorem rewriteStep_delivers {state : StepRunState} (missing : DagM Unit)
    (keepsId : ∀ step first second, (change step first second).id = step.id)
    (setsState : ∀ step first second, (change step first second).state = state) :
    Brings outcomes expected (DagExecutor.rewriteStep sr.id change missing)
      (fun _ world' => world'.progress = world.progress.set sr.id state) world := by
  obtain ⟨step, isRow, sameId, -⟩ := exists_row known
  refine .bind (delivers_getStep safe ?_)
  rw [isRow]
  refine .bind (delivers_utcNow fun changedAt => ?_)
  refine .bind (delivers_utcNow fun updatedAt => ?_)
  apply delivers_updateStep safe
  have isStep : (change step changedAt updatedAt).id = sr.id := (keepsId ..).trans sameId
  rw [progress_put _ (isStep ▸ known), isStep, setsState]

theorem startStep_delivers (substeps : List JobSubstepRun) :
    Brings outcomes expected (DagExecutor.startStep sr substeps)
      (fun _ world' => world'.progress = world.progress.set sr.id .running) world :=
  rewriteStep_delivers known safe _ (fun _ _ _ => rfl) fun _ _ _ => rfl

theorem failSubmission_delivers (e : MuliError) :
      Brings outcomes expected (DagExecutor.failSubmission sr e)
      (fun _ world' => world'.progress = world.progress.set sr.id .failed) world :=
  rewriteStep_delivers known safe _ (fun _ _ _ => rfl) fun _ _ _ => rfl

theorem finishStep_delivers (state : StepRunState) (errorMessage : Option String) :
    Brings outcomes expected (DagExecutor.finishStep sr state errorMessage)
      (fun _ world' => world'.progress = world.progress.set sr.id state) world :=
  rewriteStep_delivers known safe _ (fun _ _ _ => rfl) fun _ _ _ => rfl

theorem linkJob_delivers (jobId : String) : Brings outcomes expected (DagExecutor.linkJob sr jobId)
      (fun _ world' => world'.progress = world.progress) world := by
  obtain ⟨step, isRow, sameId, state⟩ := exists_row known
  refine .bind (delivers_getStep safe ?_)
  rw [isRow]
  refine .bind (delivers_utcNow fun updatedAt => ?_)
  apply delivers_updateStep safe
  rw [← sameId] at known state
  rw [progress_put { step with jobId := some jobId, updatedAt := updatedAt } known]
  exact RunProgress.ext rfl (update_eq_self_iff.mpr state.symm) rfl

/-- **The submission pass at a step run that is neither skipped nor cancelled.** -/
theorem submitRun_delivers {executor : DagExecutor} (declared : orig ∈ plan.names)
    (found : stepRunMap stepRuns sr.stepName = some sr)
    (notSkipped : world.progress.states sr.id ≠ some .skipped)
    (notCancelled : world.progress.states sr.id ≠ some .cancelled)
    (fits : expected ⟨some sr.id, world.progress.states.set sr.id .running⟩) :
    Brings outcomes expected (executor.submitRun pipeline plan run stepRuns orig sr.stepName)
      (fun outcome world' => outcome = outcomes.outcome sr ∧
        world'.progress = world.progress.submit outcomes sr) world := by
  unfold DagExecutor.submitRun
  rw [found]
  refine .bind (delivers_getStep safe ?_)
  have ready : ¬ ((world.steps.find sr.id).map StepRun.state = some .skipped ∨
      (world.steps.find sr.id).map StepRun.state = some .cancelled) :=
    not_or.mpr ⟨notSkipped, notCancelled⟩
  simp only [if_neg ready, DagExecutor.buildFn, if_pos declared, found, Option.map_some]
  refine .bind (delivers_newUuid fun uuid => ?_)
  refine .bind (delivers_utcNow fun createdAt => ?_)
  refine .andThen (startStep_delivers known safe _) ?_
  intro _ running isRunning
  refine .bind (delivers_submit ?_)
  generalize madeJob : Job.new uuid createdAt _ = job
  have names : job.spec.pipelineStepRunId = some sr.id := by rw [← madeJob]; rfl
  generalize submittedWorld : ({ running with
    submissions := running.submissions ++ [⟨job, running.steps⟩] } : PipelineWorld) = submitted
  have launched : submitted.progress = (world.progress.set sr.id .running).launch sr.id := by
    rw [← submittedWorld, progress_submit names, isRunning]
  have safe' : OnlyLaunches expected submitted := by
    intro launch mem
    rw [launched] at mem
    rcases List.mem_append.mp mem with old | new
    · exact safe launch old
    · rw [List.mem_singleton.mp new]
      exact fits
  have known' : submitted.progress.states sr.id ≠ none := by
    rw [launched]
    exact ne_of_eq_of_ne (States.set_self ..) (Option.some_ne_none _)
  rw [names, Option.getD_some, RunProgress.submit, started, outcome]
  cases outcomes.submit sr.id with
  | ok jobId =>
    refine .andThen (linkJob_delivers known' safe' jobId) ?_
    intro _ world' same
    refine ⟨rfl, (same.trans launched).trans (RunProgress.ext rfl ?_ rfl)⟩
    exact (update_idem ..).symm
  | error e =>
    refine .andThen (failSubmission_delivers known' safe' e) ?_
    intro _ world' changed
    exact ⟨rfl, by rw [changed, launched]⟩

omit known in
theorem submitRun_passes {executor : DagExecutor}
    (found : stepRunMap stepRuns sr.stepName = some sr)
    (skipped : world.progress.states sr.id = some .skipped) :
    Brings outcomes expected (executor.submitRun pipeline plan run stepRuns orig sr.stepName)
      (fun outcome world' => outcome = .passed ∧ world' = world) world := by
  unfold DagExecutor.submitRun
  rw [found]
  refine .bind (delivers_getStep safe ?_)
  have isSkipped : (world.steps.find sr.id).map StepRun.state = some .skipped := skipped
  simp only [isSkipped, true_or, if_true]
  exact ⟨rfl, rfl⟩

end StepRun

/-! ### The passes over a level -/

section Passes

variable {outcomes : Outcomes} {expected : Launch → Prop} {stepRuns : List StepRun}

structure Resolves (stepRuns level : List StepRun) (states : States) : Prop where
  found : ∀ sr ∈ level, stepRunMap stepRuns sr.stepName = some sr
  ids : (level.map StepRun.id).Nodup
  known : ∀ sr ∈ level, states sr.id ≠ none

variable {level : List StepRun}

theorem Resolves.tail (resolves : Resolves stepRuns (sr :: level) states) :
    Resolves stepRuns level states :=
  ⟨fun sr' mem => resolves.found sr' (.tail _ mem),
    (List.nodup_cons.mp resolves.ids).2,
    fun sr' mem => resolves.known sr' (.tail _ mem)⟩

section

variable (resolves : Resolves stepRuns level states)
include resolves

theorem Resolves.set (id : String) (state : StepRunState) :
    Resolves stepRuns level (states.set id state) :=
  ⟨resolves.found, resolves.ids, fun sr mem => States.set_ne_none (resolves.known sr mem)⟩

theorem Resolves.setAll (state : StepRun → StepRunState)
    (changed : List StepRun) : Resolves stepRuns level (states.setAll state changed) :=
  ⟨resolves.found, resolves.ids,
    fun sr mem => States.setAll_ne_none (resolves.known sr mem)⟩

theorem Resolves.filter (keep : StepRun → Bool) :
    Resolves stepRuns (level.filter keep) states :=
  ⟨fun sr mem => resolves.found sr (List.mem_of_mem_filter mem),
    resolves.ids.sublist (List.filter_sublist.map _),
    fun sr mem => resolves.known sr (List.mem_of_mem_filter mem)⟩

end

def RunProgress.submitAll (progress : RunProgress) (outcomes : Outcomes) (live : List StepRun) :
    RunProgress :=
  live.foldl (fun progress sr => progress.submit outcomes sr) progress

theorem RunProgress.submitAll_eq (progress : RunProgress) (live : List StepRun) :
    progress.submitAll outcomes live =
      { run := progress.run
        states := progress.states.setAll outcomes.started live
        launches := progress.launches ++ outcomes.launches progress.states live } := by
  unfold submitAll
  induction live generalizing progress with
  | nil => exact RunProgress.ext rfl rfl (List.append_nil _).symm
  | cons sr live ih =>
    have states : (progress.submit outcomes sr).states =
        progress.states.set sr.id (outcomes.started sr) := update_idem ..
    have launches : (progress.submit outcomes sr).launches =
        progress.launches ++ [⟨some sr.id, progress.states.set sr.id .running⟩] := rfl
    rw [List.foldl_cons, ih, states, launches, List.append_assoc]
    rfl

def liveRuns (skips : StepRun → Bool) (level : List StepRun) : List StepRun :=
  level.filter fun sr => !skips sr

/-- The answer of the submission pass: the accepted jobs, and the two failure flags. -/
def Outcomes.submitted (outcomes : Outcomes) (live : List StepRun) :
    List (String × String) × Bool × Bool :=
  (live.filterMap outcomes.submittedJob, live.any outcomes.refused,
    live.any fun sr => outcomes.refused sr && decide (sr.failureStrategy = .stop))

theorem RunProgress.submitAll_append (progress : RunProgress) (live live' : List StepRun) :
    progress.submitAll outcomes (live ++ live') =
      (progress.submitAll outcomes live).submitAll outcomes live' :=
  List.foldl_append

theorem RunProgress.mem_submitAll {progress : RunProgress} {launch : Launch}
    (mem : launch ∈ progress.launches) (live : List StepRun) :
    launch ∈ (progress.submitAll outcomes live).launches := by
  rw [submitAll_eq]
  exact List.mem_append_left _ mem

variable {world : PipelineWorld} {executor : DagExecutor} {pipeline : PipelineDef}

theorem submitRun_step {plan : DagPlan} (skips : StepRun → Bool) (declared : orig ∈ plan.names)
    (found : stepRunMap stepRuns sr.stepName = some sr)
    (state : world.progress.states sr.id = some (if skips sr then .skipped else .pending))
    (fits : ∀ launch ∈ (world.progress.submitAll outcomes (liveRuns skips [sr])).launches,
      expected launch) :
    Brings outcomes expected (executor.submitRun pipeline plan run stepRuns orig sr.stepName)
      (fun outcome world' => outcome = (if skips sr then .passed else outcomes.outcome sr) ∧
        world'.progress = world.progress.submitAll outcomes (liveRuns skips [sr])) world := by
  have safe : OnlyLaunches expected world :=
    fun launch mem => fits launch (RunProgress.mem_submitAll mem _)
  cases skipped : skips sr with
  | true =>
    rw [skipped, if_pos rfl] at state
    have none : liveRuns skips [sr] = [] := by simp [liveRuns, skipped]
    rw [none, if_pos rfl]
    refine (submitRun_passes safe found state).mono ?_ fun _ => id
    rintro _ _ ⟨rfl, rfl⟩
    exact ⟨rfl, rfl⟩
  | false =>
    rw [skipped, if_neg Bool.false_ne_true] at state
    have one : liveRuns skips [sr] = [sr] := by simp [liveRuns, skipped]
    rw [one] at fits ⊢
    have known : world.progress.states sr.id ≠ none := state ▸ Option.some_ne_none _
    refine submitRun_delivers known safe declared found (by simp [state]) (by simp [state]) ?_
    refine fits _ ?_
    exact List.mem_append_right _ List.mem_cons_self

/-- **The submission pass over a level.** -/
theorem submitLevel_delivers {plan : DagPlan} (skips : StepRun → Bool)
    {pairs : List (String × StepRun)} (declared : ∀ pair ∈ pairs, pair.1 ∈ plan.names)
    (resolves : Resolves stepRuns (pairs.map Prod.snd) world.progress.states)
    (fresh : ∀ pair ∈ pairs, world.progress.states pair.2.id =
      some (if skips pair.2 then .skipped else .pending))
    (fits : ∀ launch ∈
      (world.progress.submitAll outcomes (liveRuns skips (pairs.map Prod.snd))).launches,
      expected launch) :
    Brings outcomes expected (executor.submitLevel pipeline plan run stepRuns
        (pairs.map fun pair => (pair.1, pair.2.stepName)))
      (fun result world' => result = outcomes.submitted (liveRuns skips (pairs.map Prod.snd)) ∧
        world'.progress = world.progress.submitAll outcomes (liveRuns skips (pairs.map Prod.snd)))
        world := by
  induction pairs generalizing world with
  | nil => exact ⟨rfl, rfl⟩
  | cons pair pairs ih =>
    obtain ⟨orig, sr⟩ := pair
    have live : liveRuns skips (((orig, sr) :: pairs).map Prod.snd) =
        liveRuns skips [sr] ++ liveRuns skips (pairs.map Prod.snd) := List.filter_append [sr] _
    rw [live, RunProgress.submitAll_append] at fits ⊢
    have found := resolves.found sr List.mem_cons_self
    refine .andThen (submitRun_step skips (declared _ List.mem_cons_self) found
      (fresh _ List.mem_cons_self) fun launch mem =>
        fits launch (RunProgress.mem_submitAll mem _)) ?_
    rintro _ world' ⟨rfl, after⟩
    have states : world'.progress.states =
        world.progress.states.setAll outcomes.started (liveRuns skips [sr]) := by
      rw [after, RunProgress.submitAll_eq]
    have resolves' : Resolves stepRuns (pairs.map Prod.snd) world'.progress.states := by
      rw [states]
      exact resolves.tail.setAll _ _
    have fresh' : ∀ pair ∈ pairs, world'.progress.states pair.2.id =
        some (if skips pair.2 then .skipped else .pending) := by
      intro pair mem
      have other : pair.2.id ∉ (liveRuns skips [sr]).map StepRun.id := by
        intro listed
        obtain ⟨sr', isFirst, same⟩ := List.mem_map.mp listed
        obtain rfl := List.mem_singleton.mp (List.mem_of_mem_filter isFirst)
        exact (List.nodup_cons.mp resolves.ids).1 (same ▸
          List.mem_map_of_mem (List.mem_map_of_mem mem))
      rw [states, States.setAll_of_not_mem other]
      exact fresh pair (.tail _ mem)
    rw [← after] at fits ⊢
    refine .andThen (ih (fun pair mem => declared pair (.tail _ mem))
      resolves' fresh' fits) ?_
    rintro _ world'' ⟨rfl, after'⟩
    -- what the step run adds to the answer of the pass
    unfold submitted outcome
    cases skipped : skips sr with
    | true => exact ⟨by simp [liveRuns, skipped], after'⟩
    | false =>
      cases accepted : outcomes.submit sr.id with
      | ok jobId =>
        refine ⟨?_, after'⟩
        simp [liveRuns, skipped, submittedJob, refused, accepted]
      | error e =>
        refine ⟨?_, after'⟩
        simp [liveRuns, skipped, submittedJob, refused, accepted,
          DagExecutor.stopsOnFailure, found]

/-- The two failure flags of the wait for some jobs. -/
def Outcomes.failures (outcomes : Outcomes) (polls : ℕ) (accepted : List StepRun) : Bool × Bool :=
  (accepted.any fun sr => decide (outcomes.ended polls sr = .failed),
    accepted.any fun sr => decide (outcomes.ended polls sr = .failed) &&
      decide (sr.failureStrategy = .stop))

def RunProgress.setAll (progress : RunProgress) (state : StepRun → StepRunState)
    (level : List StepRun) : RunProgress :=
  { progress with states := progress.states.setAll state level }

section

variable (safe : OnlyLaunches expected world)
include safe

theorem failureMessage_delivers {state : StepRunState} :
    Brings outcomes expected (DagExecutor.failureMessage jobId state)
      (fun _ world' => world' = world) world := by
  unfold DagExecutor.failureMessage
  split_ifs
  · exact .bind (delivers_getJob safe fun job => rfl)
  · exact rfl

/-- **The wait for the accepted jobs of a level.** -/
theorem waitLevel_delivers (resolves : Resolves stepRuns live world.progress.states) :
      Brings outcomes expected
      (executor.waitLevel stepRuns deadline (live.filterMap outcomes.submittedJob))
      (fun flags world' =>
        flags = outcomes.failures executor.polls (liveRuns outcomes.refused live) ∧
        world'.progress = world.progress.setAll (outcomes.ended executor.polls)
          (liveRuns outcomes.refused live)) world := by
  induction live generalizing world with
  | nil => exact ⟨rfl, rfl⟩
  | cons sr live ih =>
    cases accepted : outcomes.submit sr.id with
    | error e =>
      have none : (sr :: live).filterMap outcomes.submittedJob =
          live.filterMap outcomes.submittedJob := by
        simp [submittedJob, accepted]
      have rest : liveRuns outcomes.refused (sr :: live) = liveRuns outcomes.refused live := by
        simp [liveRuns, refused, accepted]
      rw [none, rest]
      exact ih safe resolves.tail
    | ok jobId =>
      have first : (sr :: live).filterMap outcomes.submittedJob =
          (sr.stepName, jobId) :: live.filterMap outcomes.submittedJob := by
        simp [submittedJob, accepted]
      have rest : liveRuns outcomes.refused (sr :: live) =
          sr :: liveRuns outcomes.refused live := by
        simp [liveRuns, refused, accepted]
      rw [first, rest]
      unfold DagExecutor.waitLevel
      rw [resolves.found sr List.mem_cons_self]
      refine .bind (.lift ((waitForJob_ensures jobId deadline _ 0).mono ?_))
      rintro _ _ ⟨rfl, rfl⟩
      have state : DagExecutor.stepStateOf (outcomes.fate jobId executor.polls 0) =
          outcomes.ended executor.polls sr := by
        unfold ended
        rw [accepted]
      simp only [state]
      refine .andThen (failureMessage_delivers safe) ?_
      rintro errorMessage _ rfl
      refine .andThen (finishStep_delivers (resolves.known sr List.mem_cons_self) safe
        _ _) ?_
      intro _ world' after
      have resolves' : Resolves stepRuns live world'.progress.states := by
        rw [after]
        exact resolves.tail.set _ _
      have safe' : OnlyLaunches expected world' := by
        unfold OnlyLaunches
        rw [after]
        exact safe
      refine .andThen (ih safe' resolves') ?_
      rintro _ world'' ⟨rfl, after'⟩
      rw [after] at after'
      by_cases failed : outcomes.ended executor.polls sr = .failed
      · rw [if_pos failed]
        exact ⟨by simp [failures, failed], after'⟩
      · rw [if_neg failed]
        exact ⟨by simp [failures, failed], after'⟩

omit safe in
theorem RunProgress.setAll_filter_concat (progress : RunProgress) (state : StepRun → StepRunState)
    (keep : StepRun → Bool) (done : List StepRun) (sr : StepRun) :
    progress.setAll state ((done ++ [sr]).filter keep) =
      if keep sr then (progress.setAll state (done.filter keep)).set sr.id (state sr)
      else progress.setAll state (done.filter keep) := by
  unfold RunProgress.setAll States.setAll
  rw [List.filter_append, List.foldl_append, List.filter_singleton]
  cases keep sr <;> rfl

theorem OnlyLaunches.setAll
    (after : world'.progress = world.progress.setAll state level) :
    OnlyLaunches expected world' := by
  unfold OnlyLaunches
  rw [after]
  exact safe

/-- **The cancellation of a level.** -/
theorem cancelRun_forM_delivers (resolves : Resolves stepRuns level world.progress.states)
    (fresh : ∀ sr ∈ level, world.progress.states sr.id =
      some (if skips sr then .skipped else .pending)) : Brings outcomes expected
      (level.forM fun sr => DagExecutor.cancelRun stepRuns sr.stepName)
      (fun _ world' => world'.progress =
        world.progress.setAll (fun _ => .cancelled) (liveRuns skips level)) world := by
  refine .forM (fun done (world' : PipelineWorld) => world'.progress =
    world.progress.setAll (fun _ => .cancelled) (liveRuns skips done)) rfl ?_
  intro done sr later split world' after
  have mem : sr ∈ level := by simp [split]
  have notDone : sr.id ∉ (liveRuns skips done).map StepRun.id := by
    have ids := resolves.ids
    rw [split, List.map_append, List.nodup_append] at ids
    intro earlier
    obtain ⟨sr', inDone, same⟩ := List.mem_map.mp earlier
    exact ids.2.2 _ (List.mem_map_of_mem (List.mem_of_mem_filter inDone)) _
      (List.mem_map_of_mem List.mem_cons_self) same
  have state : world'.progress.states sr.id =
      some (if skips sr then .skipped else .pending) := by
    rw [after]
    exact (States.setAll_of_not_mem notDone).trans (fresh sr mem)
  obtain ⟨step, isRow, -, isState⟩ := exists_row (by rw [state]; exact Option.some_ne_none _)
  have rowState : step.state = if skips sr then .skipped else .pending :=
    Option.some.inj (isState.symm.trans state)
  unfold DagExecutor.cancelRun
  rw [resolves.found sr mem]
  refine .bind (delivers_getStep (safe.setAll after) ?_)
  rw [isRow]
  rw [liveRuns, RunProgress.setAll_filter_concat]
  cases skipped : skips sr with
  | true =>
    rw [skipped, if_pos rfl] at rowState
    simp only [rowState, StepRunState.isTerminal, if_true]
    exact after
  | false =>
    rw [skipped, if_neg Bool.false_ne_true] at rowState
    simp only [rowState, StepRunState.isTerminal, Bool.false_eq_true, if_false]
    refine delivers_updateStepState (safe.setAll after) ?_
    rw [progress_updateStepState (by rw [state]; exact Option.some_ne_none _), after]
    rfl

/-- **The skips of a check.** -/
theorem skipRun_forM_delivers (known : ∀ sr ∈ level, world.progress.states sr.id ≠ none) :
    Brings outcomes expected (level.forM (DagExecutor.skipRun fails))
      (fun _ world' => world'.progress = world.progress.setAll (fun _ => .skipped)
        (level.filter fails)) world := by
  refine .forM (fun done (world' : PipelineWorld) => world'.progress =
    world.progress.setAll (fun _ => .skipped) (done.filter fails)) rfl ?_
  intro done sr later split world' after
  have mem : sr ∈ level := by simp [split]
  have known' : world'.progress.states sr.id ≠ none := by
    rw [after]
    exact States.setAll_ne_none (known sr mem)
  rw [RunProgress.setAll_filter_concat]
  unfold DagExecutor.skipRun
  cases skipped : fails sr with
  | true =>
    simp only [if_true]
    refine delivers_updateStepState (safe.setAll after) ?_
    rw [progress_updateStepState known', after]
  | false =>
    exact .pure after

end

end Passes

end Muli
