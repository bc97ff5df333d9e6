/-
**Triggers, retries and retention of one tenant.**

A push, a pull-request event or a manual trigger passes admission once and then creates a run for
each pipeline that matches (`triggerPipeline`) or for one (`triggerManual`); a retry of a finished
run creates another one (`retryPipelineImpl`); retention deletes old finished runs. The number of a
run is read in one store call and stored in another.
-/

import Muli.Interaction.CheckThenAct
import Muli.Server.CancelPipeline

namespace Muli

open Interaction

/-! ### What triggers read -/

/-- A pipeline file of a commit: its text, and what `parse_config` makes of it for the event (`none`
when the file is skipped). -/
structure PipelineConfig where
  content : String
  parsed : Option PipelineDef

/-- The record of a pipeline file. -/
structure Pipeline where
  id : String
  name : String
deriving DecidableEq, Repr

/-- The pipeline files of the commit, and the pipelines that are stored. -/
structure Discovery where
  pipelineFiles : List PipelineConfig
  knownPipelines : List Pipeline

/-! ### The calls -/

inductive TriggerOp where
  /-- Whether the ref was triggered less than `MIN_TRIGGER_INTERVAL_SECS` ago. -/
  | recentlyTriggered (key : String)
  | noteTrigger (key : String)
  | isSuspended
  | getLimits
  | getDailyRunCount
  | incrementDailyRunCount
  | countActive
  | discover (repoId commitSha : String)
  | upsertPipeline (pipeline : Pipeline)
  | nextRunNumber (pipelineId : String)
  | resolveEnv (repoId : String)
  | createRun (run : PipelineRun)
  /-- The execution of a run, with the expansion of its steps. -/
  | executeRun (runId : String)
  | getRun (runId : String)
  | deleteOldRuns (before : Timestamp)
  | newUuid
  | now

abbrev TriggerOp.Answer : TriggerOp → Type
  | recentlyTriggered _ => Bool
  | noteTrigger _ => Unit
  | isSuspended => Except MuliError Bool
  | getLimits => Except MuliError (Option TenantLimits)
  | getDailyRunCount => Except MuliError ℕ
  | incrementDailyRunCount => Except MuliError ℕ
  | countActive => Except MuliError ℕ
  | discover .. => Option Discovery
  | upsertPipeline _ => Except MuliError Unit
  | nextRunNumber _ => Except MuliError ℕ
  | resolveEnv _ => Except MuliError EnvMap
  | createRun _ => Except MuliError String
  | executeRun _ => Unit
  | getRun _ => Except MuliError (Option PipelineRun)
  | deleteOldRuns _ => Except MuliError ℕ
  | newUuid => String
  | now => Timestamp

abbrev Trigger : Interface := ⟨TriggerOp, TriggerOp.Answer⟩

/-- The runs of a tenant, its daily counts and the last triggers of refs. -/
structure TenantWorld where
  runs : RunTable
  /-- `tenant_daily_run_counts`, by day. -/
  dailyCounts : ℤ → ℕ
  lastTrigger : String → Option Timestamp
  /-- Every run ever created, with the time of its creation. -/
  created : List (Timestamp × PipelineRun)

/-- What is decided at a moment: the time, the id, a failure, what is found. -/
structure TriggerMoment where
  now : Timestamp := 0
  uuid : String := ""
  storeFailure : Option String := none
  discovery : Option Discovery := none
  env : Except MuliError EnvMap := .ok ∅
  /-- The state in which the execution of a run leaves it. -/
  outcome : PipelineRunState := .succeeded

/-- The day of a time, as `%Y-%m-%d` tells days apart. -/
def dayOf (time : Timestamp) : ℤ := time / 86400000000000

namespace TenantWorld

/-- `SELECT MAX(run_number) … WHERE pipeline_id = ?`, plus one. -/
def nextRunNumber (world : TenantWorld) (pipelineId : String) : ℕ :=
  let numbers :=
    (world.runs.rows.filter fun run => run.pipelineId = pipelineId).map PipelineRun.runNumber
  match numbers.max? with
  | some largest => largest + 1
  | none => 1

/-- The run breaks the primary key or `UNIQUE(pipeline_id, run_number)`. -/
def Clashes (world : TenantWorld) (run : PipelineRun) : Prop :=
  ∃ row ∈ world.runs.rows,
    row.id = run.id ∨ row.pipelineId = run.pipelineId ∧ row.runNumber = run.runNumber
deriving Decidable

/-- Store the run, and note that it was created. -/
def insertRun (world : TenantWorld) (now : Timestamp) (run : PipelineRun)
    (fits : ¬ world.Clashes run) : TenantWorld :=
  { world with
    runs := world.runs.insert run fun row member same => fits ⟨row, member, .inl same⟩
    created := world.created ++ [(now, run)] }

/-- A run with a number that is taken is refused. -/
def createRun (world : TenantWorld) (now : Timestamp) (run : PipelineRun) :
    Except MuliError String × TenantWorld :=
  if clash : world.Clashes run then (.error (.storage "UNIQUE constraint failed"), world)
  else (.ok run.id, world.insertRun now run clash)

/-- The row of a run gets the state in which its execution leaves it; its number stays. -/
def settleRun (world : TenantWorld) (runId : String) (outcome : PipelineRunState) : TenantWorld :=
  match world.runs.find runId with
  | some run => { world with runs := world.runs.put { run with state := outcome } }
  | none => world

/-- `delete_old_runs`: finished runs created before the given time go. -/
def deleteOldRuns (world : TenantWorld) (before : Timestamp) : TenantWorld :=
  { world with
    runs :=
      { rows := world.runs.rows.filter fun run => !(run.state.isTerminal && run.createdAt < before)
        nodup := world.runs.nodup.sublist (List.filter_sublist.map _) } }

/-- The runs that have not ended. -/
def active (world : TenantWorld) : ℕ :=
  world.runs.rows.countP fun run => run.state = .pending ∨ run.state = .running

end TenantWorld

/-- A call that fails does not reach the store. -/
def orFailure {α S : Type} (failure : Option String) (world : S)
    (reached : Except MuliError α × S) : Except MuliError α × S :=
  match failure with
  | some reason => (.error (.storage reason), world)
  | none => reached

def minTriggerIntervalSecs : ℕ := 5

/-- **What a call answers and how it changes the tenant's data.** The rate limit compares whole
seconds. -/
def triggerHandle (limits : Option TenantLimits) : Handler Trigger TenantWorld TriggerMoment
  | moment, .recentlyTriggered key, world =>
    (match world.lastTrigger key with
      | some last => decide ((moment.now - last).toNat / 1000000000 < minTriggerIntervalSecs)
      | none => false, world)
  | moment, .noteTrigger key, world =>
    ((), { world with lastTrigger := Function.update world.lastTrigger key (some moment.now) })
  | moment, .isSuspended, world =>
    orFailure moment.storeFailure world
      (.ok ((limits.map TenantLimits.suspended).getD false), world)
  | moment, .getLimits, world => orFailure moment.storeFailure world (.ok limits, world)
  | moment, .getDailyRunCount, world =>
    orFailure moment.storeFailure world (.ok (world.dailyCounts (dayOf moment.now)), world)
  | moment, .incrementDailyRunCount, world =>
    let day := dayOf moment.now
    let count := world.dailyCounts day + 1
    orFailure moment.storeFailure world
      (.ok count, { world with dailyCounts := Function.update world.dailyCounts day count })
  | moment, .countActive, world => orFailure moment.storeFailure world (.ok world.active, world)
  | moment, .discover .., world => (moment.discovery, world)
  | moment, .upsertPipeline _, world => orFailure moment.storeFailure world (.ok (), world)
  | moment, .nextRunNumber pipelineId, world =>
    orFailure moment.storeFailure world (.ok (world.nextRunNumber pipelineId), world)
  | moment, .resolveEnv _, world => (moment.env, world)
  | moment, .createRun run, world =>
    orFailure moment.storeFailure world (world.createRun moment.now run)
  | moment, .executeRun runId, world => ((), world.settleRun runId moment.outcome)
  | moment, .getRun runId, world =>
    orFailure moment.storeFailure world (.ok (world.runs.find runId), world)
  | moment, .deleteOldRuns before, world =>
    let after := world.deleteOldRuns before
    orFailure moment.storeFailure world
      (.ok (world.runs.rows.length - after.runs.rows.length), after)
  | moment, .newUuid, world => (moment.uuid, world)
  | moment, .now, world => (moment.now, world)

/-! ### Admission -/

abbrev ask (op : TriggerOp) : Prog Trigger op.Answer := Prog.perform (I := Trigger) op

/-- Below the daily limit; a count that cannot be read lets the trigger pass. -/
def dailyRunsAllow (limits : TenantLimits) : Prog Trigger Bool :=
  if limits.maxPipelineRunsPerDay = 0 then pure true
  else do
    match ← ask .getDailyRunCount with
    | .ok count => pure (decide (count < limits.maxPipelineRunsPerDay))
    | .error _ => pure true

/-- A limit of 0 is none, and a failed count is no obstacle. -/
def concurrentRunsAllow (limits : TenantLimits) : Prog Trigger Bool :=
  if limits.maxConcurrentPipelines = 0 then pure true
  else do
    match ← ask .countActive with
    | .ok active => pure (decide (active < limits.maxConcurrentPipelines))
    | .error _ => pure true

/-- Both limits; where there are none, or they cannot be read, all is allowed. -/
def limitsAllow : Except MuliError (Option TenantLimits) → Prog Trigger Bool
  | .ok (some limits) => do
    if ← dailyRunsAllow limits then concurrentRunsAllow limits else pure false
  | _ => pure true

/-- What a trigger is asked for. -/
structure TriggerRequest where
  tenantId : String
  repoId : String
  commitSha : String
  refName : String
  trigger : PipelineTrigger

def TriggerRequest.rateLimitKey (request : TriggerRequest) : String :=
  request.tenantId ++ "/" ++ request.repoId ++ "/" ++ request.refName

/-- **Admission**: the rate limit of the ref, and the tenant's suspension and limits. -/
def admissionAllows (request : TriggerRequest) : Prog Trigger Bool := do
  if ← ask (.recentlyTriggered request.rateLimitKey) then pure false
  else
    match ← ask .isSuspended with
    | .ok true => pure false
    | _ => limitsAllow (← ask .getLimits)

/-! ### Creating a run -/

/-- The record of the pipeline, an existing one of that name or a new one, once it is stored; and
the pipelines known afterwards. -/
def upsertPipelineRecord (name : String) (known : List Pipeline) :
    Prog Trigger (Option Pipeline × List Pipeline) := do
  match known.find? fun pipeline => pipeline.name = name with
  | some existing =>
    match ← ask (.upsertPipeline existing) with
    | .ok () => pure (some existing, known)
    | .error _ => pure (none, known)
  | none =>
    let pipeline : Pipeline := ⟨← ask .newUuid, name⟩
    match ← ask (.upsertPipeline pipeline) with
    | .ok () => pure (some pipeline, known ++ [pipeline])
    | .error _ => pure (none, known ++ [pipeline])

/-- A run with the next number of the pipeline, if there is one. -/
def buildRun (request : TriggerRequest) (pipeline : Pipeline) (content : String) :
    Prog Trigger (Option PipelineRun) := do
  match ← ask (.nextRunNumber pipeline.id) with
  | .error _ => pure none
  | .ok runNumber =>
    let id ← ask .newUuid
    let now ← ask .now
    let run := PipelineRun.new id now pipeline.id request.tenantId request.repoId runNumber
      request.commitSha request.refName request.trigger content
    let run := match ← ask (.resolveEnv request.repoId) with
      | .ok env => { run with envVars := env }
      | .error _ => run
    match ← ask (.createRun run) with
    | .error _ => pure none
    | .ok _ => do
      let _ ← ask .incrementDailyRunCount
      pure (some run)

/-- Store the pipeline, build its run and store that. -/
def runPipeline (request : TriggerRequest) (content : String) (name : String)
    (known : List Pipeline) : Prog Trigger (List Pipeline) := do
  let (stored, known) ← upsertPipelineRecord name known
  match stored with
  | none => pure known
  | some pipeline =>
    match ← buildRun request pipeline content with
    | none => pure known
    | some run => do
      ask (.executeRun run.id)
      pure known

/-- The loop over the pipeline files: each that matches is noted, and run unless its name was seen.
-/
def runPipelines (request : TriggerRequest) :
    List PipelineConfig → List Pipeline → List String → Prog Trigger Unit
  | [], _, _ => pure ()
  | file :: files, known, seen =>
    match file.parsed with
    | none => runPipelines request files known seen
    | some definition => do
      ask (.noteTrigger request.rateLimitKey)
      if definition.name ∈ seen then runPipelines request files known seen
      else do
        let known ← runPipeline request file.content definition.name known
        runPipelines request files known (definition.name :: seen)

/-- **A push or pull-request event**: one admission, then a run for every pipeline that matches. -/
def triggerPipeline (request : TriggerRequest) : Prog Trigger Unit := do
  if ← admissionAllows request then
    match ← ask (.discover request.repoId request.commitSha) with
    | none => pure ()
    | some discovery => runPipelines request discovery.pipelineFiles discovery.knownPipelines []
  else pure ()

/-- The file that a manual trigger runs: the first that matches, with the wanted name if there is
one. -/
def manualConfig (wanted : Option String) (files : List PipelineConfig) :
    Option (PipelineConfig × PipelineDef) :=
  files.findSome? fun file =>
    match file.parsed with
    | none => none
    | some definition =>
      match wanted with
      | some name => if definition.name = name then some (file, definition) else none
      | none => some (file, definition)

/-- **A manual trigger**: one admission, one run. -/
def triggerManual (request : TriggerRequest) (wanted : Option String) : Prog Trigger Unit := do
  if ← admissionAllows request then
    match ← ask (.discover request.repoId request.commitSha) with
    | none => pure ()
    | some discovery =>
      match manualConfig wanted discovery.pipelineFiles with
      | none => pure ()
      | some (file, definition) => do
        ask (.noteTrigger request.rateLimitKey)
        let _ ← runPipeline request file.content definition.name discovery.knownPipelines
        pure ()
  else pure ()

/-! ### Retries and retention -/

structure RetryPipelineRequest where
  header : Option String
  tenantId : String
  runId : String
  repoId : String

/-- The recorded environment with the current values over it. -/
def mergeRetryEnv (recorded fresh : EnvMap) : EnvMap := fresh.rows.foldl Table.upsert recorded

/-- The new run of a retry: numbered, stored and executed; neither admission nor the daily count is
asked. -/
def rerun (original : PipelineRun) : ExceptT Status (Prog Trigger) Unit := do
  match ← ask (.nextRunNumber original.pipelineId) with
  | .error e => throw ⟨.internal, "Failed to get run number: " ++ e.toString⟩
  | .ok runNumber =>
    let id ← ask .newUuid
    let now ← ask .now
    let run := PipelineRun.new id now original.pipelineId original.tenantId original.repoId
      runNumber original.commitSha original.refName (.retry original.id) original.yamlContent
    let fresh := match ← ask (.resolveEnv original.repoId) with
      | .ok env => env
      | .error _ => ∅
    let run := { run with envVars := mergeRetryEnv original.envVars fresh }
    match ← ask (.createRun run) with
    | .error e => throw ⟨.internal, "Failed to create retry run: " ++ e.toString⟩
    | .ok _ => ask (.executeRun run.id)

/-- Retry a run of the caller that has ended. -/
def retryFound (callerTenant : String) (request : RetryPipelineRequest) :
    Option PipelineRun → ExceptT Status (Prog Trigger) Unit
  | none => throw ⟨.notFound, "run " ++ request.runId ++ " not found"⟩
  | some original =>
    if original.tenantId ≠ callerTenant then
      throw ⟨.notFound, "run " ++ request.runId ++ " not found"⟩
    else if request.repoId ≠ "" ∧ original.repoId ≠ request.repoId then
      throw ⟨.notFound, "run " ++ request.runId ++ " not found"⟩
    else if !original.state.isTerminal then
      throw ⟨.failedPrecondition,
        "can only retry terminal runs (current state: " ++ original.state.asStr ++ ")"⟩
    else if original.yamlContent = "" then
      throw ⟨.failedPrecondition,
        "run has no recorded pipeline config; trigger a new run instead"⟩
    else rerun original

/-- **A retry.** -/
def retryPipelineImpl (request : RetryPipelineRequest) : ExceptT Status (Prog Trigger) Unit :=
  match validateTenant request.header request.tenantId with
  | .error status => throw status
  | .ok callerTenant =>
    if request.runId = "" then throw ⟨.invalidArgument, "run_id is required"⟩
    else do
      match ← ask (.getRun request.runId) with
      | .error e => throw ⟨.internal, "Failed to get run: " ++ e.toString⟩
      | .ok found => retryFound callerTenant request found

/-- Who creates runs: events, manual triggers and retries. -/
inductive TriggerActor where
  | event (request : TriggerRequest)
  | manual (request : TriggerRequest) (wanted : Option String)
  | retry (request : RetryPipelineRequest)
  | retention (before : Timestamp)

def TriggerActor.program : TriggerActor → Prog Trigger Unit
  | event request => triggerPipeline request
  | manual request wanted => triggerManual request wanted
  | retry request => asThread (retryPipelineImpl request)
  | retention before => do
    let _ ← ask (.deleteOldRuns before)
    pure ()

def triggerPool (world : TenantWorld) (actors : List TriggerActor) : Pool Trigger TenantWorld :=
  ⟨actors.map TriggerActor.program, world⟩

/-! ### What a call creates -/

def TriggerOp.creates : TriggerOp → Option PipelineRun
  | .createRun run => some run
  | _ => none

/-- The calls that neither create a run nor find out which are to be created. -/
def TriggerOp.quiet : TriggerOp → Bool
  | discover .. | getRun _ | createRun _ => false
  | _ => true

abbrev TriggerEvent := Event Trigger TenantWorld TriggerMoment

/-- The run that an event has stored. -/
def newRun? (event : TriggerEvent) : Option PipelineRun :=
  event.op.creates.filter fun run =>
    event.decision.storeFailure = none ∧ ¬ event.before.Clashes run

namespace TenantWorld

/-- The numbers given to runs, with their pipelines. -/
def numbers (world : TenantWorld) : List (String × ℕ) :=
  world.created.map fun entry => (entry.2.pipelineId, entry.2.runNumber)

def storedNumbers (world : TenantWorld) : List (String × ℕ) :=
  world.runs.rows.map fun run => (run.pipelineId, run.runNumber)

theorem storedNumbers_settleRun (world : TenantWorld) (runId : String)
    (outcome : PipelineRunState) :
    (world.settleRun runId outcome).storedNumbers = world.storedNumbers := by
  unfold settleRun
  split
  next run found =>
    simp only [storedNumbers, Table.put, List.map_map]
    refine List.map_congr_left fun row mem => ?_
    by_cases same : row.id = run.id
    · obtain rfl := Table.eq_of_mem mem (Table.find_eq_some.mp found).1 same
      simp
    · simp [same]
  next => rfl

theorem settleRun_created (world : TenantWorld) (runId : String) (outcome : PipelineRunState) :
    (world.settleRun runId outcome).created = world.created := by
  unfold settleRun
  split <;> rfl

end TenantWorld

section Effects

variable (limits : Option TenantLimits) {event : TriggerEvent}

theorem after_of_newRun (isNew : newRun? event = some run) :
      ∃ fits, event.after (triggerHandle limits) =
      event.before.insertRun event.decision.now run fits := by
  obtain ⟨before, moment, op⟩ := event
  obtain ⟨asks, accepted⟩ := Option.filter_eq_some_iff.mp isNew
  obtain ⟨works, fits⟩ : moment.storeFailure = none ∧ ¬ before.Clashes run := by
    simpa using accepted
  cases op with
  | createRun run' =>
    cases asks
    refine ⟨fits, ?_⟩
    simp [Event.after, triggerHandle, orFailure, works, TenantWorld.createRun, fits]
  | _ => cases asks

theorem after_of_newRun_none (isNone : newRun? event = none) :
    (event.after (triggerHandle limits)).created = event.before.created ∧
      ∀ number ∈ (event.after (triggerHandle limits)).storedNumbers,
      number ∈ event.before.storedNumbers := by
  obtain ⟨before, moment, op⟩ := event
  have same : before.created = before.created ∧
      ∀ number ∈ before.storedNumbers, number ∈ before.storedNumbers := ⟨rfl, fun _ => id⟩
  cases op with
  | createRun run =>
    have refused : moment.storeFailure = none → before.Clashes run := by
      simpa [newRun?, TriggerOp.creates, Option.filter] using isNone
    cases failure : moment.storeFailure with
    | some reason => simp [Event.after, triggerHandle, orFailure, failure]
    | none => grind [Event.after, triggerHandle, orFailure, TenantWorld.createRun]
  | executeRun runId =>
    refine ⟨before.settleRun_created runId moment.outcome, fun number stored => ?_⟩
    rwa [Event.after, triggerHandle, before.storedNumbers_settleRun] at stored
  | deleteOldRuns time =>
    simp only [Event.after, triggerHandle, orFailure]
    cases moment.storeFailure with
    | some reason => exact same
    | none =>
      refine ⟨rfl, fun number stored => ?_⟩
      obtain ⟨row, kept, rfl⟩ := List.mem_map.mp stored
      exact List.mem_map_of_mem (List.mem_filter.mp kept).1
  | incrementDailyRunCount | isSuspended | getLimits | getDailyRunCount | countActive
  | upsertPipeline
  | nextRunNumber | getRun =>
    simp only [Event.after, triggerHandle, orFailure]
    cases moment.storeFailure <;> exact same
  | _ => exact same

/-- **Only a call that creates a run adds to the runs created.** -/
theorem created_after (event : TriggerEvent) : (event.after (triggerHandle limits)).created =
      event.before.created ++ ((newRun? event).map (event.decision.now, ·)).toList := by
  cases isNew : newRun? event with
  | none => simpa using (after_of_newRun_none limits isNew).1
  | some run =>
    obtain ⟨fits, isAfter⟩ := after_of_newRun limits isNew
    rw [isAfter]
    rfl

end Effects

/-! ### Protocols that every actor obeys -/

theorem admissionAllows_within {Φ : Type} {P : Protocol Trigger Φ} {inv : Φ → Prop}
    (asks : ∀ op : TriggerOp, (∀ p, op ≠ .nextRunNumber p) → op.creates = none → op.quiet = true →
      (ask op).Within P inv)
    (request : TriggerRequest) : (admissionAllows request).Within P inv := by
  have daily : ∀ limits, (dailyRunsAllow limits).Within P inv := by
    intro limits
    unfold dailyRunsAllow
    split_ifs
    · exact .pure _
    · refine .bind (asks .getDailyRunCount nofun rfl rfl) fun answer => ?_
      cases answer <;> exact .pure _
  have concurrent : ∀ limits, (concurrentRunsAllow limits).Within P inv := by
    intro limits
    unfold concurrentRunsAllow
    split_ifs
    · exact .pure _
    · refine .bind (asks .countActive nofun rfl rfl) fun answer => ?_
      cases answer <;> exact .pure _
  have limited : ∀ answer, (limitsAllow answer).Within P inv := by
    rintro (e | (- | limits))
    · exact .pure _
    · exact .pure _
    · refine .bind (daily limits) fun allowed => ?_
      cases allowed with
      | false => exact .pure _
      | true => exact concurrent limits
  refine .bind (asks (.recentlyTriggered _) nofun rfl rfl) fun recent => ?_
  cases recent with
  | true => exact .pure _
  | false =>
    refine .bind (asks .isSuspended nofun rfl rfl) fun answer => ?_
    rcases answer with e | (- | -)
    · exact .bind (asks .getLimits nofun rfl rfl) limited
    · exact .bind (asks .getLimits nofun rfl rfl) limited
    · exact .pure _

section

variable {Φ : Type} {P : Protocol Trigger Φ} {inv : Φ → Prop}
  (asks : ∀ op : TriggerOp, op ≠ .getDailyRunCount → (ask op).Within P inv)
include asks

theorem buildRun_within (request : TriggerRequest) (pipeline : Pipeline) (content : String) :
    (buildRun request pipeline content).Within P inv := by
  refine .bind (asks (.nextRunNumber _) nofun) fun answer => ?_
  cases answer with
  | error e => exact .pure _
  | ok runNumber =>
    refine .bind (asks .newUuid nofun) fun id => .bind (asks .now nofun) fun now =>
      .bind (asks (.resolveEnv _) nofun) fun env =>
        .bind (asks (.createRun _) nofun) fun stored => ?_
    cases stored with
    | error e => exact .pure _
    | ok _ => exact .bind (asks .incrementDailyRunCount nofun) fun _ => .pure _

theorem rerun_within (original : PipelineRun) : (rerun original).run.Within P inv := by
  have asked : ∀ op : TriggerOp, op ≠ .getDailyRunCount →
      (.lift (ask op) : ExceptT Status (Prog Trigger) op.Answer).run.Within P inv :=
    fun op other => .exceptLift (asks op other)
  refine .exceptBind (asked (.nextRunNumber _) nofun) fun answer => ?_
  cases answer with
  | error e => exact .pure _
  | ok runNumber =>
    refine .exceptBind (asked .newUuid nofun) fun id => .exceptBind (asked .now nofun) fun now =>
      .exceptBind (asked (.resolveEnv _) nofun) fun env =>
        .exceptBind (asked (.createRun _) nofun) fun stored => ?_
    cases stored with
    | error e => exact .pure _
    | ok _ => exact asked (.executeRun _) nofun

end

/-- What a protocol demands of admission and of the creation of one run; all other calls are free.
-/
structure TriggerRules {Φ : Type} (P : Protocol Trigger Φ) (inv : Φ → Prop) : Prop where
  free : ∀ op phase, inv phase → op ≠ .getDailyRunCount → (∀ p, op ≠ .nextRunNumber p) →
    op.creates = none → P.permits phase op ∧ ∀ answer, inv (P.next phase op answer)
  admission : ∀ request phase, inv phase →
    (admissionAllows request).Obeys P (fun allowed phase' => allowed = true → inv phase') phase
  build : ∀ request pipeline content, (buildRun request pipeline content).Within P inv
  rerun : ∀ original, (rerun original).run.Within P inv

namespace TriggerRules

variable {Φ : Type} {P : Protocol Trigger Φ} {inv : Φ → Prop} (rules : TriggerRules P inv)
include rules

theorem ask_within (notCount : op ≠ .getDailyRunCount) (notNumber : ∀ p, op ≠ .nextRunNumber p)
    (notCreate : op.creates = none) : (ask op).Within P inv :=
  Prog.Within.perform (fun phase holds =>
    (rules.free op phase holds notCount notNumber notCreate).1)
    fun phase answer holds _ => (rules.free op phase holds notCount notNumber notCreate).2 answer

theorem upsertPipelineRecord_within (name : String) (known : List Pipeline) :
    (upsertPipelineRecord name known).Within P inv := by
  have upsert : ∀ pipeline, (ask (.upsertPipeline pipeline)).Within P inv := fun pipeline =>
    rules.ask_within nofun nofun rfl
  unfold upsertPipelineRecord
  split
  · refine .bind (upsert _) fun stored => ?_
    cases stored <;> exact .pure _
  · refine .bind (rules.ask_within nofun nofun rfl) fun id => .bind (upsert _) fun stored => ?_
    cases stored <;> exact .pure _

theorem runPipeline_within (request : TriggerRequest) (content name : String)
    (known : List Pipeline) : (runPipeline request content name known).Within P inv := by
  refine .bind (rules.upsertPipelineRecord_within name known) fun upserted => ?_
  obtain ⟨stored, known'⟩ := upserted
  cases stored with
  | none => exact .pure _
  | some pipeline =>
    refine .bind (rules.build request pipeline content) fun built => ?_
    cases built with
    | none => exact .pure _
    | some run => exact .bind (rules.ask_within nofun nofun rfl) fun _ => .pure _

theorem runPipelines_within (request : TriggerRequest) (files : List PipelineConfig)
    (known : List Pipeline) (seen : List String) :
    (runPipelines request files known seen).Within P inv := by
  induction files generalizing known seen with
  | nil => exact .pure ()
  | cons file files ih =>
    unfold runPipelines
    split
    · exact ih known seen
    next definition isParsed =>
      refine .bind (rules.ask_within nofun nofun rfl) fun _ => ?_
      split_ifs
      · exact ih known seen
      · exact .bind (rules.runPipeline_within _ _ _ known) fun known' => ih known' _

theorem retryFound_within (callerTenant : String) (request : RetryPipelineRequest)
    (found : Option PipelineRun) : (retryFound callerTenant request found).run.Within P inv := by
  cases found with
  | none => exact .pure _
  | some original =>
    simp only [retryFound]
    split_ifs
    iterate 4 exact .pure _
    exact rules.rerun original

theorem retryPipelineImpl_within (request : RetryPipelineRequest) :
    (retryPipelineImpl request).run.Within P inv := by
  unfold retryPipelineImpl
  split
  · exact .pure _
  · split_ifs
    · exact .pure _
    · refine .exceptBind (.exceptLift (rules.ask_within nofun nofun rfl)) fun answer => ?_
      cases answer with
      | error e => exact .pure _
      | ok found => exact rules.retryFound_within _ request found

/-- **Every actor obeys the protocol.** -/
theorem obeys (actor : TriggerActor) (start : inv phase) :
    actor.program.Obeys P (fun _ _ => True) phase := by
  have discover : ∀ repoId commitSha, (ask (.discover repoId commitSha)).Within P inv :=
    fun repoId commitSha => rules.ask_within nofun nofun rfl
  cases actor with
  | event request | manual request =>
    refine Prog.obeys_bind.mpr ((rules.admission request phase start).mono ?_)
    rintro (- | -) phase' holds
    · exact trivial
    · refine Prog.Within.obeys (.bind (discover _ _) fun found => ?_) (holds rfl)
      cases found with
      | none => exact .pure ()
      | some discovery =>
        first
        | exact rules.runPipelines_within request _ _ _
        | simp only
          split
          · exact .pure ()
          · exact .bind (rules.ask_within nofun nofun rfl) fun _ =>
              .bind (rules.runPipeline_within _ _ _ _) fun _ => .pure ()
  | retry request =>
    exact Prog.Within.obeys (.bind (rules.retryPipelineImpl_within request) fun _ => .pure ()) start
  | retention before =>
    have delete : (ask (.deleteOldRuns before)).Within P inv := rules.ask_within nofun nofun rfl
    exact Prog.Within.obeys (.bind delete fun _ => .pure ()) start

end TriggerRules

end Muli
