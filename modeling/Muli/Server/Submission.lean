/-
**Job submission.**

A submission passes the checks against its tenant's suspension and limit of active jobs, then the
checks of its fields; it then looks its idempotency key up and stores a new job. Each of these is a
call of its own, and the other submissions and the server's actors move in between.

* `submittedResources_read_iff` — **the resources of an accepted request are read at execution
  exactly when its amounts fit.**
-/

import Muli.Core.Resources
import Muli.Interaction.CheckThenAct
import Muli.Server.Actors
import Muli.Store.JobKeys

namespace Muli

open Interaction SqliteJobStore

/-! ### Requests and answers -/

/-- The fields of a submission. -/
structure SubmitJobRequest where
  tenantId : String
  projectId : String
  workspaceId : String
  deploymentId : String
  runnerImage : String
  envVars : List EnvVar := []
  resources : Option ResourceSpec := none
  priorityTier : ℤ := 0
  framework : String := ""
  idempotencyKey : String := ""
  registryCredentials : Option RegistryCredentials := none
  artifactPaths : List String := []

structure SubmitJobResponse where
  jobId : String
  jobName : String
  state : ℤ
deriving DecidableEq, Repr

/-- The numbers of the states on the wire. -/
def coreStateToProto : JobState → ℤ
  | .pending => 1
  | .scheduled => 2
  | .pulling => 3
  | .running => 4
  | .succeeded => 5
  | .failed => 6
  | .cancelled => 7
  | .timedOut => 8

/-- The tier by its number on the wire. -/
def protoTierToCore : ℤ → PriorityTier
  | 1 => .free
  | 2 => .standard
  | 3 => .premium
  | 4 => .enterprise
  | _ => .standard

def Job.response (job : Job) : SubmitJobResponse := ⟨job.id, job.name, coreStateToProto job.state⟩

/-! ### The calls -/

/-- The calls of submissions, and those of the actors beside them. -/
inductive SubmitOp where
  | server (op : ServerOp)
  | isSuspended (tenantId : String)
  | getLimits (tenantId : String)
  | countActiveByTenant (tenantId : String)
  | findByIdempotencyKey (tenantId key : String)
  | createJob (job : Job)
  | newUuid
  | reply (answer : Except Status SubmitJobResponse)

abbrev SubmitOp.Answer : SubmitOp → Type
  | server op => op.Answer
  | isSuspended _ => Except MuliError Bool
  | getLimits _ => Except MuliError (Option TenantLimits)
  | countActiveByTenant _ => Except MuliError ℕ
  | findByIdempotencyKey .. => Except MuliError (Option Job)
  | createJob _ => Except MuliError String
  | newUuid => String
  | reply _ => Unit

abbrev Submit : Interface := ⟨SubmitOp, SubmitOp.Answer⟩

/-- What is decided at a moment: as for the server, and the id of a job. -/
structure SubmitMoment extends Moment where
  uuid : String := ""

/-- **What a call answers and how it changes the world**, under the limits of the tenants. -/
def submitHandle (limits : String → Option TenantLimits) :
    Handler Submit (World SqliteJobStore) SubmitMoment
  | moment, .server op, world => handle sqliteJobStore moment.toMoment op world
  | moment, .isSuspended tenantId, world =>
    storeCall moment.toMoment world
      (.ok (((limits tenantId).map TenantLimits.suspended).getD false), world.store)
  | moment, .getLimits tenantId, world =>
    storeCall moment.toMoment world (.ok (limits tenantId), world.store)
  | moment, .countActiveByTenant tenantId, world =>
    storeCall moment.toMoment world (.ok (world.store.countActiveByTenant tenantId), world.store)
  | moment, .findByIdempotencyKey tenantId key, world =>
    storeCall moment.toMoment world (.ok (world.store.findByIdempotencyKey tenantId key),
      world.store)
  | moment, .createJob job, world => storeCall moment.toMoment world (world.store.createJob job)
  | moment, .newUuid, world => (moment.uuid, world)
  | _, .reply _, world => ((), world)

/-! ### The handler -/

/-- How the service is set up. `isNegative` is `parse::<f64>`, which may fail, and the comparison of
its value with zero. -/
structure JobServiceConfig where
  limitsStore : Bool := true
  maxJobsPerTenant : ℕ
  isNegative : String → Option Bool := fun _ => none

/-- The limit of the tenant if it has one, else that of the server. -/
def JobServiceConfig.jobLimit (config : JobServiceConfig) (limits : TenantLimits) : ℕ :=
  if limits.maxConcurrentJobs > 0 then limits.maxConcurrentJobs else config.maxJobsPerTenant

abbrev query (op : SubmitOp) : ExceptT Status (Prog Submit) op.Answer :=
  ExceptT.lift (Prog.perform (I := Submit) op)

/-- The tenant is not suspended; a check that fails lets the request pass. -/
def checkNotSuspended (config : JobServiceConfig) (tenantId : String) :
    ExceptT Status (Prog Submit) Unit :=
  if config.limitsStore then do
    match ← query (.isSuspended tenantId) with
    | .ok true => throw ⟨.permissionDenied, "tenant " ++ tenantId ++ " is suspended"⟩
    | _ => pure ()
  else pure ()

/-- The tenant has fewer active jobs than its limit; a call that fails lets the request pass. -/
def checkJobLimit (config : JobServiceConfig) (tenantId : String) :
    ExceptT Status (Prog Submit) Unit :=
  if config.limitsStore then do
    match ← query (.getLimits tenantId) with
    | .ok (some limits) =>
      match ← query (.countActiveByTenant tenantId) with
      | .ok active =>
        if active ≥ config.jobLimit limits then
          throw ⟨.resourceExhausted, "concurrent job limit reached (" ++ active.repr ++ "/" ++
            (config.jobLimit limits).repr ++ ")"⟩
        else pure ()
      | .error _ => pure ()
    | _ => pure ()
  else pure ()

/-- The tier of the job: the tenant's if it has limits, otherwise the one asked for. -/
def resolveEffectiveTier (config : JobServiceConfig) (tenantId : String) (clientTier : ℤ) :
    ExceptT Status (Prog Submit) PriorityTier :=
  if config.limitsStore then do
    match ← query (.getLimits tenantId) with
    | .ok (some limits) => pure limits.priorityTier
    | _ => pure (protoTierToCore clientTier)
  else pure (protoTierToCore clientTier)

namespace SubmitJobRequest

/-- A key may be left out. -/
def validateKey (key : String) : ValidationResult :=
  if key = "" then .ok () else validateMaxLength "idempotency_key" key 256

/-- The four amounts, one after the other. -/
def validateResources (isNegative : String → Option Bool) : Option ResourceSpec → ValidationResult
  | some resources => do
    validateResourceSpec isNegative "cpu_request" resources.cpuRequest
    validateResourceSpec isNegative "cpu_limit" resources.cpuLimit
    validateResourceSpec isNegative "memory_request" resources.memoryRequest
    validateResourceSpec isNegative "memory_limit" resources.memoryLimit
  | none => .ok ()

/-- All checks of a request; the first that fails is reported. -/
def validate (isNegative : String → Option Bool) (request : SubmitJobRequest) :
    ValidationResult := do
  validateIdentifier "tenant_id" request.tenantId
  validateIdentifier "project_id" request.projectId
  validateIdentifier "workspace_id" request.workspaceId
  validateIdentifier "deployment_id" request.deploymentId
  validateDockerImage "runner_image" request.runnerImage
  request.envVars.forM fun envVar => validateEnvVarName envVar.name
  validateMaxLength "framework" request.framework 256
  validateKey request.idempotencyKey
  validateResources isNegative request.resources

/-- The job that a request asks for. -/
def jobSpec (request : SubmitJobRequest) (tier : PriorityTier) : JobSpec where
  deploymentId := request.deploymentId
  projectId := request.projectId
  workspaceId := request.workspaceId
  tenantId := request.tenantId
  runnerImage := request.runnerImage
  envVars := request.envVars
  resources := request.resources.getD
    { cpuRequest := "500m", cpuLimit := "1000m", memoryRequest := "512Mi", memoryLimit := "1Gi",
      timeoutSeconds := 1800 }
  priorityTier := tier
  framework := request.framework
  idempotencyKey := if request.idempotencyKey = "" then none else some request.idempotencyKey
  registryCredentials := request.registryCredentials
  commands := []
  substeps := []
  checkout := none
  artifactDownloads := []
  artifactUploadPaths := request.artifactPaths
  artifactUploadKey := if request.artifactPaths = [] then none else some request.deploymentId
  pipelineStepRunId := none

/-! ### The resources of an accepted request -/

theorem accepted_of_validate {request : SubmitJobRequest} {resources : ResourceSpec}
    (accepted : request.validate parsesNegative = .ok ())
    (given : request.resources = some resources) : resources.Accepted := by
  iterate 8 obtain ⟨_, -, accepted⟩ := exists_of_bind_eq_ok accepted
  rw [given] at accepted
  obtain ⟨_, cpuRequest, accepted⟩ := exists_of_bind_eq_ok accepted
  obtain ⟨_, cpuLimit, accepted⟩ := exists_of_bind_eq_ok accepted
  obtain ⟨_, memoryRequest, memoryLimit⟩ := exists_of_bind_eq_ok accepted
  exact ⟨cpuRequest, cpuLimit, memoryRequest, memoryLimit⟩

end SubmitJobRequest

/-- **The resources of a job whose request was accepted are read at execution exactly when the
amounts of the request fit.** A request without resources gets amounts that do. -/
theorem submittedResources_read_iff (request : SubmitJobRequest) (tier : PriorityTier)
    (accepted : request.validate parsesNegative = .ok ()) :
    (∃ limits, (request.jobSpec tier).resources.read = .ok limits) ↔
      ∀ resources, request.resources = some resources → resources.Fits := by
  cases given : request.resources with
  | some resources =>
    have isAccepted := SubmitJobRequest.accepted_of_validate accepted given
    have same : (request.jobSpec tier).resources = resources := by
      unfold SubmitJobRequest.jobSpec
      rw [given]
      rfl
    rw [same, isAccepted.read_iff]
    exact ⟨by rintro fits _ ⟨⟩; exact fits, fun fits => fits resources rfl⟩
  | none =>
    have same : (request.jobSpec tier).resources = {} := by
      unfold SubmitJobRequest.jobSpec
      rw [given]
      rfl
    rw [same]
    refine iff_of_true ⟨(1000, 1073741824, ⟨1000000000, 1073741824, 500, 536870912⟩), ?_⟩
      (by rintro _ ⟨⟩)
    decide +kernel

def requestFor (resources : ResourceSpec) : SubmitJobRequest where
  tenantId := "tenant"
  projectId := "project"
  workspaceId := "workspace"
  deploymentId := "deployment"
  runnerImage := "alpine"
  resources := some resources

theorem submittedResources_read_half :
    ∃ limits,
    ((requestFor { cpuLimit := "0.5", memoryLimit := "1.5Gi" }).jobSpec .free).resources.read =
      .ok limits := by
  have accepted : (requestFor { cpuLimit := "0.5", memoryLimit := "1.5Gi" }).validate
      parsesNegative = .ok () := by decide +kernel
  refine (submittedResources_read_iff _ _ accepted).mpr ?_
  rintro _ ⟨⟩
  exact ⟨.cores (by decide +kernel) ⟨1 / 2, by decide +kernel, by decide +kernel⟩,
    .scaled ("Gi", 1073741824) (by decide) (by decide +kernel)
    ⟨3 / 2, by decide +kernel, by decide +kernel⟩,
    .millicores (by decide +kernel) ⟨500, by decide +kernel, by decide⟩,
    .scaled ("Mi", 1048576) (by decide) (by decide +kernel)
    ⟨512, by decide +kernel, by decide +kernel⟩⟩

/-- **A memory limit in exponent form is accepted at submission and not read at execution.** -/
theorem submittedResources_not_read :
    (requestFor { memoryLimit := "1e9" }).validate parsesNegative = .ok () ∧
      ((requestFor { memoryLimit := "1e9" }).jobSpec .free).resources.read =
        .error (.internal "Invalid memory value '1e9': invalid digit found in string") := by
  decide +kernel

/-- The job that is stored under the key of the request, if it has one. -/
def findExisting (request : SubmitJobRequest) : ExceptT Status (Prog Submit) (Option Job) :=
  if request.idempotencyKey = "" then pure none
  else do
    match ← query (.findByIdempotencyKey request.tenantId request.idempotencyKey) with
    | .ok existing => pure existing
    | .error error => throw ⟨.internal, "Idempotency check failed: " ++ error.toString⟩

/-- The answer when the job could not be stored: a request with the same key may have been faster.
-/
def recoverExisting (job : Job) (createErr : MuliError) :
    ExceptT Status (Prog Submit) SubmitJobResponse :=
  let failed : Status := ⟨.internal, "Failed to create job: " ++ createErr.toString⟩
  -- a lookup that fails here is answered with the first error
  match job.spec.idempotencyKey with
  | some key => do
    match ← query (.findByIdempotencyKey job.spec.tenantId key) with
    | .ok (some existing) => pure existing.response
    | _ => throw failed
  | none => throw failed

/-- Store a new job and put it into the queue. -/
def submitNew (request : SubmitJobRequest) (tier : PriorityTier) :
    ExceptT Status (Prog Submit) SubmitJobResponse := do
  let id ← query .newUuid
  let now ← query (.server .now)
  let job := Job.new id now (request.jobSpec tier)
  match ← query (.createJob job) with
  | .error createErr => recoverExisting job createErr
  | .ok _ => do
    query (.server (.enqueue job.id tier request.tenantId))
    pure ⟨job.id, job.name, coreStateToProto .pending⟩

/-- **Submit a job.** -/
def handleSubmitJob (config : JobServiceConfig) (header : Option String)
    (request : SubmitJobRequest) : ExceptT Status (Prog Submit) SubmitJobResponse :=
  match validateTenant header request.tenantId with
  | .error status => throw status
  | .ok _callerTenant => do
    -- both checks come before the key is looked up
    checkNotSuspended config request.tenantId
    checkJobLimit config request.tenantId
    match request.validate config.isNegative with
    | .error error => throw ⟨.invalidArgument, error.toString⟩
    | .ok () => do
      let tier ← resolveEffectiveTier config request.tenantId request.priorityTier
      match ← findExisting request with
      | some existing => pure existing.response
      | none => submitNew request tier

/-- A submission, and the answer it sends. -/
def submission (config : JobServiceConfig) (header : Option String) (request : SubmitJobRequest) :
    Prog Submit Unit :=
  (handleSubmitJob config header request).run >>= fun answer =>
    .call (.reply answer) fun _ => .pure ()

/-! ### Submissions among other actors -/

/-- Submissions, and the other actors of the server. -/
inductive SubmitActor where
  | submit (header : Option String) (request : SubmitJobRequest)
  | other (actor : Actor)

def SubmitActor.program (config : JobServiceConfig) : SubmitActor → Prog Submit Unit
  | submit header request => submission config header request
  | other actor => actor.program.translate fun op => Prog.perform (I := Submit) (.server op)

def submitPool (config : JobServiceConfig) (world : World SqliteJobStore)
    (actors : List SubmitActor) : Pool Submit (World SqliteJobStore) :=
  ⟨actors.map (SubmitActor.program config), world⟩

theorem submitPool_thread (config : JobServiceConfig) (world : World SqliteJobStore) {i : ℕ}
    (isActor : actors[i]? = some actor) :
    (submitPool config world actors).threads[i]? = some (actor.program config) := by
  simp [submitPool, isActor]

abbrev SubmitEvent := Event Submit (World SqliteJobStore) SubmitMoment

/-- The job that an event has stored. -/
def newJob? : SubmitEvent → Option Job
  | ⟨world, moment, .createJob job⟩ =>
    if moment.storeFailure = none ∧ world.store.Fits (rowOf job) then some job
    else none
  | _ => none

/-- The answer that is sent. -/
def SubmitOp.sent? : SubmitOp → Option (Except Status SubmitJobResponse)
  | reply answer => some answer
  | _ => none

/-- The answers that a thread has sent. -/
def repliesOf (i : ℕ) (history : List (ℕ × SubmitEvent)) : List (Except Status SubmitJobResponse) :=
  history.filterMap fun entry => if entry.1 = i then entry.2.op.sent? else none

theorem mem_repliesOf :
    answer ∈ repliesOf i history ↔ ∃ event, (i, event) ∈ history ∧
    event.op.sent? = some answer := by
  simp only [repliesOf, List.mem_filterMap]
  constructor
  · simp
  · simp

/-! ### The stages of a submission -/

section Stages

variable {Φ : Type} {P : Protocol Submit Φ} {inv : Φ → Prop} (config : JobServiceConfig)
  (tenantId : String)

theorem checkNotSuspended_within
    (free : (Prog.perform (I := Submit) (.isSuspended tenantId)).Within P inv) :
    (checkNotSuspended config tenantId).run.Within P inv := by
  unfold checkNotSuspended
  split_ifs
  · refine .exceptBind (.exceptLift free) fun answer => ?_
    rcases answer with error | (- | -) <;> exact .pure _
  · exact .pure _

theorem checkJobLimit_within
    (freeLimits : (Prog.perform (I := Submit) (.getLimits tenantId)).Within P inv)
    (freeCount : (Prog.perform (I := Submit) (.countActiveByTenant tenantId)).Within P inv) :
    (checkJobLimit config tenantId).run.Within P inv := by
  unfold checkJobLimit
  split_ifs
  · refine .exceptBind (.exceptLift freeLimits) fun answer => ?_
    rcases answer with error | (- | limits)
    · exact .pure _
    · exact .pure _
    · refine .exceptBind (.exceptLift freeCount) fun answer => ?_
      cases answer with
      | error error => exact .pure _
      | ok active =>
        show Prog.Within P inv (ExceptT.run (if active ≥ config.jobLimit limits then _ else _))
        split_ifs <;> exact .pure _
  · exact .pure _

theorem resolveEffectiveTier_within (clientTier : ℤ)
    (free : (Prog.perform (I := Submit) (.getLimits tenantId)).Within P inv) :
    (resolveEffectiveTier config tenantId clientTier).run.Within P inv := by
  unfold resolveEffectiveTier
  split_ifs
  · refine .exceptBind (.exceptLift free) fun answer => ?_
    rcases answer with error | (- | limits) <;> exact .pure _
  · exact .pure _

theorem findExisting_within (request : SubmitJobRequest)
    (free : ∀ key, (Prog.perform (I := Submit) (.findByIdempotencyKey request.tenantId key)).Within
      P inv) :
    (findExisting request).run.Within P inv := by
  unfold findExisting
  split_ifs
  · exact .pure _
  · refine .exceptBind (.exceptLift (free _)) fun answer => ?_
    cases answer <;> exact .pure _

theorem checkNotSuspended_bounded : (checkNotSuspended config tenantId).run.Bounded 1 := by
  unfold checkNotSuspended
  split_ifs
  · refine .exceptCall fun answer => ?_
    rcases answer with error | (- | -) <;> exact trivial
  · exact trivial

theorem checkJobLimit_bounded : (checkJobLimit config tenantId).run.Bounded 2 := by
  unfold checkJobLimit
  split_ifs
  · refine .exceptCall fun answer => ?_
    rcases answer with error | (- | limits)
    · exact trivial
    · exact trivial
    · refine .exceptCall fun answer => ?_
      cases answer with
      | error error => exact trivial
      | ok active =>
        show Prog.Bounded (ExceptT.run (if active ≥ config.jobLimit limits then _ else _)) 0
        split_ifs <;> exact trivial
  · exact trivial

theorem resolveEffectiveTier_bounded (clientTier : ℤ) :
    (resolveEffectiveTier config tenantId clientTier).run.Bounded 1 := by
  unfold resolveEffectiveTier
  split_ifs
  · refine .exceptCall fun answer => ?_
    rcases answer with error | (- | limits) <;> exact trivial
  · exact trivial

theorem findExisting_bounded (request : SubmitJobRequest) :
    (findExisting request).run.Bounded 1 := by
  unfold findExisting
  split_ifs
  · exact trivial
  · refine .exceptCall fun answer => ?_
    cases answer <;> exact trivial

theorem recoverExisting_bounded (job : Job) (createErr : MuliError) :
    (recoverExisting job createErr).run.Bounded 1 := by
  unfold recoverExisting
  split
  · refine .exceptCall fun answer => ?_
    rcases answer with error | (- | existing) <;> exact trivial
  · exact trivial

theorem submitNew_bounded (request : SubmitJobRequest) (tier : PriorityTier) :
    (submitNew request tier).run.Bounded 4 := by
  refine .exceptCall fun id => .exceptCall fun now => .exceptCall fun answer => ?_
  cases answer with
  | error createErr => exact recoverExisting_bounded _ createErr
  | ok _ => exact .exceptCall fun _ => trivial

/-- **A submission makes at most nine calls before it answers.** -/
theorem handleSubmitJob_bounded (header : Option String) (request : SubmitJobRequest) :
    (handleSubmitJob config header request).run.Bounded 9 := by
  unfold handleSubmitJob
  split
  · exact trivial
  · refine (checkNotSuspended_bounded config _).exceptBind fun _ =>
      (checkJobLimit_bounded config _).exceptBind (n := 6) fun _ => ?_
    split
    · exact trivial
    · refine (resolveEffectiveTier_bounded config _ _).exceptBind fun tier =>
        (findExisting_bounded request).exceptBind (n := 4) fun found => ?_
      cases found with
      | none => exact submitNew_bounded request tier
      | some existing => exact trivial

end Stages

/-! ### What a call does to the store -/

section Effects

variable (limits : String → Option TenantLimits) {event : SubmitEvent} {job : Job}

theorem after_of_newJob (creates : newJob? event = some job) :
    ∃ fits, (event.after (submitHandle limits)).store =
      event.before.store.insertRow (rowOf job) fits := by
  obtain ⟨world, moment, op⟩ := event
  cases op with
  | createJob job' =>
    simp only [newJob?] at creates
    split_ifs at creates with stored
    cases creates
    refine ⟨stored.2, ?_⟩
    simp only [Event.after, submitHandle, storeCall, stored.1, createJob,
      dif_pos stored.2]
  | _ => cases creates

theorem newJob_of_ok {id : String}
    (isOk : (submitHandle limits moment (.createJob job) world).1 = .ok id) :
    newJob? ⟨world, moment, .createJob job⟩ = some job := by
  simp only [submitHandle, storeCall] at isOk
  cases failure : moment.storeFailure with
  | some reason =>
    rw [failure] at isOk
    cases isOk
  | none =>
    rw [failure] at isOk
    by_cases fits : world.store.Fits (rowOf job)
    · exact if_pos ⟨failure, fits⟩
    · simp only [createJob, dif_neg fits] at isOk
      cases isOk

end Effects

/-! ### A small service -/

def noJobs : World SqliteJobStore := ⟨⟨∅, List.Pairwise.nil⟩, PriorityQueue.new, []⟩

def tenJobs : JobServiceConfig where
  maxJobsPerTenant := 10

def atMost (jobs : ℕ) : String → Option TenantLimits := fun _ => some { maxConcurrentJobs := jobs }

end Muli
