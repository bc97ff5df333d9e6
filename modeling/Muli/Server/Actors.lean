/-
**The server's actors as programs over the shared store and queue.**

`executeJob`, `handleCancelJob`, `assignJobs`, `reportJobResult`, `checkStaleJobs` and
`recoverJobs`, each call by call as the code makes them. `Actor` gathers those that run side by
side.
-/

import Muli.Server.World

namespace Muli

open Interaction JobState

/-! ### Calls -/

def call (op : ServerOp) : Prog Server op.Answer := Prog.perform (I := Server) op

/-! ### Retry policy -/

/-- How often a job is tried again, and after which delays. -/
structure RetryPolicy where
  maxRetries : ℕ
  baseDelay : Duration
  maxDelay : Duration

namespace RetryPolicy

/-- Two retries, after five seconds and more, five minutes at most. -/
def default : RetryPolicy := ⟨2, 5 * 10 ^ 9, 300 * 10 ^ 9⟩

/-- The longest duration there is. -/
def durationMax : Duration := (2 ^ 64 - 1) * 10 ^ 9 + 999999999

/-- The backoff if the error should be retried: `base_delay * 2^attempt`, capped at `max_delay`. -/
def shouldRetry (policy : RetryPolicy) (error : MuliError) (attempt : ℕ) : Option Duration :=
  if !error.isRetryable || decide (attempt ≥ policy.maxRetries) then none
  else
    let multiplier := if 2 ^ attempt < 2 ^ 32 then 2 ^ attempt else 2 ^ 32 - 1
    let delay := min (policy.baseDelay * multiplier) durationMax
    some (min delay policy.maxDelay)

theorem shouldRetry_eq_none_iff {policy : RetryPolicy} : policy.shouldRetry error attempt = none ↔
      error.isRetryable = false ∨ policy.maxRetries ≤ attempt := by
  unfold shouldRetry
  split
  · next stop => simpa using stop
  · next goOn => simp_all

end RetryPolicy

/-! ### Job execution -/

/-- Compare and swap the state to `final`; when that succeeds, write the whole record with the
state, the result and the time. -/
def settleJob (id : String) (source final : JobState) (job : Job) (result : JobResult) :
    Prog Server Unit := do
  match ← call (.updateState id source final) with
  | .ok () =>
    let finishedAt ← call .now
    let _ ← call (.updateJob
      { job with state := final, result := some result, finishedAt := some finishedAt })
  | .error _ => pure ()

/-- The state of a job whose container run ended without an error. -/
def finalState (result : JobResult) : JobState :=
  match result.exitCode with
  | some 0 => .succeeded
  | _ => .failed

/-- The state of a job whose container run ended with an error that is not retried. -/
def finalStateOfError (error : MuliError) : JobState :=
  if error.isRetryable then .failed
  else match error with
    | .timeout _ => .timedOut
    | .cancelled _ => .cancelled
    | _ => .failed

/-- Reset the job to Pending and increment its retry count, then enqueue it after the delay. -/
def retryJob (id : String) (job : Job) (delay : Duration) : Prog Server Unit := do
  match ← call (.updateState id .running .pending) with
  | .ok () =>
    let updatedAt ← call .now
    let _ ← call (.updateJob
      { job with state := .pending, retryCount := job.retryCount + 1, updatedAt := updatedAt })
    call (.enqueueAfter delay id job.spec.priorityTier job.spec.tenantId)
  | .error _ => pure ()

/-- What `execute_job` does once the container run has ended. -/
def recordExecution (policy : RetryPolicy) (id : String) (job : Job) :
    Except MuliError JobResult → Prog Server Unit
  | .ok result => settleJob id .running (finalState result) job result
  | .error error =>
    match policy.shouldRetry error job.retryCount with
    | some delay => retryJob id job delay
    | none => settleJob id .running (finalStateOfError error) job
        ⟨none, "Execution error: " ++ error.toString, none⟩

/-- Execute a single job: update states, run the container, record the result. -/
def executeJob (policy : RetryPolicy) (id : String) : Prog Server Unit := do
  match ← call (.getJob id) with
  | .ok (some job) =>
    match ← call (.updateState id .pending .scheduled) with
    | .ok () =>
      match ← call (.updateState id .scheduled .running) with
      | .ok () =>
        let outcome ← call (.execute job)
        recordExecution policy id job outcome
      | .error _ => pure ()
    | .error _ => pure ()
  | _ => pure ()

/-! ### gRPC handlers -/

inductive StatusCode where
  | unauthenticated
  | invalidArgument
  | internal
  | notFound
  | permissionDenied
  | failedPrecondition
  | resourceExhausted
deriving DecidableEq, Repr

structure Status where
  code : StatusCode
  message : String
deriving DecidableEq, Repr

/-- The tenant of the `x-tenant-id` header. -/
def extractTenantId (header : Option String) : Except Status String :=
  match header.filter fun value => value ≠ "" with
  | some tenantId => .ok tenantId
  | none => .error ⟨.unauthenticated, "missing x-tenant-id metadata header"⟩

/-- The caller's tenant, which must be the one the request names. -/
def validateTenant (header : Option String) (tenantId : String) : Except Status String :=
  match extractTenantId header with
  | .ok callerTenant =>
    if tenantId ≠ callerTenant then
      .error ⟨.permissionDenied, "tenant_id in request does not match authenticated tenant"⟩
    else .ok callerTenant
  | .error status => .error status

/-- The field must have between one and `maxLen` bytes. -/
def validateNonEmpty (field value : String) (maxLen : ℕ) : Except Status Unit :=
  if value = "" then .error ⟨.invalidArgument, field ++ ": must not be empty"⟩
  else if value.utf8ByteSize > maxLen then
    .error ⟨.invalidArgument, field ++ ": must be at most " ++ maxLen.repr ++ " characters"⟩
  else .ok ()

/-- Jobs of other tenants are refused. -/
def verifyJobOwnership (job : Job) (tenantId : String) : Except Status Unit :=
  if job.spec.tenantId ≠ tenantId then
    .error ⟨.permissionDenied, "job " ++ job.id ++ " does not belong to tenant " ++ tenantId⟩
  else .ok ()

structure CancelJobResponse where
  success : Bool
  message : String
deriving DecidableEq, Repr

/-- Cancel a job: take it out of the queue, then move it to Cancelled from the state it was read
in. -/
def handleCancelJob (header : Option String) (jobId : String) :
    Prog Server (Except Status CancelJobResponse) :=
  match extractTenantId header with
  | .error status => pure (.error status)
  | .ok callerTenant =>
    match validateNonEmpty "job_id" jobId 256 with
    | .error status => pure (.error status)
    | .ok () => do
      match ← call (.getJob jobId) with
      | .error error => pure (.error ⟨.internal, "Store error: " ++ error.toString⟩)
      | .ok none => pure (.error ⟨.notFound, "Job not found: " ++ jobId⟩)
      | .ok (some job) =>
        match verifyJobOwnership job callerTenant with
        | .error status => pure (.error status)
        | .ok () =>
          if job.state.isTerminal then
            pure (.ok ⟨false, "Job is already in terminal state: " ++ job.state.toString⟩)
          else do
            call (.cancel jobId)
            match ← call (.updateState jobId job.state .cancelled) with
            | .error error =>
              pure (.error ⟨.internal, "Failed to cancel job: " ++ error.toString⟩)
            | .ok () => pure (.ok ⟨true, "Job cancelled"⟩)

/-- Pop up to `available` jobs and assign them to an agent; the jobs as they were read. -/
def assignJobs (agentId : String) : (available : ℕ) → Prog Server (List Job)
  | 0 => pure []
  | available + 1 => do
    match ← call .queuePop with
    | none => pure []
    | some scoredJob =>
      match ← call (.getJob scoredJob.jobId) with
      | .ok (some job) =>
        match ← call (.updateState scoredJob.jobId .pending .scheduled) with
        | .ok () =>
          let _ ← call (.updateJob
            { job with assignedAgent := some agentId, state := .scheduled })
          let others ← assignJobs agentId available
          pure (job :: others)
        | .error _ =>
          call (.queueRequeue scoredJob)
          assignJobs agentId available
      | _ => assignJobs agentId available

/-- How many jobs an agent takes and has. -/
structure AgentCapabilities where
  maxConcurrentJobs : ℕ
  runningJobs : ℕ

/-- As many jobs as the agent has room for. -/
def assignJobsTo (agentId : String) (caps : AgentCapabilities) : Prog Server (List Job) :=
  assignJobs agentId (caps.maxConcurrentJobs - caps.runningJobs)

/-- The state by its number on the wire. -/
def protoStateToCore : ℤ → Option JobState
  | 1 => some .pending
  | 2 => some .scheduled
  | 3 => some .pulling
  | 4 => some .running
  | 5 => some .succeeded
  | 6 => some .failed
  | 7 => some .cancelled
  | 8 => some .timedOut
  | _ => none

/-- An agent's report. A timestamp that is given may still be out of range. -/
structure ReportJobResultRequest where
  jobId : String
  agentId : String
  finalState : ℤ
  exitCode : Option ℤ
  message : String
  startedAt : Option (Option Timestamp)
  finishedAt : Option (Option Timestamp)

/-- The job with the result that was reported. -/
def ReportJobResultRequest.applyTo (request : ReportJobResultRequest) (job : Job) : Job :=
  { job with
    result := some ⟨request.exitCode, request.message, none⟩
    startedAt := request.startedAt.getD job.startedAt
    finishedAt := request.finishedAt.getD job.finishedAt }

/-- Move the job to the reported state, then read it back and write it with the result. -/
def recordReport (request : ReportJobResultRequest) (current final : JobState) :
    Prog Server (Except Status Unit) := do
  match ← call (.updateState request.jobId current final) with
  | .error error => pure (.error ⟨.internal, "Failed to update state: " ++ error.toString⟩)
  | .ok () =>
    match ← call (.getJob request.jobId) with
    | .ok (some updatedJob) =>
      let _ ← call (.updateJob (request.applyTo updatedJob))
      pure (.ok ())
    | _ => pure (.ok ())

/-- Whether a report on a Scheduled job takes it through Running first. -/
def needsRunning (current final : JobState) : Bool :=
  !current.canTransitionTo final && decide (current = .scheduled) &&
    match final with
    | .succeeded | .failed | .timedOut => true
    | _ => false

/-- **The report of an agent**, which is stored if the job is still its own and has not ended. -/
def reportJobResult (request : ReportJobResultRequest) : Prog Server (Except Status Unit) :=
  match validateNonEmpty "job_id" request.jobId 256 with
  | .error status => pure (.error status)
  | .ok () =>
    match validateNonEmpty "agent_id" request.agentId 256 with
    | .error status => pure (.error status)
    | .ok () =>
      match protoStateToCore request.finalState with
      | none => pure (.error ⟨.invalidArgument, "Invalid final state"⟩)
      | some final => do
        match ← call (.getJob request.jobId) with
        | .error error => pure (.error ⟨.internal, "Store error: " ++ error.toString⟩)
        | .ok none => pure (.error ⟨.notFound, "Job not found: " ++ request.jobId⟩)
        | .ok (some job) =>
          if job.assignedAgent.any fun assigned => assigned ≠ request.agentId then
            pure (.error ⟨.permissionDenied,
              "agent " ++ request.agentId ++ " is not assigned to job " ++ request.jobId⟩)
          else if job.state.isTerminal then
            pure (.error ⟨.failedPrecondition,
              "job " ++ request.jobId ++ " is already in terminal state: " ++ job.state.toString⟩)
          else if needsRunning job.state final then do
            match ← call (.updateState request.jobId job.state .running) with
            | .error error =>
              pure (.error ⟨.internal, "Failed to update state: " ++ error.toString⟩)
            | .ok () => recordReport request .running final
          else recordReport request job.state final

/-! ### Watchdog and recovery -/

/-- **The watchdog at one job**: one that nobody has touched within the grace period fails. -/
def checkStaleJob (grace : ℤ) (state : JobState) (job : Job) : Prog Server Unit := do
  let now ← call .now
  if now < job.updatedAt + grace then pure ()
  else
    settleJob job.id state .failed job
      ⟨none, "Stale job detected by watchdog (stuck in " ++ state.toString ++ ")", none⟩

/-- The grace period as a signed span: five minutes for one that is longer than `i64::MAX`
milliseconds. -/
def graceOf (gracePeriod : ℕ) : ℤ :=
  if gracePeriod ≤ (2 ^ 63 - 1) * 10 ^ 6 then gracePeriod else 300 * 10 ^ 9

/-- One round of the watchdog; the grace period in nanoseconds. -/
def checkStaleJobs (gracePeriod : ℕ) : Prog Server Unit :=
  [running, scheduled].forM fun state => do
    match ← call (.listByState state) with
    | .ok jobs => jobs.forM (checkStaleJob (graceOf gracePeriod) state)
    | .error _ => pure ()

/-- Jobs that were under way are pending again after a restart. -/
def resetInterrupted (state : JobState) : Prog Server Unit := do
  match ← call (.listByState state) with
  | .ok jobs =>
    jobs.forM fun job => do
      let _ ← call (.updateState job.id state .pending)
  | .error _ => pure ()

/-- Pending jobs get into the queue again. -/
def enqueuePending : Prog Server Unit := do
  match ← call (.listByState .pending) with
  | .ok jobs =>
    jobs.forM fun job => call (.enqueue job.id job.spec.priorityTier job.spec.tenantId)
  | .error _ => pure ()

def recoverJobs : Prog Server Unit := do
  [scheduled, pulling, running].forM resetInterrupted
  enqueuePending

/-! ### Actors -/

/-- Who works on jobs. -/
inductive Actor where
  | executeJob (policy : RetryPolicy) (id : String)
  | cancelJob (header : Option String) (id : String)
  | assignJobs (agentId : String) (caps : AgentCapabilities)
  | reportJobResult (request : ReportJobResultRequest)
  | watchdog (gracePeriod : ℕ)

def Actor.program : Actor → Prog Server Unit
  | executeJob policy id => Muli.executeJob policy id
  | cancelJob header id => do let _ ← handleCancelJob header id
  | assignJobs agentId caps => do let _ ← assignJobsTo agentId caps
  | reportJobResult request => do let _ ← Muli.reportJobResult request
  | watchdog gracePeriod => checkStaleJobs gracePeriod

end Muli
