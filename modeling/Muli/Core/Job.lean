/-
**Jobs: the state machine, the error type and the stored record.**

* `JobState.rank_lt_of_canTransitionTo` — every edge climbs in `rank`, so **no job comes back to a
  state it has left** (`JobState.Moves.not_canTransitionTo`) and a terminal state is never left
  (`JobState.Moves.eq_of_isTerminal`).
-/

import Mathlib.Logic.Relation
import Mathlib.Tactic.Common
import Mathlib.Data.Rat.Defs
import Mathlib.Algebra.Order.Ring.Rat
import Muli.Data.Table

namespace Muli

/-- A point in time, in nanoseconds. -/
abbrev Timestamp := ℤ

/-! ### Job states -/

/-- The states of a job; the last four are final. -/
inductive JobState where
  | pending
  | scheduled
  | pulling
  | running
  | succeeded
  | failed
  | cancelled
  | timedOut
deriving DecidableEq, Repr

/-- `Display` and `Debug` write the same word. -/
def JobState.toString : JobState → String
  | .pending => "Pending"
  | .scheduled => "Scheduled"
  | .pulling => "Pulling"
  | .running => "Running"
  | .succeeded => "Succeeded"
  | .failed => "Failed"
  | .cancelled => "Cancelled"
  | .timedOut => "TimedOut"

/-! ### Errors -/

/-- The errors of the system. A timeout carries whole seconds, as every call site builds it. -/
inductive MuliError where
  | docker (reason : String)
  | containerNotFound (id : String)
  | imagePullFailed (image reason : String)
  | jobNotFound (id : String)
  | invalidStateTransition (source target : String)
  | timeout (seconds : ℕ)
  | cancelled (reason : String)
  | agentNotFound (id : String)
  | insufficientResources (needed available : String)
  | concurrencyLimit (reason : String)
  | storage (reason : String)
  | conflict (reason : String)
  | grpc (reason : String)
  | validation (reason : String)
  | internal (reason : String)
  | pipeline (reason : String)
  | pipelineYamlError (reason : String)
  | pipelineDagCycle (reason : String)
  | notFound (what : String)
  | permissionDenied (reason : String)
  | tenantSuspended (reason : String)
  | quotaExceeded (reason : String)
deriving DecidableEq, Repr

namespace MuliError

def toString : MuliError → String
  | docker reason => "Docker error: " ++ reason
  | containerNotFound id => "Container not found: " ++ id
  | imagePullFailed image reason => "Image pull failed for " ++ image ++ ": " ++ reason
  | jobNotFound id => "Job not found: " ++ id
  | invalidStateTransition source target =>
    "Invalid state transition from " ++ source ++ " to " ++ target
  | timeout seconds => "Job timed out after " ++ Nat.repr seconds ++ "s"
  | cancelled reason => "Job cancelled: " ++ reason
  | agentNotFound id => "Agent not found: " ++ id
  | insufficientResources needed available =>
    "Insufficient resources: needed " ++ needed ++ ", available " ++ available
  | concurrencyLimit reason => "Concurrency limit reached: " ++ reason
  | storage reason => "Storage error: " ++ reason
  | conflict reason => "Conflict: " ++ reason
  | grpc reason => "gRPC error: " ++ reason
  | validation reason => "Validation error: " ++ reason
  | internal reason => "Internal error: " ++ reason
  | pipeline reason => "Pipeline error: " ++ reason
  | pipelineYamlError reason => "Pipeline YAML error: " ++ reason
  | pipelineDagCycle reason => "Pipeline DAG cycle: " ++ reason
  | notFound what => "Not found: " ++ what
  | permissionDenied reason => "Permission denied: " ++ reason
  | tenantSuspended reason => "Tenant suspended: " ++ reason
  | quotaExceeded reason => "Quota exceeded: " ++ reason

/-- The errors after which a job is tried again. -/
def isRetryable : MuliError → Bool
  | docker _ | imagePullFailed .. | timeout _ | insufficientResources .. | concurrencyLimit _
  | storage _ | grpc _ => true
  | _ => false

end MuliError

namespace JobState

/-! ### Transitions -/

def isTerminal : JobState → Bool
  | succeeded | failed | cancelled | timedOut => true
  | _ => false

/-- **The transitions of a job**; a cancellation is possible from any state that is not final. -/
def canTransitionTo (state target : JobState) : Bool :=
  if state.isTerminal then false
  else if target = cancelled then true
  else match state, target with
    | pending, scheduled
    | scheduled, pulling
    | scheduled, running
    | pulling, running
    | pulling, failed
    | running, succeeded
    | running, failed
    | running, timedOut => true
    | _, _ => false

def transitionTo (state target : JobState) : Except MuliError JobState :=
  if state.canTransitionTo target then .ok target
  else .error (.invalidStateTransition state.toString target.toString)

/-- How far a job is. -/
def rank : JobState → ℕ
  | pending => 0
  | scheduled => 1
  | pulling => 2
  | running => 3
  | succeeded | failed | cancelled | timedOut => 4

variable {state target : JobState}

theorem rank_lt_of_canTransitionTo (edge : state.canTransitionTo target) :
    state.rank < target.rank := by
  cases state <;> cases target <;> simp_all [canTransitionTo, isTerminal, rank]

/-- Any number of transitions. -/
abbrev Moves : JobState → JobState → Prop :=
  Relation.ReflTransGen fun state target => state.canTransitionTo target

section

variable (moves : Moves state target)
include moves

theorem Moves.rank_le : state.rank ≤ target.rank := by
  induction moves with
  | refl => exact le_rfl
  | tail _ edge ih => exact ih.trans (rank_lt_of_canTransitionTo edge).le

theorem Moves.eq_of_isTerminal
    (terminal : state.isTerminal) : target = state := by
  rcases moves.cases_head with same | ⟨next, edge, -⟩
  · exact same.symm
  · simp [canTransitionTo, terminal] at edge

/-- **No way back:** a state reached from `state` has no edge to `state`. -/
theorem Moves.not_canTransitionTo : ¬ target.canTransitionTo state :=
  fun edge => absurd (rank_lt_of_canTransitionTo edge) (not_lt.mpr moves.rank_le)

end

end JobState

/-! ### The job record -/

inductive PriorityTier where
  | free
  | standard
  | premium
  | enterprise
deriving DecidableEq, Repr

/-- A tenth of it is added to the score for each minute in the queue. -/
def PriorityTier.weight : PriorityTier → ℕ
  | free => 1
  | standard => 10
  | premium => 100
  | enterprise => 1000

structure JobSubstepSpec where
  name : String
  commands : List String
deriving DecidableEq, Repr

structure EnvVar where
  name : String
  value : String
deriving DecidableEq, Repr

structure ResourceSpec where
  cpuRequest : String := "500m"
  cpuLimit : String := "1000m"
  memoryRequest : String := "512Mi"
  memoryLimit : String := "1Gi"
  timeoutSeconds : ℕ := 1800
deriving DecidableEq, Repr

structure CheckoutSpec where
  cloneUrl : String
  sha : String
  submodules : Bool
deriving DecidableEq, Repr

structure ArtifactDownload where
  runId : String
  jobName : String
deriving DecidableEq, Repr

structure RegistryCredentials where
  server : String
  username : String
  password : String
deriving DecidableEq, Repr

/-- What a job is asked to do. -/
structure JobSpec where
  tenantId : String
  priorityTier : PriorityTier
  idempotencyKey : Option String := none
  substeps : List JobSubstepSpec := []
  pipelineStepRunId : Option String := none
  deploymentId : String := ""
  projectId : String := ""
  workspaceId : String := ""
  runnerImage : String := ""
  envVars : List EnvVar := []
  resources : ResourceSpec := {}
  framework : String := ""
  registryCredentials : Option RegistryCredentials := none
  commands : List String := []
  checkout : Option CheckoutSpec := none
  artifactDownloads : List ArtifactDownload := []
  artifactUploadPaths : List String := []
  artifactUploadKey : Option String := none
deriving DecidableEq, Repr

/-- How a job ended. -/
structure JobResult where
  exitCode : Option ℤ
  message : String
  containerId : Option String
deriving DecidableEq, Repr

/-- The score of a job that has waited since `enqueuedAt`: `weight * (10 + minutes) / 10`. -/
def calculateScore (now : Timestamp) (tier : PriorityTier) (enqueuedAt : Timestamp) : ℚ :=
  tier.weight * (10 + (((now - enqueuedAt) / 60000000000).toNat : ℚ)) / 10

/-- A job with its spec, its state and its times. -/
structure Job where
  id : String
  name : String
  spec : JobSpec
  state : JobState
  result : Option JobResult
  retryCount : ℕ
  priorityScore : ℚ
  createdAt : Timestamp
  updatedAt : Timestamp
  scheduledAt : Option Timestamp
  startedAt : Option Timestamp
  finishedAt : Option Timestamp
  assignedAgent : Option String
deriving DecidableEq, Repr

/-- A new job is pending; its name is made from its id. -/
def Job.new (id : String) (now : Timestamp) (spec : JobSpec) : Job where
  id := id
  name := "muli-" ++ String.ofList (id.toList.take 8)
  spec := spec
  state := .pending
  result := none
  retryCount := 0
  priorityScore := calculateScore now spec.priorityTier now
  createdAt := now
  updatedAt := now
  scheduledAt := none
  startedAt := none
  finishedAt := none
  assignedAgent := none

/-! ### Tenants -/

/-- A map of environment variables, in the order it is iterated. -/
abbrev EnvMap := Table (Prod.fst : String × String → String)

/-- Limits of a tenant; 0 stands for the server default (jobs) or for no limit. -/
structure TenantLimits where
  maxConcurrentJobs : ℕ := 0
  maxConcurrentPipelines : ℕ := 0
  maxPipelineRunsPerDay : ℕ := 0
  priorityTier : PriorityTier := .standard
  suspended : Bool := false
deriving DecidableEq, Repr

end Muli
