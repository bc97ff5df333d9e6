/-
**Jobs that an agent executes.**

The server sends a job to an agent as an assignment, from which the agent makes a job of its own.

* `assigned_plan_iff` — **the agent's job has the plan of the stored one exactly if that one has no
  commands, no substeps, no checkout, and no artifacts to fetch or to keep.**
-/

import Muli.Engine.SubstepMarkers

namespace Muli

/-- What the server sends to an agent. -/
structure JobAssignment where
  jobId : String
  runnerImage : String
  envVars : List EnvVar
  resources : Option ResourceSpec
  registryCredentials : Option RegistryCredentials

def jobToAssignment (job : Job) : JobAssignment where
  jobId := job.id
  runnerImage := job.spec.runnerImage
  envVars := job.spec.envVars
  resources := some job.spec.resources
  registryCredentials := job.spec.registryCredentials

/-- The first bytes of an id, in whole characters (job ids are UUIDs; the slice of the source would
panic inside a character). -/
def bytePrefix (bytes : ℕ) : List Char → List Char
  | [] => []
  | c :: rest => if c.utf8Size ≤ bytes then c :: bytePrefix (bytes - c.utf8Size) rest else []

/-- The job that the agent makes of an assignment: what the assignment does not carry is left empty.
-/
def assignmentToJob (now : Timestamp) (assignment : JobAssignment) : Job where
  id := assignment.jobId
  name := "muli-" ++ String.ofList (bytePrefix 8 assignment.jobId.toList)
  spec := {
    tenantId := ""
    priorityTier := .standard
    runnerImage := assignment.runnerImage
    envVars := assignment.envVars
    resources := assignment.resources.getD {}
    registryCredentials := assignment.registryCredentials }
  state := .running
  result := none
  retryCount := 0
  priorityScore := PriorityTier.standard.weight
  createdAt := now
  updatedAt := now
  scheduledAt := some now
  startedAt := some now
  finishedAt := none
  assignedAgent := none

/-- What an executor does for a job. -/
structure ContainerPlan where
  image : String
  credentials : Option RegistryCredentials
  limits : Except MuliError (ℕ × ℕ × DockerResourceLimits)
  timeoutSeconds : ℕ
  checkout : Option CheckoutSpec
  /-- Of a tenant and a run, the jobs whose artifacts are restored. -/
  restores : Option (String × String × List String)
  cmd : Option (List String)
  env : List String
  /-- For a tenant, a run and a key, the paths that are uploaded. -/
  uploads : Option (String × String × String × List String)

def JobSpec.plan (base64 : Base64) (spec : JobSpec) : ContainerPlan where
  image := spec.runnerImage
  credentials := spec.registryCredentials
  limits := spec.resources.read
  timeoutSeconds := spec.resources.timeoutSeconds
  checkout := spec.checkout
  restores := spec.artifactDownloads.head?.map fun first =>
    (spec.tenantId, first.runId, spec.artifactDownloads.map ArtifactDownload.jobName)
  cmd := if spec.commands = [] ∧ spec.substeps = [] then none
    else some ["/bin/sh", "-c", buildJobScript base64 spec]
  env := spec.envVars.map (fun envVar => envVar.name ++ "=" ++ envVar.value) ++ ["TERM=dumb"]
  uploads := if spec.artifactUploadPaths = [] then none
    else spec.artifactUploadKey.map fun key =>
      (spec.tenantId, spec.deploymentId, key, spec.artifactUploadPaths)

/-- **What the agent executes is what the server stored** exactly if the job is nothing but an image
with an environment. -/
theorem assigned_plan_iff (base64 : Base64) (now : Timestamp) (job : Job) :
    (assignmentToJob now (jobToAssignment job)).spec.plan base64 = job.spec.plan base64 ↔
      job.spec.commands = [] ∧ job.spec.substeps = [] ∧ job.spec.checkout = none ∧
        job.spec.artifactDownloads = [] ∧
        (job.spec.artifactUploadPaths = [] ∨ job.spec.artifactUploadKey = none) := by
  have uploads : (none = if job.spec.artifactUploadPaths = [] then none
      else job.spec.artifactUploadKey.map
      fun key => (job.spec.tenantId, job.spec.deploymentId, key, job.spec.artifactUploadPaths)) ↔
        (job.spec.artifactUploadPaths = [] ∨ job.spec.artifactUploadKey = none) := by
    by_cases noPaths : job.spec.artifactUploadPaths = [] <;> simp [noPaths]
  have command : (none = if job.spec.commands = [] ∧ job.spec.substeps = [] then none
      else some ["/bin/sh", "-c", buildJobScript base64 job.spec]) ↔
        (job.spec.commands = [] ∧ job.spec.substeps = []) := by
    by_cases default : job.spec.commands = [] ∧ job.spec.substeps = [] <;> simp [default]
  simp only [JobSpec.plan, assignmentToJob, jobToAssignment, ContainerPlan.mk.injEq,
    Option.getD_some,
    List.head?_nil, Option.map_none, and_self, if_true, command, uploads, true_and]
  constructor
  · simp_all
  · simp_all

/-- **The commands of a job do not reach the agent.** -/
theorem assigned_without_commands :
    let job :=
    Job.new "job-1" 0 { tenantId := "acme", priorityTier := .standard, commands := ["make"] }
    (job.spec.plan standardBase64).cmd = some ["/bin/sh", "-c", "set -e\nmake\n"] ∧
      ((assignmentToJob 0 (jobToAssignment job)).spec.plan standardBase64).cmd = none := by
  decide +kernel

end Muli
