/-
**The limit of active jobs.**

A submission counts its tenant's active jobs in one call and stores its job in another. Two
submissions that both count before either stores pass a limit that has room for one; and a
submission whose count fails is let through.

* `activeJobs_bounded` — **if every submission is, none takes the tenant over its limit**, for all
  actors and schedules.
-/

import Muli.Server.Submission

namespace Muli

open Interaction List

/-! ### Reading the count -/

def readActive (tenantId : String) : (op : SubmitOp) → op.Answer → Option ℕ
  | .countActiveByTenant tenantId', .ok active => if tenantId' = tenantId then some active else none
  | _, _ => none

def expectsBound (tenantId : String) (bound : TenantLimits) : (op : SubmitOp) → op.Answer → Prop
  | .getLimits tenantId', .ok found => tenantId' = tenantId → found = some bound
  | _, _ => True

/-- The count read last is below the limit. -/
def BelowBound (limit : ℕ) (phase : Option ℕ) : Prop := ∀ active ∈ phase, active < limit

def SubmitOp.stores? : SubmitOp → Option Job
  | createJob job => some job
  | _ => none

def activeProtocol (config : JobServiceConfig) (tenantId : String) (bound : TenantLimits) :
    Protocol Submit (Option ℕ) :=
  remembering (expectsBound tenantId bound) (readActive tenantId) fun phase op =>
    ∀ job, op.stores? = some job → job.spec.tenantId = tenantId →
      BelowBound (config.jobLimit bound) phase

section Protocol

variable {config : JobServiceConfig} {tenantId : String} {bound : TenantLimits}

theorem readActive_eq_none (other : op ≠ .countActiveByTenant tenantId) (answer : op.Answer) :
    readActive tenantId op answer = none := by
  cases op with
  | countActiveByTenant tenantId' =>
    cases answer with
    | error error => rfl
    | ok active => exact if_neg fun same => other (congrArg SubmitOp.countActiveByTenant same)
  | _ => rfl

theorem permits_of_stores (other : op.stores? = none) (phase : Option ℕ) :
    (activeProtocol config tenantId bound).permits phase op := by
  intro job stores
  rw [other] at stores
  cases stores

theorem perform_active (op : SubmitOp) (uncounted : op ≠ .countActiveByTenant tenantId)
    (unstored : op.stores? = none) {inv : Option ℕ → Prop} :
    (Prog.perform (I := Submit) op).Within (activeProtocol config tenantId bound) inv := by
  refine .perform (fun phase _ => permits_of_stores unstored phase) fun phase answer holds _ => ?_
  show inv ((readActive tenantId op answer).or phase)
  rw [readActive_eq_none uncounted, Option.none_or]
  exact holds

theorem checkJobLimit_active (below : BelowBound (config.jobLimit bound) phase) :
    Adheres (activeProtocol config tenantId bound) (checkJobLimit config tenantId)
      (fun _ => BelowBound (config.jobLimit bound)) phase := by
  unfold checkJobLimit
  split_ifs
  · refine .call (permits_of_stores rfl _) fun answer isBound => ?_
    rcases answer with error | (- | found)
    · exact .pure below
    · exact .pure below
    · obtain rfl : found = bound := Option.some.inj (isBound rfl)
      refine .call (permits_of_stores rfl _) fun answer _ => ?_
      cases answer with
      | error error => exact .pure below
      | ok active =>
        show Adheres _ (if active ≥ config.jobLimit found then _ else _) _
          ((if tenantId = tenantId then some active else none).or phase)
        rw [if_pos rfl, Option.some_or]
        split_ifs with atLimit
        · exact .throw _
        · refine .pure ?_
          rintro _ ⟨⟩
          exact not_le.mp atLimit
  · exact .pure below

theorem submitNew_active (tier : PriorityTier)
    (below : request.tenantId = tenantId → BelowBound (config.jobLimit bound) phase) :
    Adheres (activeProtocol config tenantId bound) (submitNew request tier)
    (fun _ _ => True) phase := by
  have recover : ∀ job createErr phase', Adheres (activeProtocol config tenantId bound)
      (recoverExisting job createErr) (fun _ _ => True) phase' := by
    intro job createErr phase'
    unfold recoverExisting
    split
    · refine .call (permits_of_stores rfl _) fun answer _ => ?_
      rcases answer with error | (- | existing)
      exacts [.throw _, .throw _, .pure trivial]
    · exact .throw _
  refine .call (permits_of_stores rfl _) fun uuid _ => .call (permits_of_stores rfl _) fun now _ =>
    .call ?_ fun answer _ => ?_
  · rintro _ ⟨⟩ sameTenant
    exact below sameTenant
  · cases answer with
    | error createErr => exact recover _ _ _
    | ok _ => exact .call (permits_of_stores rfl _) fun _ _ => .pure trivial

/-- **No submission stores a job of the tenant after it has read a count at the limit.** -/
theorem submission_active (header : Option String) (request : SubmitJobRequest) :
    (submission config header request).Obeys (activeProtocol config tenantId bound)
      (fun _ _ => True) none := by
  -- a submission of another tenant may store whatever it has read
  let inv : Option ℕ → Prop := fun phase =>
    request.tenantId = tenantId → BelowBound (config.jobLimit bound) phase
  have start : inv none := by
    rintro - _ ⟨⟩
  have limit : ∀ phase, inv phase → Adheres (activeProtocol config tenantId bound)
      (checkJobLimit config request.tenantId) (fun _ => inv) phase := by
    intro phase holds
    by_cases same : request.tenantId = tenantId
    · grind [checkJobLimit_active]
    · have uncounted : SubmitOp.countActiveByTenant request.tenantId ≠
          .countActiveByTenant tenantId :=
        fun equal => same (SubmitOp.countActiveByTenant.inj equal)
      exact .ofWithin (checkJobLimit_within config _ (perform_active (.getLimits _) nofun rfl)
        (perform_active _ uncounted rfl)) holds
  have handled : Adheres (activeProtocol config tenantId bound)
      (handleSubmitJob config header request) (fun _ _ => True) none := by
    unfold handleSubmitJob
    split
    · exact .throw _
    · refine .andThen (.ofWithin
        (checkNotSuspended_within config _ (perform_active (.isSuspended _) nofun rfl)) start) fun _
        phase holds =>
          .andThen (limit phase holds) fun _ _ holds => ?_
      split
      · exact .throw _
      · refine .andThen (.ofWithin
          (resolveEffectiveTier_within config _ _ (perform_active (.getLimits _) nofun rfl)) holds)
            fun tier _ holds => .andThen (.ofWithin (findExisting_within request fun key =>
              perform_active (.findByIdempotencyKey _ key) nofun rfl) holds) fun found _ holds => ?_
        cases found with
        | none => exact submitNew_active tier holds
        | some existing => exact .pure trivial
  refine Prog.obeys_bind.mpr (.mono handled fun answer phase _ => ?_)
  exact ⟨permits_of_stores rfl phase, fun _ _ => trivial⟩

theorem submitActors_active (actor : SubmitActor) :
    (actor.program config).Obeys (activeProtocol config tenantId bound) (fun _ _ => True) none := by
  cases actor with
  | submit header request => exact submission_active header request
  | other actor =>
    have within : (SubmitActor.program config (.other actor)).Within
        (activeProtocol config tenantId bound) fun _ => True :=
      Prog.Within.translate actor.program fun op => perform_active (.server op) nofun rfl
    exact within.obeys trivial

end Protocol

/-! ### Active jobs -/

abbrev activeJobs (world : World SqliteJobStore) (tenantId : String) : ℕ :=
  world.store.countActiveByTenant tenantId

/-- **A submission that is accepted is within the limit**: its thread has counted the tenant's
active jobs, and no call since then has raised their number. -/
def ActiveCurrent (limits : String → Option TenantLimits) (tenantId : String)
    (earlier : List (ℕ × SubmitEvent)) (entry : ℕ × SubmitEvent) : Prop :=
  ∀ job ∈ newJob? entry.2, job.spec.tenantId = tenantId →
    ∃ found ∈ lastRead (submitHandle limits) (readActive tenantId) entry.1 earlier,
      ∀ other ∈ found.2.2,
        activeJobs (other.2.after (submitHandle limits)) tenantId ≤
        activeJobs other.2.before tenantId
deriving Decidable

theorem readActive_spec {check : SubmitEvent}
    (isRead : readActive tenantId check.op (check.answer (submitHandle limits)) = some active) :
    active = activeJobs check.before tenantId ∧
    check.after (submitHandle limits) = check.before := by
  obtain ⟨world, moment, op⟩ := check
  by_cases counts : op = .countActiveByTenant tenantId
  · subst counts
    simp only [Event.answer, Event.after, submitHandle, storeCall] at isRead ⊢
    cases failure : moment.storeFailure with
    | some reason => simp [failure, readActive] at isRead
    | none => grind [readActive]
  · rw [readActive_eq_none counts] at isRead
    cases isRead

section Runs

variable {config : JobServiceConfig} {limits : String → Option TenantLimits} {tenantId : String}
  {bound : TenantLimits} {world : World SqliteJobStore} {actors : List SubmitActor}
  {schedule : List (ℕ × SubmitMoment)} {earlier later : List (ℕ × SubmitEvent)} {i : ℕ}
  {event : SubmitEvent} {job : Job}

section

variable (split : (submitPool config world actors).trace (submitHandle limits) schedule = earlier ++
    (i, event) :: later)
include split

theorem lt_jobLimit_of_lastRead (isBound : limits tenantId = some bound)
    (stores : event.op.stores? = some job) (sameTenant : job.spec.tenantId = tenantId)
    (found : lastRead (submitHandle limits) (readActive tenantId) i earlier =
    some (active, check, since)) : active < config.jobLimit bound := by
  have meets : (submitHandle limits).Meets (activeProtocol config tenantId bound) := by
    intro moment op world
    cases op with
    | getLimits asked =>
      simp only [submitHandle, storeCall]
      cases moment.storeFailure with
      | some reason => exact trivial
      | none =>
        rintro rfl
        exact isBound
    | _ => exact trivial
  obtain ⟨phase, permitted, remembers⟩ :=
    Pool.permits_lastRead (readActive tenantId) id (fun _ _ _ => rfl) meets
      (forall_mem_map.mpr fun actor _ => submitActors_active actor) split
  rw [found] at remembers
  exact permitted job stores sameTenant active remembers

/-- **A submission that is within the limit when it is accepted keeps the tenant within it.** -/
theorem activeJobs_lt_of_current (isBound : limits tenantId = some bound)
    (creates : newJob? event = some job)
    (sameTenant : job.spec.tenantId = tenantId)
    (current : ActiveCurrent limits tenantId earlier (i, event)) :
    activeJobs event.before tenantId < config.jobLimit bound := by
  obtain ⟨⟨active, check, since⟩, found, undisturbed⟩ := current job creates sameTenant
  obtain ⟨isActive, unchanged⟩ := readActive_spec (lastRead_split found).2
  have stores : event.op.stores? = some job := by
    obtain ⟨world, moment, op⟩ := event
    cases op with
    | createJob job' =>
      simp only [newJob?] at creates
      split_ifs at creates
      exact creates
    | _ => cases creates
  have below := lt_jobLimit_of_lastRead split isBound stores sameTenant found
  have chained := split ▸ Pool.trace_chained (submitPool config world actors) schedule
  refine chained.since_lastRead (P := fun world =>
    activeJobs world tenantId < config.jobLimit bound)
    found ?_ fun other isSince before => lt_of_le_of_lt (undisturbed other isSince) before
  rw [unchanged, ← isActive]
  exact below

end

end Runs

/-- **Where every submission of the tenant is within the limit when it is accepted, none takes the
number of its active jobs over the limit**, whatever the other submissions and the server's actors
do. -/
theorem activeJobs_bounded (config : JobServiceConfig) (limits : String → Option TenantLimits)
    (world : World SqliteJobStore) (actors : List SubmitActor) (schedule : List (ℕ × SubmitMoment))
    (tenantId : String) (bound : TenantLimits) (isBound : limits tenantId = some bound) :
    let trace := (submitPool config world actors).trace (submitHandle limits) schedule
    AtEach (ActiveCurrent limits tenantId) trace →
      ∀ entry ∈ trace, ∀ job ∈ newJob? entry.2, job.spec.tenantId = tenantId →
        activeJobs (entry.2.after (submitHandle limits)) tenantId ≤ config.jobLimit bound := by
  intro trace current entry isEntry job creates sameTenant
  obtain ⟨earlier, later, split⟩ := append_of_mem isEntry
  have below := activeJobs_lt_of_current split isBound creates sameTenant (current.of_split split)
  obtain ⟨fits, isAfter⟩ := after_of_newJob limits creates
  have counted := SqliteJobStore.countActiveByTenant_insertRow tenantId _ fits
  rw [activeJobs, isAfter]
  exact counted.trans below

/-! ### Two submissions -/

def plainSubmission : SubmitActor :=
  .submit (some "tenant")
    { tenantId := "tenant", projectId := "project", workspaceId := "workspace",
      deploymentId := "deployment", runnerImage := "image" }

/-- The first submission is accepted, the second is refused. -/
theorem activeJobs_bounded_inTurn :
    let trace := (submitPool tenJobs noJobs [plainSubmission, plainSubmission]).trace
      (submitHandle (atMost 1))
        (replicate 9 (0, { now := 0, uuid := "first" }) ++
          replicate 9 (1, { now := 1, uuid := "second" }))
    ∀ entry ∈ trace, ∀ job ∈ newJob? entry.2, job.spec.tenantId = "tenant" →
      activeJobs (entry.2.after (submitHandle (atMost 1))) "tenant" ≤ 1 :=
  activeJobs_bounded tenJobs (atMost 1) noJobs [plainSubmission, plainSubmission] _ "tenant"
    { maxConcurrentJobs := 1 } rfl (by decide +kernel)

/-- **Without the condition.** Both submissions count before either stores its job, and both are
accepted: the tenant has two active jobs under a limit of one. -/
theorem not_activeJobs_bounded :
    let trace := (submitPool tenJobs noJobs [plainSubmission, plainSubmission]).trace
      (submitHandle (atMost 1))
        (replicate 3 (0, { now := 0, uuid := "first" }) ++
          replicate 3 (1, { now := 0, uuid := "second" }) ++
          replicate 6 (0, { now := 0, uuid := "first" }) ++
          replicate 6 (1, { now := 0, uuid := "second" }))
    ∃ entry ∈ trace, ∃ job ∈ newJob? entry.2, job.spec.tenantId = "tenant" ∧
      1 < activeJobs (entry.2.after (submitHandle (atMost 1))) "tenant" := by
  decide +kernel

end Muli
