/-
**Submissions with one idempotency key.**

The unique index lets one job in for each tenant and key; a submission that comes later looks the
key up and answers with that job. The lookup comes after the checks against suspension and limit, so
a repeated submission of a tenant that has reached its limit is refused.
-/

import Muli.Server.Submission

namespace Muli

open Interaction List

variable {config : JobServiceConfig} {limits : String → Option TenantLimits}
    {tenantId key id : String}

/-! ### The job under a key -/

variable {world : World SqliteJobStore}

theorem hasKey_storeCall {α : Type} {call : Except MuliError α × SqliteJobStore}
    (before : world.store.HasKey tenantId key id) (after : call.2.HasKey tenantId key id) :
    (storeCall moment world call).2.store.HasKey tenantId key id := by
  unfold storeCall
  split
  exacts [before, after]

/-- **Every call keeps the job under its key.** -/
theorem hasKey_after (event : SubmitEvent) (stored : event.before.store.HasKey tenantId key id) :
    (event.after (submitHandle limits)).store.HasKey tenantId key id := by
  obtain ⟨world, moment, op⟩ := event
  cases op with
  | server op =>
    cases op with
    | getJob | listByState => exact hasKey_storeCall stored stored
    | updateState => exact hasKey_storeCall stored (stored.updateState ..)
    | updateJob => exact hasKey_storeCall stored (stored.updateJob _)
    | _ => exact stored
  | createJob job => exact hasKey_storeCall stored (stored.createJob job)
  | newUuid | reply => exact stored
  | _ => exact hasKey_storeCall stored stored

def createdUnder (tenantId key : String) (history : List (ℕ × SubmitEvent)) : List Job :=
  (history.filterMap fun entry => newJob? entry.2).filter fun job =>
    job.spec.tenantId = tenantId ∧ job.spec.idempotencyKey = some key

variable {history : List (ℕ × SubmitEvent)}

theorem createdUnder_eq_nil (chained : Chained (submitHandle limits) world history)
    (stored : world.store.HasKey tenantId key id) : createdUnder tenantId key history = [] := by
  have kept := chained.preserves (P := fun world => world.store.HasKey tenantId key id)
    (fun entry _ => hasKey_after entry.2) stored
  refine filter_eq_nil_iff.mpr fun job isNew under => ?_
  obtain ⟨entry, isEntry, creates⟩ := mem_filterMap.mp isNew
  obtain ⟨sameTenant, sameKey⟩ := of_decide_eq_true under
  obtain ⟨fits, -⟩ := after_of_newJob limits creates
  exact (kept entry isEntry).1.not_fits sameTenant sameKey fits

/-- **At most one job is created under a key.** -/
theorem created_le_one (chained : Chained (submitHandle limits) world history) :
    (createdUnder tenantId key history).length ≤ 1 := by
  -- the first job that is created blocks the index for the rest of the history
  induction history generalizing world with
  | nil => exact Nat.zero_le 1
  | cons entry later ih =>
    obtain ⟨-, rest⟩ := chained
    cases creates : newJob? entry.2 with
    | none =>
      have same : createdUnder tenantId key (entry :: later) = createdUnder tenantId key later := by
        simp [createdUnder, creates]
      exact same ▸ ih rest
    | some job =>
      by_cases under : job.spec.tenantId = tenantId ∧ job.spec.idempotencyKey = some key
      · obtain ⟨fits, isAfter⟩ := after_of_newJob limits creates
        have stored := isAfter ▸ SqliteJobStore.hasKey_insertRow fits under.1 under.2
        have one : createdUnder tenantId key (entry :: later) =
            job :: createdUnder tenantId key later := by
          simp [createdUnder, creates, under]
        rw [one, createdUnder_eq_nil rest stored, length_singleton]
      · have same : createdUnder tenantId key (entry :: later) =
            createdUnder tenantId key later := by
          simp [createdUnder, creates, under]
        exact same ▸ ih rest

/-! ### A success names the stored job -/

/-- The id of the job under the key that a call finds or stores. -/
def readKeyed (tenantId key : String) : (op : SubmitOp) → op.Answer → Option String
  | .findByIdempotencyKey tenantId' key', .ok (some job) =>
    if tenantId' = tenantId ∧ key' = key then some job.id else none
  | .createJob job, .ok _ =>
    if job.spec.tenantId = tenantId ∧ job.spec.idempotencyKey = some key then some job.id else none
  | _, _ => none

/-- A success is sent for the job that was found or stored last. -/
def answerProtocol (tenantId key : String) : Protocol Submit (Option String) :=
  remembering (fun _ _ => True) (readKeyed tenantId key) fun phase op =>
    ∀ response, op.sent? = some (.ok response) → phase = some response.jobId

def SubmitActor.Under (tenantId key : String) : SubmitActor → Prop
  | submit _ request => request.tenantId = tenantId ∧ request.idempotencyKey = key
  | other _ => False

section Answers

theorem perform_answers (unsent : op.sent? = none) :
    (Prog.perform (I := Submit) op).Within (answerProtocol tenantId key) fun _ => True := by
  refine .perform (fun phase _ response isSent => ?_) fun _ _ _ _ => trivial
  rw [unsent] at isSent
  cases isSent

abbrev Named (response : SubmitJobResponse) (phase : Option String) : Prop :=
  phase = some response.jobId

theorem recoverExisting_answers (sameTenant : job.spec.tenantId = tenantId)
    (sameKey : job.spec.idempotencyKey = some key) (createErr : MuliError) (phase : Option String) :
    Adheres (answerProtocol tenantId key) (recoverExisting job createErr) Named phase := by
  unfold recoverExisting
  rw [sameKey, sameTenant]
  refine .call nofun fun answer _ => ?_
  rcases answer with error | (- | existing)
  · exact .throw _
  · exact .throw _
  · refine .pure ?_
    show ((if tenantId = tenantId ∧ key = key then some existing.id else none).or phase) = _
    rw [if_pos ⟨rfl, rfl⟩]
    rfl

variable {request : SubmitJobRequest}

theorem submitNew_answers (isKey : key ≠ "")
    (sameTenant : request.tenantId = tenantId) (sameKey : request.idempotencyKey = key)
    (tier : PriorityTier) (phase : Option String) :
    Adheres (answerProtocol tenantId key) (submitNew request tier) Named phase := by
  have specKey : (request.jobSpec tier).idempotencyKey = some key := by
    simp [SubmitJobRequest.jobSpec, sameKey, isKey]
  refine .call nofun fun uuid _ => .call nofun fun now _ => .call nofun fun answer _ => ?_
  cases answer with
  | error createErr => exact recoverExisting_answers sameTenant specKey createErr _
  | ok _ =>
    refine .call nofun fun _ _ => .pure ?_
    show ((if request.tenantId = tenantId ∧ (request.jobSpec tier).idempotencyKey = some key then
      some uuid else none).or _) = some uuid
    rw [if_pos ⟨sameTenant, specKey⟩]
    rfl

theorem findExisting_answers (isKey : key ≠ "")
    (sameTenant : request.tenantId = tenantId) (sameKey : request.idempotencyKey = key)
    (phase : Option String) : Adheres (answerProtocol tenantId key) (findExisting request)
      (fun found phase' => ∀ existing ∈ found, phase' = some existing.id) phase := by
  unfold findExisting
  rw [sameTenant, sameKey, if_neg isKey]
  refine .call nofun fun answer _ => ?_
  cases answer with
  | error error => exact .throw _
  | ok found =>
    refine .pure ?_
    rintro existing ⟨⟩
    show ((if tenantId = tenantId ∧ key = key then some existing.id else none).or phase) = _
    rw [if_pos ⟨rfl, rfl⟩]
    rfl

/-- **A submission that answers with success names the job it has found or stored under its key.**
-/
theorem submission_answers (isKey : key ≠ "")
    (under : (SubmitActor.submit header request).Under tenantId key) :
    (submission config header request).Obeys (answerProtocol tenantId key)
    (fun _ _ => True) none := by
  obtain ⟨sameTenant, sameKey⟩ := under
  have named : Adheres (answerProtocol tenantId key) (handleSubmitJob config header request) Named
      none := by
    unfold handleSubmitJob
    split
    · exact .throw _
    · refine .andThen (.ofWithin (checkNotSuspended_within config _ (perform_answers rfl)) trivial)
        fun _ _ _ => .andThen (.ofWithin
          (checkJobLimit_within config _ (perform_answers rfl) (perform_answers rfl)) trivial)
          fun _ phase _ => ?_
      split
      · exact .throw _
      · refine .andThen (.ofWithin
          (resolveEffectiveTier_within config _ _ (perform_answers rfl)) trivial) fun tier _ _ =>
            .andThen (findExisting_answers isKey sameTenant sameKey _) fun found phase isFound => ?_
        cases found with
        | none => exact submitNew_answers isKey sameTenant sameKey tier phase
        | some existing => exact .pure (isFound existing rfl)
  refine Prog.obeys_bind.mpr (.mono named fun answer phase isNamed => ⟨?_, fun _ _ => trivial⟩)
  rintro response ⟨⟩
  exact isNamed response rfl

end Answers

theorem readKeyed_spec {check : SubmitEvent}
    (isRead : readKeyed tenantId key check.op (check.answer (submitHandle limits)) = some id) :
    (check.after (submitHandle limits)).store.HasKey tenantId key id := by
  obtain ⟨world, moment, op⟩ := check
  cases op with
  | findByIdempotencyKey tenantId' key' =>
    simp only [Event.answer, Event.after, submitHandle, storeCall] at isRead ⊢
    cases failure : moment.storeFailure with
    | some reason => simp [failure, readKeyed] at isRead
    | none =>
      rw [failure] at isRead
      cases found : world.store.findByIdempotencyKey tenantId' key' with
      | none => simp [found, readKeyed] at isRead
      | some job =>
        rw [found] at isRead
        simp only [readKeyed] at isRead
        split_ifs at isRead with same
        obtain ⟨rfl, rfl⟩ := same
        cases isRead
        exact SqliteJobStore.hasKey_of_find found
  | createJob job =>
    cases answered : (submitHandle limits moment (.createJob job) world).1 with
    | error error =>
      rw [Event.answer, answered] at isRead
      cases isRead
    | ok id' =>
      rw [Event.answer, answered] at isRead
      simp only [readKeyed] at isRead
      split_ifs at isRead with under
      cases isRead
      obtain ⟨fits, isAfter⟩ := after_of_newJob limits (newJob_of_ok limits answered)
      rw [isAfter]
      exact SqliteJobStore.hasKey_insertRow fits under.1 under.2
  | server | reply | isSuspended | getLimits | countActiveByTenant | newUuid => cases isRead

section Runs

variable {world : World SqliteJobStore} {actors : List SubmitActor}
  {schedule : List (ℕ × SubmitMoment)} {i : ℕ} {first : SubmitActor}

/-- **When a submission sends a success, the job it names is stored under its key.** -/
theorem hasKey_of_sent (isKey : key ≠ "") (isFirst : actors[i]? = some first)
    (under : first.Under tenantId key)
    (split : (submitPool config world actors).trace (submitHandle limits) schedule = earlier ++
    (i, event) :: later) (sends : event.op.sent? = some (.ok response)) :
    event.before.store.HasKey tenantId key response.jobId := by
  have obeys : (first.program config).Obeys (answerProtocol tenantId key)
      (fun _ _ => True) none := by
    cases first with
    | submit header request => exact submission_answers isKey under
    | other actor => exact under.elim
  have conforms := Pool.trace_conforms (H := submitHandle limits) (fun _ _ _ => trivial)
    (submitPool_thread config world isFirst) obeys schedule
  rw [split] at conforms
  -- the id that is sent is the one its thread found or stored last, and that job is still there
  obtain ⟨phase, permitted, remembers⟩ :=
    conforms.permits_lastRead (readKeyed tenantId key) id fun _ _ _ => rfl
  simp only [id_eq, Option.or_none] at remembers
  obtain ⟨⟨_, check, since⟩, found, rfl⟩ :=
    Option.map_eq_some_iff.mp (remembers.symm.trans (permitted response sends))
  have chained := split ▸ Pool.trace_chained (submitPool config world actors) schedule
  exact chained.since_lastRead (P := fun world => world.store.HasKey tenantId key response.jobId)
    found (readKeyed_spec (lastRead_split found).2) fun other _ => hasKey_after other.2

end Runs

/-! ### A submission that comes later -/

/-- **The checks of a submission let it pass**: the tenant is not suspended, it has fewer active
jobs than its limit when they are counted, and the lookup of the key does not fail. (A check that
fails lets it pass.) -/
def Passes (config : JobServiceConfig) (limits : String → Option TenantLimits) : SubmitEvent → Prop
  | ⟨_, moment, .isSuspended tenantId⟩ =>
    moment.storeFailure = none → ∀ bound ∈ limits tenantId, bound.suspended = false
  | ⟨world, moment, .countActiveByTenant tenantId⟩ =>
    moment.storeFailure = none → ∀ bound ∈ limits tenantId,
      world.store.countActiveByTenant tenantId < config.jobLimit bound
  | ⟨_, moment, .findByIdempotencyKey ..⟩ => moment.storeFailure = none
  | _ => True

instance : DecidablePred (Passes config limits) := fun event =>
  match event with
  | ⟨_, moment, .isSuspended tenantId⟩ =>
    inferInstanceAs (Decidable (moment.storeFailure = none → ∀ bound ∈ limits tenantId, _))
  | ⟨_, moment, .countActiveByTenant tenantId⟩ =>
    inferInstanceAs (Decidable (moment.storeFailure = none → ∀ bound ∈ limits tenantId, _))
  | ⟨_, moment, .findByIdempotencyKey ..⟩ =>
    inferInstanceAs (Decidable (moment.storeFailure = none))
  | ⟨_, _, .server _⟩ | ⟨_, _, .getLimits _⟩ | ⟨_, _, .createJob _⟩ | ⟨_, _, .newUuid⟩
  | ⟨_, _, .reply _⟩ => inferInstanceAs (Decidable True)

/-- The request is its caller's, and its fields pass their checks. -/
def SubmitActor.WellFormed (config : JobServiceConfig) : SubmitActor → Prop
  | submit header request =>
      (∃ callerTenant, validateTenant header request.tenantId = .ok callerTenant) ∧
      request.validate config.isNegative = .ok ()
  | other _ => True

/-- The answers of calls that let a submission pass and find the job `id` under the key. -/
def expectsKeyed (config : JobServiceConfig) (limits : String → Option TenantLimits)
    (tenantId key id : String) : (op : SubmitOp) → op.Answer → Prop
  | .isSuspended _, answer => answer ≠ .ok true
  | .getLimits tenantId', answer => ∀ bound, answer = .ok (some bound) → bound ∈ limits tenantId'
  | .countActiveByTenant tenantId', answer => ∀ active, answer = .ok active →
      ∀ bound ∈ limits tenantId', active < config.jobLimit bound
  | .findByIdempotencyKey tenantId' key', answer => tenantId' = tenantId → key' = key →
      ∃ job, answer = .ok (some job) ∧ job.id = id
  | _, _ => True

/-- An answer that is sent is a success for the job `id`. -/
def Returned (id : String) (op : SubmitOp) : Prop :=
  ∀ answer, op.sent? = some answer → ∃ response, answer = .ok response ∧ response.jobId = id

/-- Only successes for the job `id` are sent. -/
def returnsProtocol (config : JobServiceConfig) (limits : String → Option TenantLimits)
    (tenantId key id : String) : Protocol Submit Unit where
  expects := expectsKeyed config limits tenantId key id
  permits _ := Returned id
  next _ _ _ := ()

section Returns

theorem checkNotSuspended_succeeds (asked : String) :
    Succeeds (returnsProtocol config limits tenantId key id) (checkNotSuspended config asked)
      (fun _ _ => True) () := by
  unfold checkNotSuspended
  split_ifs
  · refine .call nofun fun answer expected => ?_
    rcases answer with error | (- | -)
    · exact .pure trivial
    · exact .pure trivial
    · exact absurd rfl expected
  · exact .pure trivial

theorem checkJobLimit_succeeds (asked : String) :
    Succeeds (returnsProtocol config limits tenantId key id) (checkJobLimit config asked)
      (fun _ _ => True) () := by
  unfold checkJobLimit
  split_ifs
  · refine .call nofun fun answer isLimits => ?_
    rcases answer with error | (- | bound)
    · exact .pure trivial
    · exact .pure trivial
    · refine .call nofun fun answer below => ?_
      cases answer with
      | error error => exact .pure trivial
      | ok active =>
        have isBelow : ¬ active ≥ config.jobLimit bound :=
          not_le.mpr (below active rfl bound (isLimits bound rfl))
        show Succeeds _ (if active ≥ config.jobLimit bound then _ else pure ()) _ _
        rw [if_neg isBelow]
        exact .pure trivial
  · exact .pure trivial

theorem resolveEffectiveTier_succeeds (asked : String) (clientTier : ℤ) :
    Succeeds (returnsProtocol config limits tenantId key id)
      (resolveEffectiveTier config asked clientTier) (fun _ _ => True) () := by
  unfold resolveEffectiveTier
  split_ifs
  · refine .call nofun fun answer _ => ?_
    rcases answer with error | (- | bound) <;> exact .pure trivial
  · exact .pure trivial

variable {request : SubmitJobRequest}

theorem findExisting_succeeds (isKey : key ≠ "")
    (sameTenant : request.tenantId = tenantId) (sameKey : request.idempotencyKey = key) :
    Succeeds (returnsProtocol config limits tenantId key id) (findExisting request)
      (fun found _ => ∃ existing, found = some existing ∧ existing.id = id) () := by
  unfold findExisting
  rw [sameTenant, sameKey, if_neg isKey]
  refine .call nofun fun answer expected => ?_
  obtain ⟨existing, rfl, isId⟩ := expected rfl rfl
  exact .pure ⟨existing, rfl, isId⟩

/-- **A submission that its checks let pass, and that finds the job stored under its key, answers
with it.** -/
theorem submission_returns (isKey : key ≠ "")
    (under : (SubmitActor.submit header request).Under tenantId key)
    (wellFormed : (SubmitActor.submit header request).WellFormed config) :
    (submission config header request).Obeys (returnsProtocol config limits tenantId key id)
      (fun _ _ => True) () := by
  obtain ⟨sameTenant, sameKey⟩ := under
  obtain ⟨⟨callerTenant, isCaller⟩, isValid⟩ := wellFormed
  have succeeds : Succeeds (returnsProtocol config limits tenantId key id)
      (handleSubmitJob config header request) (fun response _ => response.jobId = id) () := by
    unfold handleSubmitJob
    rw [isCaller, isValid]
    refine .andThen (checkNotSuspended_succeeds _) fun _ _ _ =>
      .andThen (checkJobLimit_succeeds _) fun _ _ _ =>
        .andThen (resolveEffectiveTier_succeeds _ _) fun tier _ _ =>
          .andThen (findExisting_succeeds isKey sameTenant sameKey) ?_
    rintro _ _ ⟨existing, rfl, isId⟩
    exact .pure isId
  refine Prog.obeys_bind.mpr (.mono succeeds ?_)
  rintro _ _ ⟨response, rfl, isId⟩
  refine ⟨?_, fun _ _ => trivial⟩
  rintro _ ⟨⟩
  exact ⟨response, rfl, isId⟩

end Returns

theorem expectsKeyed_of_passes (passes : Passes config limits event)
    (stored : event.before.store.HasKey tenantId key id) :
    expectsKeyed config limits tenantId key id event.op (event.answer (submitHandle limits)) := by
  obtain ⟨world, moment, op⟩ := event
  cases op with
  | isSuspended asked =>
    simp only [Event.answer, submitHandle, storeCall]
    cases failure : moment.storeFailure with
    | some reason => rintro ⟨⟩
    | none =>
      intro isTrue
      have free := passes failure
      cases bound : limits asked with
      | none => simp [bound] at isTrue
      | some bound' => simp [bound, free bound' bound] at isTrue
  | getLimits asked =>
    simp only [Event.answer, submitHandle, storeCall]
    cases moment.storeFailure with
    | some reason => rintro _ ⟨⟩
    | none => exact fun bound isBound => Except.ok.inj isBound
  | countActiveByTenant asked =>
    simp only [Event.answer, submitHandle, storeCall]
    cases failure : moment.storeFailure with
    | some reason => rintro _ ⟨⟩
    | none =>
      rintro _ ⟨⟩
      exact passes failure
  | findByIdempotencyKey asked key' =>
    rintro rfl rfl
    obtain ⟨job, found, isId⟩ := stored.find
    refine ⟨job, ?_, isId⟩
    have works : moment.storeFailure = none := passes
    simp only [Event.answer, submitHandle, storeCall, works, found]
  | _ => exact trivial

section Repeated

variable {world : World SqliteJobStore} {actors : List SubmitActor}
  {schedule : List (ℕ × SubmitMoment)} {j : ℕ} {header : Option String} {request : SubmitJobRequest}

theorem repliesOf_ne_nil (isSubmission : actors[j]? = some (.submit header request))
    (turns : 9 < schedule.countP fun turn => turn.1 = j) :
    repliesOf j ((submitPool config world actors).trace (submitHandle limits) schedule) ≠ [] := by
  obtain ⟨answer, ⟨j', own⟩, isOwn, isThread', isReply⟩ := Pool.exists_call_of_turns
    (H := submitHandle limits) (handleSubmitJob_bounded config header request)
    (submitPool_thread config world isSubmission) turns
  obtain rfl : j' = j := isThread'
  have isSent : own.op.sent? = some answer := by
    rw [show own.op = .reply answer from isReply]
    rfl
  exact ne_nil_of_mem (mem_repliesOf.mpr ⟨own, isOwn, isSent⟩)

theorem replies_of_begins (isKey : key ≠ "")
    (isSubmission : actors[j]? = some (.submit header request))
    (under : (SubmitActor.submit header request).Under tenantId key)
    (wellFormed : (SubmitActor.submit header request).WellFormed config)
    (split : (submitPool config world actors).trace (submitHandle limits) schedule = earlier ++
      entry :: later)
    (stored : entry.2.before.store.HasKey tenantId key id) (begins : ∀ past ∈ earlier, past.1 ≠ j)
    (passes : ∀ own ∈ earlier ++ entry :: later, own.1 = j → Passes config limits own.2)
    (isReply : answer ∈ repliesOf j (earlier ++ entry :: later)) :
    ∃ response, answer = .ok response ∧ response.jobId = id := by
  have chained := split ▸ Pool.trace_chained (submitPool config world actors) schedule
  have kept := chained.suffix.preserves (P := fun world => world.store.HasKey tenantId key id)
    (fun other _ => hasKey_after other.2) stored
  -- the thread makes no call before the job is stored, so each of its lookups finds it
  have expected : ∀ other ∈ earlier ++ entry :: later, other.1 = j →
      expectsKeyed config limits tenantId key id other.2.op
        (other.2.answer (submitHandle limits)) := by
    rintro ⟨j', own⟩ isOwn isThread'
    obtain rfl : j' = j := isThread'
    refine expectsKeyed_of_passes (passes _ isOwn rfl) ?_
    rcases mem_append.mp isOwn with past | now
    · exact absurd rfl (begins _ past)
    · exact (kept _ now).1
  have conforms := Pool.conforms_of_expected (submitPool_thread config world isSubmission)
    (submission_returns isKey under wellFormed) schedule (split ▸ expected)
  rw [split] at conforms
  obtain ⟨own, isOwn, isSent⟩ := mem_repliesOf.mp isReply
  exact conforms.forall_mem (fun _ _ (permitted : Returned id _) => permitted)
    (j, own) isOwn rfl answer isSent

end Repeated

/-- **Submissions are idempotent where the checks let the repeated ones pass.** Along every run at
most one job is created under a key. Once a submission with the key has answered with success, each
well-formed one that begins later, and whose checks let it pass, answers with the same job; and it
does answer when it is given ten turns. -/
theorem submissions_idempotent (config : JobServiceConfig) (limits : String → Option TenantLimits)
    (world : World SqliteJobStore) (actors : List SubmitActor) (schedule : List (ℕ × SubmitMoment))
    (tenantId key : String) (isKey : key ≠ "") :
    let trace := (submitPool config world actors).trace (submitHandle limits) schedule
    (createdUnder tenantId key trace).length ≤ 1 ∧
      ∀ i j first second, actors[i]? = some first → actors[j]? = some second →
        first.Under tenantId key → second.Under tenantId key → second.WellFormed config →
        ∀ earlier event later response, trace = earlier ++ (i, event) :: later →
          event.op.sent? = some (.ok response) → (∀ past ∈ earlier, past.1 ≠ j) →
          (∀ own ∈ trace, own.1 = j → Passes config limits own.2) →
          (∀ answer ∈ repliesOf j trace, ∃ again, answer = .ok again ∧
            again.jobId = response.jobId) ∧
            (9 < schedule.countP (fun turn => turn.1 = j) → repliesOf j trace ≠ []) := by
  intro trace
  refine ⟨created_le_one (Pool.trace_chained (submitPool config world actors) schedule), ?_⟩
  intro i j first second isFirst isSecond firstUnder secondUnder wellFormed earlier event
    later response split sends begins passes
  obtain ⟨header, request, rfl⟩ : ∃ header request, second = .submit header request := by
    cases second with
    | submit header request => exact ⟨header, request, rfl⟩
    | other actor => exact secondUnder.elim
  have stored : event.before.store.HasKey tenantId key response.jobId :=
    hasKey_of_sent isKey isFirst firstUnder split sends
  refine ⟨fun answer isReply => ?_, repliesOf_ne_nil isSecond⟩
  rw [split] at passes isReply
  exact replies_of_begins isKey isSecond secondUnder wellFormed split stored begins passes isReply

/-! ### One key, two submissions -/

def deploySubmission : SubmitActor :=
  .submit (some "tenant")
    { tenantId := "tenant", projectId := "project", workspaceId := "workspace",
      deploymentId := "deployment", runnerImage := "image", idempotencyKey := "deploy" }

def inTurn : List (ℕ × SubmitMoment) :=
  replicate 10 (0, { now := 0, uuid := "first" }) ++
    replicate 10 (1, { now := 1, uuid := "second" })

/-- A tenant that may have two active jobs gets the id of the first one again. -/
theorem submissions_idempotent_inTurn :
    let trace := (submitPool tenJobs noJobs [deploySubmission, deploySubmission]).trace
      (submitHandle (atMost 2)) inTurn
    (createdUnder "tenant" "deploy" trace).length ≤ 1 ∧
      (∀ answer ∈ repliesOf 1 trace, ∃ again, answer = .ok again ∧ again.jobId = "first") ∧
        repliesOf 1 trace ≠ [] := by
  intro trace
  obtain ⟨created, repeated⟩ := submissions_idempotent tenJobs (atMost 2) noJobs
    [deploySubmission, deploySubmission] inTurn "tenant" "deploy" (by decide)
  have sent : (trace.get ⟨9, by decide +kernel⟩).2.op.sent? =
      some (.ok ⟨"first", "muli-first", 1⟩) := by
    decide +kernel
  have split : trace = trace.take 9 ++ trace.get ⟨9, by decide +kernel⟩ :: trace.drop 10 := by
    rw [get_eq_getElem, getElem_cons_drop, take_append_drop]
  obtain ⟨same, answers⟩ := repeated 0 1 deploySubmission deploySubmission rfl rfl ⟨rfl, rfl⟩
    ⟨rfl, rfl⟩
    ⟨⟨"tenant", rfl⟩, by decide +kernel⟩ _ _ _ _ split sent (by decide +kernel) (by decide +kernel)
  exact ⟨created, same, answers (by decide)⟩

/-- **At the limit, the repeated submission is refused.** The tenant may have one active job; the
first submission stores it, and the same submission again does not get its id. -/
theorem not_submissions_idempotent :
    let trace := (submitPool tenJobs noJobs [deploySubmission, deploySubmission]).trace
      (submitHandle (atMost 1)) inTurn
    repliesOf 0 (trace.take 10) = [.ok ⟨"first", "muli-first", 1⟩] ∧
      repliesOf 1 (trace.drop 10) =
        [.error ⟨.resourceExhausted, "concurrent job limit reached (1/1)"⟩] := by
  decide +kernel

end Muli
