/-
**One actor alone on the store.**

* `executeJob_settled_iff` — a container run that ends in an error leaves the job in a terminal
  state exactly when the error is not retried: **the retry asks for Running → Pending, which the
  state machine does not have, so the job stays Running and nothing is queued.**
  `attempts_endsWithVerdict_iff` — a job is attempted once, and a timeout is never stored as one.
* `checkStaleJobs_done_iff` — **a Scheduled job is never ended by the watchdog**, there is no edge.
* `reportJobResult_faithful_iff` — when the answer to a report says what became of the job; here the
  store may fail at any call, in the others it works.

All hold for the in-memory and the SQLite store.
-/

import Muli.Server.Actors

namespace Muli

open Interaction Table JobState Backend

/-- An actor alone: no store call fails, a container run ends with `execution`, and the environment
only decides the time of each call. -/
def alone {σ : Type} (store : JobStore σ) (execution : Except MuliError JobResult) :
    Handler Server (World σ) Timestamp :=
  fun now op world => handle store ⟨now, none, execution⟩ op world

/-- The same, with a clock that the environment moves. -/
abbrev aloneAt {σ ι : Type} (store : JobStore σ) (execution : Except MuliError JobResult)
    (clock : ι → Timestamp) : Handler Server (World σ) ι := fun i => alone store execution (clock i)

section Rules

variable {σ α ι : Type} {store : JobStore σ} {abs : σ → JobTable} {clock : ι → Timestamp}
  {execution : Except MuliError JobResult} {post : α → World σ → Prop} {world : World σ}
  {id : String}

theorem ensures_getJob (refines : store.Refines abs)
    (goOn : (next (.ok ((abs world.store).find id))).Ensures (aloneAt store execution clock)
      post world) :
    (call (.getJob id) >>= next).Ensures (aloneAt store execution clock) post world := by
  intro now
  rw [← refines.getJob] at goOn
  exact goOn

theorem ensures_listByState (refines : store.Refines abs) {state : JobState}
    {next : Except MuliError (List Job) → Prog Server α}
    (goOn : (next (.ok ((abs world.store).rows.filter fun job => job.state = state))).Ensures
      (aloneAt store execution clock) post world) :
    (call (.listByState state) >>= next).Ensures (aloneAt store execution clock) post world := by
  intro now
  rw [← refines.listByState] at goOn
  exact goOn

variable {next : Except MuliError Unit → Prog Server α}

section

variable (refines : store.Refines abs)
include refines

theorem ensures_updateState
    (stored : (abs world.store).find id = some job) (edge : job.state.canTransitionTo target)
    (goOn : ∀ now world', (∀ other, (abs world'.store).find other =
        if other = id then some { job with state := target, updatedAt := now }
        else (abs world.store).find other) →
      (next (.ok ())).Ensures (aloneAt store execution clock) post world') :
    (call (.updateState id job.state target) >>= next).Ensures (aloneAt store execution clock) post
      world := by
  intro i
  have performs := refines.updateState (clock i) id job.state target world.store
  have swap : (abs world.store).cas (clock i) id job.state target =
      some ((abs world.store).put { job with state := target, updatedAt := clock i }) :=
    JobTable.cas_eq_some.mpr ⟨job, stored, rfl, edge, rfl⟩
  rw [swap] at performs
  simp only [alone, handle, storeCall, performs.1]
  refine goOn (clock i) _ fun other => ?_
  obtain rfl : job.id = id := find_key stored
  rw [performs.2]
  exact find_put_of_find { job with state := target, updatedAt := clock i } stored other

theorem ensures_updateState_refused (noEdge : ¬ source.canTransitionTo target)
    (goOn : ∀ error, (next (.error error)).Ensures (aloneAt store execution clock) post world) :
    (call (.updateState id source target) >>= next).Ensures (aloneAt store execution clock) post
    world := by
  intro i
  have performs := refines.updateState (clock i) id source target world.store
  rw [JobTable.cas_eq_none.mpr fun _ _ _ => noEdge] at performs
  obtain ⟨⟨error, refused⟩, same⟩ := performs
  simp only [alone, handle, storeCall, refused, same]
  exact goOn error

theorem ensures_updateJob {job : Job}
    (stored : (abs world.store).find job.id = some old)
    (goOn : ∀ world', (∀ other, (abs world'.store).find other =
        if other = job.id then some job else (abs world.store).find other) →
      (next (.ok ())).Ensures (aloneAt store execution clock) post world') :
    (call (.updateJob job) >>= next).Ensures (aloneAt store execution clock) post world := by
  intro now
  have performs := refines.updateJob job world.store
  rw [JobTable.overwrite, stored] at performs
  simp only [alone, handle, storeCall, performs.1]
  refine goOn _ fun other => ?_
  rw [performs.2]
  exact find_put_of_find job stored other

end

theorem ensures_forM {β : Type} {items : List β} {f : β → Prog Server PUnit}
    {invariant : World σ → Prop} (start : invariant world)
    (keeps : ∀ item world', invariant world' →
      (f item).Ensures (aloneAt store execution clock) (fun _ => invariant) world') :
    (items.forM f).Ensures (aloneAt store execution clock) (fun _ => invariant) world := by
  induction items generalizing world with
  | nil => exact start
  | cons item items ih =>
    exact Prog.ensures_bind.mpr ((keeps item world start).mono fun _ _ kept => ih kept)

end Rules

/-! ### Execution with an error -/

/-- The entries for a job that are in the queue or wait for their delay. -/
def World.waiting {σ : Type} (world : World σ) (id : String) : ℕ :=
  world.queue.ids.count id + (world.delayed.map DelayedEnqueue.id).count id

/-- **What is stored of the job after its execution:** a terminal state, or Pending with one more
retry and exactly one more entry on its way into the queue. -/
def Settled {σ : Type} (abs : σ → JobTable) (job : Job) (before after : World σ) : Prop :=
  ∃ stored, (abs after.store).find job.id = some stored ∧
    (stored.state.isTerminal ∨
      stored.state = .pending ∧ stored.retryCount = job.retryCount + 1 ∧
        after.waiting job.id = before.waiting job.id + 1)

theorem not_settled_of_running {σ : Type} {abs : σ → JobTable} {job : Job} {before after : World σ}
    (running : (abs after.store).stateOf job.id = some .running) :
    ¬ Settled abs job before after := by
  rintro ⟨stored, found, settled⟩
  rw [JobTable.stateOf, found] at running
  have isRunning : stored.state = .running := Option.some.inj running
  rw [isRunning] at settled
  rcases settled with terminal | ⟨isPending, -⟩
  · cases terminal
  · cases isPending

theorem finalStateOfError_isTerminal (error : MuliError) :
    (finalStateOfError error).isTerminal := by
  unfold finalStateOfError
  split
  · rfl
  · split <;> rfl

theorem running_canTransitionTo_finalStateOfError (error : MuliError) :
    running.canTransitionTo (finalStateOfError error) := by
  unfold finalStateOfError
  split
  · rfl
  · split <;> rfl

section Execute

variable {σ : Type} {store : JobStore σ} {abs : σ → JobTable} (refines : store.Refines abs)
  {policy : RetryPolicy} {job : Job} {error : MuliError} {world : World σ}
include refines

variable {execution : Except MuliError JobResult}

section

variable (stored : (abs world.store).find job.id = some job)
include stored

/-- A job is taken from Pending to Running and its container run; what follows is up to
`recordExecution`. -/
theorem ensures_executeJob {post : Unit → World σ → Prop}
    (pending : job.state = .pending) (record : ∀ now world', (abs world'.store).find job.id =
        some { job with state := .running, updatedAt := now } →
      (recordExecution policy job.id job execution).Ensures (alone store execution) post world') :
    (executeJob policy job.id).Ensures (alone store execution) post world := by
  apply ensures_getJob refines
  rw [stored]
  rw [← pending]
  refine ensures_updateState refines stored (by rw [pending]; rfl) fun now world' scheduled => ?_
  refine ensures_updateState refines ((scheduled _).trans (if_pos rfl)) rfl
    fun now' world'' running => ?_
  exact fun _ => record now' world'' ((running _).trans (if_pos rfl))

omit stored in
/-- The job is written with its final state, every other record is as it was. -/
theorem ensures_settleJob {ι : Type} {clock : ι → Timestamp}
    (stored : (abs world.store).find job.id = some current)
    (edge : current.state.canTransitionTo final) :
    (settleJob job.id current.state final job result).Ensures (aloneAt store execution clock)
      (fun _ world' => ∃ i, ∀ other, (abs world'.store).find other = if other = job.id then
          some { job with state := final, result := some result, finishedAt := some (clock i) }
        else (abs world.store).find other) world := by
  refine ensures_updateState refines stored edge fun now world' moved => ?_
  intro i
  refine ensures_updateJob refines ((moved _).trans (if_pos rfl)) fun world'' written => ?_
  refine ⟨i, fun other => (written other).trans ?_⟩
  by_cases same : other = job.id
  · simp [same, alone, handle]
  · simp [same, moved other, alone, handle]

theorem ensures_executeJob_final
    (pending : job.state = .pending) (final : policy.shouldRetry error job.retryCount = none) :
    (executeJob policy job.id).Ensures (alone store (.error error))
      (fun _ world' => (abs world'.store).stateOf job.id = some (finalStateOfError error))
      world := by
  refine ensures_executeJob refines stored pending fun now world' running => ?_
  rw [recordExecution, final]
  refine (ensures_settleJob refines running (running_canTransitionTo_finalStateOfError error)).mono
    fun _ world'' ⟨i, written⟩ => ?_
  rw [JobTable.stateOf, written, if_pos rfl]
  rfl

/-- **An error that is retried leaves the job Running.** -/
theorem ensures_executeJob_retry
    (pending : job.state = .pending)
    (retried : policy.shouldRetry error job.retryCount = some delay) :
    (executeJob policy job.id).Ensures (alone store (.error error))
      (fun _ world' => (abs world'.store).stateOf job.id = some .running) world := by
  refine ensures_executeJob refines stored pending fun now world' running => ?_
  rw [recordExecution, retried]
  refine ensures_updateState_refused refines (by decide) fun refusal => ?_
  show ((abs world'.store).find job.id).map Job.state = some .running
  rw [running]
  rfl

end

end Execute

/-- **A Pending job whose container run ends in an error is settled exactly when the error is not
retried.** -/
theorem executeJob_settled_iff (backend : Backend) (policy : RetryPolicy) (job : Job)
    (error : MuliError) (times : ℕ → Timestamp) (world : World backend.State)
    (stored : (backend.table world.store).find job.id = some job) (pending : job.state = .pending) :
    Settled backend.table job world
        ((executeJob policy job.id).run (alone backend.jobStore (.error error)) times world).2 ↔
      error.isRetryable = false ∨ policy.maxRetries ≤ job.retryCount := by
  rw [← RetryPolicy.shouldRetry_eq_none_iff]
  cases retry : policy.shouldRetry error job.retryCount with
  | none =>
    have ended := (ensures_executeJob_final backend.refines stored pending retry).run times
    obtain ⟨after, found, isFinal⟩ := Option.map_eq_some_iff.mp ended
    refine iff_of_true ⟨after, found, .inl ?_⟩ rfl
    rw [isFinal]
    exact finalStateOfError_isTerminal error
  | some delay =>
    have stuck := (ensures_executeJob_retry backend.refines stored pending retry).run times
    exact iff_of_false (not_settled_of_running stuck) (Option.some_ne_none delay)

def singleJob (job : Job) : World MemoryJobStore where
  store := ⟨⟨[job], List.nodup_singleton _⟩⟩
  queue := PriorityQueue.new
  delayed := []

def submittedJob : Job := Job.new "job" 0 { tenantId := "tenant", priorityTier := .standard }

/-- An internal error is permanent. -/
theorem executeJob_settled_internal : Settled (table .memory) submittedJob (singleJob submittedJob)
      ((executeJob .default submittedJob.id).run
        (alone (jobStore .memory) (.error (.internal "unexpected"))) (fun _ => 0)
        (singleJob submittedJob)).2 :=
  (executeJob_settled_iff .memory .default submittedJob (.internal "unexpected") (fun _ => 0)
    (singleJob submittedJob) rfl rfl).mpr (.inl rfl)

/-- **A first attempt that ends in a Docker error is not settled:** the job is left Running. -/
theorem executeJob_not_settled_docker :
    ¬ Settled (table .memory) submittedJob (singleJob submittedJob)
      ((executeJob .default submittedJob.id).run
        (alone (jobStore .memory) (.error (.docker "daemon unavailable"))) (fun _ => 0)
        (singleJob submittedJob)).2 :=
  not_settled_of_running (by decide)

/-! ### Attempts -/

/-- The state an error of the last attempt stands for. -/
def verdict : MuliError → JobState
  | .timeout _ => .timedOut
  | .cancelled _ => .cancelled
  | _ => .failed

/-- The attempts of a job, each started when it is stored as Pending, with the errors of those that
were made. -/
def attempts (backend : Backend) (policy : RetryPolicy) (id : String) (times : ℕ → Timestamp) :
    List MuliError → World backend.State → World backend.State × List MuliError
  | [], world => (world, [])
  | error :: errors, world =>
    if (backend.table world.store).stateOf id = some .pending then
      let ended := attempts backend policy id times errors
        ((executeJob policy id).run (alone backend.jobStore (.error error)) times world).2
      (ended.1, error :: ended.2)
    else (world, [])

theorem attempts_of_ne_pending {backend : Backend} {world : World backend.State} {id : String}
    (ended : (backend.table world.store).stateOf id ≠ some .pending) :
    attempts backend policy id times errors world = (world, []) := by
  cases errors with
  | nil => rfl
  | cons error errors => rw [attempts, if_neg ended]

/-- The job is stored with the verdict on its last attempt. -/
def EndsWithVerdict (backend : Backend) (id : String)
    (ended : World backend.State × List MuliError) : Prop :=
  ∃ last ∈ ended.2.getLast?, (backend.table ended.1.store).stateOf id = some (verdict last)

theorem finalStateOfError_eq_verdict_iff :
    finalStateOfError error = verdict error ↔
    ¬ (error.isRetryable ∧ verdict error = .timedOut) := by
  cases error <;> simp [finalStateOfError, verdict, MuliError.isRetryable]

/-- **One attempt is made of a Pending job whose container runs end in errors, and its state is the
verdict exactly if the first error is not retried** and no timeout. -/
theorem attempts_endsWithVerdict_iff (backend : Backend) (policy : RetryPolicy) (job : Job)
    (error : MuliError) (errors : List MuliError) (times : ℕ → Timestamp)
    (world : World backend.State)
    (stored : (backend.table world.store).find job.id = some job) (pending : job.state = .pending) :
    (attempts backend policy job.id times (error :: errors) world).2.length ≤
    policy.maxRetries + 1 ∧
      (EndsWithVerdict backend job.id
        (attempts backend policy job.id times (error :: errors) world) ↔
        error.isRetryable = false ∨ policy.maxRetries ≤ job.retryCount ∧
        verdict error ≠ .timedOut) := by
  have started : (backend.table world.store).stateOf job.id = some .pending := by
    rw [JobTable.stateOf, stored, ← pending]
    rfl
  rw [attempts, if_pos started]
  cases retry : policy.shouldRetry error job.retryCount with
  | none =>
    have ended := (ensures_executeJob_final backend.refines stored pending retry).run times
    have isFinal : finalStateOfError error ≠ .pending := fun same => by
      have terminal := finalStateOfError_isTerminal error
      rw [same] at terminal
      cases terminal
    rw [attempts_of_ne_pending fun same => isFinal (Option.some.inj (ended.symm.trans same))]
    refine ⟨by simp, ?_⟩
    rw [RetryPolicy.shouldRetry_eq_none_iff] at retry
    have verdictOf := @finalStateOfError_eq_verdict_iff error
    simp only [EndsWithVerdict, List.getLast?_singleton, Option.mem_def, Option.some.injEq,
      exists_eq_left', ended]
    grind
  | some delay =>
    have stuck := (ensures_executeJob_retry backend.refines stored pending retry).run times
    rw [attempts_of_ne_pending (by rw [stuck]; decide)]
    refine ⟨by simp, iff_of_false ?_ ?_⟩
    · rintro ⟨last, -, same⟩
      rw [stuck] at same
      cases last <;> cases same
    · intro holds
      have final := RetryPolicy.shouldRetry_eq_none_iff.mpr (holds.imp_right And.left)
      rw [retry] at final
      cases final

/-- An internal error is permanent: the job is Failed after one attempt. -/
theorem attempts_endsWithVerdict_internal : EndsWithVerdict .memory submittedJob.id
    (attempts .memory .default submittedJob.id (fun _ => 0) [.internal "unexpected"]
      (singleJob submittedJob)) :=
  (attempts_endsWithVerdict_iff .memory .default submittedJob (.internal "unexpected") []
    (fun _ => 0) (singleJob submittedJob) rfl rfl).2.mpr (.inl rfl)

/-- **After a timeout the job stays Running** while retries are left, **and is Failed** when none
is. -/
theorem attempts_not_endsWithVerdict_timeout :
    ¬ EndsWithVerdict .memory submittedJob.id
    (attempts .memory .default submittedJob.id (fun _ => 0)
        [.timeout 60, .timeout 60, .timeout 60] (singleJob submittedJob)) ∧
      ¬ EndsWithVerdict .memory submittedJob.id
      (attempts .memory ⟨0, 1, 1⟩ submittedJob.id (fun _ => 0)
        [.timeout 60] (singleJob submittedJob)) := by
  unfold EndsWithVerdict
  decide

/-! ### Recovery at startup -/

/-- **What recovery is for:** every job that was not finished is Pending and comes out of the queue
exactly once; a finished job is as it was and not queued. -/
structure Recovered {σ : Type} (abs : σ → JobTable) (before after : World σ) : Prop where
  unfinished : ∀ job ∈ (abs before.store).rows, ¬ job.state.isTerminal →
    (abs after.store).stateOf job.id = some .pending ∧
      (after.queue.drain.map ScoredJob.jobId).count job.id = 1
  finished : ∀ job ∈ (abs before.store).rows, job.state.isTerminal →
    (abs after.store).find job.id = some job ∧
      job.id ∉ after.queue.drain.map ScoredJob.jobId

/-- The job had been handed out when the server stopped. -/
def Interrupted (job : Job) : Prop :=
  job.state = .scheduled ∨ job.state = .pulling ∨ job.state = .running

section Recover

variable {σ : Type} {store : JobStore σ} {abs : σ → JobTable}
  (execution : Except MuliError JobResult)

/-- **Resetting interrupted jobs changes nothing:** no state has an edge to Pending. -/
theorem ensures_resetInterrupted (refines : store.Refines abs) (state : JobState)
    (world : World σ) : (resetInterrupted state).Ensures (alone store execution)
      (fun _ world' => world' = world) world := by
  apply ensures_listByState refines
  refine ensures_forM rfl fun job world' same => ?_
  refine ensures_updateState_refused refines ?_ fun _ => same
  cases state <;> decide

theorem ensures_enqueueAll (jobs : List Job) (world : World σ) :
    (jobs.forM fun job => call (.enqueue job.id job.spec.priorityTier job.spec.tenantId)).Ensures
      (alone store execution) (fun _ world' => world'.store = world.store ∧
        world'.queue.ids = (jobs.map Job.id).reverse ++ world.queue.ids ∧
        world'.queue.removed = world.queue.removed) world := by
  induction jobs generalizing world with
  | nil => exact ⟨rfl, rfl, rfl⟩
  | cons job jobs ih =>
    intro now
    refine (ih _).mono fun _ world' kept => ?_
    obtain ⟨sameStore, ids, removed⟩ := kept
    refine ⟨sameStore, ?_, removed⟩
    rw [ids, List.map_cons, List.reverse_cons, List.append_assoc]
    rfl

/-- **Recovery leaves the store alone and queues the jobs it finds Pending.** -/
theorem ensures_recoverJobs (refines : store.Refines abs) (world : World σ)
    (fresh : world.queue = PriorityQueue.new) :
    recoverJobs.Ensures (alone store execution) (fun _ world' => world'.store = world.store ∧
      (world'.queue.drain.map ScoredJob.jobId : Multiset String) =
        (((abs world.store).rows.filter fun job => job.state = .pending).map Job.id :)) world := by
  apply Prog.ensures_bind.mpr
  have resets : ([scheduled, .pulling, .running].forM resetInterrupted).Ensures
      (alone store execution) (fun _ world' => world' = world) world := by
    refine ensures_forM rfl fun state world' same => ?_
    subst same
    exact ensures_resetInterrupted execution refines state world'
  refine resets.mono fun _ world' same => ?_
  subst same
  refine ensures_listByState refines ((ensures_enqueueAll _ _ _).mono fun _ world'' kept => ?_)
  obtain ⟨sameStore, ids, removed⟩ := kept
  refine ⟨sameStore, ?_⟩
  have anchored : world''.queue.Anchored := by
    intro id mem
    rw [removed, fresh] at mem
    exact absurd mem (Finset.notMem_empty id)
  rw [anchored.drain, PriorityQueue.live, ids, removed, fresh, ← Multiset.coe_add,
    Multiset.coe_reverse]
  simp [PriorityQueue.new, PriorityQueue.ids]

end Recover

theorem count_pendingIds {jobs : JobTable} (mem : job ∈ jobs.rows) :
    ((jobs.rows.filter fun other => other.state = .pending).map Job.id).count job.id =
      if job.state = .pending then 1 else 0 := by
  have sublist := (List.filter_sublist (p := fun other : Job => decide (other.state = .pending))
    (l := jobs.rows)).map Job.id
  by_cases pending : job.state = .pending
  · rw [if_pos pending]
    refine List.count_eq_one_of_mem (jobs.nodup.sublist sublist) ?_
    exact List.mem_map_of_mem (List.mem_filter.mpr ⟨mem, by simpa using pending⟩)
  · rw [if_neg pending]
    refine List.count_eq_zero_of_not_mem fun inList => ?_
    obtain ⟨other, isPending, same⟩ := List.mem_map.mp inList
    obtain ⟨mem', pending'⟩ := List.mem_filter.mp isPending
    rw [eq_of_mem mem' mem same] at pending'
    exact pending (by simpa using pending')

/-- **Recovery brings every unfinished job back exactly when none had been handed out.** -/
theorem recoverJobs_recovered_iff (backend : Backend) (times : ℕ → Timestamp)
    (execution : Except MuliError JobResult) (world : World backend.State)
    (fresh : world.queue = PriorityQueue.new) : Recovered backend.table world
        (recoverJobs.run (alone backend.jobStore execution) times world).2 ↔
      ∀ job ∈ (backend.table world.store).rows, ¬ Interrupted job := by
  obtain ⟨sameStore, queued⟩ :=
    (ensures_recoverJobs execution backend.refines world fresh).run times
  have counted : ∀ job ∈ (backend.table world.store).rows,
      ((recoverJobs.run (alone backend.jobStore execution) times world).2.queue.drain.map
        ScoredJob.jobId).count job.id = if job.state = .pending then 1 else 0 := by
    intro job member
    rw [← Multiset.coe_count, queued, Multiset.coe_count, count_pendingIds member]
  have stored : ∀ job ∈ (backend.table world.store).rows,
      (backend.table (recoverJobs.run (alone backend.jobStore execution) times world).2.store).find
        job.id = some job := by
    intro job member
    rw [sameStore]
    exact find_eq_some.mpr ⟨member, rfl⟩
  constructor
  · intro recovered job member interrupted
    have unfinished : ¬ job.state.isTerminal := by
      rcases interrupted with state | state | state <;> rw [state] <;> decide
    have pending := (recovered.unfinished job member unfinished).1
    rw [JobTable.stateOf, stored job member] at pending
    have isPending : job.state = .pending := Option.some.inj pending
    rcases interrupted with state | state | state <;> rw [state] at isPending <;> cases isPending
  · intro none
    refine ⟨fun job member unfinished => ?_, fun job member finished => ⟨stored job member, ?_⟩⟩
    · have isPending : job.state = .pending := by
        have notInterrupted := none job member
        unfold Interrupted at notInterrupted
        cases state : job.state <;> simp_all [isTerminal]
      rw [JobTable.stateOf, stored job member, counted job member, isPending]
      exact ⟨congrArg some isPending, rfl⟩
    · have notPending : job.state ≠ .pending := by
        rintro isPending
        rw [isPending] at finished
        cases finished
      apply List.count_eq_zero.mp
      rw [counted job member, if_neg notPending]

/-- A server that stopped with one job waiting. -/
theorem recoverJobs_recovered_waiting : Recovered (table .memory) (singleJob submittedJob)
      (recoverJobs.run (alone (jobStore .memory) (.error (.docker ""))) (fun _ => 0)
        (singleJob submittedJob)).2 :=
  (recoverJobs_recovered_iff .memory (fun _ => 0) (.error (.docker "")) (singleJob submittedJob)
    rfl).mpr (by
      intro job member
      obtain rfl := List.mem_singleton.mp member
      simp [Interrupted, submittedJob, Job.new])

/-- **A job that was Running when the server stopped is neither reset nor queued.** -/
theorem recoverJobs_not_recovered_running :
    ¬ Recovered (table .memory) (singleJob { submittedJob with state := .running })
      (recoverJobs.run (alone (jobStore .memory) (.error (.docker ""))) (fun _ => 0)
        (singleJob { submittedJob with state := .running })).2 := by
  intro recovered
  have unfinished := recovered.unfinished { submittedJob with state := .running }
    (List.mem_singleton_self _) (by decide)
  exact absurd unfinished.1 (by decide)

/-! ### The watchdog -/

/-- The job was handed out, and its last activity is older than its timeout and the grace period. -/
def Stale (gracePeriod : ℕ) (now : Timestamp) (job : Job) : Prop :=
  Interrupted job ∧ job.updatedAt + job.spec.resources.timeoutSeconds * 10 ^ 9 + gracePeriod < now

/-- **What the watchdog is for:** every stale job is ended, every other one left as it is. -/
structure WatchdogDone {σ : Type} (abs : σ → JobTable) (gracePeriod : ℕ) (now : Timestamp)
    (before after : World σ) : Prop where
  stale : ∀ job ∈ (abs before.store).rows, Stale gracePeriod now job →
    ∃ stored, (abs after.store).find job.id = some stored ∧ stored.state.isTerminal
  others : ∀ job ∈ (abs before.store).rows, ¬ Stale gracePeriod now job →
    (abs after.store).find job.id = some job

/-- What the watchdog makes of a job. -/
def watched (grace : ℤ) (now : Timestamp) (job : Job) : Job :=
  if job.state = .running ∧ job.updatedAt + grace ≤ now then
    { job with
      state := .failed
      result := some ⟨none, "Stale job detected by watchdog (stuck in " ++ running.toString ++ ")",
        none⟩
      finishedAt := some now }
  else job

section Watchdog

variable {σ : Type} {store : JobStore σ} {abs : σ → JobTable} (refines : store.Refines abs)
  {execution : Except MuliError JobResult} {grace : ℤ} {now : Timestamp}
include refines

theorem ensures_checkStaleJob {job : Job} (stored : (abs world.store).find job.id = some job)
    (running : job.state = .running) :
    (checkStaleJob grace .running job).Ensures (aloneAt store execution fun _ : Unit => now)
      (fun _ world' => ∀ id, (abs world'.store).find id =
        if id = job.id then some (watched grace now job) else (abs world.store).find id) world := by
  intro _
  show Prog.Ensures _ (if now < job.updatedAt + grace then _ else _) _ world
  split_ifs with early
  · intro id
    have same : watched grace now job = job := if_neg fun late => absurd early late.2.not_gt
    split_ifs with isJob
    · rw [isJob, stored, same]
    · rfl
  · have late : watched grace now job = _ := if_pos ⟨running, Int.not_lt.mp early⟩
    have settles :
          (settleJob job.id job.state .failed job ⟨none, "Stale job detected by watchdog (stuck in "
          ++ JobState.running.toString ++ ")", none⟩).Ensures
        (aloneAt store execution fun _ : Unit => now) _ world :=
      ensures_settleJob refines stored (by rw [running]; rfl)
    rw [running] at settles
    refine settles.mono fun _ world' settled id => ?_
    obtain ⟨_, written⟩ := settled
    rw [written id, late]

theorem ensures_watchRunning {jobs : List Job}
    (stored : ∀ job ∈ jobs, (abs world.store).find job.id = some job ∧ job.state = .running)
    (nodup : (jobs.map Job.id).Nodup) :
    (jobs.forM (checkStaleJob grace .running)).Ensures (aloneAt store execution fun _ : Unit => now)
      (fun _ world' =>
        (∀ job ∈ jobs, (abs world'.store).find job.id = some (watched grace now job)) ∧
        ∀ id ∉ jobs.map Job.id, (abs world'.store).find id = (abs world.store).find id) world := by
  induction jobs generalizing world with
  | nil => exact ⟨fun _ mem => absurd mem List.not_mem_nil, fun _ _ => rfl⟩
  | cons job jobs ih =>
    obtain ⟨⟨first, running⟩, later⟩ := List.forall_mem_cons.mp stored
    obtain ⟨fresh, nodup'⟩ := List.nodup_cons.mp nodup
    refine Prog.ensures_bind.mpr ((ensures_checkStaleJob refines first running).mono
      fun _ world' written => ?_)
    have others : ∀ id ≠ job.id, (abs world'.store).find id = (abs world.store).find id :=
      fun id differ => (written id).trans (if_neg differ)
    refine (ih (fun other mem => ⟨?_, (later other mem).2⟩) nodup').mono
      fun _ world'' ⟨done, kept⟩ => ?_
    · simp_all
    · refine ⟨List.forall_mem_cons.mpr ⟨?_, done⟩, fun id absent => ?_⟩
      · rw [kept _ fresh, written, if_pos rfl]
      · simp_all

/-- Scheduled jobs are listed, but there is no edge from Scheduled to Failed. -/
theorem ensures_watchScheduled (jobs : List Job) (world : World σ) :
    (jobs.forM (checkStaleJob grace .scheduled)).Ensures
      (aloneAt store execution fun _ : Unit => now) (fun _ world' => world' = world) world := by
  refine ensures_forM rfl fun job world' same => ?_
  intro _
  show Prog.Ensures _ (if now < job.updatedAt + grace then _ else _) _ world'
  split_ifs
  · exact same
  · exact ensures_updateState_refused refines (by decide) fun _ => same

/-- **Every job that is Running and was not touched for the grace period is failed; nothing else
changes.** -/
theorem ensures_checkStaleJobs (gracePeriod : ℕ) (world : World σ) :
    (checkStaleJobs gracePeriod).Ensures (aloneAt store execution fun _ : Unit => now)
      (fun _ world' => ∀ job ∈ (abs world.store).rows,
        (abs world'.store).find job.id = some (watched (graceOf gracePeriod) now job)) world := by
  refine Prog.ensures_bind.mpr (ensures_listByState refines ?_)
  have inRows : ∀ {job}, job ∈ (abs world.store).rows.filter (fun job => job.state = .running) ↔
      job ∈ (abs world.store).rows ∧ job.state = .running := by simp [List.mem_filter]
  have nodup := (abs world.store).nodup.sublist
    ((List.filter_sublist (p := fun job : Job => decide (job.state = .running))).map Job.id)
  refine (ensures_watchRunning refines (fun job mem => ?_) nodup).mono
    fun _ world' ⟨done, kept⟩ => ?_
  · exact ⟨find_eq_some.mpr ⟨(inRows.mp mem).1, rfl⟩, (inRows.mp mem).2⟩
  · refine Prog.ensures_bind.mpr (ensures_listByState refines ?_)
    refine (ensures_watchScheduled refines _ world').mono fun _ world'' same => ?_
    subst same
    intro job mem
    by_cases running : job.state = .running
    · exact done job (inRows.mpr ⟨mem, running⟩)
    · have same : watched (graceOf gracePeriod) now job = job := if_neg fun late => running late.1
      rw [same, kept _ fun listed => ?_]
      · exact find_eq_some.mpr ⟨mem, rfl⟩
      · grind [eq_of_mem]

end Watchdog

theorem graceOf_le (gracePeriod : ℕ) : graceOf gracePeriod ≤ gracePeriod := by
  unfold graceOf
  split_ifs
  · exact le_rfl
  · omega

/-- **The watchdog does its work exactly when every stale job is Running and every Running job that
was not touched for the grace period is stale.** -/
theorem checkStaleJobs_done_iff (backend : Backend) (gracePeriod : ℕ) (now : Timestamp)
    (execution : Except MuliError JobResult) (world : World backend.State) :
    WatchdogDone backend.table gracePeriod now world ((checkStaleJobs gracePeriod).run
        (aloneAt backend.jobStore execution fun _ : Unit => now) (fun _ => ()) world).2 ↔
      ∀ job ∈ (backend.table world.store).rows, (Stale gracePeriod now job → job.state = .running) ∧
        (job.state = .running → job.updatedAt + graceOf gracePeriod ≤ now →
          Stale gracePeriod now job) := by
  have after : ∀ job ∈ (backend.table world.store).rows,
      (backend.table ((checkStaleJobs gracePeriod).run (aloneAt backend.jobStore execution
        fun _ : Unit => now) (fun _ => ()) world).2.store).find job.id =
          some (watched (graceOf gracePeriod) now job) :=
    (ensures_checkStaleJobs backend.refines gracePeriod world).run fun _ => ()
  constructor
  · intro done job mem
    have found := after job mem
    refine ⟨fun stale => by_contra fun notRunning => ?_, fun running late =>
      by_contra fun fresh => ?_⟩
    · rw [watched, if_neg fun late => notRunning late.1] at found
      obtain ⟨stored, found', terminal⟩ := done.stale job mem stale
      obtain rfl := Option.some.inj (found.symm.trans found')
      rcases stale.1 with state | state | state <;> rw [state] at terminal <;> cases terminal
    · rw [watched, if_pos ⟨running, late⟩, done.others job mem fresh] at found
      have failed : job.state = .failed := congrArg Job.state (Option.some.inj found)
      rw [running] at failed
      cases failed
  · intro condition
    refine ⟨fun job mem stale => ⟨_, after job mem, ?_⟩, fun job mem fresh => ?_⟩
    · have late : job.updatedAt + graceOf gracePeriod ≤ now := by
        refine Int.le_trans (Int.add_le_add ?_ (graceOf_le gracePeriod)) (Int.le_of_lt stale.2)
        exact Int.le_add_of_nonneg_right (Int.mul_nonneg (Int.natCast_nonneg _) (by decide))
      rw [watched, if_pos ⟨(condition job mem).1 stale, late⟩]
      rfl
    · rw [after job mem, watched, if_neg fun late => fresh ((condition job mem).2 late.1 late.2)]

/-- **A stale job that is Scheduled is never ended:** fifty minutes after it was scheduled, with a
timeout of thirty and a grace period of five, it is still there. -/
theorem checkStaleJobs_keeps_scheduled :
    ¬ WatchdogDone (table .memory) (300 * 10 ^ 9) (3000 * 10 ^ 9)
      (singleJob { submittedJob with state := .scheduled })
      ((checkStaleJobs (300 * 10 ^ 9)).run (aloneAt (jobStore .memory) (.error (.docker ""))
        fun _ : Unit => 3000 * 10 ^ 9) (fun _ => ())
          (singleJob { submittedJob with state := .scheduled })).2 := by
  intro done
  obtain ⟨stored, found, terminal⟩ := done.stale { submittedJob with state := .scheduled }
    (List.mem_singleton_self _) (by
      unfold Stale Interrupted
      decide)
  have kept : some stored = some { submittedJob with state := .scheduled } :=
    found.symm.trans (by decide +kernel)
  cases Option.some.inj kept
  cases terminal

/-! ### Reports of agents -/

/-- The checks a report passes before the job is changed. -/
def Admitted (request : ReportJobResultRequest) (job : Job) : Prop :=
  validateNonEmpty "job_id" request.jobId 256 = .ok () ∧
    validateNonEmpty "agent_id" request.agentId 256 = .ok () ∧
      (∀ assigned ∈ job.assignedAgent, assigned = request.agentId) ∧ ¬ job.state.isTerminal

/-- The job has a result with the reported exit code and message. -/
def Carries (request : ReportJobResultRequest) (job : Job) : Prop :=
  ∃ result ∈ job.result, result.exitCode = request.exitCode ∧ result.message = request.message

/-- **What a report is for:** it is answered with Ok only if the job is ended with what was
reported, and with an error only if the job is as it was; the report of an end is accepted for every
job that was handed out, as long as the store works. -/
structure Faithful (request : ReportJobResultRequest) (job : Job) (working : Prop)
    (answer : Except Status Unit) (after : Option Job) : Prop where
  ok : answer = .ok () → ∃ stored ∈ after, stored.state.isTerminal ∧ Carries request stored
  error : ∀ status, answer = .error status → after = some job
  accepts : working → Admitted request job → Interrupted job →
    (∃ final ∈ protoStateToCore request.finalState, final.isTerminal) → answer = .ok ()

/-- A call to the store does not fail at this moment. -/
def Moment.works (moment : Moment) : Bool := moment.storeFailure.isNone

/-- The moments of the later calls. -/
def afterFirst (moments : ℕ → Moment) (i : ℕ) : Moment := moments (i + 1)

/-- **What recording a report comes to:** the job stays if it cannot be moved. Once it is moved the
answer is Ok, but the report is lost if the job cannot be read again and written. -/
def Recorded (request : ReportJobResultRequest) (job : Job) (final : JobState)
    (moments : ℕ → Moment) (answer : Except Status Unit) (after : Option Job) : Prop :=
  ((moments 0).works = false ∧ (∃ status, answer = .error status) ∧ after = some job) ∨
  (moments 0).works ∧ answer = .ok () ∧ ∃ now, after =
    let moved := { job with state := final, updatedAt := now }
    some (if (moments 1).works && (moments 2).works then request.applyTo moved else moved)

/-- **What a report comes to**, from any state of the job. -/
inductive Reported (request : ReportJobResultRequest) (job : Job) (moments : ℕ → Moment) :
    Except Status Unit → Option Job → Prop
  | refused : (∀ final ∈ protoStateToCore request.finalState, Admitted request job →
      (moments 0).works → (moments 1).works →
        ¬ job.state.canTransitionTo final ∧ ¬ needsRunning job.state final) →
      Reported request job moments (.error status) (some job)
  | direct : final ∈ protoStateToCore request.finalState → Admitted request job →
      job.state.canTransitionTo final → (moments 0).works →
      Recorded request job final (afterFirst moments) answer after →
      Reported request job moments answer after
  | through : final ∈ protoStateToCore request.finalState → Admitted request job →
      needsRunning job.state final → (moments 0).works → (moments 1).works →
      Recorded request { job with state := .running, updatedAt := now } final
        (afterFirst (afterFirst moments)) answer after →
      Reported request job moments answer after

/-- **When a report is faithful.** Once the job is moved, the store has to work on: to the end of
the transitions, and to the end of the writes unless the job has the reported result already. -/
structure Trusted (request : ReportJobResultRequest) (job : Job) (moments : ℕ → Moment)
    (final : JobState) : Prop where
  direct : job.state.canTransitionTo final → final.isTerminal ∧
    ((moments 2).works ∧ (moments 3).works ∨ Carries request job)
  through : needsRunning job.state final → (moments 2).works ∧
    ((moments 3).works ∧ (moments 4).works ∨ Carries request job)
  accepts : (∀ i, (moments i).works) →
    ¬ (job.state = .pulling ∧ (final = .succeeded ∨ final = .timedOut))

theorem edges_of_needsRunning (through : needsRunning source final) :
    source.canTransitionTo .running ∧ running.canTransitionTo final ∧ final.isTerminal ∧
      ¬ source.canTransitionTo final := by
  revert through
  cases source <;> cases final <;> decide

theorem reachable_iff (terminal : final.isTerminal)
    (handedOut : source = .scheduled ∨ source = .pulling ∨ source = .running) :
    (source.canTransitionTo final ∨ needsRunning source final) ↔
      ¬ (source = .pulling ∧ (final = .succeeded ∨ final = .timedOut)) := by
  revert terminal
  rcases handedOut with rfl | rfl | rfl <;> cases final <;> decide

/-- Recording is faithful exactly if it moves the job to an end and the report is not lost. -/
theorem Recorded.ok_iff (recorded : Recorded request job final moments answer after) :
    (answer = .ok () → ∃ stored ∈ after, stored.state.isTerminal ∧ Carries request stored) ↔
      ((moments 0).works → final.isTerminal ∧
        ((moments 1).works ∧ (moments 2).works ∨ Carries request job)) := by
  rcases recorded with ⟨stuck, ⟨status, rfl⟩, rfl⟩ | ⟨works, rfl, now, rfl⟩
  · simp [stuck]
  · simp only [works, forall_const, Option.mem_def, Option.some.injEq, exists_eq_left']
    by_cases written : (moments 1).works && (moments 2).works
    · have both : (moments 1).works ∧ (moments 2).works := by simpa using written
      rw [if_pos written]
      exact ⟨fun ⟨terminal, _⟩ => ⟨terminal, .inl both⟩, fun ⟨terminal, _⟩ =>
        ⟨terminal, _, rfl, rfl, rfl⟩⟩
    · have lost : ¬ ((moments 1).works ∧ (moments 2).works) := by simpa using written
      rw [if_neg written, or_iff_right lost]
      exact .rfl

theorem Reported.faithful_iff (reported : Reported request job moments answer after) :
    Faithful request job (∀ i, (moments i).works) answer after ↔
      ∀ final ∈ protoStateToCore request.finalState, Admitted request job →
        (moments 0).works → (moments 1).works → Trusted request job moments final := by
  have unique {first second : JobState} (isFirst : first ∈ protoStateToCore request.finalState)
      (isSecond : second ∈ protoStateToCore request.finalState) : second = first :=
    Option.some.inj (isSecond.symm.trans isFirst)
  cases reported with
  | refused none =>
    constructor
    · intro faithful final isFinal admitted first second
      obtain ⟨noEdge, notThrough⟩ := none final isFinal admitted first second
      refine ⟨fun edge => absurd edge noEdge, fun through => absurd through notThrough, ?_⟩
      intro working stuck
      have terminal : final.isTerminal := by rcases stuck.2 with rfl | rfl <;> rfl
      cases faithful.accepts working admitted (.inr (.inl stuck.1)) ⟨final, isFinal, terminal⟩
    · intro trusted
      refine ⟨by rintro ⟨⟩, fun _ _ => rfl, fun working admitted handedOut found => ?_⟩
      obtain ⟨final, isFinal, terminal⟩ := found
      obtain ⟨noEdge, notThrough⟩ := none final isFinal admitted (working 0) (working 1)
      have reachable := (reachable_iff terminal handedOut).mpr
        ((trusted final isFinal admitted (working 0) (working 1)).accepts working)
      exact (reachable.elim noEdge notThrough).elim
  | @direct final answer after isFinal admitted edge works recorded =>
    have ok := recorded.ok_iff
    have notThrough : ¬ needsRunning job.state final := fun through =>
      (edges_of_needsRunning through).2.2.2 edge
    constructor
    · intro faithful other isOther _ _ second
      obtain rfl := unique isFinal isOther
      obtain ⟨terminal, kept⟩ := ok.mp faithful.ok second
      refine ⟨fun _ => ⟨terminal, kept⟩, fun through => absurd through notThrough,
        fun _ stuck => ?_⟩
      exact (reachable_iff terminal (.inr (.inl stuck.1))).mp (.inl edge) stuck
    · intro trusted
      refine ⟨ok.mpr fun second => (trusted final isFinal admitted works second).direct edge, ?_,
        ?_⟩
      · rintro status rfl
        rcases recorded with ⟨-, -, same⟩ | ⟨-, ⟨⟩, -⟩
        exact same
      · intro working _ _ _
        rcases recorded with ⟨stuck, -, -⟩ | ⟨-, isOk, -⟩
        · exact absurd (working 1) (by simpa [afterFirst] using stuck)
        · exact isOk
  | @through final answer after now isFinal admitted through works works' recorded =>
    have ok := recorded.ok_iff
    obtain ⟨edge, edge', terminal, noEdge⟩ := edges_of_needsRunning through
    constructor
    · intro faithful other isOther _ _ _
      obtain rfl := unique isFinal isOther
      refine ⟨fun direct => absurd direct noEdge, fun _ => ?_, fun _ stuck => ?_⟩
      · by_cases third : (moments 2).works
        · exact ⟨third, (ok.mp faithful.ok third).2⟩
        · rcases recorded with ⟨-, ⟨status, isError⟩, same⟩ | ⟨third', -, -⟩
          · have kept := (faithful.error status isError).symm.trans same
            have isRunning := congrArg Job.state (Option.some.inj kept)
            rw [isRunning] at through
            simp [needsRunning] at through
          · exact absurd third' third
      · exact (reachable_iff terminal (.inr (.inl stuck.1))).mp (.inr through) stuck
    · intro trusted
      obtain ⟨third, kept⟩ := (trusted final isFinal admitted works works').through through
      refine ⟨ok.mpr fun _ => ⟨terminal, kept⟩, ?_, fun _ _ _ _ => ?_⟩
      all_goals rcases recorded with ⟨stuck, -, -⟩ | ⟨-, isOk, -⟩
      · exact absurd third (by simpa [afterFirst] using stuck)
      · rintro status rfl
        cases isOk
      · exact absurd third (by simpa [afterFirst] using stuck)
      · exact isOk

section Report

variable {σ α : Type} (store : JobStore σ)

/-- The program, alone on a store that works or fails as the moments say, ends with `post`. -/
def Ends (p : Prog Server α) (moments : ℕ → Moment) (world : World σ)
    (post : α → World σ → Prop) : Prop :=
  post (p.run (handle store) moments world).1 (p.run (handle store) moments world).2

variable {store} {abs : σ → JobTable} (refines : store.Refines abs)
  {request : ReportJobResultRequest} {world : World σ} {job : Job} {moments : ℕ → Moment}
  {id : String} {post : α → World σ → Prop} {next : Except MuliError Unit → Prog Server α}
include refines

theorem ends_getJob {next : Except MuliError (Option Job) → Prog Server α}
    (goOn : (moments 0).works →
      Ends store (next (.ok ((abs world.store).find id))) (afterFirst moments) world post)
    (fails : (moments 0).works = false →
      ∀ error, Ends store (next (.error error)) (afterFirst moments) world post) :
    Ends store (call (.getJob id) >>= next) moments world post := by
  show Ends store (next (handle store (moments 0) (.getJob id) world).1) (afterFirst moments)
    (handle store (moments 0) (.getJob id) world).2 post
  simp only [handle, storeCall, refines.getJob]
  unfold Moment.works at goOn fails
  cases failure : (moments 0).storeFailure with
  | none => exact goOn (by simp [failure])
  | some reason => exact fails (by simp [failure]) _

theorem ends_updateState (stored : (abs world.store).find id = some job)
    (edge : job.state.canTransitionTo target)
    (goOn : (moments 0).works → ∀ now world', (∀ other, (abs world'.store).find other =
        if other = id then some { job with state := target, updatedAt := now }
        else (abs world.store).find other) → Ends store (next (.ok ()))
        (afterFirst moments) world' post)
    (fails : (moments 0).works = false →
      ∀ error, Ends store (next (.error error)) (afterFirst moments) world post) :
    Ends store (call (.updateState id job.state target) >>= next) moments world post := by
  show Ends store (next (handle store (moments 0) (.updateState id job.state target) world).1)
    (afterFirst moments) (handle store (moments 0) (.updateState id job.state target) world).2 post
  obtain rfl : job.id = id := find_key stored
  have performs := refines.updateState (moments 0).now job.id job.state target world.store
  have swap : (abs world.store).cas (moments 0).now job.id job.state target =
      some ((abs world.store).put { job with state := target, updatedAt := (moments 0).now }) :=
    JobTable.cas_eq_some.mpr ⟨job, stored, rfl, edge, rfl⟩
  rw [swap] at performs
  unfold Moment.works at goOn fails
  simp only [handle, storeCall, performs.1]
  cases failure : (moments 0).storeFailure with
  | none =>
    refine goOn (by simp [failure]) (moments 0).now _ fun other => ?_
    rw [performs.2]
    exact find_put_of_find { job with state := target, updatedAt := (moments 0).now } stored other
  | some reason => exact fails (by simp [failure]) _

theorem ends_updateState_refused (noEdge : ¬ source.canTransitionTo target)
    (goOn : ∀ error, Ends store (next (.error error)) (afterFirst moments) world post) :
    Ends store (call (.updateState id source target) >>= next) moments world post := by
  show Ends store (next (handle store (moments 0) (.updateState id source target) world).1)
    (afterFirst moments) (handle store (moments 0) (.updateState id source target) world).2 post
  have performs := refines.updateState (moments 0).now id source target world.store
  rw [JobTable.cas_eq_none.mpr fun _ _ _ => noEdge] at performs
  obtain ⟨⟨error, refused⟩, same⟩ := performs
  simp only [handle, storeCall, refused, same]
  cases (moments 0).storeFailure with
  | none => exact goOn error
  | some reason => exact goOn _

theorem ends_updateJob (stored : (abs world.store).find job.id = some old)
    (goOn : (moments 0).works → ∀ world', (∀ other, (abs world'.store).find other =
        if other = job.id then some job else (abs world.store).find other) →
      Ends store (next (.ok ())) (afterFirst moments) world' post)
    (fails : (moments 0).works = false →
      ∀ error, Ends store (next (.error error)) (afterFirst moments) world post) :
    Ends store (call (.updateJob job) >>= next) moments world post := by
  show Ends store (next (handle store (moments 0) (.updateJob job) world).1)
    (afterFirst moments) (handle store (moments 0) (.updateJob job) world).2 post
  have performs := refines.updateJob job world.store
  rw [JobTable.overwrite, stored] at performs
  unfold Moment.works at goOn fails
  simp only [handle, storeCall, performs.1]
  cases failure : (moments 0).storeFailure with
  | none =>
    refine goOn (by simp [failure]) _ fun other => ?_
    rw [performs.2]
    exact find_put_of_find job stored other
  | some reason => exact fails (by simp [failure]) _

theorem recorded_recordReport (stored : (abs world.store).find request.jobId = some job)
    (edge : job.state.canTransitionTo final) :
    Ends store (recordReport request job.state final) moments world fun answer world' =>
      Recorded request job final moments answer ((abs world'.store).find request.jobId) := by
  refine ends_updateState refines stored edge (fun first now world' moved => ?_) fun stuck error =>
    .inl ⟨stuck, ⟨_, rfl⟩, stored⟩
  have isMoved := (moved _).trans (if_pos rfl)
  have lost (broken : ¬ ((moments 1).works && (moments 2).works)) :
      Recorded request job final moments (.ok ()) ((abs world'.store).find request.jobId) :=
    .inr ⟨first, rfl, now, by rw [isMoved]; exact congrArg some (if_neg broken).symm⟩
  refine ends_getJob refines (fun second => ?_) fun broken error =>
    lost (by simp_all [afterFirst])
  rw [isMoved]
  have sameId : job.id = request.jobId := find_key stored
  refine ends_updateJob refines ((congrArg _ sameId).trans isMoved)
    (fun third world'' written => ?_) fun broken error => lost (by simp_all [afterFirst])
  refine .inr ⟨first, rfl, now, ?_⟩
  refine ((written request.jobId).trans (if_pos sameId.symm)).trans (congrArg some ?_)
  exact (if_pos (by simp_all [afterFirst])).symm

theorem reported_reportJobResult (stored : (abs world.store).find request.jobId = some job) :
    Ends store (reportJobResult request) moments world fun answer world' =>
      Reported request job moments answer ((abs world'.store).find request.jobId) := by
  have refused : ∀ status, (∀ final ∈ protoStateToCore request.finalState, Admitted request job →
      (moments 0).works → (moments 1).works →
        ¬ job.state.canTransitionTo final ∧ ¬ needsRunning job.state final) →
      Reported request job moments (.error status) ((abs world.store).find request.jobId) :=
    fun status none => stored ▸ .refused none
  have isForeign : (job.assignedAgent.any fun assigned => assigned ≠ request.agentId) = true ↔
      ¬ ∀ assigned ∈ job.assignedAgent, assigned = request.agentId := by
    cases job.assignedAgent <;> simp
  unfold reportJobResult
  split
  · next status isError =>
      exact refused status fun _ _ admits => by simp [admits.1] at isError
  · next isId =>
      split
      · next status isError =>
          exact refused status fun _ _ admits => by simp [admits.2.1] at isError
      · next isAgent =>
          split
          · next unknown => exact refused _ fun _ isFinal => by simp [unknown] at isFinal
          · next final isFinal =>
              refine ends_getJob refines (fun first => ?_) fun broken error =>
                refused _ fun _ _ _ works => absurd works (by simpa using broken)
              rw [stored]
              dsimp only
              split_ifs with foreign terminal through
              · exact refused _ fun _ _ admits => (isForeign.mp foreign admits.2.2.1).elim
              · exact refused _ fun _ _ admits => (admits.2.2.2 terminal).elim
              · have admits : Admitted request job :=
                  ⟨isId, isAgent, by_contra (mt isForeign.mpr foreign), terminal⟩
                obtain ⟨edge, edge', -⟩ := edges_of_needsRunning through
                refine ends_updateState refines stored edge (fun second now world' moved => ?_)
                  fun broken error => refused _ fun _ _ _ _ works =>
                    absurd works (by simpa [afterFirst] using broken)
                exact .through isFinal admits through first second
                  (recorded_recordReport refines ((moved _).trans (if_pos rfl)) edge')
              · have admits : Admitted request job :=
                  ⟨isId, isAgent, by_contra (mt isForeign.mpr foreign), terminal⟩
                by_cases edge : job.state.canTransitionTo final
                · exact .direct isFinal admits edge
                    first (recorded_recordReport refines stored edge)
                · refine ends_updateState_refused refines edge fun error => refused _ ?_
                  intro other isOther _ _ _
                  obtain rfl := Option.some.inj (isFinal.symm.trans isOther)
                  exact ⟨edge, through⟩

end Report

/-- **A report is faithful exactly when it passes the checks only with the end of a job that is not
Pulling an image, or with a state there is no edge to, and the store works on once the job is
moved.** -/
theorem reportJobResult_faithful_iff (backend : Backend) (request : ReportJobResultRequest)
    (job : Job) (moments : ℕ → Moment) (world : World backend.State)
    (stored : (backend.table world.store).find request.jobId = some job) :
    let ran := (reportJobResult request).run (handle backend.jobStore) moments world
    Faithful request job (∀ i, (moments i).works) ran.1
        ((backend.table ran.2.store).find request.jobId) ↔
      ∀ final ∈ protoStateToCore request.finalState, Admitted request job →
        (moments 0).works → (moments 1).works → Trusted request job moments final :=
  (reported_reportJobResult backend.refines stored).faithful_iff

/-- An agent reports the failure of a job it was handed. -/
theorem reportJobResult_faithful_failed :
    let job : Job := { submittedJob with state := .scheduled, assignedAgent := some "agent" }
    let request : ReportJobResultRequest := ⟨"job", "agent", 6, some 1, "exit 1", none, none⟩
    let moments (_ : ℕ) : Moment := { now := 0 }
    let ran := (reportJobResult request).run (handle (jobStore .memory)) moments (singleJob job)
    ran.1 = .ok () ∧ Faithful request job (∀ i, (moments i).works) ran.1
      ((table .memory ran.2.store).find request.jobId) := by
  intro job request moments ran
  refine ⟨by decide +kernel,
    (reportJobResult_faithful_iff .memory request job moments (singleJob job) rfl).mpr ?_⟩
  intro final isFinal _ _ _
  obtain rfl : JobState.failed = final := Option.some.inj isFinal
  exact ⟨fun _ => ⟨rfl, .inl ⟨rfl, rfl⟩⟩, fun _ => ⟨rfl, .inl ⟨rfl, rfl⟩⟩, fun _ => by decide⟩

/-- **A report that a job is Running is answered with Ok**, and when the store fails between the two
transitions the answer is an error although the job has been moved. -/
theorem reportJobResult_accepts_running :
    let job : Job := { submittedJob with state := .scheduled, assignedAgent := some "agent" }
    let report final moments := (reportJobResult ⟨"job", "agent", final, none, "", none, none⟩).run
      (handle (jobStore .memory)) moments (singleJob job)
    let working := report 4 fun _ => { now := 0 }
    let failing := report 5 fun i => { now := 0, storeFailure := if i = 2 then some "" else none }
    (working.1 = .ok () ∧ (table .memory working.2.store).stateOf "job" = some .running) ∧
      (failing.1 ≠ .ok () ∧ (table .memory failing.2.store).stateOf "job" = some .running) := by
  decide +kernel

end Muli
