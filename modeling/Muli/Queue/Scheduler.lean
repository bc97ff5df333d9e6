/-
**The scheduler: concurrency limits and one dispatch pass.**

* `noIdleSlot_dispatchPass_iff` — the pass leaves no dispatchable job behind **exactly** when no job
  of a full tenant stands in front of one whose tenant has room.
* `dispatchPass_grants` — what a pass dispatches, and every slot it takes; `dispatchPasses_dispatch`
  — passes that find room empty the queue.
-/

import Muli.Queue.PriorityQueue

namespace Muli

open PriorityQueue

structure ConcurrencyLimiter where
  available : ℕ
  perTenant : String → ℕ
  perTenantLimit : ℕ

namespace ConcurrencyLimiter

def new (globalLimit perTenantLimit : ℕ) : ConcurrencyLimiter :=
  ⟨globalLimit, fun _ => 0, perTenantLimit⟩

/-- The limiter with one more job of the tenant running. -/
def acquired (tenantId : String) (limiter : ConcurrencyLimiter) : ConcurrencyLimiter :=
  { limiter with
    available := limiter.available - 1
    perTenant := fun other => limiter.perTenant other + if tenantId = other then 1 else 0 }

def tryAcquire (tenantId : String) (limiter : ConcurrencyLimiter) :
    Except MuliError ConcurrencyLimiter :=
  if limiter.available = 0 then .error (.concurrencyLimit "global concurrency limit reached")
  else if limiter.perTenant tenantId ≥ limiter.perTenantLimit then
    .error (.concurrencyLimit ("tenant " ++ tenantId ++ " concurrency limit reached"))
  else .ok (limiter.acquired tenantId)

variable {limiter : ConcurrencyLimiter}

theorem tryAcquire_of_room (slot : 0 < limiter.available)
    (room : limiter.perTenant tenantId < limiter.perTenantLimit) :
    limiter.tryAcquire tenantId = .ok (limiter.acquired tenantId) := by
  rw [tryAcquire, if_neg slot.ne', if_neg (not_le.mpr room)]

theorem tryAcquire_of_full
    (full : limiter.available = 0 ∨ limiter.perTenantLimit ≤ limiter.perTenant tenantId) :
    ∃ error, limiter.tryAcquire tenantId = .error error := by
  by_cases none : limiter.available = 0
  · exact ⟨_, if_pos none⟩
  · rw [tryAcquire, if_neg none, if_pos (full.resolve_left none)]
    exact ⟨_, rfl⟩

end ConcurrencyLimiter

open ConcurrencyLimiter

/-! ### One dispatch pass -/

structure SchedulerState where
  queue : PriorityQueue
  limiter : ConcurrencyLimiter
  dispatched : List ScoredJob

/-- The loop of a pass; `true` when it stopped because a limit was hit. -/
def dispatchLoop : ℕ → SchedulerState → Bool × SchedulerState
  | 0, s => (false, s)
  | turns + 1, s =>
    match s.queue.pop with
    | (none, queue) => (false, { s with queue := queue })
    | (some job, queue) =>
      match s.limiter.tryAcquire job.tenantId with
      | .ok limiter => dispatchLoop turns ⟨queue, limiter, s.dispatched ++ [job]⟩
      | .error _ => (true, { s with queue := queue.requeue job })

/-- Dispatch as many jobs as possible. Each turn takes at least one entry out of the heap. -/
def dispatchPass (s : SchedulerState) : Bool × SchedulerState :=
  dispatchLoop s.queue.heap.length s

/-- Hand out slots down a list of jobs: the jobs from the first refused one on, and the limiter. -/
def grantSlots : List ScoredJob → ConcurrencyLimiter → List ScoredJob × ConcurrencyLimiter
  | [], limiter => ([], limiter)
  | job :: jobs, limiter =>
    match limiter.tryAcquire job.tenantId with
    | .ok limiter' => grantSlots jobs limiter'
    | .error _ => (job :: jobs, limiter)

/-- **A loop that can pop every job grants slots in pop order, dispatches the jobs that get one and
leaves the rest queued**; it was stopped if there are any. -/
theorem dispatchLoop_spec {s : SchedulerState} (enough : s.queue.heap.length ≤ turns) :
    let after := (dispatchLoop turns s).2
    (after.queue.drain, after.limiter) = grantSlots s.queue.drain s.limiter ∧
      after.dispatched ++ after.queue.drain = s.dispatched ++ s.queue.drain ∧
      ((dispatchLoop turns s).1 = true ↔ after.queue.drain ≠ []) := by
  induction turns generalizing s with
  | zero =>
    have empty : s.queue.heap = [] := List.length_eq_zero_iff.mp (Nat.le_zero.mp enough)
    dsimp only [dispatchLoop]
    rw [drain_of_pop_none (pop_of_empty empty)]
    exact ⟨rfl, rfl, by simp⟩
  | succ turns ih =>
    rcases returned : s.queue.pop with ⟨_ | job, queue⟩
    · have empty := heap_of_pop_none returned
      simp only [dispatchLoop, returned]
      rw [drain_of_pop_none returned, drain_of_pop_none (pop_of_empty empty)]
      exact ⟨rfl, rfl, by simp⟩
    · have shorter := (pop_some_spec returned).1
      rw [drain_of_pop_some returned]
      cases acquire : s.limiter.tryAcquire job.tenantId with
      | ok limiter =>
        simp only [dispatchLoop, returned, grantSlots, acquire]
        have rest := ih (s := ⟨queue, limiter, s.dispatched ++ [job]⟩)
          (Nat.le_of_lt_succ (shorter.trans_le enough))
        rwa [List.append_assoc] at rest
      | error stop =>
        simp only [dispatchLoop, returned, grantSlots, acquire]
        rw [drain_of_pop_some (pop_requeue returned)]
        exact ⟨rfl, rfl, by simp⟩

theorem dispatchPass_spec (s : SchedulerState) :
    ((dispatchPass s).2.queue.drain, (dispatchPass s).2.limiter) =
    grantSlots s.queue.drain s.limiter :=
  (dispatchLoop_spec le_rfl).1

/-- No queued job could be dispatched: no global slot is free, or its tenant is at its limit. -/
def NoIdleSlot (queued : List ScoredJob) (limiter : ConcurrencyLimiter) : Prop :=
  ∀ job ∈ queued,
    ¬ (0 < limiter.available ∧ limiter.perTenant job.tenantId < limiter.perTenantLimit)

/-- The running jobs of a tenant once `ahead` have been dispatched as well. -/
def ConcurrencyLimiter.activeWith (limiter : ConcurrencyLimiter) (ahead : List ScoredJob)
    (tenantId : String) : ℕ :=
  limiter.perTenant tenantId + (ahead.map ScoredJob.tenantId).count tenantId

/-- **No full tenant stands in the way:** where a job whose tenant is full is reached while global
slots are left, the tenants of all jobs behind it are full as well. -/
def NoBlockedHead (order : List ScoredJob) (limiter : ConcurrencyLimiter) : Prop :=
  ∀ ahead job behind, order = ahead ++ job :: behind → ahead.length < limiter.available →
    limiter.perTenantLimit ≤ limiter.activeWith ahead job.tenantId →
    ∀ later ∈ behind, limiter.perTenantLimit ≤ limiter.activeWith ahead later.tenantId

variable {jobs : List ScoredJob}

theorem activeWith_cons (job : ScoredJob) (limiter : ConcurrencyLimiter) (ahead tenantId) :
    limiter.activeWith (job :: ahead) tenantId = (limiter.acquired job.tenantId).activeWith ahead
    tenantId := by
  simp only [activeWith, acquired, List.map_cons, List.count_cons, beq_iff_eq]
  omega

theorem noBlockedHead_cons_of_room (slot : 0 < limiter.available)
    (room : limiter.perTenant job.tenantId < limiter.perTenantLimit) :
    NoBlockedHead (job :: jobs) limiter ↔ NoBlockedHead jobs (limiter.acquired job.tenantId) := by
  constructor
  · intro holds ahead next behind split fewer full later mem
    rw [← activeWith_cons]
    refine holds (job :: ahead) next behind (by rw [split]; rfl) ?_ (activeWith_cons .. ▸
      full) later mem
    simp only [acquired, List.length_cons] at fewer ⊢
    omega
  · intro holds ahead next behind split fewer full later mem
    cases ahead with
    | nil => grind [activeWith]
    | cons first ahead =>
      obtain ⟨rfl, rest⟩ := List.cons.inj split
      rw [activeWith_cons] at full ⊢
      refine holds ahead next behind rest ?_ full later mem
      simp only [acquired, List.length_cons] at fewer ⊢
      omega

theorem noBlockedHead_cons_of_full (slot : 0 < limiter.available)
    (full : limiter.perTenantLimit ≤ limiter.perTenant job.tenantId) :
    NoBlockedHead (job :: jobs) limiter ↔
      ∀ later ∈ job :: jobs, limiter.perTenantLimit ≤ limiter.perTenant later.tenantId := by
  constructor
  · intro holds
    refine List.forall_mem_cons.mpr ⟨full, fun later mem => ?_⟩
    exact holds [] job jobs rfl slot full later mem
  · intro allFull ahead next behind split _ _ later mem
    have queued : later ∈ job :: jobs := by simp [*]
    exact (allFull later queued).trans (Nat.le_add_right ..)

theorem noIdleSlot_grantSlots_iff (order : List ScoredJob) (limiter : ConcurrencyLimiter) :
    NoIdleSlot (grantSlots order limiter).1 (grantSlots order limiter).2 ↔
    NoBlockedHead order limiter := by
  induction order generalizing limiter with
  | nil => exact ⟨fun _ ahead job behind split => by simp at split, fun _ _ mem => nomatch mem⟩
  | cons job jobs ih =>
    rcases Nat.eq_zero_or_pos limiter.available with none | slot
    · obtain ⟨error, refused⟩ : ∃ error, limiter.tryAcquire job.tenantId = .error error :=
        tryAcquire_of_full (.inl none)
      simp [grantSlots, refused, NoIdleSlot, NoBlockedHead, none]
    · by_cases room : limiter.perTenant job.tenantId < limiter.perTenantLimit
      · rw [grantSlots, tryAcquire_of_room slot room,
          noBlockedHead_cons_of_room slot room]
        exact ih _
      · have full := not_lt.mp room
        obtain ⟨error, refused⟩ := tryAcquire_of_full (.inr full)
        rw [noBlockedHead_cons_of_full slot full]
        simp only [grantSlots, refused, NoIdleSlot, slot, true_and, not_lt]

/-- **A pass leaves no dispatchable job queued exactly when no full tenant stands in the way.** -/
theorem noIdleSlot_dispatchPass_iff (s : SchedulerState) :
    NoIdleSlot (dispatchPass s).2.queue.drain (dispatchPass s).2.limiter ↔
      NoBlockedHead s.queue.drain s.limiter := by
  have spec := dispatchPass_spec s
  rw [← noIdleSlot_grantSlots_iff, ← spec]

/-- The granted jobs stand in front, each takes a slot and counts for its tenant, and no tenant is
taken past its limit. -/
theorem grantSlots_accounts (order : List ScoredJob) (limiter : ConcurrencyLimiter) :
    ∃ granted, order = granted ++ (grantSlots order limiter).1 ∧
      (grantSlots order limiter).2.available + granted.length = limiter.available ∧ ∀ tenantId,
        (grantSlots order limiter).2.perTenant tenantId = limiter.activeWith granted tenantId ∧
        limiter.activeWith granted tenantId ≤ max (limiter.perTenant tenantId)
        limiter.perTenantLimit := by
  induction order generalizing limiter with
  | nil => exact ⟨[], rfl, rfl, fun _ => ⟨rfl, le_max_left ..⟩⟩
  | cons job jobs ih =>
    cases acquires : limiter.tryAcquire job.tenantId with
    | error stop =>
      simp only [grantSlots, acquires]
      exact ⟨[], rfl, rfl, fun _ => ⟨rfl, le_max_left ..⟩⟩
    | ok limiter' =>
      unfold tryAcquire at acquires
      split_ifs at acquires with none full
      cases acquires
      obtain ⟨granted, split, slots, tenants⟩ := ih (limiter.acquired job.tenantId)
      simp only [grantSlots, tryAcquire, none, full, if_false]
      refine ⟨job :: granted, congrArg _ split, ?_, fun tenantId => ?_⟩
      · simp only [acquired, List.length_cons] at slots ⊢
        omega
      · rw [activeWith_cons]
        refine ⟨(tenants tenantId).1, (tenants tenantId).2.trans ?_⟩
        simp only [acquired]
        grind

/-- **A pass dispatches the front of the queue in rank order, accounts for every slot and loses no
job;** it reports a limit exactly if it leaves jobs behind. -/
theorem dispatchPass_grants (s : SchedulerState) : ∃ granted,
    let after := (dispatchPass s).2
    after.dispatched = s.dispatched ++ granted ∧ s.queue.drain = granted ++ after.queue.drain ∧
    s.queue.drain.Pairwise (fun first second => second.rank ≤ first.rank) ∧
    after.limiter.available + granted.length = s.limiter.available ∧
    ((dispatchPass s).1 = true ↔ after.queue.drain ≠ []) ∧
    ∀ tenantId, after.limiter.perTenant tenantId = s.limiter.activeWith granted tenantId ∧
      s.limiter.activeWith granted tenantId ≤ max (s.limiter.perTenant tenantId)
      s.limiter.perTenantLimit := by
  obtain ⟨grants, kept, stopped⟩ := dispatchLoop_spec (s := s) le_rfl
  obtain ⟨granted, split, slots, tenants⟩ := grantSlots_accounts s.queue.drain s.limiter
  rw [← grants] at split slots tenants
  refine ⟨granted, ?_, split, s.queue.pairwise_drain, slots, stopped, tenants⟩
  rw [split, ← List.append_assoc] at kept
  exact List.append_cancel_right kept

/-- A job of any tenant finds a slot. -/
def ConcurrencyLimiter.Roomy (limiter : ConcurrencyLimiter) : Prop :=
  0 < limiter.available ∧ ∀ tenantId, limiter.perTenant tenantId < limiter.perTenantLimit

/-- The passes of the scheduler's loop, each with the limiter it finds. -/
def dispatchPasses (limiters : List ConcurrencyLimiter) (s : SchedulerState) : SchedulerState :=
  limiters.foldl (fun s limiter => (dispatchPass { s with limiter }).2) s

/-- **Every pass that finds room dispatches a job, in order and with none lost;** as many of them as
there are queued jobs dispatch all, where none is pushed in between. -/
theorem dispatchPasses_dispatch (s : SchedulerState)
    (limiters : List { limiter : ConcurrencyLimiter // limiter.Roomy }) :
    let after := dispatchPasses (limiters.map (·.1)) s
    after.dispatched ++ after.queue.drain = s.dispatched ++ s.queue.drain ∧
      after.queue.drain.length ≤ s.queue.drain.length - limiters.length := by
  induction limiters generalizing s with
  | nil => exact ⟨rfl, le_rfl⟩
  | cons limiter limiters ih =>
    have kept := (dispatchLoop_spec (s := { s with limiter := limiter.1 }) le_rfl).2.1
    obtain ⟨dispatched, fewer⟩ := ih (dispatchPass { s with limiter := limiter.1 }).2
    refine ⟨dispatched.trans kept, fewer.trans ?_⟩
    have rest : (dispatchPass _).2.queue.drain = _ :=
      congrArg Prod.fst (dispatchPass_spec { s with limiter := limiter.1 })
    rw [rest, List.length_cons]
    cases s.queue.drain with
    | nil => simp [grantSlots]
    | cons job jobs =>
      obtain ⟨granted, split, -⟩ := grantSlots_accounts jobs (limiter.1.acquired job.tenantId)
      have length := congrArg List.length split
      rw [grantSlots, tryAcquire_of_room limiter.2.1 (limiter.2.2 _)]
      simp only [List.length_append, List.length_cons] at length ⊢
      omega

/-- Tenant `a` runs as many jobs as it may, and its next job is in front of one of tenant `b`. -/
def fullHead : SchedulerState where
  queue := (new.push ⟨"j1", 2, 0, "a"⟩ .standard).push ⟨"j2", 1, 0, "b"⟩ .free
  limiter := ⟨2, fun tenant => if tenant = "a" then 1 else 0, 1⟩
  dispatched := []

/-- The job of tenant `a` is popped first and put back, and the pass ends with the job of tenant `b`
queued although two slots are free. -/
theorem not_noIdleSlot_dispatchPass_fullHead :
    ¬ NoIdleSlot (dispatchPass fullHead).2.queue.drain (dispatchPass fullHead).2.limiter := by
  intro idle
  have queued : ⟨"j2", 1, 0, "b"⟩ ∈ (dispatchPass fullHead).2.queue.drain := by decide
  exact idle _ queued (by decide)

end Muli
