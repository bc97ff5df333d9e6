/-
**Heartbeats, cancellations and result reports on one queue.**

A heartbeat pops a job, moves it from Pending to Scheduled and hands it to its agent; when the move
is refused, it puts the job back. A cancellation leaves a tombstone in the queue before it moves the
job. A result report moves the job and does not touch the queue.

* `QueueSound` — **every job that is queued or in an actor's hands is Pending or has a tombstone.**
  `queueSound_step` — every call keeps this, a report's move away from Pending apart.
* `heartbeats_exclusive_and_clear` — **between two assignments of a job it has become Pending again;
  and as long as no report moves a Pending job and no one takes a job out of a heartbeat's hands,
  only Pending jobs are popped and put back.**
-/

import Muli.Interaction.Phases
import Muli.Server.Interleaving

namespace Muli

open Interaction Function List SqliteJobStore

/-! ### Popping, where each job has one entry -/

structure Popped (queue : PriorityQueue) (popped : Option ScoredJob) (queue' : PriorityQueue) :
    Prop where
  subset : ∀ id ∈ queue'.ids, id ∈ queue.ids
  nodup : queue'.ids.Nodup
  /-- The tombstones of what is left, and of what was not there, stay. -/
  tombstones : ∀ id, id ∈ queue'.ids ∨ id ∉ queue.ids → (id ∈ queue'.removed ↔ id ∈ queue.removed)
  taken : ∀ job, popped = some job →
    job.jobId ∈ queue.ids ∧ job.jobId ∉ queue'.ids ∧ job.jobId ∉ queue.removed

variable {job : ScoredJob}

theorem nodup_of_extractMax {queue : PriorityQueue}
    (top : Heap.extractMax ScoredJob.rank queue.heap = some (job, heap)) (nodup : queue.ids.Nodup) :
    (∀ id, id ∈ queue.ids ↔ id = job.jobId ∨ id ∈ heap.map ScoredJob.jobId) ∧
      job.jobId ∉ heap.map ScoredJob.jobId ∧ (heap.map ScoredJob.jobId).Nodup := by
  have perm := (Heap.extractMax_perm top).map ScoredJob.jobId
  exact ⟨fun id => perm.mem_iff.trans List.mem_cons, List.nodup_cons.mp (perm.nodup_iff.mp nodup)⟩

theorem popped_pop (queue : PriorityQueue) (nodup : queue.ids.Nodup) :
    Popped queue queue.pop.1 queue.pop.2 := by
  induction queue using PriorityQueue.pop_induction with
  | empty queue empty =>
    rw [PriorityQueue.pop_of_empty empty]
    exact ⟨fun _ mem => mem, nodup, fun _ _ => .rfl, fun _ none => by cases none⟩
  | skipped queue job heap top tombstoned ih =>
    obtain ⟨ids, notThere, nodup'⟩ := nodup_of_extractMax top nodup
    have later : Popped (queue.skip job.jobId heap) _ _ := ih nodup'
    rw [PriorityQueue.pop_of_extractMax top, if_pos tombstoned]
    have inHeap : ∀ id ∈ (queue.skip job.jobId heap).ids, id ∈ queue.ids ∧ id ≠ job.jobId :=
      fun id mem => ⟨(ids id).mpr (.inr mem), fun same => notThere (same ▸ mem)⟩
    have erased : ∀ id, id ≠ job.jobId →
        (id ∈ (queue.skip job.jobId heap).removed ↔ id ∈ queue.removed) := fun id other =>
      Finset.mem_erase.trans (and_iff_right other)
    refine ⟨fun id mem => (inHeap id (later.subset id mem)).1, later.nodup, ?_, ?_⟩
    · intro id either
      have either' := either.imp_right fun missing mem => missing (inHeap id mem).1
      refine (later.tombstones id either').trans (erased id ?_)
      rcases either with left | missing
      · exact (inHeap id (later.subset id left)).2
      · exact fun same => missing ((ids id).mpr (.inl same))
    · intro taken isTaken
      obtain ⟨mem, left, live⟩ := later.taken taken isTaken
      obtain ⟨mem', other⟩ := inHeap _ mem
      exact ⟨mem', left, fun tombstone => live ((erased _ other).mpr tombstone)⟩
  | taken queue job heap top live =>
    obtain ⟨ids, notThere, nodup'⟩ := nodup_of_extractMax top nodup
    rw [PriorityQueue.pop_of_extractMax top, if_neg live]
    refine ⟨fun id mem => (ids id).mpr (.inr mem), nodup', fun _ _ => .rfl, ?_⟩
    intro taken isTaken
    cases isTaken
    exact ⟨(ids _).mpr (.inl rfl), notThere, live⟩

/-! ### The protocol of the actors -/

inductive Hold where
  | idle
  | holding (job : ScoredJob)
  /-- A job whose queue entry, if there is one, has a tombstone. -/
  | settled (id : String)
  | reporting

def assignment : Protocol Server Hold where
  expects
    | .getJob id, answer => ∀ job, answer = .ok (some job) → job.id = id
    | _, _ => True
  permits
    | .holding _, .getJob _ => True
    | .holding job, .updateState id source target =>
      id = job.jobId ∧ source = .pending ∧ target = .scheduled
    | .holding job, .queueRequeue job' => job' = job
    | .settled id, .updateState id' _ _ => id' = id
    | .settled id, .updateJob job => job.id = id
    | .settled _, .queuePop | .settled _, .getJob _ => True
    | .idle, .queuePop | .idle, .getJob _ | .idle, .cancel _ => True
    | .reporting, .getJob _ | .reporting, .updateState .. => True
    | _, _ => False
  next
    | _, .queuePop, answer => answer.elim .idle .holding
    | .holding job, .getJob _, answer =>
      match answer with
      | .ok (some _) => .holding job
      | _ => .idle
    | phase, .updateState id _ _, answer =>
      match answer with
      | .ok _ => .settled id
      | .error _ => phase
    | _, .queueRequeue _, _ => .idle
    | _, .cancel id, _ => .settled id
    | phase, _, _ => phase

section Obeying

variable {σ : Type} {store : JobStore σ} {abs : σ → JobTable}

theorem handle_meets_assignment (refines : store.Refines abs) :
    (handle store).Meets assignment := by
  intro moment op world
  cases op with
  | getJob id =>
    intro job found
    simp only [handle, storeCall] at found
    cases failure : moment.storeFailure with
    | some reason => grind
    | none =>
      rw [failure] at found
      have isJob : store.getJob id world.store = some job := Except.ok.inj found
      rw [refines.getJob] at isJob
      exact Table.find_key isJob
  | _ => trivial

/-- An actor with no popped job in its hands. -/
def Hold.Free : Hold → Prop
  | idle | settled _ => True
  | _ => False

theorem assignJobs_obeys (agentId : String) (available : ℕ) (free : phase.Free) :
    (assignJobs agentId available).Obeys assignment (fun _ _ => True) phase := by
  induction available generalizing phase with
  | zero => trivial
  | succ available ih =>
    have pops : assignment.permits phase .queuePop := by
      cases phase with
      | idle | settled => trivial
      | _ => exact free.elim
    refine .call pops fun popped _ => ?_
    cases popped with
    | none => trivial
    | some scoredJob =>
      refine .call trivial fun answer isJob => ?_
      cases answer with
      | error error => exact ih trivial
      | ok found =>
        cases found with
        | none => exact ih trivial
        | some job =>
          refine .call ⟨rfl, rfl, rfl⟩ fun moved _ => ?_
          cases moved with
          | error error => exact .call rfl fun _ _ => ih trivial
          | ok _ =>
            refine .call (isJob job rfl) fun _ _ => ?_
            have others := @ih (.settled scoredJob.jobId) trivial
            exact Prog.obeys_bind.mpr (others.mono fun _ _ _ => trivial)

theorem handleCancelJob_obeys (header : Option String) (id : String) :
    (handleCancelJob header id).Obeys assignment (fun _ _ => True) .idle := by
  unfold handleCancelJob
  cases extractTenantId header with
  | error status => trivial
  | ok callerTenant =>
  cases validateNonEmpty "job_id" id 256 with
  | error status => trivial
  | ok _ =>
  refine .call trivial fun answer _ => ?_
  cases answer with
  | error error => trivial
  | ok found =>
  cases found with
  | none => trivial
  | some job =>
  dsimp only
  cases verifyJobOwnership job callerTenant with
  | error status => trivial
  | ok _ =>
  split_ifs
  · trivial
  · refine .call trivial fun _ _ => .call rfl fun moved _ => ?_
    cases moved <;> trivial

theorem recordReport_obeys (request : ReportJobResultRequest) (current final : JobState)
    (reports : phase = .reporting ∨ phase = .settled request.jobId) :
    (recordReport request current final).Obeys assignment (fun _ _ => True) phase := by
  have moves : assignment.permits phase (.updateState request.jobId current final) := by
    rcases reports with rfl | rfl
    · trivial
    · exact rfl
  refine .call moves fun answer _ => ?_
  cases answer with
  | error error => trivial
  | ok _ =>
    refine .call trivial fun read isJob => ?_
    cases read with
    | error error => trivial
    | ok found =>
      cases found with
      | none => trivial
      | some job => exact .call (isJob job rfl) fun _ _ => trivial

theorem reportJobResult_obeys (request : ReportJobResultRequest) :
    (reportJobResult request).Obeys assignment (fun _ _ => True) .reporting := by
  unfold reportJobResult
  cases validateNonEmpty "job_id" request.jobId 256 with
  | error status => trivial
  | ok _ =>
  cases validateNonEmpty "agent_id" request.agentId 256 with
  | error status => trivial
  | ok _ =>
  cases protoStateToCore request.finalState with
  | none => trivial
  | some final =>
  refine .call trivial fun answer _ => ?_
  cases answer with
  | error error => trivial
  | ok found =>
  cases found with
  | none => trivial
  | some job =>
  dsimp only
  split_ifs
  · trivial
  · trivial
  · refine .call trivial fun moved _ => ?_
    cases moved with
    | error error => trivial
    | ok _ => exact recordReport_obeys request .running final (.inr rfl)
  · exact recordReport_obeys request job.state final (.inl rfl)

end Obeying

/-! ### The invariant -/

section Invariant

variable {σ : Type} {store : JobStore σ} {abs : σ → JobTable}

/-- The job is in the queue, or in the hands of an actor that popped it. -/
def Queued (phases : ℕ → Hold) (world : World σ) (id : String) : Prop :=
  id ∈ world.queue.ids ∨ ∃ i job, phases i = .holding job ∧ job.jobId = id

/-- **Every queued job is Pending or has a tombstone.** -/
structure QueueSound (abs : σ → JobTable) (report : ℕ → Prop) (phases : ℕ → Hold)
    (world : World σ) :
    Prop where
  /-- A job has one entry, -/
  nodup : world.queue.ids.Nodup
  /-- none while an actor has it in its hands, -/
  apart : ∀ i job, phases i = .holding job → job.jobId ∉ world.queue.ids
  /-- and one actor at most has it. -/
  single : ∀ i j job job', phases i = .holding job → phases j = .holding job' →
    job.jobId = job'.jobId → i = j
  pending : ∀ id, Queued phases world id →
    stateAt abs world id = some .pending ∨ id ∈ world.queue.removed
  settled : ∀ i id, phases i = .settled id → Queued phases world id → id ∈ world.queue.removed
  reports : ∀ i, phases i = .reporting → report i

variable {report : ℕ → Prop} {phases phases' : ℕ → Hold} {world world' : World σ}

theorem QueueSound.stays (sound : QueueSound abs report phases world)
    (heap : world'.queue.heap = world.queue.heap)
    (grows : world.queue.removed ⊆ world'.queue.removed)
    (holding : ∀ i job, phases' i = .holding job → phases i = .holding job)
    (reporting : ∀ i, phases' i = .reporting → phases i = .reporting)
    (settled : ∀ i id, phases' i = .settled id → phases i = .settled id ∨
      (Queued phases' world' id → id ∈ world'.queue.removed))
    (states : ∀ id, stateAt abs world' id = stateAt abs world id ∨
      (Queued phases' world' id → id ∈ world'.queue.removed)) : QueueSound abs report phases'
      world' := by
  have ids : world'.queue.ids = world.queue.ids := by
    unfold PriorityQueue.ids
    rw [heap]
  have queued : ∀ id, Queued phases' world' id → Queued phases world id := by
    rintro id (inQueue | ⟨i, job, isHolding, isId⟩)
    · exact .inl (ids ▸ inQueue)
    · exact .inr ⟨i, job, holding i job isHolding, isId⟩
  refine ⟨ids ▸ sound.nodup, ?_, ?_, ?_, ?_, fun i isReport =>
    sound.reports i (reporting i isReport)⟩
  · intro i job isHolding
    rw [ids]
    exact sound.apart i job (holding i job isHolding)
  · intro i j job job' isHolding isHolding'
    exact sound.single i j job job' (holding i job isHolding) (holding j job' isHolding')
  · intro id isQueued
    rcases states id with same | tombstone
    · rw [same]
      exact (sound.pending id (queued id isQueued)).imp_right fun mem => grows mem
    · exact .inr (tombstone isQueued)
  · intro i id isSettled isQueued
    rcases settled i id isSettled with before | tombstone
    · exact grows (sound.settled i id before (queued id isQueued))
    · exact tombstone isQueued

variable {i : ℕ}

theorem phase_of_update (isPhase : update phases i phase' j = phase) :
    j = i ∧ phase' = phase ∨ j ≠ i ∧ phases j = phase := by
  by_cases own : j = i
  · simp_all
  · simp_all

theorem QueueSound.moves (sound : QueueSound abs report phases world)
    (heap : world'.queue.heap = world.queue.heap)
    (grows : world.queue.removed ⊆ world'.queue.removed)
    (same : phase' = phases i ∨ phase' = .idle ∨ ∃ id, phase' = .settled id ∧
      (Queued (update phases i phase') world' id → id ∈ world'.queue.removed))
    (states : ∀ id, stateAt abs world' id = stateAt abs world id ∨
      (Queued (update phases i phase') world' id → id ∈ world'.queue.removed)) :
    QueueSound abs report (update phases i phase') world' := by
  refine sound.stays heap grows (fun j job isHolding => ?_) (fun j isReporting => ?_)
    (fun j id isSettled => ?_) states
  · rcases phase_of_update isHolding with ⟨rfl, rfl⟩ | ⟨-, before⟩
    · simpa [eq_comm] using same
    · exact before
  · rcases phase_of_update isReporting with ⟨rfl, rfl⟩ | ⟨-, before⟩
    · simpa [eq_comm] using same
    · exact before
  · rcases phase_of_update isSettled with ⟨rfl, rfl⟩ | ⟨-, before⟩
    · simpa [eq_comm] using same
    · exact .inl before

theorem phase_of_update_of_ne (differs : phase' ≠ phase)
    (isPhase : update phases i phase' j = phase) : j ≠ i ∧ phases j = phase :=
  (phase_of_update isPhase).resolve_left fun own => differs own.2

/-! ### The calls -/

theorem holding_of_requeue (permitted : assignment.permits phase (.queueRequeue job)) :
    phase = .holding job := by
  cases phase with
  | holding job' => rw [show job = job' from permitted]
  | _ => exact permitted.elim

variable {moment : Moment} {source target : JobState} {id : String}
    (sound : QueueSound abs report phases world)
include sound

theorem queueSound_getJob (i : ℕ) (moment : Moment) (id : String) :
    QueueSound abs report (assignment.advance phases i (.getJob id)
      (handle store moment (.getJob id) world).1) (handle store moment (.getJob id) world).2 := by
  have unchanged : (handle store moment (.getJob id) world).2 = world := by
    simp only [handle, storeCall]
    cases moment.storeFailure <;> rfl
  have phase' : ∀ answer, assignment.next (phases i) (.getJob id) answer = phases i ∨
      assignment.next (phases i) (.getJob id) answer = .idle := by
    intro answer
    cases phases i with
    | holding job =>
      rcases answer with error | (_ | found)
      · exact .inr rfl
      · exact .inr rfl
      · exact .inl rfl
    | _ => exact .inl rfl
  rw [unchanged]
  exact sound.moves rfl (Finset.Subset.refl _) ((phase' _).imp_right .inl) fun _ => .inl rfl

theorem queueSound_updateState (swaps : Swaps abs world id source target result)
    (queue : result.2.queue = world.queue)
    (permitted : assignment.permits (phases i) (.updateState id source target))
    (spares : report i → stateAt abs world id = some .pending →
      stateAt abs result.2 id = some .pending) :
    QueueSound abs report (assignment.advance phases i (.updateState id source target) result.1)
      result.2 := by
  rcases swaps with ⟨⟨error, refused⟩, store⟩ | ⟨moved, stored, edge, after⟩
  · rw [refused]
    refine sound.moves (congrArg _ queue) (by rw [queue]) (.inl (by cases phases i <;> rfl))
      fun other => .inl ?_
    rw [stateAt, store]
    rfl
  · have nowSettled : assignment.next (phases i) (.updateState id source target) result.1 =
        .settled id := by
      rw [moved]
      cases phases i <;> rfl
    -- whoever moves the job leaves it out of the queue, or with a tombstone there
    have tombstone : Queued (update phases i (.settled id)) result.2 id →
        id ∈ result.2.queue.removed := by
      unfold Queued
      rw [queue]
      intro queued
      have queuedBefore : Queued phases world id := by
        refine queued.imp_right ?_
        rintro ⟨j, job, isHolding, isId⟩
        exact ⟨j, job, (phase_of_update_of_ne (by simp) isHolding).2, isId⟩
      cases isPhase : phases i with
      | idle =>
        rw [isPhase] at permitted
        exact permitted.elim
      | holding job =>
        rw [isPhase] at permitted
        obtain ⟨rfl, -⟩ := permitted
        rcases queued with inQueue | ⟨j, job', isHolding, sameId⟩
        · exact absurd inQueue (sound.apart i job isPhase)
        · obtain ⟨other, isHolding'⟩ := phase_of_update_of_ne (by simp) isHolding
          exact absurd (sound.single j i job' job isHolding' isPhase sameId) other
      | settled id' =>
        rw [isPhase] at permitted
        obtain rfl : id = id' := permitted
        exact sound.settled i id isPhase queuedBefore
      | reporting =>
        refine (sound.pending id queuedBefore).resolve_left fun isPending => ?_
        have stays := spares (sound.reports i isPhase) isPending
        rw [after, if_pos rfl] at stays
        cases stays
        obtain rfl := Option.some.inj (stored.symm.trans isPending)
        cases edge
    unfold Protocol.advance
    rw [nowSettled]
    refine sound.moves (congrArg _ queue) (by rw [queue]) (.inr (.inr ⟨id, rfl, tombstone⟩))
      fun other => ?_
    by_cases isId : other = id
    · subst isId
      exact .inr tombstone
    · exact .inl ((after other).trans (if_neg isId))

theorem queueSound_updateJob (refines : store.Refines abs) {job : Job}
    (permitted : assignment.permits (phases i) (.updateJob job)) :
    QueueSound abs report (assignment.advance phases i (.updateJob job)
      (handle store moment (.updateJob job) world).1)
      (handle store moment (.updateJob job) world).2 := by
  have queue : (handle store moment (.updateJob job) world).2.queue = world.queue := by
    simp only [handle, storeCall]
    cases moment.storeFailure <;> rfl
  have isPhase : phases i = .settled job.id := by
    cases isPhase : phases i with
    | settled id =>
      rw [isPhase] at permitted
      rw [show job.id = id from permitted]
    | _ => rw [isPhase] at permitted; exact permitted.elim
  have unchanged : assignment.next (phases i) (.updateJob job)
      (handle store moment (.updateJob job) world).1 = phases i := by
    rfl
  refine sound.moves (congrArg _ queue) (by rw [queue]) (.inl unchanged) fun id => ?_
  by_cases isJob : id = job.id
  · right
    rw [queue, isJob, unchanged, update_eq_self]
    unfold Queued
    rw [queue]
    exact sound.settled i job.id isPhase
  · left
    rcases updateJob_cases refines moment world job with ⟨-, same⟩ | ⟨-, -, after⟩
    · rw [stateAt, same]
      rfl
    · exact (after id).trans (if_neg isJob)

theorem queueSound_queueRequeue (permitted : assignment.permits (phases i) (.queueRequeue job)) :
    QueueSound abs report (assignment.advance phases i (.queueRequeue job)
      (handle store moment (.queueRequeue job) world).1)
      (handle store moment (.queueRequeue job) world).2 := by
  have isPhase : phases i = .holding job := holding_of_requeue permitted
  have nowIdle : assignment.next (phases i) (.queueRequeue job) () = .idle := by
    rfl
  show QueueSound abs report (update phases i
    (assignment.next (phases i) (.queueRequeue job) ()))
    { world with queue := world.queue.requeue job }
  rw [nowIdle]
  have ids : (world.queue.requeue job).ids = job.jobId :: world.queue.ids := rfl
  have queued : ∀ id, Queued (update phases i .idle)
      { world with queue := world.queue.requeue job } id → Queued phases world id := by
    rintro id (inQueue | ⟨j, job', isHolding, isId⟩)
    · rcases mem_cons.mp inQueue with own | before
      · exact .inr ⟨i, job, isPhase, own.symm⟩
      · exact .inl before
    · exact .inr ⟨j, job', (phase_of_update_of_ne (by simp) isHolding).2, isId⟩
  refine ⟨nodup_cons.mpr ⟨sound.apart i job isPhase, sound.nodup⟩, ?_, ?_, ?_, ?_, ?_⟩
  · intro j job' isHolding
    obtain ⟨other, isHolding'⟩ := phase_of_update_of_ne (by simp) isHolding
    rw [show ({ world with queue := world.queue.requeue job } : World σ).queue.ids = _ from ids,
      mem_cons, not_or]
    exact ⟨fun same => other (sound.single j i job' job isHolding' isPhase same),
      sound.apart j job' isHolding'⟩
  · intro j k job' job'' isHolding isHolding'
    exact sound.single j k job' job'' (phase_of_update_of_ne (by simp) isHolding).2
      (phase_of_update_of_ne (by simp) isHolding').2
  · exact fun id isQueued => sound.pending id (queued id isQueued)
  · intro j id isSettled isQueued
    exact sound.settled j id (phase_of_update_of_ne (by simp) isSettled).2 (queued id isQueued)
  · exact fun j isReporting => sound.reports j (phase_of_update_of_ne (by simp) isReporting).2

theorem queueSound_queuePop (i : ℕ) (moment : Moment) :
    QueueSound abs report (assignment.advance phases i .queuePop
      (handle store moment .queuePop world).1) (handle store moment .queuePop world).2 := by
  have popped := popped_pop world.queue sound.nodup
  -- who has a job in its hands now had it before, or has just popped it
  have holder : ∀ j job, update phases i (world.queue.pop.1.elim .idle .holding) j =
      .holding job → j = i ∧ world.queue.pop.1 = some job ∨ j ≠ i ∧ phases j = .holding job := by
    intro j job isHolding
    refine (phase_of_update isHolding).imp_left fun ⟨own, isJob⟩ => ⟨own, ?_⟩
    cases answer : world.queue.pop.1 with
    | none =>
      rw [answer] at isJob
      cases isJob
    | some taken => simp_all
  have notPopped : ∀ phase, (∀ job, phase ≠ .holding job) → phase ≠ .idle → ∀ j,
      update phases i (world.queue.pop.1.elim .idle .holding) j = phase →
        j ≠ i ∧ phases j = phase := by
    intro phase notHolding notIdle j isPhase
    refine phase_of_update_of_ne ?_ isPhase
    cases world.queue.pop.1 with
    | none => exact notIdle.symm
    | some job => exact (notHolding job).symm
  -- a job that is queued now was queued before, with the same tombstone unless it is the popped one
  have queued : ∀ id, Queued (update phases i (world.queue.pop.1.elim .idle .holding))
      { world with queue := world.queue.pop.2 } id → Queued phases world id ∧
        (id ∈ world.queue.removed → id ∈ world.queue.pop.2.removed) := by
    rintro id (inQueue | ⟨j, job, isHolding, rfl⟩)
    · exact ⟨.inl (popped.subset id inQueue), (popped.tombstones id (.inl inQueue)).mpr⟩
    · rcases holder j job isHolding with ⟨-, isTaken⟩ | ⟨-, before⟩
      · obtain ⟨mem, -, live⟩ := popped.taken job isTaken
        exact ⟨.inl mem, fun tombstone => absurd tombstone live⟩
      · exact ⟨.inr ⟨j, job, before, rfl⟩,
          (popped.tombstones _ (.inr (sound.apart j job before))).mpr⟩
  refine ⟨popped.nodup, ?_, ?_, ?_, ?_, ?_⟩
  · intro j job isHolding
    rcases holder j job isHolding with ⟨-, isTaken⟩ | ⟨-, before⟩
    · exact (popped.taken job isTaken).2.1
    · exact fun left => sound.apart j job before (popped.subset _ left)
  · intro j k job job' isHolding isHolding' same
    rcases holder j job isHolding with ⟨rfl, isTaken⟩ | ⟨-, before⟩ <;>
      rcases holder k job' isHolding' with ⟨isK, isTaken'⟩ | ⟨-, before'⟩
    · exact isK.symm
    · exact absurd (same ▸ (popped.taken job isTaken).1) (sound.apart k job' before')
    · exact absurd (same ▸ (popped.taken job' isTaken').1) (sound.apart j job before)
    · exact sound.single j k job job' before before' same
  · intro id isQueued
    obtain ⟨before, kept⟩ := queued id isQueued
    exact (sound.pending id before).imp_right kept
  · intro j id isSettled isQueued
    obtain ⟨before, kept⟩ := queued id isQueued
    exact kept (sound.settled j id (notPopped _ (by simp) (by simp) j isSettled).2 before)
  · exact fun j isReporting => sound.reports j (notPopped _ (by simp) (by simp) j isReporting).2

/-- **Every permitted call keeps the queue sound**, as long as a report moves no Pending job. -/
theorem queueSound_step (refines : store.Refines abs) (permitted : assignment.permits (phases i) op)
    (spares : report i → ∀ id, stateAt abs world id = some .pending →
      stateAt abs (handle store moment op world).2 id = some .pending) :
    QueueSound abs report (assignment.advance phases i op (handle store moment op world).1)
      (handle store moment op world).2 := by
  cases op with
  | getJob id => exact queueSound_getJob sound i moment id
  | updateState id source target =>
    refine queueSound_updateState sound (swaps_updateState refines ..) ?_ permitted
      fun isReport => spares isReport id
    simp only [handle, storeCall]
    cases moment.storeFailure <;> rfl
  | updateJob job => exact queueSound_updateJob sound refines permitted
  | queuePop => exact queueSound_queuePop sound i moment
  | queueRequeue job => exact queueSound_queueRequeue sound permitted
  | cancel id =>
    refine sound.moves rfl (Finset.subset_insert _ _)
      (.inr (.inr ⟨id, rfl, fun _ => ?_⟩)) fun _ => .inl rfl
    exact Finset.mem_insert_self _ _
  | _ => cases isPhase : phases i <;> rw [isPhase] at permitted <;> exact permitted.elim

end Invariant

/-! ### Whole runs -/

def Actor.Assigning : Actor → Prop
  | assignJobs .. | cancelJob .. | reportJobResult _ => True
  | _ => False

def Actor.Reporting : Actor → Prop
  | reportJobResult _ => True
  | _ => False

section Runs

variable {σ : Type} (store : JobStore σ) (abs : σ → JobTable)

/-- **Every job in the queue is Pending** or has a tombstone, and has one entry. -/
structure QueueReady (world : World σ) : Prop where
  nodup : world.queue.ids.Nodup
  pending : ∀ id ∈ world.queue.ids,
    stateAt abs world id = some .pending ∨ id ∈ world.queue.removed

/-- The call assigns the job: it moves the job from Pending to Scheduled. -/
def Assigns (id : String) (event : Event Server (World σ) Moment) : Prop :=
  event.op = .updateState id .pending .scheduled ∧
    (handle store event.decision (.updateState id .pending .scheduled) event.before).1 = .ok ()

def BecomesPending (id : String) (event : Event Server (World σ) Moment) : Prop :=
  stateAt abs event.before id ≠ some .pending ∧
    stateAt abs (event.after (handle store)) id = some .pending

/-- **Between two assignments of a job it has become Pending again.** -/
def AssignedOnce (run : Run σ) : Prop :=
  ∀ id earlier first between second later,
    run = earlier ++ first :: (between ++ second :: later) →
    Assigns store id first.2 → Assigns store id second.2 →
      ∃ event ∈ between, BecomesPending store abs id event.2

/-- **A job that is no longer Pending leaves the queue:** it has no entry that is not a tombstone's,
none is left when the scores are refreshed, no heartbeat is handed it, and none puts it back. -/
structure QueueClear (run : Run σ) : Prop where
  live : ∀ event ∈ run, ∀ id ∈ event.2.before.queue.ids, id ∉ event.2.before.queue.removed →
    stateAt abs event.2.before id = some .pending
  refreshed : ∀ event ∈ run, ∀ now, ∀ id ∈ (event.2.before.queue.refreshScores now).ids,
    stateAt abs event.2.before id = some .pending
  popped : ∀ event ∈ run, event.2.op = .queuePop → ∀ job, event.2.before.queue.pop.1 = some job →
    stateAt abs event.2.before job.jobId = some .pending
  requeued : ∀ event ∈ run, ∀ job, event.2.op = .queueRequeue job →
    stateAt abs event.2.before job.jobId = some .pending

/-- A call that is not a result report's, or that moves no Pending job. -/
def SparesPending (actors : List Actor) (i : ℕ) (event : Event Server (World σ) Moment) : Prop :=
  (∃ actor ∈ actors[i]?, actor.Reporting) → ∀ id, stateAt abs event.before id = some .pending →
    stateAt abs (event.after (handle store)) id = some .pending

/-- No result report moves a Pending job. -/
def ReportsSparePending (actors : List Actor) (run : Run σ) : Prop :=
  ∀ event ∈ run, SparesPending store abs actors event.1 event.2

/-- The call moves the job away from Pending. -/
abbrev TakesAway (id : String) (event : Event Server (World σ) Moment) : Prop :=
  stateAt abs event.before id = some .pending ∧
    stateAt abs (event.after (handle store)) id ≠ some .pending

def startPhase (actors : List Actor) (i : ℕ) : Hold :=
  match actors[i]? with
  | some (.reportJobResult _) => .reporting
  | _ => .idle

/-- The job that an actor has popped and not yet assigned, put back or discarded. -/
def Hold.held : Hold → List ScoredJob
  | holding job => [job]
  | _ => []

/-- No other actor takes away a job that a heartbeat has in its hands. -/
def HandsOff (phases : ℕ → Hold) (i : ℕ) (event : Event Server (World σ) Moment) : Prop :=
  ∀ j ≠ i, ∀ job ∈ (phases j).held, ¬ TakesAway store abs job.jobId event

/-- **No cancellation and no report comes between a heartbeat's pop of the job and its
compare-and-set.** -/
def HeartbeatsUndisturbed (actors : List Actor) (run : Run σ) : Prop :=
  ∀ earlier event later, run = earlier ++ event :: later →
    HandsOff store abs (fun i =>
      phaseAfter (handle store) assignment i (startPhase actors i) earlier) event.1 event.2

variable {store abs}

/-- The condition call by call, for the actors there are. -/
theorem heartbeatsUndisturbed_of_take {run : Run σ} (known : ∀ event ∈ run, event.1 < actors.length)
    (handsOff : ∀ k ∈ range run.length, ∀ event ∈ run[k]?.toList, ∀ j < actors.length, j ≠ event.1 →
      ∀ job ∈ (phaseAfter (handle store) assignment j (startPhase actors j) (run.take k)).held,
        ¬ TakesAway store abs job.jobId event.2) :
    HeartbeatsUndisturbed store abs actors run := by
  rintro earlier event later rfl j other job isHeld
  by_cases isActor : j < actors.length
  · exact handsOff earlier.length (by simp) event (by simp) j isActor other job
      (by simpa using isHeld)
  · have absent : ∀ event ∈ earlier, event.1 ≠ j := by
      intro event mem
      exact ((known event (mem_append_left _ mem)).trans_le (Nat.le_of_not_lt isActor)).ne
    have idle : phaseAfter (handle store) assignment j (startPhase actors j) earlier = .idle := by
      rw [phaseAfter_of_absent _ _ absent, startPhase, getElem?_eq_none (Nat.le_of_not_lt isActor)]
    simp [idle, Hold.held] at isHeld

theorem assignedOnce_serve (refines : store.Refines abs) (actors : List Actor) (world : World σ)
    (schedule : List (ℕ × Moment)) :
    AssignedOnce store abs (serve store actors world schedule) := by
  intro id earlier first between second later split assigned assigned'
  by_contra never
  have chained : Chained (handle store) world (serve store actors world schedule) :=
    Pool.trace_chained ⟨actors.map Actor.program, world⟩ schedule
  rw [split] at chained
  have isStored : ∀ event : Event Server (World σ) Moment, Assigns store id event →
      stateAt abs event.before id = some .pending ∧
        stateAt abs (event.after (handle store)) id ≠ some .pending := by
    rintro event ⟨isSwap, moved⟩
    rcases swaps_updateState refines event.decision event.before id .pending .scheduled with
      ⟨⟨error, refused⟩, -⟩ | ⟨-, stored, -, after⟩
    · cases refused.symm.trans moved
    · grind [Event.after]
  refine chained.suffix.2.holds_at (P := fun world => stateAt abs world id ≠ some .pending)
    (fun event mem before after => never ⟨event, mem, before, after⟩) (isStored _ assigned).2
    (isStored _ assigned').1

theorem program_obeys (kind : actor.Assigning) {actors : List Actor} {i : ℕ}
    (isActor : actors[i]? = some actor) :
    actor.program.Obeys assignment (fun _ _ => True) (startPhase actors i) := by
  unfold startPhase
  rw [isActor]
  cases actor with
  | cancelJob header id =>
    exact Prog.obeys_bind.mpr ((handleCancelJob_obeys header id).mono fun _ _ _ => trivial)
  | assignJobs agentId caps =>
    have obeys : (assignJobsTo agentId caps).Obeys assignment (fun _ _ => True) .idle :=
      assignJobs_obeys agentId _ trivial
    exact Prog.obeys_bind.mpr (obeys.mono fun _ _ _ => trivial)
  | reportJobResult request =>
    exact Prog.obeys_bind.mpr ((reportJobResult_obeys request).mono fun _ _ _ => trivial)
  | _ => exact kind.elim

theorem queueSound_start (ready : QueueReady abs world) (actors : List Actor) :
    QueueSound abs (fun i => ∃ actor ∈ actors[i]?, actor.Reporting) (startPhase actors) world := by
  have phase : ∀ i, startPhase actors i = .idle ∨ startPhase actors i = .reporting ∧
      ∃ actor ∈ actors[i]?, actor.Reporting := by
    intro i
    unfold startPhase
    split
    · next request isReport => exact .inr ⟨rfl, _, isReport, trivial⟩
    · exact .inl rfl
  have none : ∀ i job, startPhase actors i ≠ .holding job := by
    intro i job isHolding
    rcases phase i with idle | ⟨reporting, -⟩
    · cases idle.symm.trans isHolding
    · cases reporting.symm.trans isHolding
  refine ⟨ready.nodup, fun i job isHolding => (none i job isHolding).elim,
    fun i _ job _ isHolding => (none i job isHolding).elim, ?_, ?_, ?_⟩
  · rintro id (inQueue | ⟨i, job, isHolding, -⟩)
    · exact ready.pending id inQueue
    · exact (none i job isHolding).elim
  · intro i id isSettled
    rcases phase i with idle | ⟨reporting, -⟩
    · cases idle.symm.trans isSettled
    · cases reporting.symm.trans isSettled
  · intro i isReporting
    rcases phase i with idle | ⟨-, reports⟩
    · cases idle.symm.trans isReporting
    · exact reports

/-- **A job in a heartbeat's hands is Pending**, as long as the others keep their hands off it. -/
theorem held_step (refines : store.Refines abs) {phases : ℕ → Hold} {world : World σ} {i : ℕ}
    {moment : Moment} (sound : QueueSound abs report phases world)
    (held : ∀ j job, phases j = .holding job → stateAt abs world job.jobId = some .pending)
    (permitted : assignment.permits (phases i) op)
    (handsOff : HandsOff store abs phases i ⟨world, moment, op⟩) (j : ℕ) (job : ScoredJob)
    (holds : assignment.advance phases i op (handle store moment op world).1 j = .holding job) :
    stateAt abs (handle store moment op world).2 job.jobId = some .pending := by
  rcases phase_of_update holds with ⟨rfl, own⟩ | ⟨other, before⟩
  · cases op with
    | queuePop =>
      have isPopped : world.queue.pop.1 = some job := by
        change world.queue.pop.1.elim Hold.idle Hold.holding = _ at own
        cases popped : world.queue.pop.1 with
        | none => rw [popped] at own; cases own
        | some taken =>
          rw [popped] at own
          exact congrArg some (Hold.holding.inj own)
      obtain ⟨inQueue, -, live⟩ := (popped_pop _ sound.nodup).taken job isPopped
      exact (sound.pending _ (.inl inQueue)).resolve_right live
    | getJob id =>
      have same : (handle store moment (.getJob id) world).2 = world := by
        simp only [handle, storeCall]
        cases moment.storeFailure <;> rfl
      rw [same]
      refine held j job ?_
      cases isPhase : phases j <;> rw [isPhase] at own
      case holding taken =>
        rcases answer : (handle store moment (.getJob id) world).1 with error | _ | found <;>
          rw [answer] at own <;> first | exact own | cases own
      all_goals exact own
    | updateState id source target =>
      rcases swaps_updateState refines moment world id source target with
        ⟨⟨error, refused⟩, same⟩ | ⟨moved, -⟩
      · rw [stateAt, same]
        refine held j job ?_
        rw [refused] at own
        cases isPhase : phases j <;> rw [isPhase] at own <;> exact own
      · rw [moved] at own
        cases isPhase : phases j <;> rw [isPhase] at own <;> cases own
    | queueRequeue | cancel => cases own
    | updateJob =>
      cases isPhase : phases j <;> rw [isPhase] at own permitted <;>
        first | exact permitted.elim | cases own
    | _ => cases isPhase : phases j <;> rw [isPhase] at permitted <;> exact permitted.elim
  · by_contra moved
    exact handsOff j other job (by simp [before, Hold.held]) ⟨held j job before, moved⟩

theorem queueClear_serve (refines : store.Refines abs) {world : World σ}
    {schedule : List (ℕ × Moment)} (kinds : ∀ actor ∈ actors, actor.Assigning)
    (ready : QueueReady abs world)
    (spares : ReportsSparePending store abs actors (serve store actors world schedule))
    (undisturbed : HeartbeatsUndisturbed store abs actors (serve store actors world schedule)) :
    QueueClear abs (serve store actors world schedule) := by
  have obey : ∀ i (p : Prog Server Unit), (actors.map Actor.program)[i]? = some p →
      p.Obeys assignment (fun _ _ => True) (startPhase actors i) := by
    intro i p isThread
    rw [getElem?_map] at isThread
    obtain ⟨actor, isActor, rfl⟩ := Option.map_eq_some_iff.mp isThread
    exact program_obeys (kinds actor (mem_of_getElem? isActor)) isActor
  have start : ∀ j job, startPhase actors j = .holding job →
      stateAt abs world job.jobId = some .pending := by
    intro j job isHolding
    unfold startPhase at isHolding
    split at isHolding <;> cases isHolding
  have along := @Pool.phases_along _ _ _ _ (handle store) assignment schedule
    (fun phases i event => SparesPending store abs actors i event ∧
    HandsOff store abs phases i event) (handle_meets_assignment refines)
    (fun phases world => QueueSound abs (fun i => ∃ actor ∈ actors[i]?, actor.Reporting) phases
      world ∧ ∀ j job, phases j = .holding job → stateAt abs world job.jobId = some .pending)
    (fun phases s i moment op sound permitted known =>
      ⟨queueSound_step sound.1 refines permitted known.1,
        held_step refines sound.1 sound.2 permitted known.2⟩)
    ⟨actors.map Actor.program, world⟩
    (startPhase actors) obey ⟨queueSound_start ready actors, start⟩
    fun earlier event later split => ⟨spares event (by
      rw [show serve store actors world schedule = _ from split]
      simp), undisturbed earlier event later split⟩
  have sound : ∀ event ∈ serve store actors world schedule, ∃ phases,
      (QueueSound abs (fun i => ∃ actor ∈ actors[i]?, actor.Reporting) phases event.2.before ∧
        ∀ j job, phases j = .holding job → stateAt abs event.2.before job.jobId = some .pending) ∧
        assignment.permits (phases event.1) event.2.op := by
    intro event mem
    obtain ⟨earlier, later, split⟩ := append_of_mem mem
    exact ⟨_, along earlier event later split⟩
  have live : ∀ event ∈ serve store actors world schedule, ∀ id ∈ event.2.before.queue.ids,
      id ∉ event.2.before.queue.removed → stateAt abs event.2.before id = some .pending := by
    intro event mem id inQueue live
    obtain ⟨phases, ⟨sound, -⟩, -⟩ := sound event mem
    exact (sound.pending id (.inl inQueue)).resolve_right live
  refine ⟨live, ?_, ?_, ?_⟩
  · intro event mem now id left
    rw [PriorityQueue.ids_refreshScores, mem_filter] at left
    exact live event mem id left.1 (of_decide_eq_true left.2)
  · intro event mem isPop job isJob
    obtain ⟨phases, ⟨sound, -⟩, -⟩ := sound event mem
    obtain ⟨inQueue, -, notRemoved⟩ := (popped_pop _ sound.nodup).taken job isJob
    exact live event mem _ inQueue notRemoved
  · intro event mem job isRequeue
    obtain ⟨phases, ⟨-, held⟩, permitted⟩ := sound event mem
    rw [isRequeue] at permitted
    exact held event.1 job (holding_of_requeue permitted)

end Runs

/-- **For every interleaving of heartbeats, cancellations and result reports, a job is assigned at
most once each time it becomes Pending; and as long as no report moves a Pending job and no one
takes a job away that a heartbeat has in its hands, a job that is no longer Pending leaves the
queue.** -/
theorem heartbeats_exclusive_and_clear (backend : Backend) (actors : List Actor)
    (kinds : ∀ actor ∈ actors, actor.Assigning) (world : World backend.State)
    (ready : QueueReady backend.table world) (schedule : List (ℕ × Moment)) :
    let run := serve backend.jobStore actors world schedule
    AssignedOnce backend.jobStore backend.table run ∧
      (ReportsSparePending backend.jobStore backend.table actors run →
        HeartbeatsUndisturbed backend.jobStore backend.table actors run →
          QueueClear backend.table run) :=
  ⟨assignedOnce_serve backend.refines actors world schedule,
    queueClear_serve backend.refines kinds ready⟩

/-- Two Pending jobs, stored and queued; the first one is served first. -/
def twoPending : World SqliteJobStore where
  store := ⟨⟨[rowOf
      (Job.new "first" 0 { tenantId := "tenant", priorityTier := .enterprise }),
    rowOf (Job.new "second" 0 { tenantId := "tenant", priorityTier := .free })],
    by decide⟩, by decide⟩
  queue := (PriorityQueue.new.push (ScoredJob.new 0 "first" .enterprise 0 "tenant")
    .enterprise).push (ScoredJob.new 0 "second" .free 0 "tenant") .free
  delayed := []

/-- A report that cancels the first job, which no agent has, and two heartbeats with room for one
job each. -/
def reportAndHeartbeats : List Actor :=
  [.reportJobResult ⟨"first", "agent", 7, none, "", none, none⟩, .assignJobs "agent" ⟨1, 0⟩,
    .assignJobs "agent" ⟨1, 0⟩]

/-- The report, the first heartbeat, the second heartbeat. -/
def oneByOne : List (ℕ × Moment) :=
  [0, 0, 0, 0, 1, 1, 1, 1, 2, 2, 2, 2].map fun i => (i, { now := 1 })

theorem queueReady_twoPending : QueueReady toTable twoPending :=
  ⟨by decide, by decide⟩

/-- The tenant cancels the first job between a heartbeat's pop and its compare-and-set. -/
def heartbeatAndCancel : Run SqliteJobStore :=
  serve sqliteJobStore [.assignJobs "agent" ⟨2, 0⟩, .cancelJob (some "tenant") "first"] twoPending
    ([0, 0, 1, 1, 1, 0, 0, 0].map fun i => (i, { now := 1 }))

/-- **A report cancels a queued job, and the heartbeats that follow get that job and put it back, so
that the second job is not assigned. A job that is cancelled in a heartbeat's hands is put back too;
had the scores been refreshed just before, without a tombstone.** -/
theorem report_blocks_queue : QueueReady toTable twoPending ∧
      (∀ actor ∈ reportAndHeartbeats, actor.Assigning) ∧ ¬ QueueClear toTable
        (serve sqliteJobStore reportAndHeartbeats twoPending oneByOne) ∧
      ((serve sqliteJobStore reportAndHeartbeats twoPending oneByOne).map Prod.fst =
        [0, 0, 0, 0, 1, 1, 1, 1, 2, 2, 2, 2]) ∧
      (∀ event ∈ serve sqliteJobStore reportAndHeartbeats twoPending oneByOne,
        stateAt toTable (event.2.after (handle sqliteJobStore)) "second" = some .pending) ∧
      ∃ event ∈ heartbeatAndCancel, stateAt toTable event.2.before "first" = some .cancelled ∧
        "first" ∉ event.2.before.queue.ids ∧
        "first" ∉ (event.2.before.queue.refreshScores 1).removed ∧
        "first" ∈ (event.2.after (handle sqliteJobStore)).queue.ids := by
  refine ⟨queueReady_twoPending, by simp [reportAndHeartbeats, Actor.Assigning], fun clear => ?_,
    by decide +kernel, by decide +kernel, by decide +kernel⟩
  have back : ∃ event ∈ serve sqliteJobStore reportAndHeartbeats twoPending oneByOne,
      "first" ∈ event.2.before.queue.ids ∧ "first" ∉ event.2.before.queue.removed ∧
        stateAt toTable event.2.before "first" = some .cancelled := by
    decide +kernel
  obtain ⟨event, member, inQueue, live, cancelled⟩ := back
  cases (clear.live event member "first" inQueue live).symm.trans cancelled

/-- A heartbeat has the first job, fails to write it and puts it back; meanwhile the tenant cancels
the second one. -/
theorem heartbeats_exclusive_and_clear_cancel :
    QueueReady toTable twoPending ∧
      QueueClear toTable (serve sqliteJobStore
        [.assignJobs "agent" ⟨2, 0⟩, .cancelJob (some "tenant") "second"] twoPending
        ([(0, none), (0, none), (1, none), (1, none), (1, none), (0, some "disk full"), (0, none),
          (0, none), (0, none), (0, none), (0, none)].map fun turn =>
            (turn.1, { now := 1, storeFailure := turn.2 }))) := by
  refine ⟨queueReady_twoPending, (heartbeats_exclusive_and_clear .sqlite _ ?_ twoPending
    queueReady_twoPending _).2 ?_ (heartbeatsUndisturbed_of_take ?_ ?_)⟩
  · simp [Actor.Assigning]
  · rintro event - ⟨actor, isActor, reports⟩
    obtain rfl | rfl : actor = .assignJobs "agent" ⟨2, 0⟩ ∨
        actor = .cancelJob (some "tenant") "second" := by
      simpa using mem_of_getElem? isActor
    · exact reports.elim
    · exact reports.elim
  · decide +kernel
  · decide +kernel

end Muli
