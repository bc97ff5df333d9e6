/-
**What the server's actors share, and the calls they make on it.**

The actors of the server (job execution, the gRPC handlers, the watchdog, recovery at startup) work
on one job store and one priority queue. Each call on either is atomic: SQLite runs a call on its
one connection, the queue holds its lock.
-/

import Muli.Interaction.Concurrent
import Muli.Queue.PriorityQueue
import Muli.Store.Jobs

namespace Muli

open Interaction

/-- A length of time, in nanoseconds. -/
abbrev Duration := ℕ

/-- The calls of the server's actors on the store, the queue, the clock and the engine. -/
inductive ServerOp where
  | getJob (id : String)
  | updateState (id : String) (source target : JobState)
  | updateJob (job : Job)
  | listByState (state : JobState)
  | queuePop
  | queueRequeue (job : ScoredJob)
  /-- `Scheduler::enqueue`. -/
  | enqueue (id : String) (tier : PriorityTier) (tenantId : String)
  /-- `Scheduler::cancel`. -/
  | cancel (id : String)
  /-- A spawned task that calls `Scheduler::enqueue` after the delay. -/
  | enqueueAfter (delay : Duration) (id : String) (tier : PriorityTier) (tenantId : String)
  /-- `DockerExecutor::execute_job`. -/
  | execute (job : Job)
  | now

abbrev ServerOp.Answer : ServerOp → Type
  | getJob _ => Except MuliError (Option Job)
  | updateState .. => Except MuliError Unit
  | updateJob _ => Except MuliError Unit
  | listByState _ => Except MuliError (List Job)
  | queuePop => Option ScoredJob
  | queueRequeue _ => Unit
  | enqueue .. => Unit
  | cancel _ => Unit
  | enqueueAfter .. => Unit
  | execute _ => Except MuliError JobResult
  | now => Timestamp

abbrev Server : Interface := ⟨ServerOp, ServerOp.Answer⟩

structure DelayedEnqueue where
  delay : Duration
  id : String
  tier : PriorityTier
  tenantId : String

/-- The job store, the queue, and the enqueues that are still to come. -/
structure World (σ : Type) where
  store : σ
  queue : PriorityQueue
  delayed : List DelayedEnqueue

structure Moment where
  now : Timestamp
  storeFailure : Option String := none
  /-- How a container run ends. -/
  execution : Except MuliError JobResult := .error (.docker "")

def storeCall {σ α : Type} (moment : Moment) (world : World σ)
    (call : Except MuliError α × σ) : Except MuliError α × World σ :=
  match moment.storeFailure with
  | some reason => (.error (.storage reason), world)
  | none => (call.1, { world with store := call.2 })

/-- **What a call answers and how it changes the world.** -/
def handle {σ : Type} (store : JobStore σ) : Handler Server (World σ) Moment
  | moment, .getJob id, world =>
    storeCall moment world (.ok (store.getJob id world.store), world.store)
  | moment, .updateState id source target, world =>
    storeCall moment world (store.updateState moment.now id source target world.store)
  | moment, .updateJob job, world => storeCall moment world (store.updateJob job world.store)
  | moment, .listByState state, world =>
    storeCall moment world (.ok (store.listByState state world.store), world.store)
  | _, .queuePop, world => (world.queue.pop.1, { world with queue := world.queue.pop.2 })
  | _, .queueRequeue job, world => ((), { world with queue := world.queue.requeue job })
  | moment, .enqueue id tier tenantId, world =>
    ((), { world with
      queue := world.queue.push (ScoredJob.new moment.now id tier moment.now tenantId) tier })
  | _, .cancel id, world => ((), { world with queue := world.queue.remove id })
  | _, .enqueueAfter delay id tier tenantId, world =>
    ((), { world with delayed := world.delayed ++ [⟨delay, id, tier, tenantId⟩] })
  | moment, .execute _, world => (moment.execution, world)
  | moment, .now, world => (moment.now, world)

/-! ### The two backends -/

/-- The two job stores. -/
inductive Backend where
  | memory
  | sqlite

namespace Backend

abbrev State : Backend → Type
  | memory => MemoryJobStore
  | sqlite => SqliteJobStore

def jobStore : (backend : Backend) → JobStore backend.State
  | memory => memoryJobStore
  | sqlite => sqliteJobStore

def table : (backend : Backend) → backend.State → JobTable
  | memory => MemoryJobStore.jobs
  | sqlite => SqliteJobStore.toTable

theorem refines : (backend : Backend) → backend.jobStore.Refines backend.table
  | memory => memoryJobStore_refines
  | sqlite => sqliteJobStore_refines

end Backend

end Muli
