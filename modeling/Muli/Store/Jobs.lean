/-
**The job store: what it is for, and its two implementations.**

* `JobStore.Refines` — **each call does to the abstract table what `cas` and `overwrite` say and
  fails without touching it otherwise**; proved for both (`memoryJobStore_refines`,
  `sqliteJobStore_refines`).
-/

import Muli.Core.Job

namespace Muli

open List Table

/-! ### The abstract store -/

abbrev JobTable := Table Job.id

namespace JobTable

def stateOf (jobs : JobTable) (id : String) : Option JobState := (jobs.find id).map Job.state

/-- Move a job from `source` to `target` if it is stored in `source` and the edge is valid. -/
def cas (now : Timestamp) (id : String) (source target : JobState) (jobs : JobTable) :
    Option JobTable :=
  match jobs.find id with
  | some job =>
    if job.state = source ∧ source.canTransitionTo target then
      some (jobs.put { job with state := target, updatedAt := now })
    else none
  | none => none

/-- Replace the record of a stored job. -/
def overwrite (job : Job) (jobs : JobTable) : Option JobTable :=
  (jobs.find job.id).map fun _ => jobs.put job

variable {jobs jobs' : JobTable} {now : Timestamp} {id : String} {source target : JobState}

theorem cas_eq_some : jobs.cas now id source target = some jobs' ↔
    ∃ job, jobs.find id = some job ∧ job.state = source ∧ source.canTransitionTo target ∧
      jobs.put { job with state := target, updatedAt := now } = jobs' := by
  unfold cas
  split
  · next job found => simp [found, and_assoc]
  · next missing => simp [missing]

theorem cas_eq_none : jobs.cas now id source target = none ↔
    ∀ job, jobs.find id = some job → job.state = source → ¬ source.canTransitionTo target := by
  unfold cas
  split
  · next job found => simp [found]
  · next missing => simp [missing]

theorem stateOf_put (job : Job) (stored : jobs.stateOf job.id ≠ none) (id : String) :
    stateOf (jobs.put job) id = if id = job.id then some job.state else jobs.stateOf id :=
  map_find_put stored id

end JobTable

/-! ### The trait -/

/-- The calls of the `JobStore` trait that the server's actors make. -/
structure JobStore (σ : Type) where
  getJob : String → σ → Option Job
  updateState : Timestamp → String → JobState → JobState → σ → Except MuliError Unit × σ
  updateJob : Job → σ → Except MuliError Unit × σ
  listByState : JobState → σ → List Job

/-- A call that either makes the abstract change or fails and leaves the store alone. -/
def Performs {σ : Type} (abs : σ → JobTable) (s : σ) (change : Option JobTable)
    (outcome : Except MuliError Unit × σ) : Prop :=
  match change with
  | some jobs => outcome.1 = .ok () ∧ abs outcome.2 = jobs
  | none => (∃ error, outcome.1 = .error error) ∧ outcome.2 = s

/-- **The implementation refines the abstract table.** -/
structure JobStore.Refines {σ : Type} (store : JobStore σ) (abs : σ → JobTable) : Prop where
  getJob : ∀ id s, store.getJob id s = (abs s).find id
  updateState : ∀ now id source target s,
    Performs abs s ((abs s).cas now id source target) (store.updateState now id source target s)
  updateJob : ∀ job s, Performs abs s ((abs s).overwrite job) (store.updateJob job s)
  listByState : ∀ state s,
    store.listByState state s = (abs s).rows.filter fun job => job.state = state

/-! ### The in-memory implementation -/

/-- The map from ids to jobs, in the order it is iterated. -/
structure MemoryJobStore where
  jobs : JobTable

namespace MemoryJobStore

def getJob (id : String) (s : MemoryJobStore) : Option Job := s.jobs.find id

def updateState (now : Timestamp) (id : String) (source target : JobState) (s : MemoryJobStore) :
    Except MuliError Unit × MemoryJobStore :=
  match s.jobs.find id with
  | none => (.error (.jobNotFound id), s)
  | some job =>
    if job.state ≠ source then
      (.error (.invalidStateTransition job.state.toString target.toString), s)
    else match source.transitionTo target with
      | .error error => (.error error, s)
      | .ok _ => (.ok (), ⟨s.jobs.put { job with state := target, updatedAt := now }⟩)

def updateJob (job : Job) (s : MemoryJobStore) : Except MuliError Unit × MemoryJobStore :=
  match s.jobs.find job.id with
  | none => (.error (.jobNotFound job.id), s)
  | some _ => (.ok (), ⟨s.jobs.put job⟩)

def listByState (state : JobState) (s : MemoryJobStore) : List Job :=
  s.jobs.rows.filter fun job => job.state = state

end MemoryJobStore

open MemoryJobStore

def memoryJobStore : JobStore MemoryJobStore where
  getJob := MemoryJobStore.getJob
  updateState := updateState
  updateJob := updateJob
  listByState := listByState

theorem memoryJobStore_refines : memoryJobStore.Refines jobs where
  getJob _ _ := rfl
  updateState now id source target s := by
    simp only [memoryJobStore, updateState, JobTable.cas, JobState.transitionTo]
    cases found : s.jobs.find id with
    | none => exact ⟨⟨_, rfl⟩, rfl⟩
    | some job =>
      by_cases current : job.state = source <;> by_cases edge : source.canTransitionTo target <;>
        simp [current, edge, Performs]
  updateJob job s := by
    simp only [memoryJobStore, updateJob, JobTable.overwrite]
    cases found : s.jobs.find job.id with
    | none => exact ⟨⟨_, rfl⟩, rfl⟩
    | some old => exact ⟨rfl, rfl⟩
  listByState _ _ := rfl

/-! ### The SQLite implementation -/

/-- A time as it is stored in a column: whole milliseconds. -/
def dtToMs (time : Timestamp) : ℤ := time / 1000000

/-- A row of the `jobs` table: the columns the queries read, those the updates write, and the
serialised job. -/
structure JobRow where
  id : String
  tenantId : String
  name : String
  idempotencyKey : Option String
  state : JobState
  priorityScore : ℚ
  createdAt : ℤ
  updatedAt : ℤ
  fullJson : Job
  sameId : fullJson.id = id
  sameState : fullJson.state = state

namespace JobRow

/-- Two rows that `jobs_name` or `jobs_idempotency` keeps apart; the latter leaves out rows without
a key. -/
def Clashes (row other : JobRow) : Prop :=
  row.name = other.name ∨
    row.idempotencyKey ≠ none ∧ row.tenantId = other.tenantId ∧
      row.idempotencyKey = other.idempotencyKey
deriving Decidable

/-- The row that an `UPDATE` makes of `old`: the columns it does not set stay. -/
def inPlaceOf (new old : JobRow) : JobRow :=
  { new with
    tenantId := old.tenantId, name := old.name, idempotencyKey := old.idempotencyKey
    createdAt := old.createdAt }

end JobRow

open JobRow

/-- The `jobs` table with its primary key and its unique indexes. -/
structure SqliteJobStore where
  jobs : Table JobRow.id
  indexes : jobs.rows.Pairwise fun row other => ¬ row.Clashes other

namespace SqliteJobStore

/-- `UPDATE jobs SET state, priority_score, updated_at, full_json WHERE id = ?`. -/
def updateRow (s : SqliteJobStore) (new : JobRow) : SqliteJobStore where
  jobs :=
    { rows := s.jobs.rows.map fun old => if old.id = new.id then new.inPlaceOf old else old
      nodup := by
        have sameIds : (s.jobs.rows.map fun old => if old.id = new.id then new.inPlaceOf old
            else old).map JobRow.id = s.jobs.rows.map JobRow.id := by
          rw [map_map]
          refine map_congr_left fun old _ => ?_
          by_cases same : old.id = new.id <;> simp [same, inPlaceOf]
        exact sameIds ▸ s.jobs.nodup }
  indexes := by
    refine pairwise_map.mpr (s.indexes.imp fun {row other} apart => ?_)
    by_cases same : row.id = new.id <;> by_cases same' : other.id = new.id <;>
      simpa only [same, same', if_true, if_false, inPlaceOf, JobRow.Clashes] using apart

/-- `SELECT full_json FROM jobs WHERE id = ?1`. -/
def getJob (id : String) (s : SqliteJobStore) : Option Job := (s.jobs.find id).map JobRow.fullJson

/-- The row after `UPDATE jobs SET state, updated_at, full_json` with the job moved to `target`. -/
def movedRow (now : Timestamp) (target : JobState) (row : JobRow) : JobRow where
  id := row.id
  tenantId := row.tenantId
  name := row.name
  idempotencyKey := row.idempotencyKey
  state := target
  priorityScore := row.priorityScore
  createdAt := row.createdAt
  updatedAt := dtToMs now
  fullJson := { row.fullJson with state := target, updatedAt := now }
  sameId := row.sameId
  sameState := rfl

/-- Check the edge, then read the row `WHERE id = ?1 AND state = ?2` and write it back moved, in one
call on the connection. -/
def updateState (now : Timestamp) (id : String) (source target : JobState) (s : SqliteJobStore) :
    Except MuliError Unit × SqliteJobStore :=
  match source.transitionTo target with
  | .error error => (.error error, s)
  | .ok _ =>
    match s.jobs.rows.find? fun row => row.id = id ∧ row.state = source with
    | none => (.error (.invalidStateTransition source.toString target.toString), s)
    | some row => (.ok (), s.updateRow (movedRow now target row))

def rowOf (job : Job) : JobRow where
  id := job.id
  tenantId := job.spec.tenantId
  name := job.name
  idempotencyKey := job.spec.idempotencyKey
  state := job.state
  priorityScore := job.priorityScore
  createdAt := dtToMs job.createdAt
  updatedAt := dtToMs job.updatedAt
  fullJson := job
  sameId := rfl
  sameState := rfl

/-- `UPDATE jobs SET state, priority_score, updated_at, full_json WHERE id = ?5`: unguarded. -/
def updateJob (job : Job) (s : SqliteJobStore) : Except MuliError Unit × SqliteJobStore :=
  match s.jobs.find job.id with
  | none => (.error (.jobNotFound job.id), s)
  | some _ => (.ok (), s.updateRow (rowOf job))

/-- `SELECT full_json FROM jobs WHERE state = ?1`. -/
def listByState (state : JobState) (s : SqliteJobStore) : List Job :=
  (s.jobs.rows.filter fun row => row.state = state).map fullJson

def toTable (s : SqliteJobStore) : JobTable := s.jobs.map JobRow.fullJson JobRow.sameId

theorem find_toTable (s : SqliteJobStore) (id : String) :
    s.toTable.find id = (s.jobs.find id).map JobRow.fullJson := find_map ..

theorem toTable_updateRow (s : SqliteJobStore) (new : JobRow) :
    (s.updateRow new).toTable = s.toTable.put new.fullJson := by
  apply Table.ext
  simp only [toTable, updateRow, Table.map, Table.put, map_map]
  refine map_congr_left fun old _ => ?_
  by_cases same : old.id = new.id <;> simp [same, JobRow.inPlaceOf, old.sameId, new.sameId]

theorem find_guarded (s : SqliteJobStore) (id : String) (state : JobState) :
    (s.jobs.rows.find? fun row => row.id = id ∧ row.state = state) =
      (s.jobs.find id).bind fun row => if row.state = state then some row else none := by
  ext row
  simp only [Option.bind_eq_some_iff, find_eq_some, Option.ite_none_right_eq_some,
    Option.some.injEq]
  constructor
  · intro found
    have guard : row.id = id ∧ row.state = state := by simpa using find?_some found
    exact ⟨row, ⟨mem_of_find?_eq_some found, guard.1⟩, guard.2, rfl⟩
  · rintro ⟨row', ⟨mem, rfl⟩, rfl, rfl⟩
    cases found : s.jobs.rows.find? fun other => other.id = row'.id ∧ other.state = row'.state with
    | none => simpa using find?_eq_none.mp found row' mem
    | some other =>
      have guard : other.id = row'.id ∧ other.state = row'.state := by
        simpa using find?_some found
      rw [eq_of_mem (mem_of_find?_eq_some found) mem guard.1]

end SqliteJobStore

open SqliteJobStore

def sqliteJobStore : JobStore SqliteJobStore where
  getJob := SqliteJobStore.getJob
  updateState := updateState
  updateJob := updateJob
  listByState := listByState

theorem sqliteJobStore_refines : sqliteJobStore.Refines toTable where
  getJob id s := (s.find_toTable id).symm
  updateState now id source target s := by
    simp only [sqliteJobStore, SqliteJobStore.updateState, JobTable.cas, JobState.transitionTo,
      s.find_toTable, s.find_guarded]
    by_cases edge : source.canTransitionTo target
    · cases found : s.jobs.find id with
      | none => simp [edge, Performs]
      | some row =>
        by_cases current : row.state = source
        · have currentJson : row.fullJson.state = source := row.sameState.trans current
          simp [edge, current, currentJson, Performs, SqliteJobStore.toTable_updateRow,
            SqliteJobStore.movedRow]
        · have currentJson : row.fullJson.state ≠ source := row.sameState ▸ current
          simp [edge, current, currentJson, Performs]
    · cases found : s.jobs.find id <;> simp [edge, Performs]
  updateJob job s := by
    simp only [sqliteJobStore, SqliteJobStore.updateJob, JobTable.overwrite, s.find_toTable]
    cases found : s.jobs.find job.id with
    | none => exact ⟨⟨_, rfl⟩, rfl⟩
    | some old => exact ⟨rfl, s.toTable_updateRow (SqliteJobStore.rowOf job)⟩
  listByState state s := by
    simp only [sqliteJobStore, SqliteJobStore.listByState, SqliteJobStore.toTable, Table.map,
      filter_map, Function.comp_def, sameState]

end Muli
