/-
**The whole `JobStore` trait, in both implementations.**

Nothing fixes the order in which the map of the memory store is iterated, or in which SQLite visits
the rows of a query without `ORDER BY`; both are decided at each call (`StoreMoment`).
-/

import Muli.Data.Listing
import Muli.Interaction.Program
import Muli.Store.JobKeys

namespace Muli

open Interaction

/-! ### The calls -/

/-- The calls of the trait. -/
inductive JobStoreCall where
  | createJob (job : Job)
  | getJob (id : String)
  | getJobByName (name : String)
  | updateState (id : String) (source target : JobState)
  | updateJob (job : Job)
  | listPending
  | listByTenant (tenantId : String)
  | listByState (state : JobState)
  | listJobs (stateFilter : Option JobState) (tenantId : Option String) (limit offset : UInt64)
  | countJobs (stateFilter : Option JobState) (tenantId : Option String)
  | countActiveByTenant (tenantId : String)
  | cleanupOld (olderThan : ℕ)
  | deleteJob (id : String)
  | findByIdempotencyKey (tenantId key : String)

abbrev JobStoreCall.Value : JobStoreCall → Type
  | createJob _ => String
  | getJob _ | getJobByName _ | findByIdempotencyKey .. => Option Job
  | updateState .. | updateJob _ | deleteJob _ => Unit
  | listPending | listByTenant _ | listByState _ | listJobs .. => List Job
  | countJobs .. | countActiveByTenant _ | cleanupOld _ => ℕ

abbrev JobStoreCalls : Interface := ⟨JobStoreCall, fun call => Except MuliError call.Value⟩

/-- What is decided at a call: the time, and the order in which rows come out. -/
structure StoreMoment where
  now : Timestamp := 0
  memoryScan : Scan Job := .forward
  sqliteScan : Scan JobRow := .forward

/-- The filter of `list_jobs` and `count_jobs`. -/
def matchesFilter (stateFilter : Option JobState) (tenantId : Option String) (job : Job) : Bool :=
  stateFilter.all (job.state = ·) && tenantId.all (job.spec.tenantId = ·)

/-- `Utc::now() - chrono::Duration::from_std(older_than)`: a duration of more milliseconds than 63
bits hold is refused. -/
def cleanupThreshold (now : Timestamp) (olderThan : ℕ) : Option Timestamp :=
  if olderThan ≤ (2 ^ 63 - 1) * 1000000 then some (now - olderThan) else none

/-! ### The memory store -/

namespace MemoryJobStore

def new : MemoryJobStore := ⟨∅⟩

/-- The same jobs, in the order of a scan. -/
def scanned (scan : Scan Job) (s : MemoryJobStore) : MemoryJobStore := ⟨s.jobs.scanned scan⟩

def createJob (job : Job) (s : MemoryJobStore) : Except MuliError String × MemoryJobStore :=
  match s.jobs.find job.id with
  | some _ => (.error (.storage ("Job with id " ++ job.id ++ " already exists")), s)
  | none => (.ok job.id, ⟨s.jobs.upsert job⟩)

def getJobByName (name : String) (s : MemoryJobStore) : Option Job :=
  s.jobs.rows.find? fun job => job.name = name

/-- The highest score first. -/
def listPending (s : MemoryJobStore) : List Job :=
  sortDesc Job.priorityScore (s.jobs.rows.filter fun job => job.state = .pending)

def listByTenant (tenantId : String) (s : MemoryJobStore) : List Job :=
  s.jobs.rows.filter fun job => job.spec.tenantId = tenantId

/-- The jobs that match both filters. -/
def filtered (stateFilter : Option JobState) (tenantId : Option String) (s : MemoryJobStore) :
    List Job := s.jobs.rows.filter (matchesFilter stateFilter tenantId)

/-- A page of the jobs, the latest first. -/
def listJobs (stateFilter : Option JobState) (tenantId : Option String) (limit offset : UInt64)
    (s : MemoryJobStore) : List Job :=
  ((sortDesc Job.createdAt (s.filtered stateFilter tenantId)).drop offset.toNat).take limit.toNat

def countJobs (stateFilter : Option JobState) (tenantId : Option String) (s : MemoryJobStore) : ℕ :=
  (s.filtered stateFilter tenantId).length

/-- The jobs of a tenant that have not ended. -/
def countActiveByTenant (tenantId : String) (s : MemoryJobStore) : ℕ :=
  s.jobs.rows.countP fun job => job.spec.tenantId = tenantId ∧ !job.state.isTerminal

/-- The finished jobs that have not been updated since. -/
def isOld (threshold : Timestamp) (job : Job) : Bool :=
  job.state.isTerminal && decide (job.updatedAt < threshold)

/-- Delete the jobs that ended before the threshold. -/
def cleanupOld (now : Timestamp) (olderThan : ℕ) (s : MemoryJobStore) :
    Except MuliError ℕ × MemoryJobStore :=
  match cleanupThreshold now olderThan with
  | none => (.error (.internal "Invalid duration for cleanup"), s)
  | some threshold =>
    let toRemove := (s.jobs.rows.filter (isOld threshold)).map Job.id
    (.ok toRemove.length, ⟨toRemove.foldl Table.erase s.jobs⟩)

def deleteJob (id : String) (s : MemoryJobStore) : MemoryJobStore := ⟨s.jobs.erase id⟩

def findByIdempotencyKey (tenantId key : String) (s : MemoryJobStore) : Option Job :=
  s.jobs.rows.find? fun job => job.spec.tenantId = tenantId ∧ job.spec.idempotencyKey = some key

end MemoryJobStore

/-- **The trait on the memory store.** -/
def memoryHandle : Handler JobStoreCalls MemoryJobStore StoreMoment
  | _, .createJob job, s => s.createJob job
  | _, .getJob id, s => (.ok (s.getJob id), s)
  | m, .getJobByName name, s => (.ok ((s.scanned m.memoryScan).getJobByName name), s)
  | m, .updateState id source target, s => s.updateState m.now id source target
  | _, .updateJob job, s => s.updateJob job
  | m, .listPending, s => (.ok (s.scanned m.memoryScan).listPending, s)
  | m, .listByTenant tenantId, s => (.ok ((s.scanned m.memoryScan).listByTenant tenantId), s)
  | m, .listByState state, s => (.ok ((s.scanned m.memoryScan).listByState state), s)
  | m, .listJobs stateFilter tenantId limit offset, s =>
    (.ok ((s.scanned m.memoryScan).listJobs stateFilter tenantId limit offset), s)
  | _, .countJobs stateFilter tenantId, s => (.ok (s.countJobs stateFilter tenantId), s)
  | _, .countActiveByTenant tenantId, s => (.ok (s.countActiveByTenant tenantId), s)
  | m, .cleanupOld olderThan, s => s.cleanupOld m.now olderThan
  | _, .deleteJob id, s => (.ok (), s.deleteJob id)
  | m, .findByIdempotencyKey tenantId key, s =>
    (.ok ((s.scanned m.memoryScan).findByIdempotencyKey tenantId key), s)

/-! ### The SQLite store -/

namespace SqliteJobStore

theorem indexes_nil : (∅ : Table JobRow.id).rows.Pairwise fun row other => ¬ row.Clashes other :=
  List.Pairwise.nil

def new : SqliteJobStore := ⟨∅, indexes_nil⟩

def scanned (scan : Scan JobRow) (s : SqliteJobStore) : SqliteJobStore where
  jobs := s.jobs.scanned scan
  indexes := s.indexes.perm (scan.perm s.jobs.rows).symm fun apart clash => apart clash.symm

/-- `DELETE FROM jobs`, where `keep` does not hold. -/
def retain (keep : JobRow → Bool) (s : SqliteJobStore) : SqliteJobStore where
  jobs := ⟨s.jobs.rows.filter keep, s.jobs.nodup.sublist (List.filter_sublist.map JobRow.id)⟩
  indexes := s.indexes.filter keep

/-- `SELECT full_json FROM jobs WHERE name = ?1`, the first row. -/
def getJobByName (name : String) (s : SqliteJobStore) : Option Job :=
  (s.jobs.rows.find? fun row => row.name = name).map JobRow.fullJson

/-- `SELECT full_json FROM jobs WHERE state = 'Pending' ORDER BY priority_score DESC`. -/
def listPending (s : SqliteJobStore) : List Job :=
  (sortDesc JobRow.priorityScore (s.jobs.rows.filter fun row => row.state = .pending)).map
    JobRow.fullJson

/-- `SELECT full_json FROM jobs WHERE tenant_id = ?1`. -/
def listByTenant (tenantId : String) (s : SqliteJobStore) : List Job :=
  (s.jobs.rows.filter fun row => row.tenantId = tenantId).map JobRow.fullJson

/-- The rows that the `WHERE` clauses of `list_jobs` and `count_jobs` select. -/
def filtered (stateFilter : Option JobState) (tenantId : Option String) (s : SqliteJobStore) :
    List JobRow :=
  s.jobs.rows.filter fun row =>
    stateFilter.all (row.state = ·) && tenantId.all (row.tenantId = ·)

/-- A 64-bit number read as a signed one. -/
def asI64 (n : UInt64) : ℤ := (n.toNat : ℤ).bmod (2 ^ 64)

/-- `LIMIT … OFFSET …`: a negative limit is none, a negative offset is 0. -/
def page {α : Type} (limit offset : ℤ) (rows : List α) : List α :=
  let rest := rows.drop offset.toNat
  if limit < 0 then rest else rest.take limit.toNat

/-- `SELECT full_json FROM jobs WHERE … ORDER BY created_at DESC LIMIT ?3 OFFSET ?4`. -/
def listJobs (stateFilter : Option JobState) (tenantId : Option String) (limit offset : UInt64)
    (s : SqliteJobStore) : List Job :=
  (page (asI64 limit) (asI64 offset)
    (sortDesc JobRow.createdAt (s.filtered stateFilter tenantId))).map JobRow.fullJson

/-- `SELECT COUNT(*) FROM jobs WHERE …`. -/
def countJobs (stateFilter : Option JobState) (tenantId : Option String) (s : SqliteJobStore) : ℕ :=
  (s.filtered stateFilter tenantId).length

/-- `state IN ('Succeeded','Failed','Cancelled','TimedOut') AND updated_at < ?1`. -/
def isOld (threshold : Timestamp) (row : JobRow) : Bool :=
  row.state.isTerminal && decide (row.updatedAt < dtToMs threshold)

/-- `DELETE FROM jobs WHERE …`, the number of rows that went. -/
def cleanupOld (now : Timestamp) (olderThan : ℕ) (s : SqliteJobStore) :
    Except MuliError ℕ × SqliteJobStore :=
  match cleanupThreshold now olderThan with
  | none => (.error (.internal "Invalid duration"), s)
  | some threshold =>
    (.ok (s.jobs.rows.countP (isOld threshold)), s.retain fun row => !isOld threshold row)

/-- `DELETE FROM jobs WHERE id = ?1`. -/
def deleteJob (id : String) (s : SqliteJobStore) : SqliteJobStore := s.retain fun row => row.id ≠ id

end SqliteJobStore

/-- **The trait on the SQLite store.** -/
def sqliteHandle : Handler JobStoreCalls SqliteJobStore StoreMoment
  | _, .createJob job, s => s.createJob job
  | _, .getJob id, s => (.ok (s.getJob id), s)
  | m, .getJobByName name, s => (.ok ((s.scanned m.sqliteScan).getJobByName name), s)
  | m, .updateState id source target, s => s.updateState m.now id source target
  | _, .updateJob job, s => s.updateJob job
  | m, .listPending, s => (.ok (s.scanned m.sqliteScan).listPending, s)
  | m, .listByTenant tenantId, s => (.ok ((s.scanned m.sqliteScan).listByTenant tenantId), s)
  | m, .listByState state, s => (.ok ((s.scanned m.sqliteScan).listByState state), s)
  | m, .listJobs stateFilter tenantId limit offset, s =>
    (.ok ((s.scanned m.sqliteScan).listJobs stateFilter tenantId limit offset), s)
  | _, .countJobs stateFilter tenantId, s => (.ok (s.countJobs stateFilter tenantId), s)
  | _, .countActiveByTenant tenantId, s => (.ok (s.countActiveByTenant tenantId), s)
  | m, .cleanupOld olderThan, s => s.cleanupOld m.now olderThan
  | _, .deleteJob id, s => (.ok (), s.deleteJob id)
  | m, .findByIdempotencyKey tenantId key, s =>
    (.ok ((s.scanned m.sqliteScan).findByIdempotencyKey tenantId key), s)

end Muli
