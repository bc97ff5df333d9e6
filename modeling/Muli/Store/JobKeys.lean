/-
**New jobs, their idempotency keys and the count of active jobs.**

* `HasKey` — a job is stored under a tenant's idempotency key. **It is the one that is found
  (`HasKey.find`), no other is stored under that key (`HasKey.not_fits`), and every call keeps it
  there.**
-/

import Mathlib.Data.List.Pairwise
import Muli.Store.Jobs

namespace Muli

open List

theorem JobRow.Clashes.symm {other : JobRow} (clash : row.Clashes other) : other.Clashes row := by
  rcases clash with name | ⟨hasKey, tenant, sameKey⟩
  · exact .inl name.symm
  · exact .inr ⟨sameKey ▸ hasKey, tenant.symm, sameKey.symm⟩

instance : Std.Symm fun row other : JobRow => ¬ row.Clashes other where
  symm _ _ apart clash := apart clash.symm

namespace SqliteJobStore

/-! ### The calls -/

/-- A new row breaks neither the primary key nor an index. -/
def Fits (s : SqliteJobStore) (row : JobRow) : Prop :=
  ∀ old ∈ s.jobs.rows, old.id ≠ row.id ∧ ¬ old.Clashes row
deriving Decidable

def insertRow (s : SqliteJobStore) (row : JobRow) (fits : s.Fits row) : SqliteJobStore where
  jobs := s.jobs.insert row fun old member => (fits old member).1
  indexes := by
    refine pairwise_append.mpr ⟨s.indexes, pairwise_singleton .., fun old member new isNew => ?_⟩
    obtain rfl := mem_singleton.mp isNew
    exact (fits old member).2

def createJob (job : Job) (s : SqliteJobStore) : Except MuliError String × SqliteJobStore :=
  if fits : s.Fits (rowOf job) then (.ok job.id, s.insertRow (rowOf job) fits)
  else (.error (.storage "UNIQUE constraint failed"), s)

/-- `SELECT full_json FROM jobs WHERE tenant_id = ?1 AND idempotency_key = ?2 LIMIT 1`. -/
def findByIdempotencyKey (tenantId key : String) (s : SqliteJobStore) : Option Job :=
  (s.jobs.rows.find? fun row => row.tenantId = tenantId ∧ row.idempotencyKey = some key).map
    JobRow.fullJson

/-- `SELECT COUNT(*) FROM jobs WHERE tenant_id = ?1 AND state NOT IN (…)`. -/
def countActiveByTenant (tenantId : String) (s : SqliteJobStore) : ℕ :=
  s.jobs.rows.countP fun row => row.tenantId = tenantId ∧ !row.state.isTerminal

/-! ### Jobs with a key -/

/-- The job `id` is stored under the tenant's key. -/
def HasKey (s : SqliteJobStore) (tenantId key id : String) : Prop :=
  ∃ row ∈ s.jobs.rows, row.tenantId = tenantId ∧ row.idempotencyKey = some key ∧ row.id = id

variable {s : SqliteJobStore} {tenantId key id : String} {job : Job}

theorem hasKey_of_find (found : s.findByIdempotencyKey tenantId key = some job) :
    s.HasKey tenantId key job.id := by
  obtain ⟨row, isRow, rfl⟩ := Option.map_eq_some_iff.mp found
  have matched : row.tenantId = tenantId ∧ row.idempotencyKey = some key := by
    simpa using find?_some isRow
  exact ⟨row, mem_of_find?_eq_some isRow, matched.1, matched.2, row.sameId.symm⟩

theorem hasKey_insertRow (fits : s.Fits (rowOf job))
    (sameTenant : job.spec.tenantId = tenantId) (sameKey : job.spec.idempotencyKey = some key) :
    (s.insertRow (rowOf job) fits).HasKey tenantId key job.id :=
  ⟨rowOf job, mem_append_right _ (mem_singleton_self _), sameTenant, sameKey, rfl⟩

namespace HasKey

variable (stored : s.HasKey tenantId key id)
include stored

/-- **No other job is stored under the key.** -/
theorem not_fits (sameTenant : job.spec.tenantId = tenantId)
    (sameKey : job.spec.idempotencyKey = some key) : ¬ s.Fits (rowOf job) := by
  obtain ⟨row, mem, isTenant, isKey, -⟩ := stored
  intro fits
  refine (fits row mem).2 (.inr ⟨?_, isTenant.trans sameTenant.symm, isKey.trans sameKey.symm⟩)
  rw [isKey]
  exact Option.some_ne_none key

/-- **The job under the key is the one that is found.** -/
theorem find : ∃ job, s.findByIdempotencyKey tenantId key = some job ∧ job.id = id := by
  obtain ⟨row, mem, isTenant, isKey, rfl⟩ := stored
  cases isFound : s.jobs.rows.find? fun row => row.tenantId = tenantId ∧
    row.idempotencyKey = some key with
  | none => simpa [isTenant, isKey] using find?_eq_none.mp isFound row mem
  | some other =>
    have matched : other.tenantId = tenantId ∧ other.idempotencyKey = some key := by
      simpa using find?_some isFound
    have clash : other.Clashes row := by
      refine .inr ⟨?_, matched.1.trans isTenant.symm, matched.2.trans isKey.symm⟩
      rw [matched.2]
      exact Option.some_ne_none key
    -- two rows under one key would break the index
    have same : other = row := by
      by_contra different
      exact s.indexes.forall (mem_of_find?_eq_some isFound) mem different clash
    refine ⟨other.fullJson, congrArg (Option.map _) isFound, ?_⟩
    rw [other.sameId, same]

theorem updateRow (new : JobRow) : (s.updateRow new).HasKey tenantId key id := by
  obtain ⟨row, mem, isTenant, isKey, isId⟩ := stored
  refine ⟨_, mem_map_of_mem mem, ?_⟩
  split_ifs with same
  · exact ⟨isTenant, isKey, same.symm.trans isId⟩
  · exact ⟨isTenant, isKey, isId⟩

theorem updateState (now : Timestamp) (id' : String) (source target : JobState) :
    (s.updateState now id' source target).2.HasKey tenantId key id := by
  unfold SqliteJobStore.updateState
  split
  · exact stored
  · split
    exacts [stored, stored.updateRow _]

theorem updateJob (job : Job) : (s.updateJob job).2.HasKey tenantId key id := by
  unfold SqliteJobStore.updateJob
  split
  exacts [stored, stored.updateRow _]

theorem createJob (job : Job) : (s.createJob job).2.HasKey tenantId key id := by
  unfold SqliteJobStore.createJob
  split_ifs
  · obtain ⟨row, mem, isRow⟩ := stored
    exact ⟨row, mem_append_left _ mem, isRow⟩
  · exact stored

end HasKey

/-! ### Active jobs -/

theorem countActiveByTenant_insertRow (tenantId : String) (row : JobRow) (fits : s.Fits row) :
    countActiveByTenant tenantId (s.insertRow row fits) ≤ countActiveByTenant tenantId s + 1 := by
  show (s.jobs.rows ++ [row]).countP _ ≤ _
  rw [countP_append]
  exact Nat.add_le_add_left countP_le_length _

end SqliteJobStore

end Muli
