/-
**The memory store against the SQLite store.**

* `jobStores_agree` — **a sequence of portable calls gets the same results from both stores, up to
  the error, and leaves the same jobs**, in whatever order either of them visits its rows.
-/

import Muli.Interaction.Simulation
import Muli.Store.JobQueries

namespace Muli

open Interaction SqliteJobStore List Table SqliteJobStore MemoryJobStore

/-- Both calls succeed with the same value, or both fail. -/
def SameResult {α : Type} : Except MuliError α → Except MuliError α → Prop
  | .ok value, .ok value' => value = value'
  | .error _, .error _ => True
  | _, _ => False

/-! ### Calls that the stores treat alike -/

/-- The columns that an `UPDATE` leaves as they are. -/
def SameColumns (old new : Job) : Prop :=
  old.spec.tenantId = new.spec.tenantId ∧ old.name = new.name ∧
    old.spec.idempotencyKey = new.spec.idempotencyKey ∧ dtToMs old.createdAt = dtToMs new.createdAt
deriving Decidable

/-- **The two stores cannot be told apart by this call.** -/
def Portable (s : MemoryJobStore) (moment : StoreMoment) : JobStoreCall → Prop
  | .createJob job =>
    s.jobs.find job.id ≠ none ∨ ∀ old ∈ s.jobs.rows, ¬ (rowOf old).Clashes (rowOf job)
  | .updateJob job => ∀ old ∈ s.jobs.rows, old.id = job.id → SameColumns old job
  | .listPending => ((s.listByState .pending).map Job.priorityScore).Nodup
  | .listByTenant tenantId => (s.listByTenant tenantId).length ≤ 1
  | .listByState state => (s.listByState state).length ≤ 1
  | .listJobs stateFilter tenantId limit offset =>
    ((s.filtered stateFilter tenantId).map fun job => dtToMs job.createdAt).Nodup ∧
      offset.toNat < 2 ^ 63 ∧
      (limit.toNat < 2 ^ 63 ∨ (s.filtered stateFilter tenantId).length ≤ limit.toNat)
  | .cleanupOld olderThan =>
    ∀ threshold ∈ cleanupThreshold moment.now olderThan, ∀ job ∈ s.jobs.rows,
      isOld threshold (rowOf job) = isOld threshold job
  | .getJob _ | .getJobByName _ | .updateState .. | .countJobs .. | .countActiveByTenant _
  | .deleteJob _ | .findByIdempotencyKey .. => True

instance (s : MemoryJobStore) (moment : StoreMoment) (call : JobStoreCall) :
    Decidable (Portable s moment call) := by
  cases call <;> unfold Portable <;> infer_instance

def MemoryJobStore.toRows (m : MemoryJobStore) : Table JobRow.id :=
  m.jobs.map rowOf fun job => show (rowOf job).id = job.id from rfl

theorem MemoryJobStore.rows_toRows (m : MemoryJobStore) :
    m.toRows.rows = m.jobs.rows.map rowOf := rfl

theorem fullJson_comp_rowOf : JobRow.fullJson ∘ rowOf = id := rfl

def Mirrors (m : MemoryJobStore) (s : SqliteJobStore) : Prop := s.jobs.rows.Perm m.toRows.rows

namespace Mirrors

variable {m : MemoryJobStore} {s : SqliteJobStore} (mirrors : Mirrors m s)
include mirrors

/-! ### Reading -/

theorem find (id : String) : s.jobs.find id = (m.jobs.find id).map rowOf :=
  (find_of_perm mirrors id).trans (find_map m.jobs id)

theorem scanned (memoryScan : Scan Job) (sqliteScan : Scan JobRow) :
    Mirrors (m.scanned memoryScan) (s.scanned sqliteScan) := by
  have table := sqliteScan.perm s.jobs.rows
  have map := memoryScan.perm m.jobs.rows
  exact (table.trans mirrors).trans (map.map rowOf).symm

variable {p : JobRow → Bool} {q : Job → Bool}

section

variable (same : ∀ job, p (rowOf job) = q job)
include same

theorem filter_perm :
    (s.jobs.rows.filter p).Perm ((m.jobs.rows.filter q).map rowOf) := by
  have rows := mirrors.filter p
  rwa [MemoryJobStore.rows_toRows, filter_map, Function.comp_def, funext same] at rows

theorem countP_eq : s.jobs.rows.countP p = m.jobs.rows.countP q := by
  rw [List.Perm.countP_eq p mirrors, rows_toRows, countP_map, Function.comp_def,
    funext same]

theorem find?_eq
    (clash : ∀ row other, p row → p other → row.Clashes other) :
    (s.jobs.rows.find? p).map JobRow.fullJson = m.jobs.rows.find? q := by
  have mem : ∀ job, job ∈ m.jobs.rows → rowOf job ∈ s.jobs.rows := fun job inMap =>
    mirrors.symm.subset (mem_map_of_mem inMap)
  cases inMap : m.jobs.rows.find? q with
  | none =>
    have nowhere : s.jobs.rows.find? p = none := by
      refine find?_eq_none.mpr fun row inTable => ?_
      obtain ⟨job, isJob, rfl⟩ := mem_map.mp (mirrors.subset inTable)
      rw [same]
      exact find?_eq_none.mp inMap job isJob
    rw [nowhere]
    rfl
  | some job =>
    have isJob := mem job (mem_of_find?_eq_some inMap)
    have selected : p (rowOf job) := (same job).trans (find?_some inMap)
    cases inTable : s.jobs.rows.find? p with
    | none => exact absurd selected (find?_eq_none.mp inTable _ isJob)
    | some row =>
      have isRow : row = rowOf job := by
        by_contra different
        exact s.indexes.forall (mem_of_find?_eq_some inTable) isJob different
          (clash row _ (find?_some inTable) selected)
      rw [isRow]
      rfl

end

theorem getJobByName (name : String) : s.getJobByName name = m.getJobByName name :=
  mirrors.find?_eq (fun _ => rfl) fun row other isRow isOther => by
    simp only [decide_eq_true_eq] at isRow isOther
    exact .inl (isRow.trans isOther.symm)

theorem findByIdempotencyKey (tenantId key : String) :
    s.findByIdempotencyKey tenantId key = m.findByIdempotencyKey tenantId key :=
  mirrors.find?_eq (fun _ => rfl) fun row other isRow isOther => by
    simp only [decide_eq_true_eq] at isRow isOther
    refine .inr ⟨?_, isRow.1.trans isOther.1.symm, isRow.2.trans isOther.2.symm⟩
    rw [isRow.2]
    exact Option.some_ne_none key

/-! ### Listings -/

theorem short_listing (same : ∀ job, p (rowOf job) = q job)
    (short : (m.jobs.rows.filter q).length ≤ 1) :
    (s.jobs.rows.filter p).map JobRow.fullJson = m.jobs.rows.filter q := by
  have perm := (mirrors.filter_perm same).map JobRow.fullJson
  obtain none | one := Nat.le_one_iff_eq_zero_or_eq_one.mp short
  · rw [length_eq_zero_iff.mp none] at perm ⊢
    exact perm_nil.mp perm
  · obtain ⟨job, only⟩ := length_eq_one_iff.mp one
    rw [only] at perm ⊢
    exact perm_singleton.mp perm

/-- **A sorted listing of jobs with different columns has one order.** The map sorts by `f`, the
table by the column `g` of it. -/
theorem sorted_listing {κ κ' : Type} [LinearOrder κ] [LinearOrder κ']
    (same : ∀ job, p (rowOf job) = q job) (f : Job → κ) (g : JobRow → κ')
    (coarser : ∀ job job', f job ≤ f job' → g (rowOf job) ≤ g (rowOf job'))
    (distinct : ((m.jobs.rows.filter q).map fun job => g (rowOf job)).Nodup) :
    sortDesc g (s.jobs.rows.filter p) = (sortDesc f (m.jobs.rows.filter q)).map rowOf := by
  have perm := mirrors.filter_perm same
  refine (eq_sortDesc (((sortDesc_perm f _).map rowOf).trans perm.symm) ?_ ?_).symm
  · grind [pairwise_sortDesc]
  · grind

theorem listPending (distinct : ((m.listByState .pending).map Job.priorityScore).Nodup) :
    s.listPending = m.listPending := by
  have sorted := mirrors.sorted_listing (p := fun row => row.state = .pending)
    (q := fun job => job.state = .pending) (fun _ => rfl) Job.priorityScore JobRow.priorityScore
    (fun _ _ => id) distinct
  unfold SqliteJobStore.listPending
  rw [sorted, map_map, fullJson_comp_rowOf, map_id]
  rfl

end Mirrors

variable {limit offset : UInt64}

theorem page_eq {α : Type} {rows : List α} (inRange : offset.toNat < 2 ^ 63)
    (enough : limit.toNat < 2 ^ 63 ∨ rows.length ≤ limit.toNat) :
    page (asI64 limit) (asI64 offset) rows = (rows.drop offset.toNat).take limit.toNat := by
  have skipped : (asI64 offset).toNat = offset.toNat := by
    unfold asI64
    rw [Int.bmod_eq_of_le (by omega) (by omega)]
    rfl
  unfold page
  rw [skipped]
  by_cases small : limit.toNat < 2 ^ 63
  · have signed : asI64 limit = limit.toNat := by
      exact Int.bmod_eq_of_le (by omega) (by omega)
    rw [signed, if_neg (by omega)]
    rfl
  · have negative : asI64 limit < 0 := by
      have bound := limit.toNat_lt
      unfold asI64
      rw [Int.bmod_def]
      omega
    have short : rows.length ≤ limit.toNat := enough.resolve_left small
    rw [if_pos negative, take_of_length_le]
    exact (length_drop ..).le.trans ((Nat.sub_le ..).trans short)

namespace Mirrors

variable {m : MemoryJobStore} {s : SqliteJobStore} (mirrors : Mirrors m s)
include mirrors

theorem listJobs {stateFilter : Option JobState} {tenantId : Option String}
    (distinct : ((m.filtered stateFilter tenantId).map fun job => dtToMs job.createdAt).Nodup)
    (inRange : offset.toNat < 2 ^ 63)
    (enough : limit.toNat < 2 ^ 63 ∨ (m.filtered stateFilter tenantId).length ≤ limit.toNat) :
    s.listJobs stateFilter tenantId limit offset = m.listJobs stateFilter tenantId limit
    offset := by
  have coarser : ∀ job job' : Job, job.createdAt ≤ job'.createdAt →
      (rowOf job).createdAt ≤ (rowOf job').createdAt := fun job job' le =>
    Int.ediv_le_ediv (by decide) le
  have sorted : sortDesc JobRow.createdAt (s.filtered stateFilter tenantId) =
      (sortDesc Job.createdAt (m.filtered stateFilter tenantId)).map rowOf :=
    mirrors.sorted_listing (fun _ => rfl) Job.createdAt JobRow.createdAt coarser distinct
  have length : (sortDesc Job.createdAt (m.filtered stateFilter tenantId)).length =
      (m.filtered stateFilter tenantId).length := (sortDesc_perm ..).length_eq
  unfold SqliteJobStore.listJobs MemoryJobStore.listJobs
  rw [sorted, page_eq inRange (by rwa [length_map, length]), ← map_drop, ← map_take,
    map_map, fullJson_comp_rowOf, map_id]

/-! ### Writing -/

theorem update (new : JobRow) (job : Job) (isId : new.id = job.id)
    (inPlace : ∀ old ∈ m.jobs.rows, old.id = job.id → new.inPlaceOf (rowOf old) = rowOf job) :
    Mirrors ⟨m.jobs.put job⟩ (s.updateRow new) := by
  have rows : (s.updateRow new).jobs.rows.Perm (m.toRows.rows.map fun old =>
      if old.id = new.id then new.inPlaceOf old else old) := mirrors.map _
  have same : (m.toRows.rows.map fun old => if old.id = new.id then new.inPlaceOf old else old) =
      (m.jobs.put job).rows.map rowOf := by
    rw [rows_toRows, put, map_map, map_map]
    refine map_congr_left fun old mem => ?_
    show (if old.id = new.id then new.inPlaceOf (rowOf old) else rowOf old) =
      rowOf (if old.id = job.id then job else old)
    rw [isId]
    by_cases hit : old.id = job.id
    · rw [if_pos hit, if_pos hit, inPlace old mem hit]
    · rw [if_neg hit, if_neg hit]
  rw [same] at rows
  exact rows

theorem updateState (now : Timestamp) (id : String) (source target : JobState) :
    SameResult (m.updateState now id source target).1 (s.updateState now id source target).1 ∧
      Mirrors (m.updateState now id source target).2 (s.updateState now id source target).2 := by
  unfold MemoryJobStore.updateState SqliteJobStore.updateState JobState.transitionTo
  rw [s.find_guarded, mirrors.find]
  cases found : m.jobs.find id with
  | none =>
    by_cases edge : source.canTransitionTo target <;> simpa [edge, SameResult] using mirrors
  | some job =>
    by_cases current : job.state = source
    · by_cases edge : source.canTransitionTo target
      · have moved := mirrors.update (movedRow now target (rowOf job))
          { job with state := target, updatedAt := now } rfl fun old mem isOld => by
            have same : old = job :=
              eq_of_mem mem (find_eq_some.mp found).1 isOld
            rw [same]
            rfl
        simpa [edge, current, SameResult, rowOf] using moved
      · simpa [edge, current, SameResult] using mirrors
    · by_cases edge : source.canTransitionTo target
      · simpa [edge, current, SameResult, rowOf] using mirrors
      · simpa [edge, current, SameResult] using mirrors

theorem updateJob {job : Job} (columns : ∀ old ∈ m.jobs.rows, old.id = job.id →
    SameColumns old job) :
    SameResult (m.updateJob job).1 (s.updateJob job).1 ∧
    Mirrors (m.updateJob job).2 (s.updateJob job).2 := by
  unfold MemoryJobStore.updateJob SqliteJobStore.updateJob
  rw [mirrors.find]
  cases found : m.jobs.find job.id with
  | none => exact ⟨trivial, mirrors⟩
  | some stored =>
    refine ⟨rfl, mirrors.update _ job rfl fun old mem isOld => ?_⟩
    obtain ⟨tenant, name, key, created⟩ := columns old mem isOld
    simp only [JobRow.inPlaceOf, rowOf, tenant, name, key, created]

theorem createJob {job : Job}
    (own : m.jobs.find job.id ≠ none ∨ ∀ old ∈ m.jobs.rows, ¬ (rowOf old).Clashes (rowOf job)) :
    SameResult (m.createJob job).1 (s.createJob job).1 ∧
    Mirrors (m.createJob job).2 (s.createJob job).2 := by
  unfold MemoryJobStore.createJob SqliteJobStore.createJob
  cases found : m.jobs.find job.id with
  | some stored =>
    obtain ⟨mem, isId⟩ := find_eq_some.mp found
    have taken : ¬ s.Fits (rowOf job) := fun fits =>
      (fits (rowOf stored) (mirrors.symm.subset (mem_map_of_mem mem))).1 isId
    rw [dif_neg taken]
    exact ⟨trivial, mirrors⟩
  | none =>
    have fits : s.Fits (rowOf job) := by
      intro row inTable
      obtain ⟨old, mem, rfl⟩ := mem_map.mp (mirrors.subset inTable)
      refine ⟨?_, own.resolve_left (fun stored => stored found) old mem⟩
      have otherId := find?_eq_none.mp found old mem
      rwa [decide_eq_true_eq] at otherId
    rw [dif_pos fits]
    refine ⟨rfl, ?_⟩
    show (s.jobs.rows ++ [rowOf job]).Perm ((m.jobs.upsert job).rows.map rowOf)
    rw [rows_upsert_of_find_none found, map_append]
    exact mirrors.append_right _

theorem retain {keep : JobRow → Bool} (keep' : Job → Bool) {rest : MemoryJobStore}
    (isRest : rest.jobs.rows = m.jobs.rows.filter keep')
    (same : ∀ job ∈ m.jobs.rows, keep (rowOf job) = keep' job) : Mirrors rest (s.retain keep) := by
  have rows := mirrors.filter keep
  have selected : m.jobs.rows.filter (keep ∘ rowOf) = rest.jobs.rows :=
    (filter_congr same).trans isRest.symm
  rw [MemoryJobStore.rows_toRows, filter_map, selected] at rows
  exact rows

theorem cleanupOld {now : Timestamp} {olderThan : ℕ}
    (sameAge : ∀ threshold ∈ cleanupThreshold now olderThan, ∀ job ∈ m.jobs.rows,
      isOld threshold (rowOf job) = isOld threshold job) :
    SameResult (m.cleanupOld now olderThan).1 (s.cleanupOld now olderThan).1 ∧
      Mirrors (m.cleanupOld now olderThan).2 (s.cleanupOld now olderThan).2 := by
  unfold MemoryJobStore.cleanupOld SqliteJobStore.cleanupOld
  cases isThreshold : cleanupThreshold now olderThan with
  | none => exact ⟨trivial, mirrors⟩
  | some threshold =>
    have same := sameAge threshold isThreshold
    constructor
    · show ((m.jobs.rows.filter _).map Job.id).length = s.jobs.rows.countP _
      rw [length_map, ← countP_eq_length_filter, List.Perm.countP_eq _ mirrors,
        rows_toRows, countP_map]
      exact countP_congr fun job mem => by rw [Function.comp_apply, same job mem]
    · refine mirrors.retain (fun job => !MemoryJobStore.isOld threshold job) ?_
        fun job mem => by rw [same job mem]
      rw [rows_foldl_erase]
      refine filter_congr fun job mem => ?_
      -- an id is removed exactly when the one job that has it is old
      have removed : job.id ∈ (m.jobs.rows.filter (MemoryJobStore.isOld threshold)).map Job.id ↔
          isOld threshold job := by
        constructor
        · grind [eq_of_mem]
        · exact fun old => mem_map_of_mem (mem_filter.mpr ⟨mem, old⟩)
      by_cases old : MemoryJobStore.isOld threshold job <;> simp [removed, old]

end Mirrors

/-! ### Whole sequences -/

theorem Mirrors.step {m : MemoryJobStore} {s : SqliteJobStore} (mirrors : Mirrors m s)
    {moment : StoreMoment} {call : JobStoreCall} (portable : Portable m moment call) :
    SameResult (memoryHandle moment call m).1 (sqliteHandle moment call s).1 ∧
      Mirrors (memoryHandle moment call m).2 (sqliteHandle moment call s).2 := by
  have visited := mirrors.scanned moment.memoryScan moment.sqliteScan
  have scan := moment.memoryScan.perm m.jobs.rows
  cases call with
  | createJob job => exact mirrors.createJob portable
  | updateState id source target => exact mirrors.updateState moment.now id source target
  | updateJob job => exact mirrors.updateJob portable
  | cleanupOld olderThan => exact mirrors.cleanupOld portable
  | deleteJob id =>
    exact ⟨rfl, mirrors.retain (fun job => job.id ≠ id) rfl fun _ _ => rfl⟩
  | getJob id =>
    refine ⟨?_, mirrors⟩
    show m.jobs.find id = (s.jobs.find id).map JobRow.fullJson
    rw [mirrors.find, Option.map_map, fullJson_comp_rowOf, Option.map_id]
    rfl
  | getJobByName name => exact ⟨(visited.getJobByName name).symm, mirrors⟩
  | findByIdempotencyKey tenantId key =>
    exact ⟨(visited.findByIdempotencyKey tenantId key).symm, mirrors⟩
  | listPending =>
    refine ⟨(visited.listPending ?_).symm, mirrors⟩
    exact ((scan.filter _).map _).nodup_iff.mpr portable
  | listByTenant tenantId =>
    refine ⟨(visited.short_listing (p := fun row => row.tenantId = tenantId)
      (fun _ => rfl) ?_).symm, mirrors⟩
    exact (scan.filter _).length_eq.trans_le portable
  | listByState state =>
    refine ⟨(visited.short_listing (p := fun row => row.state = state) (fun _ => rfl) ?_).symm,
      mirrors⟩
    exact (scan.filter _).length_eq.trans_le portable
  | listJobs stateFilter tenantId limit offset =>
    obtain ⟨distinct, inRange, enough⟩ := portable
    have selected := scan.filter (matchesFilter stateFilter tenantId)
    refine ⟨(visited.listJobs ((selected.map _).nodup_iff.mpr distinct) inRange ?_).symm, mirrors⟩
    exact enough.imp_right selected.length_eq.trans_le
  | countJobs stateFilter tenantId =>
    have selected : (s.filtered stateFilter tenantId).Perm
        ((m.filtered stateFilter tenantId).map rowOf) := mirrors.filter_perm fun _ => rfl
    exact ⟨((length_map _).symm.trans selected.length_eq.symm), mirrors⟩
  | countActiveByTenant tenantId =>
    have counted : s.countActiveByTenant tenantId = m.countActiveByTenant tenantId :=
      mirrors.countP_eq fun _ => rfl
    exact ⟨counted.symm, mirrors⟩

/-- The same results, up to the error, and the same jobs in the end. -/
def StoresAgree (history : List (StoreMoment × JobStoreCall)) : Prop :=
  List.Forall₂ (Alike (I := JobStoreCalls) fun _ => SameResult)
      (memoryHandle.replay history .new).1 (sqliteHandle.replay history .new).1 ∧
    (memoryHandle.replay history .new).2.jobs.rows.Perm
      (sqliteHandle.replay history .new).2.toTable.rows

/-- **A sequence of portable calls gets the same results from both stores and leaves the same
jobs.** -/
theorem jobStores_agree (history : List (StoreMoment × JobStoreCall))
    (portable : memoryHandle.Along Portable history .new) : StoresAgree history := by
  obtain ⟨answers, mirrors⟩ := replay_forall₂ Mirrors (fun _ => SameResult)
    (fun _ _ _ _ mirrors portable => mirrors.step portable)
    (show Mirrors .new .new from List.Perm.refl _) portable
  refine ⟨answers, ?_⟩
  have jobs := (List.Perm.map JobRow.fullJson mirrors).symm
  rwa [MemoryJobStore.rows_toRows, map_map, fullJson_comp_rowOf, map_id] at jobs

def keyedJob (id : String) (now : Timestamp) (tier : PriorityTier) (key : String) : Job :=
  Job.new id now { tenantId := "tenant", priorityTier := tier, idempotencyKey := some key }

def twoKeys : List (StoreMoment × JobStoreCall) :=
  [({}, .createJob (keyedJob "first" 0 .standard "build")),
    ({}, .createJob (keyedJob "second" 5000000 .premium "deploy")),
    ({}, .createJob (keyedJob "first" 0 .standard "build")),
    ({ sqliteScan := .backward }, .listPending),
    ({ now := 10000000 }, .updateState "first" .pending .cancelled),
    ({ now := 11000000 }, .updateState "first" .pending .scheduled),
    ({ memoryScan := .backward }, .listJobs none (some "tenant") 1 1),
    ({}, .findByIdempotencyKey "tenant" "deploy"),
    ({ now := 20000000 }, .cleanupOld 1000000)]

theorem jobStores_agree_twoKeys : memoryHandle.Along Portable twoKeys .new ∧ StoresAgree twoKeys :=
  have portable : memoryHandle.Along Portable twoKeys .new := by decide +kernel
  ⟨portable, jobStores_agree twoKeys portable⟩

/-- **Two jobs of one tenant under one key:** the map takes both of them, SQLite only the first. -/
theorem not_storesAgree_oneKey :
      ¬ StoresAgree [({}, .createJob (keyedJob "first" 0 .standard "deploy")),
      ({}, .createJob (keyedJob "second" 0 .standard "deploy"))] := by
  intro agree
  have lengths := agree.2.length_eq
  revert lengths
  decide +kernel

end Muli
