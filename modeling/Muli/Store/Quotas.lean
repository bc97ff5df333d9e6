/-
**The quota stores: the map in memory against the SQLite table.**

The map keeps unsigned 64-bit numbers and saturates; SQLite keeps signed ones, casts every argument,
and computes in double precision what does not fit.

* `quotaStores_agree` — **a sequence of calls in range gets the same answers from both stores and
  leaves the same quotas**; no reservation lowers the usage, and none is granted beyond a limit.
-/

import Muli.Data.SqlNumber
import Muli.Interaction.Simulation
import Muli.Registry.Quota

namespace Muli

open Interaction Table Except UInt64 SqlNumber Int64 Nat TenantQuota

/-- The calls of the trait, with its machine integers. -/
inductive QuotaStoreCall where
  | getQuota (tenantId : String)
  | setQuota (tenantId : String) (maxStorageBytes : UInt64)
  | updateUsage (tenantId : String) (currentUsageBytes : UInt64)
  | adjustUsage (tenantId : String) (delta : Int64)
  | tryReserve (tenantId : String) (additionalBytes : UInt64)
deriving DecidableEq

abbrev QuotaStoreCall.Answer : QuotaStoreCall → Type
  | getQuota _ => Except MuliError (Option TenantQuota)
  | setQuota .. | updateUsage .. | adjustUsage .. => Except MuliError Unit
  | tryReserve .. => Except MuliError Bool

abbrev QuotaStoreCalls : Interface := ⟨QuotaStoreCall, QuotaStoreCall.Answer⟩

/-! ### Numbers without bounds -/

namespace QuotaTable

def setQuota (quotas : QuotaTable) (tenantId : String) (maxStorageBytes : ℕ) : QuotaTable :=
  quotas.insertOrUpdate ⟨tenantId, maxStorageBytes, 0⟩ fun quota =>
    { quota with maxStorageBytes := maxStorageBytes }

def updateUsage (quotas : QuotaTable) (tenantId : String) (currentUsageBytes : ℕ) : QuotaTable :=
  quotas.insertOrUpdate ⟨tenantId, 0, currentUsageBytes⟩ fun quota =>
    { quota with currentUsageBytes := currentUsageBytes }

end QuotaTable

open QuotaTable

/-- The calls on numbers without bounds. -/
def quotaTableHandle : Handler QuotaStoreCalls QuotaTable Unit
  | _, .getQuota tenantId, quotas => (.ok (quotas.find tenantId), quotas)
  | _, .setQuota tenantId bytes, quotas => (.ok (), quotas.setQuota tenantId bytes.toNat)
  | _, .updateUsage tenantId bytes, quotas => (.ok (), quotas.updateUsage tenantId bytes.toNat)
  | _, .adjustUsage tenantId delta, quotas => (.ok (), quotas.adjustUsage tenantId delta.toInt)
  | _, .tryReserve tenantId bytes, quotas =>
    let (reserved, quotas) := quotas.tryReserve tenantId bytes.toNat
    (.ok reserved, quotas)

/-- **Nothing that the call passes or adds up reaches `2 ^ 63`.** -/
def InRange (quotas : QuotaTable) (_ : Unit) : QuotaStoreCall → Prop
  | .getQuota _ => True
  | .setQuota _ bytes | .updateUsage _ bytes => bytes.toNat < 2 ^ 63
  | .adjustUsage tenantId delta => quotas.usage tenantId + delta.toInt < 2 ^ 63
  | .tryReserve tenantId bytes => quotas.usage tenantId + bytes.toNat < 2 ^ 63

instance (quotas : QuotaTable) (e : Unit) (call : QuotaStoreCall) :
    Decidable (InRange quotas e call) := by
  cases call <;> unfold InRange <;> infer_instance

/-- All numbers fit into signed integers. -/
def QuotaTable.Small (quotas : QuotaTable) : Prop :=
  ∀ tenantId quota, quotas.find tenantId = some quota →
    quota.maxStorageBytes < 2 ^ 63 ∧ quota.currentUsageBytes < 2 ^ 63

/-! ### The map in memory -/

/-- A quota as the in-memory store keeps it. -/
structure StoredQuota where
  tenantId : String
  maxStorageBytes : UInt64
  currentUsageBytes : UInt64
deriving DecidableEq

def StoredQuota.toQuota (quota : StoredQuota) : TenantQuota :=
  ⟨quota.tenantId, quota.maxStorageBytes.toNat, quota.currentUsageBytes.toNat⟩

/-- `u64::saturating_add`. -/
def saturatingAdd (a b : UInt64) : UInt64 :=
  if a.toNat + b.toNat < 2 ^ 64 then a + b else ofNat (2 ^ 64 - 1)

abbrev MemoryQuotaStore := Table StoredQuota.tenantId

namespace MemoryQuotaStore

def getQuota (s : MemoryQuotaStore) (tenantId : String) : Option TenantQuota :=
  (s.find tenantId).map StoredQuota.toQuota

def setQuota (s : MemoryQuotaStore) (tenantId : String) (maxStorageBytes : UInt64) :
    MemoryQuotaStore :=
  s.insertOrUpdate ⟨tenantId, maxStorageBytes, 0⟩ fun quota =>
    { quota with maxStorageBytes := maxStorageBytes }

/-- Change the usage of the entry, which is created without a limit. -/
def setUsage (s : MemoryQuotaStore) (tenantId : String) (usage : UInt64 → UInt64) :
    MemoryQuotaStore :=
  s.insertOrUpdate ⟨tenantId, 0, usage 0⟩ fun quota =>
    { quota with currentUsageBytes := usage quota.currentUsageBytes }

def updateUsage (s : MemoryQuotaStore) (tenantId : String) (currentUsageBytes : UInt64) :
    MemoryQuotaStore :=
  s.setUsage tenantId fun _ => currentUsageBytes

/-- The usage is cast to a signed number, changed, and cast back; the sum of two `i64` wraps. -/
def adjusted (delta : Int64) (usage : UInt64) : UInt64 :=
  let sum := usage.toInt64 + delta
  if 0 ≤ sum then sum.toUInt64 else 0

def adjustUsage (s : MemoryQuotaStore) (tenantId : String) (delta : Int64) : MemoryQuotaStore :=
  s.setUsage tenantId (adjusted delta)

def tryReserve (s : MemoryQuotaStore) (tenantId : String) (additionalBytes : UInt64) :
    Bool × MemoryQuotaStore :=
  let quota := (s.find tenantId).getD ⟨tenantId, 0, 0⟩
  if 0 < quota.maxStorageBytes ∧
      quota.maxStorageBytes < saturatingAdd quota.currentUsageBytes additionalBytes then
    (false, s)
  else (true, s.setUsage tenantId (saturatingAdd · additionalBytes))

end MemoryQuotaStore

open MemoryQuotaStore

/-- The in-memory store answers the calls. -/
def memoryQuotaHandle : Handler QuotaStoreCalls MemoryQuotaStore Unit
  | _, .getQuota tenantId, s => (.ok (s.getQuota tenantId), s)
  | _, .setQuota tenantId bytes, s => (.ok (), s.setQuota tenantId bytes)
  | _, .updateUsage tenantId bytes, s => (.ok (), s.updateUsage tenantId bytes)
  | _, .adjustUsage tenantId delta, s => (.ok (), s.adjustUsage tenantId delta)
  | _, .tryReserve tenantId bytes, s =>
    let (reserved, s) := s.tryReserve tenantId bytes
    (.ok reserved, s)

/-! ### The SQLite table -/

/-- A row of `tenant_quotas`. -/
structure QuotaRow where
  tenantId : String
  maxStorageBytes : Int64
  currentUsageBytes : SqlNumber
deriving DecidableEq

abbrev SqliteQuotaStore := Table QuotaRow.tenantId

namespace SqliteQuotaStore

/-- A usage that overflowed is no integer, and the row cannot be read. -/
def getQuota (s : SqliteQuotaStore) (tenantId : String) : Except MuliError (Option TenantQuota) :=
  match s.find tenantId with
  | none => .ok none
  | some row =>
    match row.currentUsageBytes.asI64 with
    | some usage =>
      .ok (some ⟨row.tenantId, row.maxStorageBytes.toUInt64.toNat, usage.toUInt64.toNat⟩)
    | none => .error (.storage "Invalid column type Real")

def setQuota (s : SqliteQuotaStore) (tenantId : String) (maxStorageBytes : UInt64) :
    SqliteQuotaStore :=
  s.insertOrUpdate ⟨tenantId, maxStorageBytes.toInt64, .integer 0⟩ fun row =>
    { row with maxStorageBytes := maxStorageBytes.toInt64 }

def updateUsage (s : SqliteQuotaStore) (tenantId : String) (currentUsageBytes : UInt64) :
    SqliteQuotaStore :=
  s.insertOrUpdate ⟨tenantId, 0, .integer currentUsageBytes.toInt64⟩ fun row =>
    { row with currentUsageBytes := .integer currentUsageBytes.toInt64 }

def adjustUsage (s : SqliteQuotaStore) (tenantId : String) (delta : Int64) : SqliteQuotaStore :=
  s.insertOrUpdate ⟨tenantId, 0, max (.integer 0) (.integer delta)⟩ fun row =>
    { row with currentUsageBytes :=
        (max (.integer 0) (row.currentUsageBytes.add (.integer delta))).stored }

/-- One statement; the answer is whether it changed a row. -/
def tryReserve (s : SqliteQuotaStore) (tenantId : String) (additionalBytes : UInt64) :
    Bool × SqliteQuotaStore :=
  let additional := integer additionalBytes.toInt64
  match s.find tenantId with
  | none => (true, s.upsert ⟨tenantId, 0, additional⟩)
  | some row =>
    let usage := row.currentUsageBytes.add additional
    if row.maxStorageBytes = 0 ∨ usage.le (.integer row.maxStorageBytes) then
      (true, s.put { row with currentUsageBytes := usage.stored })
    else (false, s)

end SqliteQuotaStore

/-- The SQLite store answers the calls. -/
def sqliteQuotaHandle : Handler QuotaStoreCalls SqliteQuotaStore Unit
  | _, .getQuota tenantId, s => (s.getQuota tenantId, s)
  | _, .setQuota tenantId bytes, s => (.ok (), s.setQuota tenantId bytes)
  | _, .updateUsage tenantId bytes, s => (.ok (), s.updateUsage tenantId bytes)
  | _, .adjustUsage tenantId delta, s => (.ok (), s.adjustUsage tenantId delta)
  | _, .tryReserve tenantId bytes, s =>
    let (reserved, s) := s.tryReserve tenantId bytes
    (.ok reserved, s)

/-! ### Representations -/

def TenantQuota.toStored (quota : TenantQuota) : StoredQuota :=
  ⟨quota.tenantId, ofNat quota.maxStorageBytes, ofNat quota.currentUsageBytes⟩

def TenantQuota.toRow (quota : TenantQuota) : QuotaRow :=
  ⟨quota.tenantId, ofInt quota.maxStorageBytes, .integer (ofInt quota.currentUsageBytes)⟩

theorem toInt_ofInt_of_fits {n : ℤ} (fits : SqlNumber.Fits n) : (Int64.ofInt n).toInt = n := by
  obtain ⟨low, high⟩ := fits
  rw [toInt_ofInt]
  exact Int.bmod_eq_of_le (by simp [Int64.size]; omega) (by simp [Int64.size]; omega)

theorem fits_natCast {n : ℕ} (small : n < 2 ^ 63) : SqlNumber.Fits n := by
  constructor <;> omega

theorem toNat_ofNat_of_small (small : n < 2 ^ 63) : (UInt64.ofNat n).toNat = n :=
  toNat_ofNat_of_lt (lt_trans small (by decide))

theorem toInt64_ofNat (n : ℕ) : (UInt64.ofNat n).toInt64 = Int64.ofInt n := by
  apply toBitVec_inj.mp
  rfl

theorem toInt64_eq (bytes : UInt64) : bytes.toInt64 = Int64.ofInt bytes.toNat := by
  rw [← toInt64_ofNat, UInt64.ofNat_toNat]

theorem toNat_toUInt64_ofInt {n : ℕ} (small : n < 2 ^ 63) : (Int64.ofInt n).toUInt64.toNat = n := by
  exact toNat_ofNat_of_small small

theorem ofInt_add_delta (n : ℤ) (delta : Int64) :
    Int64.ofInt n + delta = Int64.ofInt (n + delta.toInt) := by
  rw [Int64.ofInt_add, Int64.ofInt_toInt]

theorem ofInt_le_ofInt {a b : ℤ} (fits : SqlNumber.Fits a) (fits' : SqlNumber.Fits b) :
    Int64.ofInt a ≤ Int64.ofInt b ↔ a ≤ b := by
  rw [le_iff_toInt_le, toInt_ofInt_of_fits fits, toInt_ofInt_of_fits fits']

variable {delta : Int64} {usage : ℕ}

theorem fits_adjusted (inRange : usage + delta.toInt < 2 ^ 63) :
    SqlNumber.Fits (usage + delta.toInt) := by
  have low := delta.le_toInt
  constructor <;> omega

theorem adjusted_ofNat (inRange : usage + delta.toInt < 2 ^ 63) :
    adjusted delta (UInt64.ofNat usage) = UInt64.ofNat (usage + delta.toInt).toNat := by
  have isNonneg := ofInt_le_ofInt (a := 0) (by decide) (fits_adjusted inRange)
  unfold adjusted
  rw [toInt64_ofNat, ofInt_add_delta]
  dsimp only
  split_ifs with nonneg
  · obtain ⟨total, isTotal⟩ := Int.eq_ofNat_of_zero_le (isNonneg.mp nonneg)
    rw [isTotal, Int.toNat_natCast, ← toInt64_ofNat]
    rfl
  · rw [Int.toNat_of_nonpos (le_of_not_ge fun positive => nonneg (isNonneg.mpr positive))]
    rfl

theorem max_integer_ofInt {n : ℤ} (fits : SqlNumber.Fits n) :
    SqlNumber.max (.integer 0) (.integer (Int64.ofInt n)) = .integer (Int64.ofInt n.toNat) := by
  have isNonpos : Int64.ofInt n ≤ 0 ↔ n ≤ 0 := ofInt_le_ofInt (b := 0) fits (by decide)
  unfold SqlNumber.max SqlNumber.le
  by_cases nonpos : n ≤ 0
  · simp [*]
  · grind

theorem add_integer_ofInt {n : ℤ} (fits : SqlNumber.Fits n)
    (fitsSum : SqlNumber.Fits (n + delta.toInt)) :
    (integer (ofInt n)).add (.integer delta) = .integer (ofInt (n + delta.toInt)) := by
  rw [add_integer (by rwa [toInt_ofInt_of_fits fits]), ofInt_add_delta]

/-! ### Small numbers stay small -/

namespace QuotaTable

variable {quotas : QuotaTable}

theorem Small.limit_lt (small : quotas.Small) (tenantId : String) :
    quotas.limit tenantId < 2 ^ 63 := by
  unfold limit
  cases found : quotas.find tenantId with
  | none => exact Nat.two_pow_pos 63
  | some quota => exact (small tenantId quota found).1

theorem Small.insertOrUpdate (small : quotas.Small)
    (keepsTenant : ∀ old, (update old).tenantId = old.tenantId)
    (isSmall : row.maxStorageBytes < 2 ^ 63 ∧ row.currentUsageBytes < 2 ^ 63)
    (staysSmall : ∀ old, quotas.find row.tenantId = some old → old.maxStorageBytes < 2 ^ 63 →
      old.currentUsageBytes < 2 ^ 63 → (update old).maxStorageBytes < 2 ^ 63 ∧
      (update old).currentUsageBytes < 2 ^ 63) :
    Small (insertOrUpdate quotas row update) := by
  intro tenantId quota found
  rw [find_insertOrUpdate _ _ keepsTenant] at found
  split_ifs at found with same
  · subst same
    cases old : quotas.find row.tenantId with
    | none => simp_all
    | some stored =>
      rw [old] at found
      obtain rfl : update stored = quota := Option.some.inj found
      exact staysSmall stored old (small _ _ old).1 (small _ _ old).2
  · exact small tenantId quota found

/-- **A call in range leaves small numbers.** -/
theorem Small.step (small : quotas.Small) {call : QuotaStoreCall}
    (inRange : InRange quotas () call) : Small (quotaTableHandle () call quotas).2 := by
  cases call with
  | getQuota tenantId => exact small
  | setQuota tenantId bytes =>
    exact small.insertOrUpdate (fun _ => rfl) ⟨inRange, Nat.two_pow_pos 63⟩ fun _ _ _ usage =>
      ⟨inRange, usage⟩
  | updateUsage tenantId bytes =>
    exact small.insertOrUpdate (fun _ => rfl) ⟨Nat.two_pow_pos 63, inRange⟩ fun _ _ limit _ =>
      ⟨limit, inRange⟩
  | adjustUsage tenantId delta =>
    show Small (adjustUsage ..)
    rw [adjustUsage_eq]
    have inRange : quotas.usage tenantId + delta.toInt < 2 ^ 63 := inRange
    refine small.insertOrUpdate (fun _ => rfl) ⟨Nat.two_pow_pos 63, ?_⟩ fun old found limit _ =>
      ⟨limit, ?_⟩
    · show delta.toInt.toNat < 2 ^ 63
      omega
    · grind [usage_of_find]
  | tryReserve tenantId bytes =>
    show Small (tryReserve ..).2
    rw [tryReserve_eq]
    have inRange : quotas.usage tenantId + bytes.toNat < 2 ^ 63 := inRange
    split_ifs
    · refine small.insertOrUpdate (fun _ => rfl) ⟨Nat.two_pow_pos 63, ?_⟩ fun old found limit _ =>
        ⟨limit, ?_⟩
      · show bytes.toNat < 2 ^ 63
        omega
      · rwa [usage_of_find found] at inRange
    · exact small

end QuotaTable

/-! ### Call by call -/

section Represents

variable {ρ : Type} {key : ρ → String} {f : TenantQuota → ρ} {quotas : QuotaTable} {s : Table key}

/-- The store holds the rows of the table, each as `f` writes it. -/
def Represents (f : TenantQuota → ρ) (quotas : QuotaTable) (s : Table key) : Prop :=
  quotas.Small ∧ ∀ tenantId, s.find tenantId = (quotas.find tenantId).map f

theorem Represents.insertOrUpdate (represents : Represents f quotas s)
    (keepsTenant : ∀ old, (update old).tenantId = old.tenantId)
    (keepsKey : ∀ old, key (update' old) = key old) (sameKey : key row' = row.tenantId)
    (isRow : f row = row')
    (isUpdate : ∀ old, quotas.find row.tenantId = some old → f (update old) = update' (f old))
    (tenantId : String) : (s.insertOrUpdate row' update').find tenantId =
      ((insertOrUpdate quotas row update).find tenantId).map f := by
  rw [find_insertOrUpdate _ _ keepsKey, find_insertOrUpdate _ _ keepsTenant, sameKey,
    represents.2]
  split_ifs with same
  · subst same
    cases found : quotas.find row.tenantId with
    | none => exact congrArg some isRow.symm
    | some old => exact congrArg some (isUpdate old found).symm
  · rfl

end Represents

/-- The two handlers answer a call alike and leave the table represented. -/
abbrev StepAgrees {S : Type} (H : Handler QuotaStoreCalls S Unit) (related : QuotaTable → S → Prop)
    (call : QuotaStoreCall) (quotas : QuotaTable) (s : S) : Prop :=
  (quotaTableHandle () call quotas).1 = (H () call s).1 ∧
    related (quotaTableHandle () call quotas).2 (H () call s).2

namespace MemoryQuotaStore

theorem saturatingAdd_ofNat (fits : usage + bytes.toNat < 2 ^ 63) :
    saturatingAdd (UInt64.ofNat usage) bytes = UInt64.ofNat (usage + bytes.toNat) := by
  have isUsage : (UInt64.ofNat usage).toNat = usage := toNat_ofNat_of_small (by omega)
  apply UInt64.toNat_inj.mp
  unfold saturatingAdd
  rw [if_pos (by omega), UInt64.toNat_add, isUsage, Nat.mod_eq_of_lt (by omega),
    toNat_ofNat_of_small fits]

theorem entry_eq {s : MemoryQuotaStore} (represents : Represents toStored quotas s)
    (tenantId : String) : (s.find tenantId).getD ⟨tenantId, 0, 0⟩ =
      ⟨tenantId, ofNat (quotas.limit tenantId), ofNat (quotas.usage tenantId)⟩ := by
  rw [represents.2]
  unfold limit usage
  cases found : quotas.find tenantId with
  | none => rfl
  | some quota =>
    obtain rfl : quota.tenantId = tenantId := find_key found
    rfl

theorem step (quotas : QuotaTable) (s : MemoryQuotaStore) (call : QuotaStoreCall)
    (represents : Represents toStored quotas s) (inRange : InRange quotas () call) :
    StepAgrees memoryQuotaHandle (Represents toStored) call quotas s := by
  have small := represents.1.step inRange
  cases call with
  | getQuota tenantId =>
    refine ⟨?_, represents⟩
    show ok _ = ok ((s.find tenantId).map StoredQuota.toQuota)
    rw [represents.2, Option.map_map]
    cases found : quotas.find tenantId with
    | none => rfl
    | some quota =>
      obtain ⟨limit, usage⟩ := represents.1 tenantId quota found
      simp [StoredQuota.toQuota, TenantQuota.toStored, toNat_ofNat_of_small limit,
        toNat_ofNat_of_small usage]
  | adjustUsage tenantId delta =>
    have inRange : quotas.usage tenantId + delta.toInt < 2 ^ 63 := inRange
    refine ⟨rfl, small, ?_⟩
    show ∀ tenant, _ = ((quotas.adjustUsage ..).find tenant).map _
    rw [adjustUsage_eq]
    refine represents.insertOrUpdate (fun _ => rfl) (fun _ => rfl) rfl ?_ fun old found => ?_
    · have isNew : adjusted delta (.ofNat 0) = UInt64.ofNat ((0 : ℕ) + delta.toInt).toNat :=
        adjusted_ofNat (by omega)
      rw [cast_zero, zero_add] at isNew
      exact congrArg (StoredQuota.mk tenantId 0) isNew.symm
    · rw [usage_of_find found] at inRange
      exact congrArg (StoredQuota.mk _ _) (adjusted_ofNat inRange).symm
  | tryReserve tenantId bytes =>
    have inRange : quotas.usage tenantId + bytes.toNat < 2 ^ 63 := inRange
    have refuses :
        (0 < UInt64.ofNat (quotas.limit tenantId) ∧ UInt64.ofNat (quotas.limit tenantId) <
        saturatingAdd (.ofNat (quotas.usage tenantId)) bytes) ↔
        ¬ quotas.Grants tenantId bytes.toNat := by
      unfold QuotaTable.Grants
      rw [saturatingAdd_ofNat inRange, lt_iff_toNat_lt, lt_iff_toNat_lt,
        toNat_ofNat_of_small (represents.1.limit_lt tenantId), toNat_ofNat_of_small inRange,
        UInt64.toNat_zero]
      omega
    revert small
    unfold StepAgrees quotaTableHandle memoryQuotaHandle tryReserve
    dsimp only
    rw [entry_eq represents, tryReserve_eq]
    by_cases granted : quotas.Grants tenantId bytes.toNat
    · rw [if_pos granted, if_neg fun refused => refuses.mp refused granted]
      refine fun small =>
        ⟨rfl, small, represents.insertOrUpdate (fun _ => rfl) (fun _ => rfl) rfl ?_
        fun old found => ?_⟩
      · have isNew : saturatingAdd (.ofNat 0) bytes = UInt64.ofNat (0 + bytes.toNat) :=
          saturatingAdd_ofNat (by omega)
        rw [zero_add] at isNew
        exact congrArg (StoredQuota.mk tenantId 0) isNew.symm
      · rw [usage_of_find found] at inRange
        exact congrArg (StoredQuota.mk _ _) (saturatingAdd_ofNat inRange).symm
    · simp [*]
  | _ =>
    refine ⟨rfl, small, represents.insertOrUpdate (fun _ => rfl)
      (fun _ => rfl) rfl ?_ fun _ _ => ?_⟩
    all_goals simp [toStored]

end MemoryQuotaStore

namespace SqliteQuotaStore

variable {bytes : UInt64}

theorem toInt_toInt64 (small : bytes.toNat < 2 ^ 63) : bytes.toInt64.toInt = bytes.toNat := by
  rw [toInt64_eq]
  exact toInt_ofInt_of_fits (fits_natCast small)

theorem add_toRow {quota : TenantQuota} (inRange : quota.currentUsageBytes + bytes.toNat < 2 ^ 63) :
    quota.toRow.currentUsageBytes.add (.integer bytes.toInt64) =
      .integer (ofInt (quota.currentUsageBytes + bytes.toNat : ℕ)) := by
  have isBytes : bytes.toInt64.toInt = bytes.toNat := toInt_toInt64 (by omega)
  have fits : SqlNumber.Fits (quota.currentUsageBytes + bytes.toNat) := fits_natCast inRange
  have sum := add_integer_ofInt (n := quota.currentUsageBytes) (fits_natCast (by omega))
    (isBytes.symm ▸ fits)
  rw [isBytes] at sum
  exact sum

theorem grants_toRow {quota : TenantQuota} (limit : quota.maxStorageBytes < 2 ^ 63)
    (inRange : quota.currentUsageBytes + bytes.toNat < 2 ^ 63) : (quota.toRow.maxStorageBytes = 0 ∨
        (quota.toRow.currentUsageBytes.add (.integer bytes.toInt64)).le
          (.integer quota.toRow.maxStorageBytes)) ↔ (quota.maxStorageBytes = 0 ∨
        quota.currentUsageBytes + bytes.toNat ≤ quota.maxStorageBytes) := by
  have isZero : quota.toRow.maxStorageBytes = 0 ↔ quota.maxStorageBytes = 0 := by
    rw [← toInt_inj]
    show (Int64.ofInt _).toInt = 0 ↔ _
    rw [toInt_ofInt_of_fits (fits_natCast limit), cast_eq_zero]
  rw [add_toRow inRange, isZero]
  show _ ∨ decide (.ofInt _ ≤ Int64.ofInt _) = true ↔ _
  rw [decide_eq_true_iff, ofInt_le_ofInt (fits_natCast inRange) (fits_natCast limit), cast_le]

theorem step (quotas : QuotaTable) (s : SqliteQuotaStore) (call : QuotaStoreCall)
    (represents : Represents toRow quotas s) (inRange : InRange quotas () call) :
    StepAgrees sqliteQuotaHandle (Represents toRow) call quotas s := by
  have small := represents.1.step inRange
  cases call with
  | getQuota tenantId =>
    refine ⟨?_, represents⟩
    unfold quotaTableHandle sqliteQuotaHandle getQuota
    dsimp only
    rw [represents.2]
    cases found : quotas.find tenantId with
    | none => rfl
    | some quota =>
      obtain ⟨limit, usage⟩ := represents.1 tenantId quota found
      simp [TenantQuota.toRow, SqlNumber.asI64, toNat_toUInt64_ofInt limit,
        toNat_toUInt64_ofInt usage]
  | adjustUsage tenantId delta =>
    have inRange : quotas.usage tenantId + delta.toInt < 2 ^ 63 := inRange
    refine ⟨rfl, small, ?_⟩
    show ∀ tenant, _ = ((quotas.adjustUsage ..).find tenant).map _
    rw [adjustUsage_eq]
    refine represents.insertOrUpdate (fun _ => rfl) (fun _ => rfl) rfl ?_ fun old found => ?_
    · have isNew := max_integer_ofInt (n := delta.toInt) ⟨delta.le_toInt, delta.toInt_lt⟩
      rw [ofInt_toInt] at isNew
      exact congrArg (QuotaRow.mk tenantId 0) isNew.symm
    · rw [usage_of_find found] at inRange
      have fits := fits_adjusted inRange
      have sum := add_integer_ofInt (fits_natCast (represents.1 _ _ found).2) fits
      refine congrArg (QuotaRow.mk _ _) ?_
      show _ = (max (.integer 0) ((integer _).add _)).stored
      rw [sum, max_integer_ofInt fits]
      rfl
  | tryReserve tenantId bytes =>
    have inRange : quotas.usage tenantId + bytes.toNat < 2 ^ 63 := inRange
    have granted : ∀ tenant, (insertOrUpdate s ⟨tenantId, 0, .integer bytes.toInt64⟩ fun row =>
        { row with currentUsageBytes :=
            (row.currentUsageBytes.add (.integer bytes.toInt64)).stored }).find tenant =
        ((insertOrUpdate quotas ⟨tenantId, 0, bytes.toNat⟩ fun quota =>
          { quota with currentUsageBytes := quota.currentUsageBytes + bytes.toNat }).find
            tenant).map toRow := by
      refine represents.insertOrUpdate (fun _ => rfl) (fun _ => rfl) rfl ?_ fun old found => ?_
      · rw [toInt64_eq]
        rfl
      · rw [usage_of_find found] at inRange
        rw [add_toRow inRange]
        rfl
    revert small
    unfold StepAgrees quotaTableHandle sqliteQuotaHandle tryReserve QuotaTable.tryReserve
    unfold insertOrUpdate at granted
    dsimp only at granted ⊢
    rw [represents.2] at granted ⊢
    cases found : quotas.find tenantId with
    | none =>
      rw [found] at granted
      exact fun small => ⟨rfl, small, granted⟩
    | some quota =>
      obtain ⟨limit, usage⟩ := represents.1 tenantId quota found
      rw [usage_of_find found] at inRange
      have isGranted := grants_toRow limit inRange
      rw [found] at granted
      dsimp only [Option.map_some] at granted ⊢
      by_cases enough : quota.maxStorageBytes = 0 ∨
          quota.currentUsageBytes + bytes.toNat ≤ quota.maxStorageBytes
      · rw [if_pos enough, if_pos (isGranted.mpr enough)]
        exact fun small => ⟨rfl, small, granted⟩
      · simp [*]
  | _ =>
    refine ⟨rfl, small, represents.insertOrUpdate (fun _ => rfl)
      (fun _ => rfl) rfl ?_ fun _ _ => ?_⟩
    all_goals
      rw [toInt64_eq]
      rfl

end SqliteQuotaStore

/-! ### Whole sequences -/

def calls (history : List QuotaStoreCall) : List (Unit × QuotaStoreCall) :=
  history.map fun call => ((), call)

/-- A reservation does not lower the usage, and one that is granted under a limit stays within it.
-/
def ReservesWithin (before after : Except MuliError (Option TenantQuota))
    (answer : Except MuliError Bool) : Prop :=
  ∃ old new, before = .ok old ∧ after = .ok (some new) ∧
    (old.map currentUsageBytes).getD 0 ≤ new.currentUsageBytes ∧
    (answer = .ok true → 0 < new.maxStorageBytes → new.currentUsageBytes ≤ new.maxStorageBytes)

/-- Every reservation of the history is sound in the state that the calls before it leave. -/
def SoundReservations {S : Type} (H : Handler QuotaStoreCalls S Unit)
    (history : List QuotaStoreCall) (s : S) : Prop :=
  ∀ earlier tenantId bytes later, history = earlier ++ .tryReserve tenantId bytes :: later →
    let before := (H.replay (calls earlier) s).2
    let reserved := H () (.tryReserve tenantId bytes) before
    ReservesWithin (H () (.getQuota tenantId) before).1 (H () (.getQuota tenantId) reserved.2).1
      reserved.1

/-- The same answers, the same quotas in the end, and sound reservations on the way. -/
structure QuotaStoresAgree (history : List QuotaStoreCall) : Prop where
  answers : (memoryQuotaHandle.replay (calls history) ∅).1 =
    (sqliteQuotaHandle.replay (calls history) ∅).1
  quotas : ∀ tenantId,
    (memoryQuotaHandle () (.getQuota tenantId) (memoryQuotaHandle.replay (calls history) ∅).2).1 =
      (sqliteQuotaHandle () (.getQuota tenantId) (sqliteQuotaHandle.replay (calls history) ∅).2).1
  memory : SoundReservations memoryQuotaHandle history ∅
  sqlite : SoundReservations sqliteQuotaHandle history ∅

theorem QuotaTable.reservesWithin (quotas : QuotaTable) (tenantId : String) (bytes : ℕ) :
    ReservesWithin (.ok (quotas.find tenantId))
    (.ok ((quotas.tryReserve tenantId bytes).2.find tenantId))
      (.ok (quotas.tryReserve tenantId bytes).1) := by
  unfold tryReserve
  cases found : quotas.find tenantId with
  | none =>
    refine ⟨none, ⟨tenantId, 0, bytes⟩, rfl, ?_, zero_le _,
      fun _ limited => absurd limited (lt_irrefl 0)⟩
    rw [find_upsert, if_pos rfl]
  | some quota =>
    obtain rfl : quota.tenantId = tenantId := find_key found
    dsimp only
    split_ifs with granted
    · refine ⟨some quota, _, rfl, congrArg ok (find_put_self _ found), le_add_right _ _,
        fun _ limited => ?_⟩
      exact granted.resolve_left limited.ne'
    · refine ⟨some quota, quota, rfl, congrArg ok found, le_refl _, fun isGranted => ?_⟩
      cases isGranted

theorem eq_of_forall₂_alike {I : Interface} {answers answers' : List (Sigma I.Answer)}
    (alike : List.Forall₂ (Alike fun _ => Eq) answers answers') : answers = answers' := by
  induction alike with
  | nil => rfl
  | @cons answer answer' _ _ same _ ih =>
    cases same with
    | intro isSame => rw [ih, isSame]

section Refinement

variable {S : Type} {H : Handler QuotaStoreCalls S Unit} {related : QuotaTable → S → Prop}
  (step : ∀ quotas s call, related quotas s → InRange quotas () call →
    StepAgrees H related call quotas s)
  {history : List QuotaStoreCall} {quotas : QuotaTable} {s : S} (start : related quotas s)
  (inRange : quotaTableHandle.Along InRange (calls history) quotas)
include step start inRange

theorem replay_of_step :
      (quotaTableHandle.replay (calls history) quotas).1 = (H.replay (calls history) s).1 ∧
      related (quotaTableHandle.replay (calls history) quotas).2
      (H.replay (calls history) s).2 := by
  obtain ⟨answers, final⟩ := replay_forall₂ (H := quotaTableHandle) (K := H) related (fun _ => Eq)
    (fun quotas s _ call => step quotas s call) start inRange
  exact ⟨eq_of_forall₂_alike answers, final⟩

theorem getQuota_of_step (tenantId : String) :
    ok ((quotaTableHandle.replay (calls history) quotas).2.find tenantId) =
      (H () (.getQuota tenantId) (H.replay (calls history) s).2).1 :=
  (step _ _ (.getQuota tenantId) (replay_of_step step start inRange).2 trivial).1

/-- **A store that answers as the unbounded table does reserves soundly.** -/
theorem soundReservations_of_step : SoundReservations H history s := by
  intro earlier tenantId bytes later split
  subst split
  unfold calls at inRange
  rw [List.map_append, Handler.along_append] at inRange
  obtain ⟨inRangeBefore, isInRange, -⟩ := inRange
  have before := (replay_of_step step start inRangeBefore).2
  obtain ⟨sameAnswer, after⟩ := step _ _ _ before isInRange
  have reads := getQuota_of_step step start inRangeBefore tenantId
  have reads' := (step _ _ (.getQuota tenantId) after trivial).1
  dsimp only
  rw [← sameAnswer, ← reads, ← reads']
  exact reservesWithin _ tenantId bytes.toNat

end Refinement

theorem QuotaTable.small_empty : Small ∅ := by
  intro tenantId quota found
  cases found

theorem Represents.empty {ρ : Type} {key : ρ → String} (f : TenantQuota → ρ) :
    Represents f ∅ (∅ : Table key) :=
  ⟨small_empty, fun _ => rfl⟩

/-- **A sequence of calls in range gets the same answers from both stores and leaves the same
quotas**, and its reservations are sound in both. -/
theorem quotaStores_agree (history : List QuotaStoreCall)
    (inRange : quotaTableHandle.Along InRange (calls history) ∅) : QuotaStoresAgree history where
  answers := (replay_of_step step (.empty _) inRange).1.symm.trans
    (replay_of_step SqliteQuotaStore.step (.empty _) inRange).1
  quotas tenantId := (getQuota_of_step step (.empty _) inRange tenantId).symm.trans
    (getQuota_of_step SqliteQuotaStore.step (.empty _) inRange tenantId)
  memory := soundReservations_of_step step (.empty _) inRange
  sqlite := soundReservations_of_step SqliteQuotaStore.step (.empty _) inRange

/-- A history in which reservations are granted and refused. -/
def quotaUsedUp : List QuotaStoreCall :=
  [.setQuota "tenant" 1000, .tryReserve "tenant" 600, .tryReserve "tenant" 401,
    .adjustUsage "tenant" (-700), .getQuota "tenant", .updateUsage "tenant" 1,
    .tryReserve "tenant" 999, .tryReserve "other" 7]

theorem quotaStores_agree_usedUp :
    quotaTableHandle.Along InRange (calls quotaUsedUp) ∅ ∧ QuotaStoresAgree quotaUsedUp :=
  have inRange : quotaTableHandle.Along InRange (calls quotaUsedUp) ∅ := by decide +kernel
  ⟨inRange, quotaStores_agree quotaUsedUp inRange⟩

/-- **A reservation of `2 ^ 64 - 1` bytes**: the map refuses it; SQLite adds the signed number `-1`,
so it grants the reservation and lowers the usage from 5 to 4. -/
theorem not_quotaStoresAgree_negative :
      ¬ QuotaStoresAgree [.setQuota "tenant" 10, .updateUsage "tenant" 5,
      .tryReserve "tenant" (ofNat (2 ^ 64 - 1))] := by
  intro agree
  obtain ⟨old, new, isOld, isNew, grows, -⟩ :=
    agree.sqlite [.setQuota "tenant" 10, .updateUsage "tenant" 5] "tenant" _ [] rfl
  obtain rfl : some ⟨"tenant", 10, 5⟩ = old := by
    refine ok.inj (.trans ?_ isOld)
    decide +kernel
  obtain rfl : ⟨"tenant", 10, 4⟩ = new := by
    refine Option.some.inj (ok.inj (.trans ?_ isNew))
    decide +kernel
  exact absurd grows (by decide)

end Muli
