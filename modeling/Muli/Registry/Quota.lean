/-
**What the registries share: their answers, their writes, and the storage quota of a tenant.**
-/

import Muli.Core.Job
import Muli.Interaction.Program

namespace Muli

open Interaction Table

abbrev Bytes := List UInt8

structure Response where
  status : ℕ
  body : List (String × String)
deriving DecidableEq, Repr

def errorJson (status : ℕ) (message : String) : Response := ⟨status, [("error", message)]⟩

/-- How the write of a file ends: a write that fails may leave the file with some contents. -/
inductive WriteOutcome where
  | done
  | failed
  | torn (contents : Bytes)
deriving DecidableEq, Repr

/-! ### The store -/

/-- What a tenant may store, 0 for no limit, and what is recorded as stored. -/
structure TenantQuota where
  tenantId : String
  maxStorageBytes : ℕ
  currentUsageBytes : ℕ
deriving DecidableEq, Repr

abbrev QuotaTable := Table TenantQuota.tenantId

namespace QuotaTable

def usage (quotas : QuotaTable) (tenantId : String) : ℕ :=
  ((quotas.find tenantId).map TenantQuota.currentUsageBytes).getD 0

def limit (quotas : QuotaTable) (tenantId : String) : ℕ :=
  ((quotas.find tenantId).map TenantQuota.maxStorageBytes).getD 0

/-- The bytes fit, or there is no limit. -/
def Grants (quotas : QuotaTable) (tenantId : String) (bytes : ℕ) : Prop :=
  quotas.limit tenantId = 0 ∨ quotas.usage tenantId + bytes ≤ quotas.limit tenantId
deriving Decidable

/-- Check the quota and reserve the bytes in one statement; a tenant without a row has no limit. -/
def tryReserve (quotas : QuotaTable) (tenantId : String) (bytes : ℕ) : Bool × QuotaTable :=
  match quotas.find tenantId with
  | none => (true, quotas.upsert ⟨tenantId, 0, bytes⟩)
  | some quota =>
    if quota.maxStorageBytes = 0 ∨ quota.currentUsageBytes + bytes ≤ quota.maxStorageBytes then
      (true, quotas.put { quota with currentUsageBytes := quota.currentUsageBytes + bytes })
    else (false, quotas)

/-- Change the recorded bytes, never below 0. -/
def adjustUsage (quotas : QuotaTable) (tenantId : String) (delta : ℤ) : QuotaTable :=
  match quotas.find tenantId with
  | none => quotas.upsert ⟨tenantId, 0, delta.toNat⟩
  | some quota =>
    quotas.put { quota with currentUsageBytes := (quota.currentUsageBytes + delta).toNat }

section Usage

variable {quotas : QuotaTable} {tenantId : String}

theorem usage_of_find (found : quotas.find tenantId = some quota) :
    quotas.usage tenantId = quota.currentUsageBytes := by
  unfold usage
  rw [found]
  rfl

theorem tryReserve_eq (quotas : QuotaTable) (tenantId : String) (bytes : ℕ) :
    quotas.tryReserve tenantId bytes =
      if quotas.Grants tenantId bytes then
        (true, quotas.insertOrUpdate ⟨tenantId, 0, bytes⟩ fun quota =>
          { quota with currentUsageBytes := quota.currentUsageBytes + bytes })
      else (false, quotas) := by
  unfold tryReserve insertOrUpdate
  cases found : quotas.find tenantId with
  | none => simp [Grants, limit, found]
  | some quota =>
    have isGranted : quotas.Grants tenantId bytes ↔ quota.maxStorageBytes = 0 ∨
        quota.currentUsageBytes + bytes ≤ quota.maxStorageBytes := by
      simp [Grants, limit, usage, found]
    simp only [isGranted]

theorem adjustUsage_eq (quotas : QuotaTable) (tenantId : String) (delta : ℤ) :
    quotas.adjustUsage tenantId delta =
      quotas.insertOrUpdate ⟨tenantId, 0, delta.toNat⟩ fun quota =>
        { quota with currentUsageBytes := (quota.currentUsageBytes + delta).toNat } := by
  unfold adjustUsage insertOrUpdate
  cases quotas.find tenantId <;> rfl

/-- Another usage under the same limit. -/
theorem usage_limit_insertOrUpdate (quotas : QuotaTable) (tenantId : String) (change : ℕ → ℕ)
    (new : change 0 = bytes) :
    let quotas' : QuotaTable := quotas.insertOrUpdate ⟨tenantId, 0, bytes⟩ fun quota =>
      { quota with currentUsageBytes := change quota.currentUsageBytes }
    quotas'.usage tenantId = change (quotas.usage tenantId) ∧
    quotas'.limit tenantId = quotas.limit tenantId := by
  intro quotas'
  have found : quotas'.find tenantId = _ :=
    (find_insertOrUpdate quotas _ (by exact fun _ => rfl) tenantId).trans (if_pos rfl)
  rw [usage, limit, found, usage, limit]
  cases quotas.find tenantId with
  | none => exact ⟨new.symm, rfl⟩
  | some quota => exact ⟨rfl, rfl⟩

/-- **A reservation** that is granted counts its bytes, one that is refused changes nothing. -/
theorem tryReserve_spec (quotas : QuotaTable) (tenantId : String) (bytes : ℕ) :
    (quotas.tryReserve tenantId bytes).1 = true ∧ quotas.Grants tenantId bytes ∧
        (quotas.tryReserve tenantId bytes).2.usage tenantId = quotas.usage tenantId + bytes ∧
        (quotas.tryReserve tenantId bytes).2.limit tenantId = quotas.limit tenantId ∨
      (quotas.tryReserve tenantId bytes).1 = false ∧
      (quotas.tryReserve tenantId bytes).2 = quotas := by
  rw [tryReserve_eq]
  split_ifs with granted
  · exact .inl ⟨rfl, granted, quotas.usage_limit_insertOrUpdate tenantId (· + bytes)
      (Nat.zero_add _)⟩
  · exact .inr ⟨rfl, rfl⟩

theorem adjustUsage_spec (quotas : QuotaTable) (tenantId : String) (delta : ℤ) :
    (quotas.adjustUsage tenantId delta).usage tenantId = (quotas.usage tenantId + delta).toNat ∧
      (quotas.adjustUsage tenantId delta).limit tenantId = quotas.limit tenantId := by
  rw [adjustUsage_eq]
  exact quotas.usage_limit_insertOrUpdate tenantId (fun n => (n + delta).toNat) (by simp)

end Usage

end QuotaTable

inductive QuotaCall where
  | tryReserve (tenantId : String) (bytes : ℕ)
  | adjustUsage (tenantId : String) (delta : ℤ)

abbrev QuotaCall.Answer : QuotaCall → Type
  | tryReserve .. => Except MuliError Bool
  | adjustUsage .. => Except MuliError Unit

abbrev QuotaCalls : Interface := ⟨QuotaCall, QuotaCall.Answer⟩

def quotaHandle : Handler QuotaCalls QuotaTable Bool
  | true, .tryReserve tenantId bytes, quotas =>
    let (reserved, quotas) := quotas.tryReserve tenantId bytes
    (.ok reserved, quotas)
  | true, .adjustUsage tenantId delta, quotas => (.ok (), quotas.adjustUsage tenantId delta)
  | false, .tryReserve .., quotas => (.error (.storage "quota store failed"), quotas)
  | false, .adjustUsage .., quotas => (.error (.storage "quota store failed"), quotas)

/-! ### Reservations -/

def reserveQuota (quotaStore : Bool) (tenantId : String) (bytes : ℕ) :
    ExceptT Response (Prog QuotaCalls) Unit :=
  if bytes = 0 ∨ !quotaStore then pure ()
  else do
    match ← ExceptT.lift (Prog.perform (I := QuotaCalls) (.tryReserve tenantId bytes)) with
    | .ok true => pure ()
    | .ok false =>
      throw (errorJson 413 ("tenant quota exceeded: cannot reserve " ++ bytes.repr ++ " bytes"))
    -- a reservation that fails is only logged
    | .error _ => pure ()

/-- Correct the recorded bytes, in a task of its own that tries twice. -/
def adjustQuotaUsage (quotaStore : Bool) (tenantId : String) (delta : ℤ) : Prog QuotaCalls Unit :=
  if delta = 0 ∨ !quotaStore then pure ()
  else do
    match ← Prog.perform (I := QuotaCalls) (.adjustUsage tenantId delta) with
    | .ok _ => pure ()
    | .error _ => do
      let _ ← Prog.perform (I := QuotaCalls) (.adjustUsage tenantId delta)
      pure ()

/-! ### With a store that works -/

def workingQuotas {E : Type} : Handler QuotaCalls QuotaTable E := fun _ => quotaHandle true

section Works

variable {E : Type} {quotas : QuotaTable} {tenantId : String}

/-- **A reservation is recorded exactly when it is granted.** -/
theorem reserveQuota_works (bytes : ℕ) :
    Ends (workingQuotas (E := E)) (reserveQuota true tenantId bytes)
      (fun _ q => (bytes = 0 ∨ quotas.Grants tenantId bytes) ∧
        q.usage tenantId = quotas.usage tenantId + bytes)
      (fun _ q => q = quotas ∧ ¬ (bytes = 0 ∨ quotas.Grants tenantId bytes)) quotas := by
  unfold reserveQuota
  by_cases empty : bytes = 0
  · rw [if_pos (.inl empty)]
    exact .pure ⟨.inl empty, by rw [empty]; rfl⟩
  · rw [if_neg (by simpa using empty)]
    refine .call fun e => ?_
    dsimp only [workingQuotas, quotaHandle]
    rw [QuotaTable.tryReserve_eq]
    by_cases granted : quotas.Grants tenantId bytes
    · rw [if_pos granted]
      refine .pure ⟨.inr granted, ?_⟩
      exact (quotas.usage_limit_insertOrUpdate tenantId (· + bytes) (Nat.zero_add _)).1
    · rw [if_neg granted]
      exact .throw ⟨rfl, not_or.mpr ⟨empty, granted⟩⟩

theorem adjustQuotaUsage_works (delta : ℤ) :
    (adjustQuotaUsage true tenantId delta).Ensures (workingQuotas (E := E))
      (fun _ q => q.usage tenantId = (quotas.usage tenantId + delta).toNat) quotas := by
  unfold adjustQuotaUsage
  by_cases same : delta = 0
  · rw [if_pos (.inl same), same, add_zero]
    exact (Int.toNat_natCast _).symm
  · rw [if_neg (by simpa using same)]
    exact fun _ => (QuotaTable.adjustUsage_spec ..).1

end Works

end Muli
