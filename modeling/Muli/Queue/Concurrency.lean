/-
**The concurrency limiter, one atomic operation at a time.**

`try_acquire` takes a global permit, then counts the tenant up in a compare-and-swap loop, and gives
the permit back when the tenant is at its limit. Dropping a guard counts the tenant down and then
gives the permit back. Any number of calls and drops interleave between these operations.

* `limiter_accounts` — **the accounts of every interleaving**: a tenant's counter is the number of
  its live guards and stays within the limit; free permits, live guards and the calls and drops that
  stand between their two operations make up the global limit; a refused call has given back what it
  took.
-/

import Muli.Interaction.Machine
import Muli.Queue.Scheduler

namespace Muli

open Interaction System

/-- `AtomicUsize::fetch_sub` and the subtraction of `u64`: wrap around below zero. -/
def wrappingSub (value amount : ℕ) : ℕ :=
  if amount ≤ value then value - amount else value + 2 ^ 64 - amount

theorem wrappingSub_add_self (enough : amount ≤ value) :
    wrappingSub value amount + amount = value := by
  rw [wrappingSub, if_pos enough]
  exact Nat.sub_add_cancel enough

/-! ### The atomic operations -/

/-- Where a call of `try_acquire` stands, and then the guard it returned. -/
inductive Permit where
  | calling (tenantId : String)
  | admitted (tenantId : String)
  | counting (tenantId : String)
  /-- The counter was read as `current`. -/
  | loaded (tenantId : String) (current : ℕ)
  | live (tenantId : String)
  /-- The guard is being dropped: the tenant is counted down, the global permit is still held. -/
  | uncounted (tenantId : String)
  | dropped (tenantId : String)
  | refused (tenantId : String) (error : MuliError)
deriving DecidableEq

namespace ConcurrencyLimiter

def withCount (tenantId : String) (count : ℕ) (limiter : ConcurrencyLimiter) : ConcurrencyLimiter :=
  { limiter with perTenant := Function.update limiter.perTenant tenantId count }

end ConcurrencyLimiter

open ConcurrencyLimiter

namespace Permit

/-- **The next atomic operation** of a call, or of the drop of its guard. -/
def step : Machine Permit ConcurrencyLimiter
  | calling tenantId, limiter =>
    if limiter.available = 0 then
      some (refused tenantId (.concurrencyLimit "global concurrency limit reached"), limiter)
    else some (admitted tenantId, { limiter with available := limiter.available - 1 })
  -- `or_insert_with` starts an unknown tenant's counter at zero, which is how an absent one reads
  | admitted tenantId, limiter => some (counting tenantId, limiter)
  | counting tenantId, limiter => some (loaded tenantId (limiter.perTenant tenantId), limiter)
  | loaded tenantId current, limiter =>
    if current ≥ limiter.perTenantLimit then
      some (refused tenantId
          (.concurrencyLimit ("tenant " ++ tenantId ++ " concurrency limit reached")),
        { limiter with available := limiter.available + 1 })
    else if limiter.perTenant tenantId = current then
      some (live tenantId, limiter.withCount tenantId (current + 1))
    else some (counting tenantId, limiter)
  | live tenantId, limiter =>
    some (uncounted tenantId,
      limiter.withCount tenantId (wrappingSub (limiter.perTenant tenantId) 1))
  | uncounted tenantId, limiter =>
    some (dropped tenantId, { limiter with available := limiter.available + 1 })
  | dropped _, _ => none
  | refused _ _, _ => none

def isLive : Permit → Bool
  | live _ => true
  | _ => false

/-- Between two operations: the global permit is held and there is no live guard. -/
def isBetween : Permit → Bool
  | admitted _ | counting _ | loaded .. | uncounted _ => true
  | _ => false

def slots (tenantId : String) (permit : Permit) : ℕ := if permit = live tenantId then 1 else 0

def permits (permit : Permit) : ℕ :=
  (if permit.isLive then 1 else 0) + if permit.isBetween then 1 else 0

end Permit

open Permit

def servingTenants (globalLimit perTenantLimit : ℕ) (tenants : List String) :
    System Permit ConcurrencyLimiter :=
  ⟨tenants.map .calling, .new globalLimit perTenantLimit⟩

/-! ### The accounts -/

/-- **The accounts of the limiter at a moment of a run.** -/
structure LimiterLedger (globalLimit perTenantLimit : ℕ) (sys : System Permit ConcurrencyLimiter) :
    Prop where
  limit : sys.shared.perTenantLimit = perTenantLimit
  tenants : ∀ tenantId, sys.shared.perTenant tenantId = (sys.threads.map (slots tenantId)).sum
  within : ∀ tenantId, sys.shared.perTenant tenantId ≤ perTenantLimit
  permits : sys.shared.available + (sys.threads.map permits).sum = globalLimit

variable {permit permit' : Permit}

theorem Permit.step_conserves (counted : ∀ tenantId, permit.slots tenantId ≤
    limiter.perTenant tenantId) (steps : permit.step limiter = some (permit', limiter')) :
    limiter'.perTenantLimit = limiter.perTenantLimit ∧
      limiter'.available + permit'.permits = limiter.available + permit.permits ∧
      ∀ tenantId, limiter'.perTenant tenantId + permit.slots tenantId =
          limiter.perTenant tenantId + permit'.slots tenantId ∧
        (limiter'.perTenant tenantId ≤ limiter.perTenant tenantId ∨
          limiter'.perTenant tenantId ≤ limiter.perTenantLimit) := by
  cases permit with
  | calling tenantId =>
    simp only [step] at steps
    split_ifs at steps with none
    · cases steps
      exact ⟨rfl, rfl, fun _ => ⟨rfl, .inl le_rfl⟩⟩
    · cases steps
      refine ⟨rfl, ?_, fun _ => ⟨rfl, .inl le_rfl⟩⟩
      simp only [permits, isLive, isBetween, Bool.false_eq_true, if_false, if_true]
      omega
  | admitted | counting | uncounted =>
    cases steps
    exact ⟨rfl, rfl, fun _ => ⟨rfl, .inl le_rfl⟩⟩
  | loaded tenantId current =>
    simp only [step] at steps
    split_ifs at steps with full unchanged
    · cases steps
      exact ⟨rfl, rfl, fun _ => ⟨rfl, .inl le_rfl⟩⟩
    · cases steps
      refine ⟨rfl, rfl, fun other => ?_⟩
      simp only [withCount, slots, reduceCtorEq, if_false, live.injEq]
      by_cases same : tenantId = other
      · grind
      · grind
    · cases steps
      exact ⟨rfl, rfl, fun _ => ⟨rfl, .inl le_rfl⟩⟩
  | live tenantId =>
    cases steps
    have one : 1 ≤ limiter.perTenant tenantId := by simpa [slots] using counted tenantId
    refine ⟨rfl, rfl, fun other => ?_⟩
    simp only [withCount, slots, reduceCtorEq, if_false, live.injEq]
    by_cases same : tenantId = other
    · subst same
      rw [Function.update_self, if_pos rfl]
      have restored := wrappingSub_add_self one
      exact ⟨restored, .inl (by omega)⟩
    · grind
  | _ => cases steps

namespace LimiterLedger

variable {globalLimit perTenantLimit : ℕ} {sys : System Permit ConcurrencyLimiter}

theorem start (globalLimit perTenantLimit : ℕ) (tenants : List String) :
    LimiterLedger globalLimit perTenantLimit (servingTenants globalLimit perTenantLimit tenants)
    where
  limit := rfl
  tenants tenantId := by
    simp [servingTenants, new, Function.comp_def, slots]
  within _ := Nat.zero_le _
  permits := by
    simp [servingTenants, new, Function.comp_def, Permit.permits, Permit.isLive,
      Permit.isBetween]

section

variable (ledger : LimiterLedger globalLimit perTenantLimit sys)
include ledger

theorem slots_le {i : ℕ}
    (isThread : sys.threads[i]? = some permit) (tenantId : String) :
    permit.slots tenantId ≤ sys.shared.perTenant tenantId := by
  rw [ledger.tenants]
  exact held_le_sum _ isThread

/-- **Every step keeps the accounts.** -/
theorem step {i : ℕ}
    (isThread : sys.threads[i]? = some permit)
    (steps : permit.step sys.shared = some (permit', limiter')) :
    LimiterLedger globalLimit perTenantLimit ⟨sys.threads.set i permit', limiter'⟩ := by
  obtain ⟨sameLimit, sameTotal, counters⟩ :=
    step_conserves (ledger.slots_le isThread) steps
  refine ⟨sameLimit.trans ledger.limit, fun tenantId => ?_, fun tenantId => ?_, ?_⟩
  · have total := sum_set_add (slots tenantId) isThread permit'
    have before := ledger.tenants tenantId
    have conserved := (counters tenantId).1
    simp only
    omega
  · have before := ledger.within tenantId
    have limit := ledger.limit
    have bounded := (counters tenantId).2
    simp only
    omega
  · have total := sum_set_add Permit.permits isThread permit'
    have before := ledger.permits
    simp only
    omega

theorem run (schedule : List ℕ) :
    LimiterLedger globalLimit perTenantLimit (sys.run Permit.step schedule) :=
  run_induction (fun _ _ => True) ledger
    (fun _ _ _ _ _ ledger _ isThread steps => ledger.step isThread steps)
    (along_of_forall (fun _ _ => trivial) schedule)

/-- **All that a refused call has done to the counters comes to nothing.** -/
theorem refused_effect {schedule : List ℕ}
    (called : sys.threads[i]? = some (.calling caller))
    (refused : (sys.run Permit.step schedule).threads[i]? = some (.refused tenantId error)) :
    sys.effect Permit.step (fun limiter => (limiter.available : ℤ)) i schedule = 0 ∧
      ∀ other, sys.effect Permit.step (fun limiter => (limiter.perTenant other : ℤ)) i
      schedule = 0 := by
  constructor
  · refine effect_eq (fun _ _ => True) _ (fun permit => (permit.permits : ℤ)) ledger ?_
      (along_of_forall (fun _ _ => trivial) schedule) called refused
    intro sys i permit permit' limiter' ledger _ isThread steps
    refine ⟨ledger.step isThread steps, ?_⟩
    exact mod_cast (step_conserves (ledger.slots_le isThread) steps).2.1
  · intro other
    refine effect_eq (fun _ _ => True) _ (fun permit => -(permit.slots other : ℤ)) ledger ?_
      (along_of_forall (fun _ _ => trivial) schedule) called refused
    intro sys i permit permit' limiter' ledger _ isThread steps
    refine ⟨ledger.step isThread steps, ?_⟩
    have conserved :=
      ((step_conserves (ledger.slots_le isThread) steps).2.2 other).1
    omega

end

end LimiterLedger

/-! ### The guards -/

def liveGuards (tenantId : String) (sys : System Permit ConcurrencyLimiter) : ℕ :=
  sys.threads.count (.live tenantId)

def allLiveGuards (sys : System Permit ConcurrencyLimiter) : ℕ := sys.threads.countP isLive

/-- The calls and drops that hold a permit while there is no live guard. -/
def permitsBetween (sys : System Permit ConcurrencyLimiter) : ℕ :=
  sys.threads.countP isBetween

/-- Live guards and free permits alone make up the global limit, and every tenant's counter is the
number of its live guards. -/
structure GuardsBalance (globalLimit perTenantLimit : ℕ) (sys : System Permit ConcurrencyLimiter) :
    Prop where
  tenants : ∀ tenantId, sys.shared.perTenant tenantId = liveGuards tenantId sys ∧
    liveGuards tenantId sys ≤ perTenantLimit
  permits : allLiveGuards sys + sys.shared.available = globalLimit

namespace LimiterLedger

variable {globalLimit perTenantLimit : ℕ} {sys : System Permit ConcurrencyLimiter}

section

variable (ledger : LimiterLedger globalLimit perTenantLimit sys)
include ledger

theorem perTenant_eq (tenantId : String) :
    sys.shared.perTenant tenantId = liveGuards tenantId sys := by
  rw [ledger.tenants, liveGuards, List.count]
  exact sum_map_eq_countP (fun permit => by simp [slots]) _

theorem available_eq :
    allLiveGuards sys + permitsBetween sys + sys.shared.available = globalLimit := by
  have split : (sys.threads.map Permit.permits).sum = allLiveGuards sys + permitsBetween sys := by
    unfold Permit.permits
    rw [List.sum_map_add]
    exact congrArg₂ _ (sum_map_eq_countP (fun _ => rfl) _) (sum_map_eq_countP (fun _ => rfl) _)
  have total := ledger.permits
  omega

end

end LimiterLedger

/-- **The accounts of every interleaving of calls and drops.** A tenant's counter is the number of
its live guards and within the limit; live guards, permits in between and free permits are the
global limit; and a refused call leaves both counters as if it had not been made. -/
theorem limiter_accounts (globalLimit perTenantLimit : ℕ) (tenants : List String)
    (schedule : List ℕ) :
    let started := servingTenants globalLimit perTenantLimit tenants
    let sys := started.run step schedule
    (∀ tenantId, sys.shared.perTenant tenantId = liveGuards tenantId sys ∧
        liveGuards tenantId sys ≤ perTenantLimit) ∧
      allLiveGuards sys + permitsBetween sys + sys.shared.available = globalLimit ∧
      (permitsBetween sys = 0 → GuardsBalance globalLimit perTenantLimit sys) ∧
      ∀ i tenantId error, sys.threads[i]? = some (.refused tenantId error) →
        started.effect step (fun limiter => (limiter.available : ℤ)) i schedule = 0 ∧
          ∀ other, started.effect step (fun limiter => (limiter.perTenant other : ℤ)) i
            schedule = 0 := by
  intro started sys
  have atStart := LimiterLedger.start globalLimit perTenantLimit tenants
  have ledger : LimiterLedger globalLimit perTenantLimit sys := atStart.run schedule
  have counters : ∀ tenantId, sys.shared.perTenant tenantId = liveGuards tenantId sys ∧
      liveGuards tenantId sys ≤ perTenantLimit := fun tenantId =>
    ⟨ledger.perTenant_eq tenantId, ledger.perTenant_eq tenantId ▸ ledger.within tenantId⟩
  have permits := ledger.available_eq
  refine ⟨counters, permits, fun quiet => ⟨counters, ?_⟩, fun i tenantId error refused => ?_⟩
  · rwa [quiet, add_zero] at permits
  · obtain ⟨permit, called⟩ := exists_thread_of_run refused
    obtain ⟨caller, -, rfl⟩ := List.mem_map.mp (List.mem_of_getElem? called)
    exact atStart.refused_effect called refused

/-- After the first operation of the only call the permit is taken and no guard is alive: no number
of live guards is both the tenants' counters and what the free permits lack. -/
theorem not_guardsBalance_firstStep :
    ¬ GuardsBalance 1 1 ((servingTenants 1 1 ["tenant"]).run step [0]) := by
  intro balance
  have permits := balance.permits
  revert permits
  decide

end Muli
