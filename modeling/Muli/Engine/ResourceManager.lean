/-
**The resource manager, one atomic operation at a time.**

`try_allocate` takes an execution slot, reserves CPU and then memory in compare-and-swap loops, and
records the allocation; when CPU or memory does not suffice it gives back what it has taken.
`release` removes the record and then gives back CPU, memory and slot. Any number of calls
interleave.

* `resource_accounts` — **the accounts of every interleaving** in which no job is recorded twice.
-/

import Mathlib.Algebra.Group.Int.Defs
import Mathlib.Algebra.Group.Prod
import Muli.Queue.Concurrency

namespace Muli

open Interaction List

/-- What a job has been given. -/
structure ResourceAllocation where
  jobId : String
  cpuMillicores : ℕ
  memoryBytes : ℕ
deriving DecidableEq

/-- The totals, the three counters and the table of allocations. -/
structure ResourceManager where
  totalCpu : ℕ
  totalMemory : ℕ
  usedCpu : ℕ
  usedMemory : ℕ
  freeSlots : ℕ
  allocations : Table ResourceAllocation.jobId

namespace ResourceManager

def new (totalCpu totalMemory maxSlots : ℕ) : ResourceManager :=
  ⟨totalCpu, totalMemory, 0, 0, maxSlots, ⟨[], nodup_nil⟩⟩

def allocatedCpu (manager : ResourceManager) : ℕ :=
  (manager.allocations.rows.map ResourceAllocation.cpuMillicores).sum

def allocatedMemory (manager : ResourceManager) : ℕ :=
  (manager.allocations.rows.map ResourceAllocation.memoryBytes).sum

/-- Slots in use, up to the number there are, CPU, memory and the number of records. -/
def footprint (manager : ResourceManager) : ℤ × ℤ × ℤ × ℤ :=
  (-manager.freeSlots, manager.usedCpu, manager.usedMemory, manager.allocations.rows.length)

end ResourceManager

open ResourceManager

/-! ### The atomic operations -/

/-- Addition of `u64`. -/
def wrappingAdd (value amount : ℕ) : ℕ := (value + amount) % 2 ^ 64

/-- Where a call stands between its atomic steps. -/
inductive ResourceCall where
  | allocating (request : ResourceAllocation)
  | seated (request : ResourceAllocation)
  | cpuLoaded (request : ResourceAllocation) (current : ℕ)
  | cpuReserved (request : ResourceAllocation)
  | memoryLoaded (request : ResourceAllocation) (current : ℕ)
  | reserved (request : ResourceAllocation)
  | cpuReturned (request : ResourceAllocation) (error : MuliError)
  | allocated (request : ResourceAllocation)
  | refused (request : ResourceAllocation) (error : MuliError)
  | releasing (jobId : String)
  | removed (allocation : ResourceAllocation)
  | cpuFreed (allocation : ResourceAllocation)
  | memoryFreed (allocation : ResourceAllocation)
  | released (allocation : ResourceAllocation)
  | notHeld (jobId : String)
deriving DecidableEq

namespace ResourceCall

/-- **The next atomic operation of a call.** -/
def step : Machine ResourceCall ResourceManager
  | allocating request, manager =>
    if manager.freeSlots = 0 then
      some (refused request (.concurrencyLimit "No available execution slots"), manager)
    else some (seated request, { manager with freeSlots := manager.freeSlots - 1 })
  | seated request, manager => some (cpuLoaded request manager.usedCpu, manager)
  | cpuLoaded request current, manager =>
    if wrappingAdd current request.cpuMillicores > manager.totalCpu then
      some (refused request (.insufficientResources (request.cpuMillicores.repr ++ "m CPU")
          ((wrappingSub manager.totalCpu current).repr ++ "m CPU")),
        { manager with freeSlots := manager.freeSlots + 1 })
    else if manager.usedCpu = current then
      some (cpuReserved request,
        { manager with usedCpu := wrappingAdd current request.cpuMillicores })
    else some (seated request, manager)
  | cpuReserved request, manager => some (memoryLoaded request manager.usedMemory, manager)
  | memoryLoaded request current, manager =>
    if wrappingAdd current request.memoryBytes > manager.totalMemory then
      some (cpuReturned request
          (.insufficientResources (request.memoryBytes.repr ++ " bytes memory")
            ((wrappingSub manager.totalMemory current).repr ++ " bytes memory")),
        { manager with usedCpu := wrappingSub manager.usedCpu request.cpuMillicores })
    else if manager.usedMemory = current then
      some (reserved request,
        { manager with usedMemory := wrappingAdd current request.memoryBytes })
    else some (cpuReserved request, manager)
  | reserved request, manager =>
    some (allocated request, { manager with allocations := manager.allocations.upsert request })
  | cpuReturned request error, manager =>
    some (refused request error, { manager with freeSlots := manager.freeSlots + 1 })
  | releasing jobId, manager =>
    match manager.allocations.find jobId with
    | none => some (notHeld jobId, manager)
    | some allocation =>
      some (removed allocation,
        { manager with allocations := manager.allocations.erase jobId })
  | removed allocation, manager =>
    some (cpuFreed allocation,
      { manager with usedCpu := wrappingSub manager.usedCpu allocation.cpuMillicores })
  | cpuFreed allocation, manager =>
    some (memoryFreed allocation,
      { manager with usedMemory := wrappingSub manager.usedMemory allocation.memoryBytes })
  | memoryFreed allocation, manager =>
    some (released allocation, { manager with freeSlots := manager.freeSlots + 1 })
  | allocated _, _ | refused _ _, _ | released _, _ | notHeld _, _ => none

/-! ### What a call in progress holds -/

/-- The slots that a call holds beside the table. -/
def slots : ResourceCall → ℕ
  | seated _ | cpuLoaded .. | cpuReserved _ | memoryLoaded .. | reserved _ | cpuReturned .. => 1
  | removed _ | cpuFreed _ | memoryFreed _ => 1
  | _ => 0

def cpu : ResourceCall → ℕ
  | cpuReserved request | memoryLoaded request _ | reserved request => request.cpuMillicores
  | removed allocation => allocation.cpuMillicores
  | _ => 0

def memory : ResourceCall → ℕ
  | reserved request => request.memoryBytes
  | removed allocation | cpuFreed allocation => allocation.memoryBytes
  | _ => 0

/-- What the call has done so far to slots in use, CPU, memory and the number of records. -/
def left : ResourceCall → ℤ × ℤ × ℤ × ℤ
  | seated _ | cpuLoaded .. | cpuReturned .. => (1, 0, 0, 0)
  | cpuReserved request | memoryLoaded request _ => (1, request.cpuMillicores, 0, 0)
  | reserved request => (1, request.cpuMillicores, request.memoryBytes, 0)
  | allocated request => (1, request.cpuMillicores, request.memoryBytes, 1)
  | removed _ => (0, 0, 0, -1)
  | cpuFreed allocation => (0, -allocation.cpuMillicores, 0, -1)
  | memoryFreed allocation => (0, -allocation.cpuMillicores, -allocation.memoryBytes, -1)
  | released allocation => (-1, -allocation.cpuMillicores, -allocation.memoryBytes, -1)
  | allocating _ | refused .. | releasing _ | notHeld _ => 0

/-- The request of an allocation that is under way. -/
def request? : ResourceCall → Option ResourceAllocation
  | allocating request | seated request | cpuLoaded request _ | cpuReserved request
  | memoryLoaded request _ | reserved request => some request
  | _ => none

/-- The request whose entry is about to be made. -/
def recording? : ResourceCall → Option ResourceAllocation
  | reserved request => some request
  | _ => none

end ResourceCall

open ResourceCall

/-- The allocation that the next step of a thread records is of a job that holds none. -/
def NotHolding (sys : System ResourceCall ResourceManager) (i : ℕ) : Prop :=
  ∀ request ∈ sys.threads[i]?.bind recording?,
    sys.shared.allocations.find request.jobId = none
deriving Decidable

/-- Calls to allocate and to release, side by side. -/
def servingCalls (totalCpu totalMemory maxSlots : ℕ) (requests : List ResourceAllocation)
    (releases : List String) : System ResourceCall ResourceManager :=
  ⟨requests.map .allocating ++ releases.map .releasing, .new totalCpu totalMemory maxSlots⟩

/-- No check of the request can exceed 64 bits. -/
def Fits (totalCpu totalMemory : ℕ) (request : ResourceAllocation) : Prop :=
  totalCpu + request.cpuMillicores < 2 ^ 64 ∧ totalMemory + request.memoryBytes < 2 ^ 64

instance (totalCpu totalMemory : ℕ) : DecidablePred (Fits totalCpu totalMemory) :=
  fun _ => inferInstanceAs (Decidable (_ ∧ _))

/-! ### One step -/

/-- A step against the records and what the call then holds. -/
structure StepConserves (call : ResourceCall) (manager : ResourceManager) (call' : ResourceCall)
    (manager' : ResourceManager) : Prop where
  totals : manager'.totalCpu = manager.totalCpu ∧ manager'.totalMemory = manager.totalMemory
  request : ∀ request, call'.request? = some request → call.request? = some request
  slots : manager'.freeSlots + manager'.allocations.rows.length + call'.slots =
    manager.freeSlots + manager.allocations.rows.length + call.slots
  cpu : manager'.usedCpu + manager.allocatedCpu + call.cpu =
    manager.usedCpu + manager'.allocatedCpu + call'.cpu
  memory : manager'.usedMemory + manager.allocatedMemory + call.memory =
    manager.usedMemory + manager'.allocatedMemory + call'.memory
  footprint : manager'.footprint + call.left = manager.footprint + call'.left
  cpuWithin : manager'.usedCpu ≤ manager.usedCpu ∨ manager'.usedCpu ≤ manager.totalCpu
  memoryWithin : manager'.usedMemory ≤ manager.usedMemory ∨
    manager'.usedMemory ≤ manager.totalMemory

theorem wrappingAdd_of_fits (fits : value + amount < 2 ^ 64) :
    wrappingAdd value amount = value + amount := Nat.mod_eq_of_lt fits

section Steps

variable {call call' : ResourceCall} {manager manager' : ResourceManager}

namespace StepConserves

theorem request_of_none (ended : call'.request? = none) (request : ResourceAllocation)
    (asked : call'.request? = some request) : call.request? = some request := by
  rw [ended] at asked
  cases asked

section Moves

variable (request : ∀ request, call'.request? = some request → call.request? = some request)
include request

theorem idle (slots : call'.slots = call.slots) (cpu : call'.cpu = call.cpu)
    (memory : call'.memory = call.memory) (left : call'.left = call.left) :
    StepConserves call manager call' manager where
  totals := ⟨rfl, rfl⟩
  request := request
  slots := by rw [slots]
  cpu := by rw [cpu]
  memory := by rw [memory]
  footprint := by rw [left]
  cpuWithin := .inl le_rfl
  memoryWithin := .inl le_rfl

theorem slotFreed (slots : call.slots = call'.slots + 1) (cpu : call'.cpu = call.cpu)
    (memory : call'.memory = call.memory) (left : call'.left = call.left + (-1, 0, 0, 0)) :
    StepConserves call manager call' { manager with freeSlots := manager.freeSlots + 1 } where
  totals := ⟨rfl, rfl⟩
  request := request
  slots := by
    dsimp only
    omega
  cpu := by rw [cpu]; rfl
  memory := by rw [memory]; rfl
  footprint := by
    rw [left]
    ext <;> simp [ResourceManager.footprint]
    omega
  cpuWithin := .inl le_rfl
  memoryWithin := .inl le_rfl

theorem cpuMoved (slots : call'.slots = call.slots)
    (cpu : used + call.cpu = manager.usedCpu + call'.cpu) (memory : call'.memory = call.memory)
    (left : call'.left = call.left + (0, (call'.cpu : ℤ) - call.cpu, 0, 0))
    (within : used ≤ manager.usedCpu ∨ used ≤ manager.totalCpu) :
    StepConserves call manager call' { manager with usedCpu := used } where
  totals := ⟨rfl, rfl⟩
  request := request
  slots := by rw [slots]
  cpu := by
    simp only [allocatedCpu]
    omega
  memory := by rw [memory]; rfl
  footprint := by
    rw [left]
    ext <;> simp [ResourceManager.footprint]
    omega
  cpuWithin := within
  memoryWithin := .inl le_rfl

theorem memoryMoved (slots : call'.slots = call.slots) (cpu : call'.cpu = call.cpu)
    (memory : used + call.memory = manager.usedMemory + call'.memory)
    (left : call'.left = call.left + (0, 0, (call'.memory : ℤ) - call.memory, 0))
    (within : used ≤ manager.usedMemory ∨ used ≤ manager.totalMemory) :
    StepConserves call manager call' { manager with usedMemory := used } where
  totals := ⟨rfl, rfl⟩
  request := request
  slots := by rw [slots]
  cpu := by rw [cpu]; rfl
  memory := by
    simp only [allocatedMemory]
    omega
  footprint := by
    rw [left]
    ext <;> simp [ResourceManager.footprint]
    omega
  cpuWithin := .inl le_rfl
  memoryWithin := within

end Moves

theorem recorded {request : ResourceAllocation}
    (notHolding : manager.allocations.find request.jobId = none) :
    StepConserves (.reserved request) manager (.allocated request)
      { manager with allocations := manager.allocations.upsert request } := by
  have rows := Table.rows_upsert_of_find_none notHolding
  refine ⟨⟨rfl, rfl⟩, request_of_none rfl, ?_, ?_, ?_, ?_, .inl le_rfl, .inl le_rfl⟩
  · grind [ResourceCall.slots]
  · grind [allocatedCpu, ResourceCall.cpu]
  · grind [allocatedMemory, ResourceCall.memory]
  · ext <;> simp [ResourceManager.footprint, left, rows]

theorem erased (found : manager.allocations.find jobId = some allocation) :
    StepConserves (.releasing jobId) manager (.removed allocation)
      { manager with allocations := manager.allocations.erase jobId } := by
  have perm := Table.perm_erase found
  have length := perm.length_eq
  have cpuSum := (perm.map ResourceAllocation.cpuMillicores).sum_eq
  have memorySum := (perm.map ResourceAllocation.memoryBytes).sum_eq
  simp only [length_cons, map_cons, sum_cons] at length cpuSum memorySum
  refine ⟨⟨rfl, rfl⟩, request_of_none rfl, ?_, ?_, ?_, ?_, .inl le_rfl, .inl le_rfl⟩
  · simp only [ResourceCall.slots]
    omega
  · simp only [allocatedCpu, ResourceCall.cpu]
    omega
  · simp only [allocatedMemory, ResourceCall.memory]
    omega
  · ext <;> simp [ResourceManager.footprint, left]
    omega

end StepConserves

/-- **Every step conserves.** It leaves the manager alone, or moves one of slot, CPU, memory and
record. -/
theorem ResourceCall.step_conserves (fits : ∀ request, call.request? = some request →
      Fits manager.totalCpu manager.totalMemory request)
      (notHolding : ∀ request, call = reserved request →
      manager.allocations.find request.jobId = none)
    (cpuUsed : call.cpu ≤ manager.usedCpu) (cpuWithin : manager.usedCpu ≤ manager.totalCpu)
    (memoryUsed : call.memory ≤ manager.usedMemory)
    (memoryWithin : manager.usedMemory ≤ manager.totalMemory)
    (steps : call.step manager = some (call', manager')) :
    StepConserves call manager call' manager' := by
  cases call with
  | allocating request =>
    simp only [step] at steps
    split_ifs at steps with none
    · cases steps
      exact .idle (StepConserves.request_of_none rfl) rfl rfl rfl rfl
    · cases steps
      refine ⟨⟨rfl, rfl⟩, fun _ same => same, ?_, rfl, rfl, ?_, .inl le_rfl, .inl le_rfl⟩
      · simp only [slots]
        omega
      · ext <;> simp [footprint, left]
        omega
  | seated request =>
    cases steps
    exact .idle (fun _ same => same) rfl rfl rfl rfl
  | cpuLoaded request current =>
    simp only [step] at steps
    split_ifs at steps with full unchanged
    · cases steps
      exact .slotFreed (StepConserves.request_of_none rfl) rfl rfl rfl rfl
    · cases steps
      have sum : wrappingAdd current request.cpuMillicores = current + request.cpuMillicores :=
        wrappingAdd_of_fits (by have := (fits request rfl).1; omega)
      refine .cpuMoved ?_ rfl ?_ rfl ?_ (.inr (not_lt.mp full))
      · exact fun _ same => same
      · rw [sum, unchanged]
        rfl
      · simp [left, cpu]
    · cases steps
      exact .idle (fun _ same => same) rfl rfl rfl rfl
  | cpuReserved request =>
    cases steps
    exact .idle (fun _ => id) rfl rfl rfl rfl
  | memoryLoaded request current =>
    simp only [step] at steps
    split_ifs at steps with full unchanged
    · cases steps
      have restored := wrappingSub_add_self cpuUsed
      refine .cpuMoved ?_ rfl restored rfl ?_ (.inl (Nat.le.intro restored))
      · exact StepConserves.request_of_none rfl
      · simp [left, cpu]
    · cases steps
      have sum : wrappingAdd current request.memoryBytes = current + request.memoryBytes :=
        wrappingAdd_of_fits (by have := (fits request rfl).2; omega)
      refine .memoryMoved ?_ rfl rfl ?_ ?_ (.inr (not_lt.mp full))
      · exact fun _ => id
      · rw [sum, unchanged]
        rfl
      · simp [left, memory]
    · cases steps
      exact .idle (fun _ => id) rfl rfl rfl rfl
  | reserved request =>
    cases steps
    exact .recorded (notHolding request rfl)
  | cpuReturned request error =>
    cases steps
    exact .slotFreed (StepConserves.request_of_none rfl) rfl rfl rfl rfl
  | releasing jobId =>
    simp only [step] at steps
    cases found : manager.allocations.find jobId with
    | none =>
      rw [found] at steps
      cases steps
      exact .idle (StepConserves.request_of_none rfl) rfl rfl rfl rfl
    | some allocation =>
      rw [found] at steps
      cases steps
      exact .erased found
  | removed allocation =>
    cases steps
    have restored := wrappingSub_add_self cpuUsed
    refine .cpuMoved ?_ rfl restored rfl ?_ (.inl (Nat.le.intro restored))
    · exact StepConserves.request_of_none rfl
    · simp [left, cpu]
  | cpuFreed allocation =>
    cases steps
    have restored := wrappingSub_add_self memoryUsed
    refine .memoryMoved ?_ rfl rfl restored ?_ (.inl (Nat.le.intro restored))
    · exact StepConserves.request_of_none rfl
    · simp [left, memory]
  | memoryFreed allocation =>
    cases steps
    refine .slotFreed (StepConserves.request_of_none rfl) rfl rfl rfl ?_
    simp [left]
  | _ => cases steps

end Steps

/-! ### The accounts -/

/-- **The accounts of the manager at a moment of a run.** -/
structure ResourceLedger (totalCpu totalMemory maxSlots : ℕ)
    (sys : System ResourceCall ResourceManager) : Prop where
  totals : sys.shared.totalCpu = totalCpu ∧ sys.shared.totalMemory = totalMemory
  fits : ∀ call ∈ sys.threads, ∀ request, call.request? = some request →
    Fits totalCpu totalMemory request
  slots : sys.shared.freeSlots + sys.shared.allocations.rows.length +
    (sys.threads.map slots).sum = maxSlots
  cpu : sys.shared.usedCpu = sys.shared.allocatedCpu + (sys.threads.map cpu).sum
  memory : sys.shared.usedMemory =
    sys.shared.allocatedMemory + (sys.threads.map memory).sum
  cpuWithin : sys.shared.usedCpu ≤ totalCpu
  memoryWithin : sys.shared.usedMemory ≤ totalMemory

namespace ResourceLedger

variable {totalCpu totalMemory maxSlots : ℕ} {sys : System ResourceCall ResourceManager}

theorem start (totalCpu totalMemory maxSlots : ℕ)
    (fits : ∀ request ∈ requests, Fits totalCpu totalMemory request) (releases : List String) :
    ResourceLedger totalCpu totalMemory maxSlots
      (servingCalls totalCpu totalMemory maxSlots requests releases) where
  totals := ⟨rfl, rfl⟩
  fits := by
    intro call isCall request asked
    rcases mem_append.mp isCall with allocates | releases
    · obtain ⟨own, isRequest, rfl⟩ := mem_map.mp allocates
      obtain rfl := Option.some.inj asked
      exact fits own isRequest
    · obtain ⟨jobId, -, rfl⟩ := mem_map.mp releases
      cases asked
  slots := by
    simp [servingCalls, new, Function.comp_def, ResourceCall.slots]
  cpu := by
    simp [servingCalls, new, allocatedCpu, Function.comp_def,
      ResourceCall.cpu]
  memory := by
    simp [servingCalls, new, allocatedMemory, Function.comp_def,
      ResourceCall.memory]
  cpuWithin := Nat.zero_le _
  memoryWithin := Nat.zero_le _

variable {call call' : ResourceCall} {manager' : ResourceManager}

section

variable (ledger : ResourceLedger totalCpu totalMemory maxSlots sys)
include ledger

theorem conserves
    (notHolding : NotHolding sys i) (isThread : sys.threads[i]? = some call)
    (steps : call.step sys.shared = some (call', manager')) :
    StepConserves call sys.shared call' manager' := by
  obtain ⟨rfl, rfl⟩ := ledger.totals
  refine step_conserves (ledger.fits call (mem_of_getElem? isThread))
    (fun request same => notHolding request (by rw [isThread, same]; rfl)) ?_ ledger.cpuWithin ?_
    ledger.memoryWithin steps
  · rw [ledger.cpu]
    exact (held_le_sum _ isThread).trans (Nat.le_add_left _ _)
  · rw [ledger.memory]
    exact (held_le_sum _ isThread).trans (Nat.le_add_left _ _)

theorem step
    (notHolding : NotHolding sys i) (isThread : sys.threads[i]? = some call)
    (steps : call.step sys.shared = some (call', manager')) :
    ResourceLedger totalCpu totalMemory maxSlots ⟨sys.threads.set i call', manager'⟩ := by
  have conserved := ledger.conserves notHolding isThread steps
  have slots := sum_set_add ResourceCall.slots isThread call'
  have cpu := sum_set_add ResourceCall.cpu isThread call'
  have memory := sum_set_add ResourceCall.memory isThread call'
  obtain ⟨sameCpu, sameMemory⟩ := conserved.totals
  obtain ⟨cpuTotal, memoryTotal⟩ := ledger.totals
  constructor
  case totals => exact ⟨sameCpu.trans cpuTotal, sameMemory.trans memoryTotal⟩
  case fits =>
    intro other isOther request asked
    rcases mem_or_eq_of_mem_set isOther with before | rfl
    · exact ledger.fits other before request asked
    · exact ledger.fits call (mem_of_getElem? isThread) request
        (conserved.request request asked)
  case slots =>
    have before := ledger.slots
    have moved := conserved.slots
    simp only
    omega
  case cpu =>
    have before := ledger.cpu
    have moved := conserved.cpu
    simp only
    omega
  case memory =>
    have before := ledger.memory
    have moved := conserved.memory
    simp only
    omega
  case cpuWithin =>
    have before := ledger.cpuWithin
    have moved := conserved.cpuWithin
    simp only
    omega
  case memoryWithin =>
    have before := ledger.memoryWithin
    have moved := conserved.memoryWithin
    simp only
    omega

section

variable (along : sys.Along ResourceCall.step NotHolding schedule)
include along

theorem run :
    ResourceLedger totalCpu totalMemory maxSlots (sys.run ResourceCall.step schedule) :=
  System.run_induction NotHolding ledger
    (fun _ _ _ _ _ ledger notHolding isThread steps => ledger.step notHolding isThread steps) along

/-- **All that a call has done to the manager is what it leaves behind.** -/
theorem footprint_effect (before : sys.threads[i]? = some call)
    (after : (sys.run ResourceCall.step schedule).threads[i]? = some call') :
    sys.effect ResourceCall.step footprint i schedule = call'.left - call.left := by
  rw [← neg_sub_neg]
  refine System.effect_eq NotHolding _ (fun call => -call.left) ledger ?_ along before after
  intro sys i call call' manager' ledger notHolding isThread steps
  refine ⟨ledger.step notHolding isThread steps, ?_⟩
  have conserved := (ledger.conserves notHolding isThread steps).footprint
  rwa [← sub_eq_add_neg, ← sub_eq_add_neg, sub_eq_sub_iff_add_eq_add]

end

end

end ResourceLedger

/-! ### The allocations -/

/-- What the calls in progress hold together. -/
def slotsInProgress (sys : System ResourceCall ResourceManager) : ℕ :=
  (sys.threads.map slots).sum

@[inherit_doc slotsInProgress]
def cpuInProgress (sys : System ResourceCall ResourceManager) : ℕ :=
  (sys.threads.map cpu).sum

@[inherit_doc slotsInProgress]
def memoryInProgress (sys : System ResourceCall ResourceManager) : ℕ :=
  (sys.threads.map memory).sum

/-- The recorded allocations alone account for CPU, memory and slots. -/
structure AllocationsBalance (totalCpu totalMemory maxSlots : ℕ) (manager : ResourceManager) :
    Prop where
  cpu : manager.usedCpu = manager.allocatedCpu ∧ manager.usedCpu ≤ totalCpu
  memory : manager.usedMemory = manager.allocatedMemory ∧ manager.usedMemory ≤ totalMemory
  slots : manager.freeSlots + manager.allocations.rows.length = maxSlots

namespace ResourceCall

theorem holds_nothing {call : ResourceCall} (none : call.slots = 0) :
    call.cpu = 0 ∧ call.memory = 0 := by
  cases call <;> simp_all [slots, cpu, memory]

end ResourceCall

theorem nothingInProgress {sys : System ResourceCall ResourceManager}
    (quiet : slotsInProgress sys = 0) : cpuInProgress sys = 0 ∧ memoryInProgress sys = 0 := by
  have none : ∀ call ∈ sys.threads, call.slots = 0 := fun call isCall =>
    sum_eq_zero_iff.mp quiet _ (mem_map_of_mem isCall)
  constructor <;> refine sum_eq_zero fun held isHeld => ?_
  · grind [holds_nothing]
  · obtain ⟨call, isCall, rfl⟩ := mem_map.mp isHeld
    exact (holds_nothing (none call isCall)).2

/-- **The accounts of every interleaving of allocations and releases** in which no job that holds an
allocation is recorded again. Used CPU and memory are those of the recorded allocations and of the
calls in progress, within the totals; free slots, allocations and slots in progress are all the
slots; and a refused call leaves nothing behind. -/
theorem resource_accounts (totalCpu totalMemory maxSlots : ℕ) (requests : List ResourceAllocation)
    (releases : List String) (schedule : List ℕ)
    (fits : ∀ request ∈ requests, Fits totalCpu totalMemory request) :
    let started := servingCalls totalCpu totalMemory maxSlots requests releases
    let sys := started.run step schedule
    started.Along step NotHolding schedule →
      (sys.shared.usedCpu = sys.shared.allocatedCpu + cpuInProgress sys ∧
          sys.shared.usedCpu ≤ totalCpu) ∧
        (sys.shared.usedMemory = sys.shared.allocatedMemory + memoryInProgress sys ∧
          sys.shared.usedMemory ≤ totalMemory) ∧
        sys.shared.freeSlots + sys.shared.allocations.rows.length + slotsInProgress sys = maxSlots ∧
        (slotsInProgress sys = 0 →
          AllocationsBalance totalCpu totalMemory maxSlots sys.shared) ∧
        ∀ i request error, sys.threads[i]? = some (.refused request error) →
          started.effect step footprint i schedule = 0 := by
  intro started sys along
  have atStart := ResourceLedger.start totalCpu totalMemory maxSlots fits releases
  have ledger : ResourceLedger totalCpu totalMemory maxSlots sys := atStart.run along
  refine ⟨⟨ledger.cpu, ledger.cpuWithin⟩, ⟨ledger.memory, ledger.memoryWithin⟩, ledger.slots,
    fun quiet => ?_, fun i request error refused => ?_⟩
  · obtain ⟨noCpu, noMemory⟩ := nothingInProgress quiet
    refine ⟨⟨?_, ledger.cpuWithin⟩, ⟨?_, ledger.memoryWithin⟩, ?_⟩
    · exact ledger.cpu.trans (congrArg _ noCpu)
    · exact ledger.memory.trans (congrArg _ noMemory)
    · exact (congrArg _ quiet).symm.trans ledger.slots
  · obtain ⟨call, called⟩ := System.exists_thread_of_run refused
    rw [atStart.footprint_effect along called refused]
    rcases mem_append.mp (mem_of_getElem? called) with allocates | releases
    · obtain ⟨own, -, rfl⟩ := mem_map.mp allocates
      exact sub_self _
    · obtain ⟨jobId, -, rfl⟩ := mem_map.mp releases
      exact sub_self _

/-- One slot and two jobs: the second is refused while the first is on its way. -/
theorem resource_accounts_twoJobs :
    let started := servingCalls 1000 512 1 [⟨"build", 800, 256⟩, ⟨"deploy", 100, 128⟩] ["build"]
    let schedule := [0, 1, 0, 0, 0, 0, 0]
    AllocationsBalance 1000 512 1 (started.run step schedule).shared ∧
      started.effect step footprint 1 schedule = 0 := by
  intro started schedule
  have accounts := resource_accounts 1000 512 1 [⟨"build", 800, 256⟩, ⟨"deploy", 100, 128⟩]
    ["build"] schedule (by decide +kernel) (by decide +kernel)
  exact ⟨accounts.2.2.2.1 (by decide +kernel),
    accounts.2.2.2.2 1 ⟨"deploy", 100, 128⟩ (.concurrencyLimit "No available execution slots")
      (by decide +kernel)⟩

/-- After the first operation of the only call a slot is taken and nothing is recorded. -/
theorem not_allocationsBalance_firstStep : ¬ AllocationsBalance 1000 512 1
      ((servingCalls 1000 512 1 [⟨"build", 800, 256⟩] []).run step [0]).shared := by
  intro balance
  have slots := balance.slots
  revert slots
  decide

end Muli
