/-
**The priority queue: a heap with tombstones against a collection of job ids.**

`PriorityQueue` is the code's queue: a heap of scored jobs, the tier of each id, and the set of
tombstones that `remove` leaves and `pop` consumes.

* `Anchored.step` — one operation does to `live` what it does to a collection, **provided** `remove`
  names an id with exactly one entry and `refresh_scores` finds every tombstoned id with exactly
  one.
-/

import Mathlib.Data.Finset.Card
import Mathlib.Data.Finset.Insert
import Mathlib.Data.Multiset.AddSub
import Mathlib.Data.Multiset.Filter
import Mathlib.Data.Prod.Lex
import Mathlib.Data.String.Basic
import Muli.Core.Job
import Muli.Data.Heap

namespace Muli

open List

structure ScoredJob where
  jobId : String
  score : ℚ
  enqueuedAt : Timestamp
  tenantId : String
deriving DecidableEq, Repr

namespace ScoredJob

def new (now : Timestamp) (jobId : String) (tier : PriorityTier) (enqueuedAt : Timestamp)
    (tenantId : String) : ScoredJob :=
  ⟨jobId, calculateScore now tier enqueuedAt, enqueuedAt, tenantId⟩

def refreshScore (now : Timestamp) (tier : PriorityTier) (job : ScoredJob) : ScoredJob :=
  { job with score := calculateScore now tier job.enqueuedAt }

/-- Higher score first, ties broken by job id. -/
def rank (job : ScoredJob) : ℚ ×ₗ String := toLex (job.score, job.jobId)

end ScoredJob

open ScoredJob

structure PriorityQueue where
  heap : List ScoredJob
  tiers : String → Option PriorityTier
  removed : Finset String

namespace PriorityQueue

def new : PriorityQueue := ⟨[], fun _ => none, ∅⟩

def push (job : ScoredJob) (tier : PriorityTier) (queue : PriorityQueue) : PriorityQueue :=
  { queue with
    tiers := fun id => if id = job.jobId then some tier else queue.tiers id
    heap := job :: queue.heap }

/-- The loop of `pop`; each turn takes one entry out of the heap. -/
def popLoop : ℕ → PriorityQueue → Option ScoredJob × PriorityQueue
  | 0, queue => (none, queue)
  | turns + 1, queue =>
    match Heap.extractMax rank queue.heap with
    | none => (none, queue)
    | some (job, heap) =>
      if job.jobId ∈ queue.removed then
        popLoop turns { queue with heap := heap, removed := queue.removed.erase job.jobId }
      else (some job, { queue with heap := heap })

/-- Pop the highest-priority job, skipping entries that have been tombstoned. -/
def pop (queue : PriorityQueue) : Option ScoredJob × PriorityQueue :=
  popLoop queue.heap.length queue

def requeue (job : ScoredJob) (queue : PriorityQueue) : PriorityQueue :=
  { queue with heap := job :: queue.heap }

def remove (id : String) (queue : PriorityQueue) : PriorityQueue :=
  { queue with
    tiers := fun other => if other = id then none else queue.tiers other
    removed := insert id queue.removed }

/-- Number of live jobs, as the code counts them. -/
def len (queue : PriorityQueue) : ℕ := queue.heap.length - queue.removed.card

/-- Drop the tombstoned entries and recalculate the scores of those with a tier. -/
def refreshScores (now : Timestamp) (queue : PriorityQueue) : PriorityQueue :=
  { queue with
    heap := (queue.heap.filter fun job => job.jobId ∉ queue.removed).map fun job =>
      match queue.tiers job.jobId with
      | some tier => job.refreshScore now tier
      | none => job
    removed := ∅ }

end PriorityQueue

open PriorityQueue

inductive QueueOp where
  | push (job : ScoredJob) (tier : PriorityTier)
  | pop
  | requeue (job : ScoredJob)
  | remove (id : String)
  | refreshScores (now : Timestamp)

namespace PriorityQueue

def step : QueueOp → PriorityQueue → Option ScoredJob × PriorityQueue
  | .push job tier, queue => (none, queue.push job tier)
  | .pop, queue => queue.pop
  | .requeue job, queue => (none, queue.requeue job)
  | .remove id, queue => (none, queue.remove id)
  | .refreshScores now, queue => (none, queue.refreshScores now)

def run (ops : List QueueOp) (queue : PriorityQueue) : PriorityQueue :=
  ops.foldl (fun current op => (step op current).2) queue

/-- The jobs the pops among the calls return, in order. -/
def popped : List QueueOp → PriorityQueue → List ScoredJob
  | [], _ => []
  | op :: ops, queue => (step op queue).1.toList ++ popped ops (step op queue).2

def drain (queue : PriorityQueue) : List ScoredJob :=
  popped (replicate queue.heap.length .pop) queue

@[simp] theorem run_nil (queue : PriorityQueue) : run [] queue = queue := rfl

@[simp] theorem run_cons (op : QueueOp) (ops : List QueueOp) (queue : PriorityQueue) :
    run (op :: ops) queue = run ops (step op queue).2 := rfl

theorem run_append (ops ops' : List QueueOp) (queue : PriorityQueue) :
    run (ops ++ ops') queue = run ops' (run ops queue) := foldl_append ..

/-! ### Popping -/

def ids (queue : PriorityQueue) : List String := queue.heap.map jobId

/-- The queue after a turn of `pop` that met a tombstoned entry. -/
def skip (id : String) (heap : List ScoredJob) (queue : PriorityQueue) : PriorityQueue :=
  { queue with heap := heap, removed := queue.removed.erase id }

variable {queue : PriorityQueue}

theorem pop_of_empty (empty : queue.heap = []) : queue.pop = (none, queue) := by
  simp [pop, popLoop, empty]

variable {job : ScoredJob} {heap : List ScoredJob}

theorem pop_of_extractMax (top : Heap.extractMax rank queue.heap = some (job, heap)) :
    queue.pop = if job.jobId ∈ queue.removed then (queue.skip job.jobId heap).pop
      else (some job, { queue with heap := heap }) := by
  rw [pop, Heap.length_of_extractMax top, popLoop, top]
  rfl

/-- **Induction along the turns of `pop`.** -/
theorem pop_induction {motive : PriorityQueue → Prop}
    (empty : ∀ queue, queue.heap = [] → motive queue)
    (skipped : ∀ queue job heap, Heap.extractMax rank queue.heap = some (job, heap) →
      job.jobId ∈ queue.removed → motive (queue.skip job.jobId heap) → motive queue)
    (taken : ∀ queue job heap, Heap.extractMax rank queue.heap = some (job, heap) →
      job.jobId ∉ queue.removed → motive queue) (queue : PriorityQueue) : motive queue := by
  induction size : queue.heap.length generalizing queue with
  | zero => exact empty queue (length_eq_zero_iff.mp size)
  | succ n ih =>
    cases top : Heap.extractMax rank queue.heap with
    | none => exact empty queue (Heap.extractMax_eq_none.mp top)
    | some found =>
      obtain ⟨job, heap⟩ := found
      by_cases tombstoned : job.jobId ∈ queue.removed
      · refine skipped queue job heap top tombstoned (ih _ ?_)
        have := Heap.length_of_extractMax top
        show heap.length = n
        omega
      · exact taken queue job heap top tombstoned

theorem heap_of_pop_none (returned : queue.pop = (none, queue')) : queue'.heap = [] := by
  induction queue using pop_induction with
  | empty queue empty => grind [pop_of_empty]
  | skipped queue job heap top tombstoned ih => grind [pop_of_extractMax]
  | taken queue job heap top tombstoned =>
    rw [pop_of_extractMax top, if_neg tombstoned] at returned
    cases returned

theorem pop_some_spec (returned : queue.pop = (some job, queue')) :
    queue'.heap.length < queue.heap.length ∧ job.jobId ∉ queue'.removed ∧
      (∀ entry ∈ queue'.heap, entry.rank ≤ job.rank) ∧ job ∈ queue.heap := by
  induction queue using pop_induction with
  | empty queue empty =>
    rw [pop_of_empty empty] at returned
    cases returned
  | skipped queue other heap top tombstoned ih =>
    rw [pop_of_extractMax top, if_pos tombstoned] at returned
    have shorter : (queue.skip other.jobId heap).heap.length < queue.heap.length :=
      Heap.length_of_extractMax top ▸ Nat.lt_succ_self _
    obtain ⟨fewer, live, highest, mem⟩ := ih returned
    exact ⟨fewer.trans shorter, live, highest, (Heap.extractMax_perm top).mem_iff.mpr (.tail _ mem)⟩
  | taken queue other heap top tombstoned =>
    rw [pop_of_extractMax top, if_neg tombstoned] at returned
    obtain ⟨same, rfl⟩ := Prod.mk.inj returned
    obtain rfl : other = job := Option.some.inj same
    have perm := Heap.extractMax_perm top
    refine ⟨Heap.length_of_extractMax top ▸ Nat.lt_succ_self _, tombstoned, ?_,
      perm.mem_iff.mpr (.head _)⟩
    intro entry mem
    exact Heap.rank_le_of_extractMax top entry (perm.mem_iff.mpr (.tail _ mem))

/-- **Putting back what a pop returned undoes the pop:** the next pop returns it again. -/
theorem pop_requeue (returned : queue.pop = (some job, queue')) :
    (queue'.requeue job).pop = (some job, queue') := by
  obtain ⟨-, live, highest, -⟩ := pop_some_spec returned
  rw [pop_of_extractMax (Heap.extractMax_cons highest)]
  exact if_neg live

theorem popped_replicate_of_empty (empty : queue.heap = []) (n : ℕ) :
    popped (replicate n .pop) queue = [] := by
  induction n with
  | zero => rfl
  | succ n ih => grind [popped, step, pop_of_empty]

theorem popped_replicate (enough : queue.heap.length ≤ n) :
    popped (replicate n .pop) queue = queue.drain := by
  suffices agree : ∀ n m (queue : PriorityQueue), queue.heap.length ≤ n →
      queue.heap.length ≤ m → popped (.replicate n .pop) queue =
        popped (.replicate m .pop) queue from agree _ _ queue enough le_rfl
  intro n
  induction n with
  | zero => grind [popped_replicate_of_empty]
  | succ n ih =>
    intro m queue enough enough'
    cases m with
    | zero => grind
    | succ m =>
      rw [replicate_succ, replicate_succ, popped, popped, step]
      congr 1
      rcases returned : queue.pop with ⟨_ | job, queue'⟩
      · grind [heap_of_pop_none]
      · have shorter := (pop_some_spec returned).1
        exact ih m queue' (by omega) (by omega)

theorem drain_of_pop_none (returned : queue.pop = (none, queue')) : queue.drain = [] := by
  rw [← popped_replicate (Nat.le_succ _), replicate_succ, popped, step, returned]
  exact popped_replicate_of_empty (heap_of_pop_none returned) _

theorem drain_of_pop_some (returned : queue.pop = (some job, queue')) :
    queue.drain = job :: queue'.drain := by
  have shorter := (pop_some_spec returned).1
  rw [← popped_replicate (Nat.le_succ _), replicate_succ, popped, step, returned,
    popped_replicate shorter.le]
  rfl

/-- **Pops return the jobs by their ranks, the highest one first.** -/
theorem pairwise_drain (queue : PriorityQueue) :
    queue.drain.Pairwise fun first second => second.rank ≤ first.rank := by
  induction size : queue.heap.length using Nat.strong_induction_on generalizing queue with
  | _ n ih =>
    rcases returned : queue.pop with ⟨_ | job, queue'⟩
    · rw [drain_of_pop_none returned]
      exact .nil
    · obtain ⟨shorter, -, highest, -⟩ := pop_some_spec returned
      have sorted := ih _ (size ▸ shorter) queue' rfl
      rw [drain_of_pop_some returned]
      -- the job behind is the next one that is popped
      rcases next : queue'.pop with ⟨_ | job', _⟩
      · rw [drain_of_pop_none next]
        exact pairwise_singleton ..
      · rw [drain_of_pop_some next] at sorted ⊢
        have behind := highest job' (pop_some_spec next).2.2.2
        refine .cons (forall_mem_cons.mpr ⟨behind, fun later mem => ?_⟩) sorted
        exact (rel_of_pairwise_cons sorted mem).trans behind

/-! ### The collection of live ids -/

/-- The ids the queue stands for: those in the heap, less one for each tombstone. -/
def live (queue : PriorityQueue) : Multiset String := (queue.ids : Multiset String) -
  queue.removed.val

/-- Every tombstone has an entry in the heap to stand for. -/
def Anchored (queue : PriorityQueue) : Prop := ∀ id ∈ queue.removed, id ∈ queue.ids

theorem count_live (queue : PriorityQueue) (id : String) :
    queue.live.count id = queue.ids.count id - if id ∈ queue.removed then 1 else 0 := by
  rw [live, Multiset.count_sub, Multiset.coe_count, Multiset.count_eq_of_nodup queue.removed.nodup]
  rfl

theorem Anchored.le (anchored : queue.Anchored) :
    queue.removed.val ≤ (queue.ids : Multiset String) :=
  (Multiset.le_iff_subset queue.removed.nodup).mpr anchored

/-- **`len` counts the live ids.** -/
theorem Anchored.len (anchored : queue.Anchored) : queue.len = queue.live.card := by
  rw [live, Multiset.card_sub anchored.le, Multiset.coe_card, ids, length_map]
  rfl

section

variable (top : Heap.extractMax rank queue.heap = some (job, heap))
include top

theorem count_ids_of_extractMax (id : String) : queue.ids.count id =
      (heap.map jobId).count id + if job.jobId = id then 1 else 0 := by
  have perm := (Heap.extractMax_perm top).map jobId
  rw [ids, perm.count_eq, map_cons, count_cons]
  simp

theorem live_skip
    (tombstoned : job.jobId ∈ queue.removed) : (queue.skip job.jobId heap).live = queue.live := by
  ext id
  rw [count_live, count_live, count_ids_of_extractMax top]
  by_cases same : job.jobId = id
  · subst same
    simp [skip, ids, tombstoned]
  · simp [skip, ids, same, Ne.symm same]

end

section

variable (anchored : queue.Anchored)
include anchored

theorem Anchored.skip
    (top : Heap.extractMax rank queue.heap = some (job, heap)) :
    (queue.skip job.jobId heap).Anchored := by
  intro id mem
  obtain ⟨other, still⟩ := Finset.mem_erase.mp mem
  have perm := (Heap.extractMax_perm top).map jobId
  rcases mem_cons.mp (perm.mem_iff.mp (anchored id still)) with same | inHeap
  · exact absurd same other
  · exact inHeap

theorem Anchored.pop_none (returned : queue.pop = (none, queue')) :
    queue.live = 0 ∧ queue'.live = 0 ∧ queue'.Anchored := by
  induction queue using pop_induction with
  | empty queue empty =>
    rw [pop_of_empty empty] at returned
    obtain ⟨-, rfl⟩ := Prod.mk.inj returned
    have none : queue.live = 0 := by
      rw [live, ids, empty]
      exact Multiset.zero_sub _
    exact ⟨none, none, anchored⟩
  | skipped queue job heap top tombstoned ih =>
    rw [pop_of_extractMax top, if_pos tombstoned] at returned
    rw [← live_skip top tombstoned]
    exact ih (anchored.skip top) returned
  | taken queue job heap top tombstoned =>
    rw [pop_of_extractMax top, if_neg tombstoned] at returned
    cases returned

/-- **A pop takes one live id out.** -/
theorem Anchored.pop_some (returned : queue.pop = (some job, queue')) :
    queue.live = job.jobId ::ₘ queue'.live ∧ queue'.Anchored := by
  induction queue using pop_induction with
  | empty queue empty =>
    rw [pop_of_empty empty] at returned
    cases returned
  | skipped queue other heap top tombstoned ih =>
    rw [pop_of_extractMax top, if_pos tombstoned] at returned
    rw [← live_skip top tombstoned]
    exact ih (anchored.skip top) returned
  | taken queue other heap top tombstoned =>
    rw [pop_of_extractMax top, if_neg tombstoned] at returned
    obtain ⟨same, rfl⟩ := Prod.mk.inj returned
    obtain rfl : other = job := Option.some.inj same
    have perm := (Heap.extractMax_perm top).map jobId
    have stays : ({ queue with heap := heap } : PriorityQueue).Anchored := by
      intro id mem
      rcases mem_cons.mp (perm.mem_iff.mp (anchored id mem)) with same | inHeap
      · exact absurd (same ▸ mem) tombstoned
      · exact inHeap
    refine ⟨?_, stays⟩
    rw [live, ids, Multiset.coe_eq_coe.mpr perm]
    exact Multiset.cons_sub_of_le _ stays.le

/-- **Popping to the end returns the live ids, each as often as it is live.** -/
theorem Anchored.drain :
    (queue.drain.map jobId : Multiset String) = queue.live := by
  induction size : queue.heap.length using Nat.strong_induction_on generalizing queue with
  | _ n ih =>
    rcases returned : queue.pop with ⟨_ | job, queue'⟩
    · rw [drain_of_pop_none returned, (anchored.pop_none returned).1]
      rfl
    · have shorter := (pop_some_spec returned).1
      obtain ⟨taken, anchored'⟩ := anchored.pop_some returned
      rw [drain_of_pop_some returned, taken, map_cons, ← Multiset.cons_coe,
        ih _ (size ▸ shorter) anchored' rfl]

end

/-! ### Whole histories -/

end PriorityQueue

def QueueOp.adds : QueueOp → Option String
  | .push job _ | .requeue job => some job.jobId
  | _ => none

namespace PriorityQueue

/-- The call finds the queue in order: `remove` an id with exactly one entry in the heap,
`refresh_scores` every tombstoned id with exactly one. -/
def TidyOp (queue : PriorityQueue) : QueueOp → Prop
  | .remove id => queue.ids.count id = 1
  | .refreshScores _ => ∀ id ∈ queue.removed, queue.ids.count id = 1
  | _ => True

def Tidy : List QueueOp → PriorityQueue → Prop
  | [], _ => True
  | op :: ops, queue => queue.TidyOp op ∧ Tidy ops (step op queue).2

instance (queue : PriorityQueue) : DecidablePred queue.TidyOp
  | .push _ _ | .pop | .requeue _ => .isTrue trivial
  | .remove id => inferInstanceAs (Decidable (queue.ids.count id = 1))
  | .refreshScores _ => inferInstanceAs (Decidable (∀ id ∈ queue.removed, queue.ids.count id = 1))

instance decidableTidy : (ops : List QueueOp) → (queue : PriorityQueue) → Decidable (Tidy ops queue)
  | [], _ => .isTrue trivial
  | op :: ops, queue =>
    have := decidableTidy ops (step op queue).2
    inferInstanceAs (Decidable (queue.TidyOp op ∧ Tidy ops (step op queue).2))

/-- What a call does to a collection of ids, given what it returned. -/
def collect (ids : Multiset String) (returned : Option ScoredJob) : QueueOp → Multiset String
  | .push job _ | .requeue job => job.jobId ::ₘ ids
  | .pop => match returned with
    | some job => ids.erase job.jobId
    | none => ids
  | .remove id => ids.filter (· ≠ id)
  | .refreshScores _ => ids

variable {queue : PriorityQueue}

theorem Anchored.cons (anchored : queue.Anchored) (job : ScoredJob)
    (tiers : String → Option PriorityTier) :
    let queue' : PriorityQueue := ⟨job :: queue.heap, tiers, queue.removed⟩
    queue'.Anchored ∧ queue'.live = job.jobId ::ₘ queue.live := by
  refine ⟨fun id mem => .tail _ (anchored id mem), ?_⟩
  exact Multiset.cons_sub_of_le _ anchored.le

variable {id : String}

theorem Anchored.remove (anchored : queue.Anchored)
    (once : queue.ids.count id = 1) : (queue.remove id).Anchored ∧
      (queue.remove id).live = queue.live.filter (· ≠ id) := by
  constructor
  · intro other mem
    rcases Finset.mem_insert.mp mem with rfl | old
    · exact count_pos_iff.mp (once ▸ Nat.one_pos)
    · exact anchored other old
  · ext other
    rw [count_live, Multiset.count_filter, count_live]
    show queue.ids.count other - (if other ∈ insert id queue.removed then 1 else 0) = _
    by_cases same : other = id
    · simp [same, once]
    · simp [same, Finset.mem_insert]

theorem ids_refreshScores (queue : PriorityQueue) (now : Timestamp) :
    (queue.refreshScores now).ids = queue.ids.filter fun id => id ∉ queue.removed := by
  have keeps : ∀ job : ScoredJob, (match queue.tiers job.jobId with
      | some tier => job.refreshScore now tier
      | none => job).jobId = job.jobId := by
    intro job
    split <;> rfl
  simp only [ids, refreshScores, map_map, filter_map]
  exact map_congr_left fun job _ => keeps job

theorem Anchored.refreshScores (now : Timestamp)
    (once : ∀ id ∈ queue.removed, queue.ids.count id = 1) :
    (queue.refreshScores now).Anchored ∧ (queue.refreshScores now).live = queue.live := by
  refine ⟨fun id mem => absurd mem (Finset.notMem_empty id), ?_⟩
  ext id
  rw [count_live, count_live, ids_refreshScores]
  by_cases tombstoned : id ∈ queue.removed
  · grind [count_eq_zero_of_not_mem]
  · rw [count_filter (by simpa using tombstoned), if_neg tombstoned]
    rfl

variable {op : QueueOp}

/-- **One call in order does to the live ids what it does to a collection.** -/
theorem Anchored.step (anchored : queue.Anchored) (tidy : queue.TidyOp op) :
      (step op queue).2.Anchored ∧
      (step op queue).2.live = collect queue.live (step op queue).1 op ∧
      ∀ job, (step op queue).1 = some job → job.jobId ∈ queue.live := by
  cases op with
  | push job | requeue job =>
    exact ⟨(anchored.cons job _).1, (anchored.cons job _).2, fun _ h => nomatch h⟩
  | remove id => exact ⟨(anchored.remove tidy).1, (anchored.remove tidy).2, fun _ h => nomatch h⟩
  | refreshScores now =>
    have kept := Anchored.refreshScores now tidy
    exact ⟨kept.1, kept.2, fun _ h => nomatch h⟩
  | pop =>
    simp only [step]
    rcases returned : queue.pop with ⟨_ | job, queue'⟩
    · obtain ⟨none, none', anchored'⟩ := anchored.pop_none returned
      exact ⟨anchored', none'.trans none.symm, fun _ h => nomatch h⟩
    · obtain ⟨taken, anchored'⟩ := anchored.pop_some returned
      refine ⟨anchored', ?_, ?_⟩
      · simp [collect, taken]
      · rintro _ ⟨⟩
        simp [taken]

variable {ops : List QueueOp}

theorem Anchored.run (anchored : queue.Anchored) (tidy : Tidy ops queue) :
    (run ops queue).Anchored := by
  induction ops generalizing queue with
  | nil => exact anchored
  | cons op ops ih => exact ih (anchored.step tidy.1).1 tidy.2

theorem Tidy.append : Tidy (ops ++ ops') queue ↔ Tidy ops queue ∧ Tidy ops' (run ops queue) := by
  induction ops generalizing queue with
  | nil => simp [Tidy]
  | cons op ops ih => simp [Tidy, ih, and_assoc]

variable {ids : Multiset String}

theorem notMem_collect (absent : id ∉ ids) (notAdded : op.adds ≠ some id) :
    id ∉ collect ids returned op := by
  cases op with
  | pop =>
    cases returned with
    | none => exact absent
    | some job => exact fun mem => absent (Multiset.mem_of_mem_erase mem)
  | remove other => exact fun mem => absent (Multiset.mem_of_mem_filter mem)
  | refreshScores now => exact absent
  | _ => simpa [collect, absent, QueueOp.adds, eq_comm] using notAdded

theorem mem_collect (present : id ∈ ids) (notRemoved : op ≠ .remove id)
    (returned : Option ScoredJob) :
    (∃ job ∈ returned, job.jobId = id) ∨ id ∈ collect ids returned op := by
  cases op with
  | pop =>
    cases returned with
    | none => exact .inr present
    | some job =>
      by_cases same : id = job.jobId
      · exact .inl ⟨job, rfl, same.symm⟩
      · exact .inr ((Multiset.mem_erase_of_ne same).mpr present)
  | remove other =>
    refine .inr (Multiset.mem_filter.mpr ⟨present, ?_⟩)
    rintro rfl
    exact notRemoved rfl
  | refreshScores now => exact .inr present
  | _ => exact .inr (Multiset.mem_cons_of_mem present)

theorem Anchored.not_popped (anchored : queue.Anchored) (tidy : Tidy ops queue)
    (absent : id ∉ queue.live) (notAdded : ∀ op ∈ ops, op.adds ≠ some id) :
    (∀ job ∈ popped ops queue, job.jobId ≠ id) ∧ id ∉ (PriorityQueue.run ops queue).live := by
  induction ops generalizing queue with
  | nil => exact ⟨nofun, absent⟩
  | cons op ops ih =>
    obtain ⟨anchored', collects, returned⟩ := anchored.step tidy.1
    have absent' : id ∉ (PriorityQueue.step op queue).2.live := by grind [notMem_collect]
    obtain ⟨later, atEnd⟩ := ih anchored' tidy.2 absent'
      fun op mem => notAdded op (.tail _ mem)
    refine ⟨fun job mem => ?_, atEnd⟩
    rcases mem_append.mp mem with now | then'
    · grind
    · exact later job then'

theorem Anchored.popped_or_live (anchored : queue.Anchored)
    (tidy : Tidy ops queue) (present : id ∈ queue.live) (notRemoved : QueueOp.remove id ∉ ops) :
    (∃ job ∈ popped ops queue, job.jobId = id) ∨ id ∈ (PriorityQueue.run ops queue).live := by
  induction ops generalizing queue with
  | nil => exact .inr present
  | cons op ops ih =>
    obtain ⟨anchored', collects, -⟩ := anchored.step tidy.1
    have kept : op ≠ .remove id := fun same => notRemoved (same ▸ .head _ ..)
    rcases mem_collect present kept (PriorityQueue.step op queue).1 with ⟨job, now, same⟩ | still
    · exact .inl ⟨job, mem_append_left _ (Option.mem_toList.mpr now), same⟩
    · rw [← collects] at still
      rcases ih anchored' tidy.2 still (fun mem => notRemoved (.tail _ mem))
        with ⟨job, mem, same⟩ | atEnd
      · exact .inl ⟨job, mem_append_right _ mem, same⟩
      · exact .inr atEnd

/-- **The history of a queue that started empty looks like that of a collection of jobs:** `len` is
the number of jobs that pops can still return, a removed job is not returned before it is put in
again, and a pushed job is returned, by the calls or by popping to the end, unless it is removed. -/
structure BehavesAsCollection (ops : List QueueOp) : Prop where
  len : (run ops new).len = (run ops new).drain.length
  removed : ∀ before id after, ops = before ++ .remove id :: after →
    (∀ op ∈ after, op.adds ≠ some id) →
    ∀ job ∈ popped after (run (before ++ [.remove id]) new) ++ (run ops new).drain, job.jobId ≠ id
  pushed : ∀ before job tier after, ops = before ++ .push job tier :: after →
    .remove job.jobId ∉ after →
    ∃ returned ∈ popped after (run (before ++ [.push job tier]) new) ++ (run ops new).drain,
      returned.jobId = job.jobId

theorem anchored_new : new.Anchored := fun id mem => absurd mem (Finset.notMem_empty id)

theorem Anchored.mem_drain (anchored : queue.Anchored) :
    (∃ job ∈ queue.drain, job.jobId = id) ↔ id ∈ queue.live := by
  rw [← anchored.drain, Multiset.mem_coe, mem_map]

/-- **A queue whose every call finds it in order behaves as a collection of jobs.** -/
theorem behavesAsCollection_of_tidy (ops : List QueueOp) (tidy : Tidy ops new) :
    BehavesAsCollection ops where
  len := by
    have anchored := anchored_new.run tidy
    rw [anchored.len, ← anchored.drain, Multiset.coe_card, length_map]
  removed before id after split notAdded := by
    subst split
    obtain ⟨tidyBefore, tidyRemove, tidyAfter⟩ := Tidy.append.mp tidy
    obtain ⟨anchored, gone⟩ := (anchored_new.run tidyBefore).remove tidyRemove
    have absent : id ∉ ((run before new).remove id).live := by simp [gone]
    obtain ⟨later, atEnd⟩ := anchored.not_popped tidyAfter absent notAdded
    rw [run_append, run_append, run_cons, run_cons, run_nil]
    intro job member
    rcases mem_append.mp member with inAfter | inDrain
    · exact later job inAfter
    · rintro same
      exact atEnd ((anchored.run tidyAfter).mem_drain.mp ⟨job, inDrain, same⟩)
  pushed before job tier after split notRemoved := by
    subst split
    obtain ⟨tidyBefore, -, tidyAfter⟩ := Tidy.append.mp tidy
    obtain ⟨anchored, added⟩ := (anchored_new.run tidyBefore).cons job
      ((run before new).push job tier).tiers
    have present : job.jobId ∈ ((run before new).push job tier).live :=
      added ▸ Multiset.mem_cons_self ..
    rw [run_append, run_append, run_cons, run_cons, run_nil]
    rcases anchored.popped_or_live tidyAfter present notRemoved with ⟨returned, member,
      same⟩ | atEnd
    · exact ⟨returned, mem_append_left _ member, same⟩
    · obtain ⟨returned, member, same⟩ := (anchored.run tidyAfter).mem_drain.mpr atEnd
      exact ⟨returned, mem_append_right _ member, same⟩

theorem behavesAsCollection_removed_popped_refreshed :
    BehavesAsCollection [.push ⟨"a", 1, 0, "t"⟩ .free, .push ⟨"b", 2, 0, "t"⟩ .free, .remove "a",
      .pop, .push ⟨"c", 1, 0, "t"⟩ .free, .refreshScores 60000] :=
  behavesAsCollection_of_tidy _ (by decide)

/-- **A tombstone without an entry swallows a later push:** the job running under the id has been
popped, the cancellation leaves a tombstone, and the job pushed under the id never comes out. -/
theorem not_behavesAsCollection_push_after_remove :
    ¬ BehavesAsCollection [.push ⟨"a", 1, 0, "t"⟩ .free, .pop, .remove "a",
      .push ⟨"a", 1, 0, "t"⟩ .free] := by
  intro behaves
  obtain ⟨returned, member, -⟩ := behaves.pushed [.push ⟨"a", 1, 0, "t"⟩ .free, .pop, .remove "a"]
    ⟨"a", 1, 0, "t"⟩ .free [] rfl not_mem_nil
  exact not_mem_nil member

end PriorityQueue

end Muli
