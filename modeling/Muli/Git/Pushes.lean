/-
**Pushes to one repository, over both transports.**

What a push has changed is found out by comparing: the references and the size on disk are read
before git runs and again after it, and the differences are handed to the pipeline trigger and to
the quota.

* `changes_handed_once` — **every change of a reference is handed on once if no push begins between
  the two reads of another one**; `adjustments_eq_growth` — the same for the size.
* `difference_iff` — **a reference that is deleted is not among the updates.**
-/

import Muli.Interaction.Serial

namespace Muli.Git

open Interaction System List Option

/-! ### What is compared -/

abbrev Refs := List (String × String)

structure RefUpdate where
  oldSha : String
  newSha : String
  refName : String
deriving DecidableEq, Repr

/-- What stands for a reference that is not there. -/
def zeroSha : String := String.ofList (replicate 40 '0')

def computeRefUpdates (oldRefs newRefs : Refs) : List RefUpdate :=
  newRefs.filterMap fun (refName, newSha) =>
    let oldSha := (oldRefs.lookup refName).getD zeroSha
    if oldSha ≠ newSha then some ⟨oldSha, newSha, refName⟩ else none

/-- The updates for which the pipeline trigger is called. -/
def triggers (oldRefs newRefs : Refs) : List RefUpdate :=
  (computeRefUpdates oldRefs newRefs).filter (·.newSha ≠ zeroSha)

/-- **What is handed on: the references that are new or have another object.** -/
theorem mem_triggers : update ∈ triggers oldRefs newRefs ↔
      (update.refName, update.newSha) ∈ newRefs ∧
      update.oldSha = (oldRefs.lookup update.refName).getD zeroSha ∧
        update.oldSha ≠ update.newSha ∧ update.newSha ≠ zeroSha := by
  obtain ⟨oldSha, newSha, refName⟩ := update
  simp only [triggers, computeRefUpdates, mem_filter, mem_filterMap, Prod.exists,
    ite_none_right_eq_some, some.injEq, RefUpdate.mk.injEq, decide_eq_true_eq]
  constructor
  · grind
  · simp_all

/-- The references after the updates; a zero object deletes. -/
def applyUpdates (updates : List RefUpdate) (refs : String → Option String) :
    String → Option String :=
  updates.foldl (fun refs update => Function.update refs update.refName
    (if update.newSha = zeroSha then none else some update.newSha)) refs

/-- **The updates are the difference**: one for each reference at most, they turn the old references
into the new ones, and the trigger is called for the references that are new or have another object.
-/
structure Difference (oldRefs newRefs : Refs) : Prop where
  once : ((computeRefUpdates oldRefs newRefs).map RefUpdate.refName).Nodup
  applies : ∀ name, applyUpdates (computeRefUpdates oldRefs newRefs)
    (oldRefs.lookup ·) name = newRefs.lookup name
  hands : ∀ name, name ∈ (triggers oldRefs newRefs).map RefUpdate.refName ↔
    ∃ sha, newRefs.lookup name = some sha ∧ oldRefs.lookup name ≠ some sha

theorem computeRefUpdates_cons : computeRefUpdates oldRefs ((name, sha) :: newRefs) =
    if (oldRefs.lookup name).getD zeroSha = sha then computeRefUpdates oldRefs newRefs
    else ⟨(oldRefs.lookup name).getD zeroSha, sha, name⟩ :: computeRefUpdates oldRefs newRefs := by
  simp only [computeRefUpdates, filterMap_cons]
  split <;> simp_all

theorem lookup_cons_ite {refs : Refs} : ((first, sha) :: refs).lookup name =
    if name = first then some sha else refs.lookup name := by
  grind

theorem refName_computeRefUpdates :
    ((computeRefUpdates oldRefs newRefs).map RefUpdate.refName).Sublist (newRefs.map Prod.fst) := by
  induction newRefs with
  | nil => exact .slnil
  | cons ref newRefs ih =>
    rw [computeRefUpdates_cons]
    split
    · exact ih.cons _
    · exact ih.cons_cons _

section Differences

variable {newRefs : Refs} (distinct : (newRefs.map Prod.fst).Nodup)
include distinct

theorem mem_iff_lookup : (name, sha) ∈ newRefs ↔ newRefs.lookup name = some sha := by
  induction newRefs with
  | nil => simp
  | cons ref newRefs ih =>
    obtain ⟨fresh, later⟩ := nodup_cons.mp distinct
    have := ih later
    rw [mem_cons, lookup_cons_ite]
    grind

/-- What the updates leave of a reference. -/
theorem applyUpdates_computeRefUpdates (refs : String → Option String) (name : String) :
    applyUpdates (computeRefUpdates oldRefs newRefs) refs name =
      (newRefs.lookup name).elim (refs name) fun sha =>
        if (oldRefs.lookup name).getD zeroSha = sha then refs name
        else if sha = zeroSha then none else some sha := by
  induction newRefs generalizing refs with
  | nil => rfl
  | cons ref newRefs ih =>
    obtain ⟨first, sha⟩ := ref
    obtain ⟨fresh, later⟩ := nodup_cons.mp distinct
    have absent : newRefs.lookup first = none := by
      rw [lookup_eq_none_iff]
      grind
    rw [computeRefUpdates_cons, lookup_cons_ite]
    by_cases unchanged : (oldRefs.lookup first).getD zeroSha = sha
    · rw [if_pos unchanged, ih later]
      by_cases same : name = first
      · rw [if_pos same, same, absent, elim_none, elim_some, if_pos unchanged]
      · rw [if_neg same]
    · rw [if_neg unchanged, applyUpdates, foldl_cons, ← applyUpdates, ih later]
      by_cases same : name = first
      · rw [if_pos same, same, absent, elim_none, elim_some, if_neg unchanged,
          Function.update_self]
      · rw [if_neg same, Function.update_of_ne same]

end Differences

/-- **The updates are the difference exactly if no reference is deleted** and no new one has the
zero object. -/
theorem difference_iff (oldRefs newRefs : Refs) (distinct : (newRefs.map Prod.fst).Nodup) :
    Difference oldRefs newRefs ↔ (∀ name, newRefs.lookup name = none → oldRefs.lookup name = none) ∧
      ∀ name, newRefs.lookup name = some zeroSha → oldRefs.lookup name = some zeroSha := by
  constructor
  · rintro ⟨-, applies, -⟩
    refine ⟨fun name absent => ?_, fun name zero => ?_⟩
    · have applied := applies name
      rwa [applyUpdates_computeRefUpdates distinct, absent] at applied
    · have applied := applies name
      rw [applyUpdates_computeRefUpdates distinct, zero] at applied
      by_contra other
      grind
  · rintro ⟨kept, noZero⟩
    refine ⟨distinct.sublist refName_computeRefUpdates, fun name => ?_, fun name => ?_⟩
    · rw [applyUpdates_computeRefUpdates distinct]
      have zero := noZero name
      cases found : newRefs.lookup name with
      | none => exact kept name found
      | some sha => cases old : oldRefs.lookup name <;> grind
    · have zero := noZero name
      simp only [List.mem_map, mem_triggers, mem_iff_lookup distinct]
      constructor
      · rintro ⟨update, ⟨found, old, changed, -⟩, rfl⟩
        exact ⟨update.newSha, found, fun same => by grind⟩
      · rintro ⟨sha, found, changed⟩
        refine ⟨⟨(oldRefs.lookup name).getD zeroSha, sha, name⟩, ⟨found, rfl, ?_, by grind⟩, rfl⟩
        cases old : oldRefs.lookup name <;> grind

/-- One branch is pushed, one is new and one stays as it is. -/
theorem difference_of_pushed_branches :
    computeRefUpdates [("refs/heads/dev", "a1"), ("refs/heads/main", "a1")]
        [("refs/heads/dev", "a1"), ("refs/heads/fix", "c3"), ("refs/heads/main", "b2")] =
      [⟨zeroSha, "c3", "refs/heads/fix"⟩, ⟨"a1", "b2", "refs/heads/main"⟩] ∧
    Difference [("refs/heads/dev", "a1"), ("refs/heads/main", "a1")]
      [("refs/heads/dev", "a1"), ("refs/heads/fix", "c3"), ("refs/heads/main", "b2")] := by
  have noZero : ∀ sha ∈ ["a1", "b2", "c3"], sha ≠ zeroSha := by decide
  refine ⟨by decide, (difference_iff _ _ (by decide)).mpr ⟨fun name absent =>
    ?_, fun name zero => ?_⟩⟩
  · simp only [lookup_cons_ite, lookup_nil] at absent ⊢
    grind
  · simp only [lookup_cons_ite, lookup_nil] at zero
    grind

/-- A branch that is deleted has no update. -/
theorem no_update_of_deleted_branch :
    computeRefUpdates [("refs/heads/main", "a1"), ("refs/heads/old", "a1")]
    [("refs/heads/main", "a1")] = [] ∧
      ¬ Difference [("refs/heads/main", "a1"), ("refs/heads/old", "a1")]
      [("refs/heads/main", "a1")] := by
  have none : computeRefUpdates [("refs/heads/main", "a1"), ("refs/heads/old", "a1")]
    [("refs/heads/main", "a1")] = [] := by decide
  refine ⟨none, fun difference => ?_⟩
  have applied := difference.applies "refs/heads/old"
  rw [none] at applied
  exact absurd applied (by decide)

/-! ### A push -/

/-- What git makes of the repository, at once or not at all. -/
structure Change where
  refs : Refs → Refs
  size : ℕ → ℕ

/-- How git ends for the push that started it. -/
inductive GitEnd where
  | succeeded
  /-- Git changes nothing, and the push fails. -/
  | rejected
  /-- The push counts as failed, by its exit code or since no one waits for it any more, although
  git has made the change. -/
  | failed
  /-- The push is given up after 300 s with 504, or as the client has gone, and git runs on. -/
  | leftRunning

/-- How git ends, and which of the reads and the adjustment of a push work. -/
structure PushIo where
  ending : GitEnd := .succeeded
  refsBefore : Bool := true
  refsAfter : Bool := true
  sizeBefore : Bool := true
  sizeAfter : Bool := true
  adjusts : Bool := true

/-- The repository on disk, what has been handed to the trigger and to the quota, and the changes of
references that git has made. -/
structure RepoState where
  refs : Refs
  size : ℕ
  handed : List RefUpdate := []
  adjusted : ℤ := 0
  made : List RefUpdate := []

/-- How far a push is: `receive_pack` over HTTP and `exec_request` with its process over SSH take
the same steps. -/
inductive Push where
  | waiting (change : Change)
  | listed (change : Change) (oldRefs : Refs)
  | measured (change : Change) (oldRefs : Refs) (sizeBefore : Option ℕ)
  | received (change : Change) (oldRefs : Refs) (sizeBefore : Option ℕ)
  | fired (change : Change) (sizeBefore : Option ℕ)
  /-- The push has ended, but not its git. -/
  | orphaned (change : Change)
  | finished

/-- The change is made; the references that are new or have another object are recorded. -/
def Change.applied (change : Change) (repo : RepoState) : RepoState :=
  { repo with
    refs := change.refs repo.refs
    size := change.size repo.size
    made := repo.made ++ triggers repo.refs (change.refs repo.refs) }

namespace Push

/-- References that cannot be read are none. -/
def readRefs (works : Bool) (repo : RepoState) : Refs := if works then repo.refs else []

def step (io : Change → PushIo) : Machine Push RepoState
  | waiting change, repo => some (listed change (readRefs (io change).refsBefore repo), repo)
  | listed change oldRefs, repo =>
    some (measured change oldRefs (if (io change).sizeBefore then some repo.size else none), repo)
  | measured change oldRefs sizeBefore, repo =>
    match (io change).ending with
    | .succeeded => some (received change oldRefs sizeBefore, change.applied repo)
    | .rejected => some (finished, repo)
    | .failed => some (finished, change.applied repo)
    | .leftRunning => some (orphaned change, repo)
  | orphaned change, repo => some (finished, change.applied repo)
  | received change oldRefs sizeBefore, repo =>
    some (fired change sizeBefore, { repo with
      handed := repo.handed ++ triggers oldRefs (readRefs (io change).refsAfter repo) })
  | fired _ none, repo => some (finished, repo)
  | fired change (some sizeBefore), repo =>
    let sizeAfter := if (io change).sizeAfter then repo.size else sizeBefore
    let delta : ℤ := if (io change).adjusts then sizeAfter - sizeBefore else 0
    some (finished, { repo with adjusted := repo.adjusted + delta })
  | finished, _ => none

/-- Between the two reads of the references, or with its git left running. -/
def comparesRefs : Push → Bool
  | listed .. | measured .. | received .. | orphaned _ => true
  | _ => false

/-- From the first measurement of the size to the adjustment, or with its git left running. -/
def comparesSize : Push → Bool
  | measured .. | received .. | fired .. | orphaned _ => true
  | _ => false

def pool (changes : List Change) (refs : Refs) (size : ℕ) : System Push RepoState :=
  ⟨changes.map waiting, { refs := refs, size := size }⟩

/-- How the state stands to a push between its reads of the references. -/
def RefsStand : Push → RepoState → Prop
  | listed _ oldRefs, repo | measured _ oldRefs _, repo => oldRefs = repo.refs ∧
      repo.handed = repo.made
  | received _ oldRefs _, repo => repo.made = repo.handed ++ triggers oldRefs repo.refs
  | orphaned _, _ => False
  | _, _ => True

/-- How the adjustments stand to a push between its measurements. -/
def SizeStands (size : ℕ) : Push → RepoState → Prop
  | measured _ _ sizeBefore, repo => sizeBefore = some repo.size ∧ repo.adjusted = repo.size - size
  | received _ _ sizeBefore, repo | fired _ sizeBefore, repo =>
    ∃ measured, sizeBefore = some measured ∧ repo.adjusted = measured - size
  | orphaned _, _ => False
  | _, _ => True

/-- **A push that git does not reject counts as successful.** -/
def Truthful (io : Change → PushIo) : Prop :=
  ∀ change, (io change).ending = .succeeded ∨ (io change).ending = .rejected

variable {io : Change → PushIo} {changes : List Change} {refs : Refs} {size : ℕ} {schedule : List ℕ}

section Steps

variable {push push' other : Push} {repo repo' : RepoState}
    (steps : step io push repo = some (push', repo'))
include steps

theorem refs_step (reads : ∀ change, (io change).refsBefore = true ∧ (io change).refsAfter = true)
    (truthful : Truthful io)
    (holds : if push.comparesRefs then RefsStand push repo else repo.handed = repo.made) :
    if push'.comparesRefs then RefsStand push' repo' else repo'.handed = repo'.made := by
  cases push with
  | waiting change =>
    cases steps
    exact ⟨if_pos (reads change).1, holds⟩
  | listed change oldRefs =>
    cases steps
    exact holds
  | measured change oldRefs sizeBefore =>
    obtain ⟨rfl, even⟩ : oldRefs = repo.refs ∧ repo.handed = repo.made := holds
    rcases truthful change with ending | ending <;> simp only [step,
      ending] at steps <;> cases steps
    · exact congrArg (· ++ _) even.symm
    · exact even
  | received change oldRefs sizeBefore =>
    cases steps
    have behind : repo.made = repo.handed ++ triggers oldRefs repo.refs := holds
    show repo.handed ++ triggers oldRefs (if _ then repo.refs else []) = repo.made
    rw [if_pos (reads change).2, behind]
  | fired change sizeBefore =>
    cases sizeBefore <;> cases steps <;> exact holds
  | orphaned change => exact holds.elim
  | finished => cases steps

theorem refs_outside (free : push.comparesRefs = false) (stays : push'.comparesRefs = false)
    (holds : RefsStand other repo) : RefsStand other repo' := by
  cases push with
  | waiting change => cases steps; cases stays
  | fired change sizeBefore =>
    cases sizeBefore <;> cases steps
    · exact holds
    · cases other <;> exact holds
  | finished => cases steps
  | _ => cases free

theorem size_step (works : ∀ change, (io change).sizeBefore = true ∧ (io change).sizeAfter = true ∧
      (io change).adjusts = true) (truthful : Truthful io)
    (holds : if push.comparesSize then SizeStands size push repo
      else repo.adjusted = repo.size - size) :
    if push'.comparesSize then SizeStands size push' repo'
    else repo'.adjusted = repo'.size - size := by
  cases push with
  | listed change oldRefs =>
    cases steps
    exact ⟨if_pos (works change).1, holds⟩
  | measured change oldRefs sizeBefore =>
    obtain ⟨rfl, even⟩ := holds
    rcases truthful change with ending | ending <;> simp only [step,
      ending] at steps <;> cases steps
    · exact ⟨repo.size, rfl, even⟩
    · exact even
  | fired change sizeBefore =>
    obtain ⟨measured, rfl, even⟩ := holds
    cases steps
    show repo.adjusted +
      (if (io change).adjusts = true then ((if (io change).sizeAfter = true then repo.size
      else measured : ℕ) : ℤ) - measured else 0) = repo.size - size
    rw [if_pos (works change).2.2, if_pos (works change).2.1, even]
    omega
  | orphaned change => exact holds.elim
  | finished => cases steps
  | _ =>
    cases steps
    exact holds

theorem size_outside (free : push.comparesSize = false) (stays : push'.comparesSize = false)
    (holds : SizeStands size other repo) : SizeStands size other repo' := by
  cases push with
  | waiting change =>
    cases steps
    exact holds
  | listed change oldRefs => cases steps; cases stays
  | finished => cases steps
  | _ => cases free

end Steps

/-- **The adjustments of the quota add up to the growth of the repository**, if the measurements and
the adjustments work, no push fails whose changes git makes, and no push is measured between the two
measurements of another. -/
theorem adjustments_eq_growth (works : ∀ change, (io change).sizeBefore = true ∧
      (io change).sizeAfter = true ∧ (io change).adjusts = true) (truthful : Truthful io)
    (apart : (pool changes refs size).Along (step io) (Alone (step io) comparesSize) schedule)
    (ended : ∀ push ∈ ((pool changes refs size).run (step io) schedule).threads,
      push.comparesSize = false) :
    ((pool changes refs size).run (step io) schedule).shared.adjusted =
      ((pool changes refs size).run (step io) schedule).shared.size - size := by
  have serial : Serial comparesSize (fun repo : RepoState => repo.adjusted = repo.size - size)
      (SizeStands size) ((pool changes refs size).run (step io) schedule) :=
    serial_of_alone (fun _ _ _ _ steps => size_step steps works truthful)
      (fun _ _ _ _ _ steps free stays _ => size_outside steps free stays)
      (serial_of_idle (by simp [pool, comparesSize]) (sub_self _).symm) apart
  obtain ⟨i, -, -, atRest⟩ := serial
  exact atRest fun push isThread => ended push (mem_of_getElem? isThread)

/-! ### Two pushes -/

def newBranch (refName : String) (bytes : ℕ) : Change :=
  ⟨fun refs => refs ++ [(refName, "1")], (· + bytes)⟩

def twoPushes : System Push RepoState := pool [newBranch "main" 5, newBranch "dev" 7] [] 10

def reliably (_ : Change) : PushIo := {}

theorem adjustments_eq_growth_inTurn :
    (twoPushes.run (step reliably) [0, 0, 0, 0, 0, 1, 1, 1, 1, 1]).shared.adjusted =
      (twoPushes.run (step reliably) [0, 0, 0, 0, 0, 1, 1, 1, 1, 1]).shared.size - (10 : ℕ) :=
  adjustments_eq_growth (fun _ => ⟨rfl, rfl, rfl⟩) (fun _ => .inl rfl) (by decide +kernel)
    (by decide +kernel)

/-- One push, whose git is left running after the time limit. -/
def givenUp : RepoState :=
  ((pool [newBranch "main" 5] [] 10).run (step fun _ => { ending := .leftRunning })
    [0, 0, 0, 0]).shared

/-- Pushes that overlap count the growth twice, and one that was given up does not count it. -/
theorem overlapping_pushes_count_twice :
    (twoPushes.run (step reliably) [0, 1, 0, 1, 0, 1, 0, 1, 0, 1]).shared.size = 22 ∧
      (twoPushes.run (step reliably) [0, 1, 0, 1, 0, 1, 0, 1, 0, 1]).shared.adjusted = 24 ∧
      givenUp.size = 15 ∧ givenUp.adjusted = 0 := by
  decide +kernel

end Push

end Muli.Git
