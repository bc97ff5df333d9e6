/-
**Pull requests: taking a number, merging and closing.**

A number is taken in one call on the store and the row is inserted in another; a merge or a close
reads the row, acts, and writes the whole row back.

* `CreatePr.all_created` — **if no request takes its number between two calls of another, every one
  is answered with a pull request, and the numbers are distinct.**
* `PatchPr.decided_once` — **if no request reads the row before another has written it back, and
  every merge is recorded, the pull request is merged once or closed, and stays so.**
* `diff_eq_merge_iff` — **the files that are shown are those the merge changes exactly if the target
  branch has no change of its own.**
-/

import Muli.Core.Job
import Muli.Interaction.Serial
import Mathlib.Data.List.Dedup

namespace Muli.Git

open Interaction System

inductive PrState where
  | «open»
  | merged
  | closed
deriving DecidableEq

/-- A row of `pull_requests`, as far as it is read here. -/
structure PullRequest where
  number : ℕ
  repoId : String
  state : PrState := .open
  mergeCommitSha : Option ℕ := none
deriving DecidableEq

/-! ### Numbers -/

structure CreatePrRequest where
  sourceBranch : String
  targetBranch : String
  title : String
  description : Option String := none

/-- What the request is refused with, whatever is stored. -/
def CreatePrRequest.refusal (request : CreatePrRequest) : Option String :=
  if request.sourceBranch = "" ∨ request.targetBranch = "" ∨ request.title = "" then
    some "source_branch, target_branch, and title are required"
  else if 256 < request.title.utf8ByteSize then some "title exceeds 256 characters"
  else if 65536 < (request.description.getD "").utf8ByteSize then
    some "description exceeds 65536 characters"
  else if request.sourceBranch = request.targetBranch then
    some (MuliError.validation "source_branch and target_branch must differ").toString
  else none

/-- The database of a tenant. -/
structure PrDb where
  repositories : List String := []
  pullRequests : List PullRequest := []

/-- The numbers of a repository that are in use. -/
def PrDb.numbers (db : PrDb) (repoId : String) : List ℕ :=
  (db.pullRequests.filter (·.repoId = repoId)).map PullRequest.number

/-- The databases are searched for the repository, one tenant after the other. -/
def nextPrNumber (dbs : String → PrDb) (repoId : String) : List String → ℕ
  | [] => 1
  | tenantId :: tenantIds =>
    match ((dbs tenantId).numbers repoId).max? with
    | some max => max + 1
    | none => if repoId ∈ (dbs tenantId).repositories then 1 else nextPrNumber dbs repoId tenantIds

/-- No number of a repository is there twice. -/
def PrDb.createPr (db : PrDb) (pr : PullRequest) : Option PrDb :=
  if pr.number ∈ db.numbers pr.repoId then none
  else some { db with pullRequests := db.pullRequests ++ [pr] }

/-- The databases, and the answers to the requests that were not refused: the number of the new pull
request, or none for an internal error. -/
structure PrWorld where
  dbs : String → PrDb
  answers : List (Option ℕ) := []

/-- Where a request stands: it has no number, one, or its answer. -/
inductive CreatePr where
  | waiting
  | numbered (number : ℕ)
  | answered

namespace CreatePr

/-- Take a number; then insert the row. -/
def step (tenantIds : List String) (tenantId repoId : String) : Machine CreatePr PrWorld
  | waiting, world => some (numbered (nextPrNumber world.dbs repoId tenantIds), world)
  | numbered number, world =>
    match (world.dbs tenantId).createPr ⟨number, repoId, .open, none⟩ with
    | none => some (answered, { world with answers := world.answers ++ [none] })
    | some db =>
      some (answered, ⟨Function.update world.dbs tenantId db, world.answers ++ [some number]⟩)
  | answered, _ => none

def busy : CreatePr → Bool
  | numbered _ => true
  | _ => false

def pool (requests : List CreatePrRequest) (world : PrWorld) : System CreatePr PrWorld :=
  ⟨(requests.filter (·.refusal = none)).map fun _ => waiting, world⟩

/-- The repository is one of the tenant, its numbers are distinct, and no request has failed. -/
structure Tidy (tenantId repoId : String) (world : PrWorld) : Prop where
  elsewhere : ∀ other, other ≠ tenantId →
    (world.dbs other).numbers repoId = [] ∧ repoId ∉ (world.dbs other).repositories
  distinct : ((world.dbs tenantId).numbers repoId).Nodup
  created : none ∉ world.answers

/-- The number that a request has taken is still free. -/
def Holds (tenantId repoId : String) : CreatePr → PrWorld → Prop
  | numbered number, world =>
    Tidy tenantId repoId world ∧ number ∉ (world.dbs tenantId).numbers repoId
  | _, _ => True

variable {tenantIds : List String} {tenantId repoId : String} {world : PrWorld}

theorem nextPrNumber_not_mem (tidy : Tidy tenantId repoId world) (listed : tenantId ∈ tenantIds) :
    nextPrNumber world.dbs repoId tenantIds ∉ (world.dbs tenantId).numbers repoId := by
  induction tenantIds with
  | nil => simp at listed
  | cons other tenantIds ih =>
    rw [nextPrNumber]
    by_cases own : other = tenantId
    · subst own
      cases isMax : ((world.dbs other).numbers repoId).max? with
      | none => simp [List.max?_eq_none_iff.mp isMax]
      | some max => grind [List.max?_eq_some_iff]
    · simpa [tidy.elsewhere other own] using ih (by simpa [Ne.symm own] using listed)

theorem Tidy.insert (tidy : Tidy tenantId repoId world) (ofRepo : pr.repoId = repoId)
    (free : pr.number ∉ (world.dbs tenantId).numbers repoId) :
    Tidy tenantId repoId ⟨Function.update world.dbs tenantId
      { world.dbs tenantId with pullRequests := (world.dbs tenantId).pullRequests ++ [pr] },
      world.answers ++ [some pr.number]⟩ := by
  refine ⟨fun other differs => ?_, ?_, by simpa using tidy.created⟩
  · simpa [differs] using tidy.elsewhere other differs
  · have distinct :=
      tidy.distinct.append (List.nodup_singleton _) (List.disjoint_singleton.mpr free)
    simpa [PrDb.numbers, ofRepo] using distinct

theorem holds_step (listed : tenantId ∈ tenantIds) {l : CreatePr}
    (steps : step tenantIds tenantId repoId l world = some (l', world'))
    (holds : if busy l then Holds tenantId repoId l world else Tidy tenantId repoId world) :
    if busy l' then Holds tenantId repoId l' world' else Tidy tenantId repoId world' := by
  cases l with
  | waiting =>
    cases steps
    exact ⟨holds, nextPrNumber_not_mem holds listed⟩
  | numbered number =>
    obtain ⟨tidy, free⟩ : Holds tenantId repoId (numbered number) world := holds
    rw [step, PrDb.createPr, if_neg free] at steps
    cases steps
    exact tidy.insert rfl free
  | answered => cases steps

def oneRepo : PrWorld := ⟨fun tenantId => if tenantId = "acme" then ⟨["repo-1"], []⟩ else {}, []⟩

def featureRequest : CreatePrRequest := ⟨"feature", "main", "A feature", none⟩

end CreatePr

/-! ### Merging and closing -/

inductive PrAction where
  | close
  | merge
  | other

/-- The stored row, and the target branch: its commits are numbered, and the last one is its tip. -/
structure PatchWorld where
  row : PullRequest
  target : ℕ

structure PatchRequest where
  id : ℕ
  action : PrAction

/-- A request, up to the status it is answered with. -/
inductive PatchPr where
  | waiting (request : PatchRequest)
  | closing (request : PatchRequest) (pr : PullRequest)
  | merging (request : PatchRequest) (pr : PullRequest)
  | committing (request : PatchRequest) (pr : PullRequest) (tip : ℕ)
  | merged (request : PatchRequest) (pr : PullRequest) (mergeSha : ℕ)
  | answered (status : ℕ)

namespace PatchPr

/-- What is done with a row that is open. -/
def act (request : PatchRequest) (pr : PullRequest) : PatchPr :=
  match request.action with
  | .close => closing request pr
  | .merge => merging request pr
  | .other => answered 400

/-- `clean` says with which tips the source branch can be merged, `stores` for which requests
`update_pr` is called and works. The merge commit is refused if its first parent is not the tip any
more. -/
def step (clean : ℕ → Bool) (stores : PatchRequest → Bool) : Machine PatchPr PatchWorld
  | waiting request, world =>
    if world.row.state ≠ .open then some (answered 422, world)
    else some (act request world.row, world)
  | closing request pr, world =>
    if stores request then some (answered 200, { world with row := { pr with state := .closed } })
    else some (answered 500, world)
  | merging request pr, world =>
    if clean world.target then some (committing request pr world.target, world)
    else some (answered 409, world)
  | committing request pr tip, world =>
    if world.target = tip then some (merged request pr (tip + 1), { world with target := tip + 1 })
    else some (answered 500, world)
  | merged request pr mergeSha, world =>
    -- The commit is made, also if the row cannot be updated.
    if stores request then
      some (answered 200,
        { world with row := { pr with state := .merged, mergeCommitSha := some mergeSha } })
    else some (answered 500, world)
  | answered _, _ => none

def busy : PatchPr → Bool
  | waiting _ | answered _ => false
  | _ => true

def pool (requests : List PatchRequest) (world : PatchWorld) : System PatchPr PatchWorld :=
  ⟨requests.map waiting, world⟩

/-- The branch has one commit more than before if the pull request is merged, and else none. -/
def Decided (target : ℕ) (world : PatchWorld) : Prop :=
  world.target = if world.row.state = .merged then target + 1 else target

/-- While a request is at work the row is open. -/
def Works (target : ℕ) : PatchPr → PatchWorld → Prop
  | merging request _, world | committing request _ _, world =>
    request.action = .merge ∧ world.row.state = .open ∧ world.target = target
  | merged request _ _, world =>
    request.action = .merge ∧ world.row.state = .open ∧ world.target = target + 1
  | _, world => world.row.state = .open ∧ world.target = target

/-- **The row is updated after every merge.** -/
def RecordsMerges (stores : PatchRequest → Bool) : Prop :=
  ∀ request, request.action = .merge → stores request = true

variable {clean : ℕ → Bool} {stores : PatchRequest → Bool} {target : ℕ} {l l' : PatchPr}
  {world world' : PatchWorld}

theorem works_step (records : RecordsMerges stores)
    (steps : step clean stores l world = some (l', world'))
    (holds : if busy l then Works target l world else Decided target world) :
    if busy l' then Works target l' world' else Decided target world' := by
  cases l with
  | waiting request =>
    rw [step] at steps
    split_ifs at steps with notOpen
    · cases steps
      exact holds
    · have works : world.row.state = .open ∧ world.target = target := by simp_all [busy, Decided]
      cases steps
      cases isAction : request.action <;> simp only [act, isAction]
      · exact works
      · exact ⟨isAction, works⟩
      · exact holds
  | closing request pr =>
    have decided : Decided target world := by simp_all [busy, Works, Decided]
    rw [step] at steps
    split_ifs at steps <;> cases steps
    · exact holds.2
    · exact decided
  | merging request pr =>
    have decided : Decided target world := by simp_all [busy, Works, Decided]
    rw [step] at steps
    split_ifs at steps <;> cases steps
    · exact holds
    · exact decided
  | committing request pr tip =>
    have decided : Decided target world := by simp_all [busy, Works, Decided]
    rw [step] at steps
    split_ifs at steps with isTip <;> cases steps
    · exact ⟨holds.1, holds.2.1, by rw [← holds.2.2, isTip]⟩
    · exact decided
  | merged request pr mergeSha =>
    rw [step, if_pos (records request holds.1)] at steps
    cases steps
    exact holds.2.2
  | answered _ => cases steps

theorem Works.isOpen (works : Works target l world) : world.row.state = .open := by
  cases l <;> first | exact works.1 | exact works.2.1

theorem unchanged_outside (steps : step clean stores l world = some (l', world'))
    (free : busy l = false) : world' = world := by
  cases l with
  | waiting request =>
    rw [step] at steps
    split_ifs at steps <;> cases steps <;> rfl
  | answered _ => cases steps
  | _ => cases free

theorem serial_run {rest : PatchWorld → Prop} {inside : PatchPr → PatchWorld → Prop}
    (start : Serial busy rest inside sys)
    (own : ∀ l s l' s', step clean stores l s = some (l', s') →
      (if busy l then inside l s else rest s) → if busy l' then inside l' s' else rest s')
    (apart : sys.Along (step clean stores) (Alone (step clean stores) busy) schedule) :
    Serial busy rest inside (sys.run (step clean stores) schedule) := by
  refine serial_of_alone own (fun _ _ _ _ _ steps free _ _ holds => ?_) start apart
  rwa [unchanged_outside steps free]

/-- **One at a time, merges and closes decide once**, if the row is updated after every merge: there
is one merge commit at most, none if the pull request is stored as closed, and what is decided
stays. -/
theorem decided_once {requests : List PatchRequest} {earlier later : List ℕ}
    (isOpen : world.row.state = .open) (records : RecordsMerges stores)
    (apart : (pool requests world).Along (step clean stores)
      (Alone (step clean stores) busy) earlier)
    (apart' : ((pool requests world).run (step clean stores) earlier).Along (step clean stores)
      (Alone (step clean stores) busy) later) :
    let before := ((pool requests world).run (step clean stores) earlier)
    let after := (before.run (step clean stores) later).shared
    after.target ≤ world.target + 1 ∧ (after.row.state = .closed → after.target = world.target) ∧
      (before.shared.row.state ≠ .open → after.row.state = before.shared.row.state) := by
  have first : Serial busy (Decided world.target) (Works world.target) _ :=
    serial_run (serial_of_idle (by simp [pool, busy]) (by simp [Decided, pool, isOpen]))
      (fun _ _ _ _ => works_step records) apart
  refine and_assoc.mp ⟨?_, fun notOpen => ?_⟩
  · refine (serial_run first (fun _ _ _ _ => works_step records) apart').shared
      (P := fun after => after.target ≤ world.target + 1 ∧
        (after.row.state = .closed → after.target = world.target)) (fun after decided => ?_)
      fun l _ _ works => ?_
    · unfold Decided at decided
      split_ifs at decided <;> simp_all
    · cases l <;> simp_all [Works]
  · -- nobody is at work on a row that is decided, and no request goes on from it
    obtain ⟨i, others, works, -⟩ := first
    have decided : Serial busy (fun after : PatchWorld => after.row.state =
        ((pool requests world).run (step clean stores) earlier).shared.row.state)
        (fun _ _ => False) _ :=
      ⟨i, others, fun l isThread isBusy => notOpen (works l isThread isBusy).isOpen, fun _ => rfl⟩
    refine (serial_run decided (fun l s l' s' steps holds => ?_) apart').shared
      (fun _ => id) fun _ _ _ never => never.elim
    cases l with
    | waiting request =>
      rw [step, if_pos (holds.trans_ne notOpen)] at steps
      cases steps
      exact holds
    | answered _ => cases steps
    | _ => exact holds.elim

/-- The first close cannot be stored. -/
def firstCloseLost : PatchRequest → Bool
  | ⟨id, .close⟩ => id ≠ 0
  | _ => true

theorem decided_once_inTurn :
    let before := (pool [⟨0, .close⟩, ⟨1, .merge⟩, ⟨2, .close⟩] ⟨⟨1, "repo-1", .open, none⟩, 0⟩).run
      (step (fun _ => true) firstCloseLost) [0, 0, 1, 1, 1, 1]
    let after := (before.run (step (fun _ => true) firstCloseLost) [2]).shared
    after.row.state = .merged ∧ after.target ≤ 1 ∧ (after.row.state = .closed → after.target = 0) ∧
      (before.shared.row.state ≠ .open → after.row.state = before.shared.row.state) := by
  have records : RecordsMerges firstCloseLost := by
    rintro ⟨id, action⟩ rfl
    rfl
  exact ⟨by decide +kernel, decided_once rfl records (by decide +kernel) (by decide +kernel)⟩

/-- **Two merges and a close read the open row**: there are two merge commits, and the row that was
stored as merged becomes closed. The same comes of one merge that cannot be recorded, with the
others in turn. -/
theorem merged_twice_and_closed :
    let requests : List PatchRequest := [⟨0, .merge⟩, ⟨1, .merge⟩, ⟨2, .close⟩]
    let system := pool requests ⟨⟨1, "repo-1", .open, none⟩, 0⟩
    let before := system.run (step (fun _ => true) fun _ => true) [0, 1, 2, 0, 0, 0, 1, 1, 1]
    let after := (before.run (step (fun _ => true) fun _ => true) [2]).shared
    let lost := (system.run (step (fun _ => true) fun request => decide (request.id ≠ 0))
      [0, 0, 0, 0, 2, 2]).shared
    (before.shared.row.state = .merged ∧ after.row.state = .closed ∧ after.target = 2) ∧
      (lost.row.state = .closed ∧ lost.target = 1) := by
  decide +kernel

end PatchPr

/-! ### What a pull request shows and what its merge changes -/

section Trees

variable {β : Type} [DecidableEq β]

/-- The files of a commit, with their contents and modes. -/
structure GitTree (β : Type) where
  paths : List String
  entry : String → Option β
  covers : ∀ {path}, entry path ≠ none → path ∈ paths

/-- The branches, and the tree of each commit. -/
structure GitRepo (β : Type) where
  branches : String → Option ℕ
  trees : ℕ → GitTree β
  mergeBase : ℕ → ℕ → Option ℕ

/-- A file that differs, and how. -/
structure DiffFile where
  file : String
  isNew : Bool
  isDeleted : Bool
deriving DecidableEq

inductive MergeError where
  | conflict (files : List String)
  | other (message : String)
deriving DecidableEq

/-- The paths at which two trees differ. -/
def diffTreeToTree (old new : GitTree β) : List DiffFile :=
  ((old.paths ++ new.paths).dedup.filter fun path => old.entry path ≠ new.entry path).map
    fun path =>
    ⟨path, (old.entry path).isNone, (new.entry path).isNone⟩

/-- The files that a pull request shows: source against target. -/
def buildDiff (repo : GitRepo β) (sourceBranch targetBranch : String) :
    Except String (List DiffFile) :=
  match repo.branches sourceBranch, repo.branches targetBranch with
  | none, _ => .error "source branch not found"
  | _, none => .error "target branch not found"
  | some source, some target => .ok (diffTreeToTree (repo.trees target) (repo.trees source))

/-- A side that has not changed an entry takes the other one; what happens where both have is up to
`both`, `none` being a conflict. -/
def mergeEntry (both : Option β → Option β → Option β → Option (Option β))
    (base ours theirs : Option β) : Option (Option β) :=
  if ours = theirs then some ours
  else if ours = base then some theirs
  else if theirs = base then some ours
  else both base ours theirs

variable (both : Option β → Option β → Option β → Option (Option β))

/-- All entries merged, or the paths in conflict. -/
def mergeTrees (base ours theirs : GitTree β) : Except (List String) (GitTree β) :=
  let merged path := mergeEntry both (base.entry path) (ours.entry path) (theirs.entry path)
  let conflicts := (ours.paths ++ theirs.paths).dedup.filter fun path => (merged path).isNone
  if conflicts ≠ [] then .error conflicts
  else .ok
    { paths := ours.paths ++ theirs.paths
      entry := fun path => (merged path).getD none
      covers := fun {path} found => by
        by_contra absent
        rw [List.mem_append, not_or] at absent
        have none := not_not.mp (mt ours.covers absent.1)
        have none' := not_not.mp (mt theirs.covers absent.2)
        simp [merged, mergeEntry, none, none'] at found }

/-- The tree of the merge commit. -/
def performMerge (repo : GitRepo β) (sourceBranch targetBranch : String) :
    Except MergeError (GitTree β) :=
  match repo.branches sourceBranch, repo.branches targetBranch with
  | none, _ => .error (.other "source branch not found")
  | _, none => .error (.other "target branch not found")
  | some source, some target =>
    match repo.mergeBase source target with
    | none => .error (.other "failed to find merge base")
    | some base =>
      (mergeTrees both (repo.trees base) (repo.trees target) (repo.trees source)).mapError .conflict

theorem mem_diffTreeToTree {old new : GitTree β} :
    path ∈ (diffTreeToTree old new).map DiffFile.file ↔ old.entry path ≠ new.entry path := by
  have covered : old.entry path ≠ new.entry path → path ∈ old.paths ∨ path ∈ new.paths := by
    intro differ
    by_contra absent
    rw [not_or] at absent
    exact differ
      ((not_not.mp (mt old.covers absent.1)).trans (not_not.mp (mt new.covers absent.2)).symm)
  simpa [diffTreeToTree] using covered

theorem mergeEntry_of_unchanged {base ours theirs : Option β}
    (apart : theirs = base ∨ ours = base) :
    mergeEntry both base ours theirs = some (if ours = base then theirs else ours) := by
  unfold mergeEntry
  grind

theorem exists_mergeTrees {base ours theirs : GitTree β}
    (apart : ∀ path, theirs.entry path = base.entry path ∨ ours.entry path = base.entry path) :
    ∃ merged, mergeTrees both base ours theirs = .ok merged ∧ ∀ path, merged.entry path =
      if ours.entry path = base.entry path then theirs.entry path else ours.entry path := by
  have entries path := mergeEntry_of_unchanged both (apart path)
  exact ⟨_, if_neg (by simp [entries]), fun path => by simp [entries]⟩

/-- **Where no path was changed on both sides, the files a pull request shows are those its merge
changes exactly if the target has no change of its own:** the diff is taken from the target, not
from the merge base. -/
theorem diff_eq_merge_iff (repo : GitRepo β) (sourceBranch targetBranch : String)
    (source target base : ℕ)
    (isSource : repo.branches sourceBranch = some source)
    (isTarget : repo.branches targetBranch = some target)
    (isBase : repo.mergeBase source target = some base)
    (apart : ∀ path, (repo.trees source).entry path = (repo.trees base).entry path ∨
      (repo.trees target).entry path = (repo.trees base).entry path) :
    ∃ files merged, buildDiff repo sourceBranch targetBranch = .ok files ∧
      performMerge both repo sourceBranch targetBranch = .ok merged ∧
        ((∀ path, path ∈ files.map DiffFile.file ↔
          merged.entry path ≠ (repo.trees target).entry path) ↔
          ∀ path, (repo.trees target).entry path = (repo.trees base).entry path) := by
  obtain ⟨merged, clean, entries⟩ := exists_mergeTrees both apart
  have merges : performMerge both repo sourceBranch targetBranch = .ok merged := by
    rw [performMerge, isSource, isTarget]
    simp only [isBase, clean]
    rfl
  refine ⟨_, merged, by rw [buildDiff, isSource, isTarget], merges, ?_⟩
  simp only [mem_diffTreeToTree, entries]
  refine forall_congr' fun path => ?_
  have := apart path
  grind

end Trees

/-- One file in the commits of a feature, of the target and of the merge base. -/
def oneFile (source target base : ℕ) : GitRepo ℕ where
  branches name := if name = "feature" then some source else if name = "main" then
    some target else none
  trees commit :=
    { paths := ["f"]
      entry := fun path => if path = "f" then some commit else none
      covers := by grind }
  mergeBase _ _ := some base

/-- A feature changes the file, the target does not. -/
theorem diff_eq_merge_forward :
    ∃ files merged, buildDiff (oneFile 1 0 0) "feature" "main" = .ok files ∧
    performMerge (fun _ _ _ => none) (oneFile 1 0 0) "feature" "main" = .ok merged ∧
      ∀ path, path ∈ files.map DiffFile.file ↔
      merged.entry path ≠ ((oneFile 1 0 0).trees 0).entry path := by
  obtain ⟨files, merged, shown, merges, shows⟩ :=
    diff_eq_merge_iff (fun _ _ _ => none) (oneFile 1 0 0) "feature" "main" 1 0 0 rfl rfl rfl
      fun _ => .inr rfl
  exact ⟨files, merged, shown, merges, shows.mpr fun _ => rfl⟩

/-- **A file that only the target has changed is shown**, and the merge leaves it as it is there. -/
theorem diff_shows_target_change :
    buildDiff (oneFile 0 1 0) "feature" "main" = .ok [⟨"f", false, false⟩] ∧
      (performMerge (fun _ _ _ => none) (oneFile 0 1 0) "feature" "main").map (·.entry "f") =
        .ok (((oneFile 0 1 0).trees 1).entry "f") := by
  constructor <;> rfl

end Muli.Git
