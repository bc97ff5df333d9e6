/-
**Pipeline definitions and their validation.**

A pipeline is a map of jobs or, in the older format, a list of steps. `validatePipeline` is the
check a definition passes before it runs: unique names, known and acyclic dependencies, bounded
matrices, safe artifact names.

* `validateDag_eq_ok_iff` — **the dependency check accepts exactly the graphs in which every
  dependency is declared and no name lies above a cycle.**
-/

import Muli.Core.Job
import Muli.Core.Validation
import Muli.Graph.Cycle

namespace Muli

open Graph List Prod Function

/-! ### The schema -/

structure CacheDef where
  key : String

/-- What a job or step uploads, in the older format. -/
structure ArtifactUploadDef where
  name : Option String
  paths : List String := []

structure ArtifactsDef where
  upload : Option ArtifactUploadDef
  paths : List String := []

structure ResourceDef where
  cpu : Option String := none
  memory : Option String := none

/-- What the job may do in the registry. -/
inductive RegistryAccess where
  | read
  | write
deriving DecidableEq, Repr

/-- A matrix: a map from variables to their values, in the order it is iterated. -/
structure Matrix where
  entries : List (String × List String)
  nodup : (entries.map fst).Nodup

structure JobStepDef where
  name : String
  commands : List String := []

/-- A job of a pipeline in jobs mode. -/
structure JobDef where
  needs : List String := []
  steps : List JobStepDef := []
  paths : List String := []
  cache : Option CacheDef := none
  artifacts : Option ArtifactsDef := none
  matrix : Option Matrix := none
  condition : Option String := none
  failureStrategy : Option String := none
  image : Option String := none
  commands : List String := []
  env : EnvMap := ∅
  resources : Option ResourceDef := none
  timeout : Option ℕ := none
  registry : Option RegistryAccess := none

/-- A step of a pipeline in steps mode. -/
structure StepDef where
  name : String
  needs : List String := []
  cache : Option CacheDef := none
  artifacts : Option ArtifactsDef := none
  matrix : Option Matrix := none
  condition : Option String := none
  failureStrategy : Option String := none
  image : String := ""
  commands : List String := []
  env : EnvMap := ∅
  resources : Option ResourceDef := none
  timeout : Option ℕ := none

structure CheckoutConfig where
  submodules : Bool := false

/-- A pipeline definition; `jobs` is a map, in the order it is iterated. -/
structure PipelineDef where
  name : String := ""
  jobs : List (String × JobDef)
  jobsNodup : (jobs.map fst).Nodup
  steps : List StepDef
  image : Option String := none
  checkout : CheckoutConfig := {}
  env : EnvMap := ∅

namespace PipelineDef

/-- A pipeline with jobs; its steps are ignored. -/
def jobsMode (pipeline : PipelineDef) : Bool := !pipeline.jobs.isEmpty

/-- The names the definition declares, each with the names it needs. -/
def nodes (pipeline : PipelineDef) : List (String × List String) :=
  if pipeline.jobsMode then pipeline.jobs.map fun job => (job.1, job.2.needs)
  else pipeline.steps.map fun step => (step.name, step.needs)

def names (pipeline : PipelineDef) : List String := pipeline.nodes.map fst

end PipelineDef

/-! ### Validation -/

def yamlError {α : Type} (message : String) : Except MuliError α :=
  .error (.pipelineYamlError message)

/-- The first name that comes twice is reported. -/
def checkUnique : List String → List String → Except MuliError Unit
  | _, [] => .ok ()
  | seen, name :: names =>
    if name ∈ seen then yamlError ("duplicate step name: '" ++ name ++ "'")
    else checkUnique (name :: seen) names

/-- The names of jobs are the keys of a map. -/
def validateUniqueNames (pipeline : PipelineDef) : Except MuliError Unit :=
  if pipeline.jobsMode then .ok ()
  else checkUnique [] (pipeline.steps.map StepDef.name)

/-- The dependency map; a name that is declared twice keeps the last list. -/
def adjacency (nodes : List (String × List String)) : String → List String :=
  nodes.foldl (fun adj node => update adj node.1 node.2) fun _ => []

/-- Fail at the first dependency that is not declared. -/
def checkKnown (kind : String) (nodes : List (String × List String)) : Except MuliError Unit :=
  match nodes.findSome? fun node =>
      (node.2.find? fun dep => dep ∉ nodes.map fst).map fun dep => (node.1, dep) with
  | some (name, dep) =>
    yamlError (kind ++ " '" ++ name ++ "' depends on unknown " ++ kind ++ " '" ++ dep ++ "'")
  | none => .ok ()

/-- Fail at the first name from which a cycle is reached. -/
def checkAcyclic (kind : String) (nodes : List (String × List String)) : Except MuliError Unit :=
  match findCycle (adjacency nodes) nodes.length (nodes.map fst) ⟨∅, ∅⟩ with
  | some name =>
    .error (.pipelineDagCycle ("cycle detected involving " ++ kind ++ " '" ++ name ++ "'"))
  | none => .ok ()

/-- Known dependencies and no cycle. -/
def validateDag (pipeline : PipelineDef) : Except MuliError Unit := do
  let kind := if pipeline.jobsMode then "job" else "step"
  checkKnown kind pipeline.nodes
  checkAcyclic kind pipeline.nodes

def maxMatrixSize : ℕ := 25

/-- The product of the dimension sizes in 64-bit arithmetic; an empty dimension counts as one. -/
def Matrix.combinations (matrix : Matrix) : ℕ :=
  matrix.entries.foldl (fun product entry => product * max entry.2.length 1 % 2 ^ 64) 1

/-- The product of the numbers of values is limited. -/
def checkMatrixSize (kind name : String) : Option Matrix → Except MuliError Unit
  | none => .ok ()
  | some matrix =>
    if matrix.combinations > maxMatrixSize then
      yamlError (kind ++ " '" ++ name ++ "' matrix produces " ++ matrix.combinations.repr ++
        " combinations (max " ++ maxMatrixSize.repr ++ ")")
    else .ok ()

def validateMatrixSizes (pipeline : PipelineDef) : Except MuliError Unit :=
  if pipeline.jobsMode then
    pipeline.jobs.forM fun job => checkMatrixSize "job" job.1 job.2.matrix
  else pipeline.steps.forM fun step => checkMatrixSize "step" step.name step.matrix

/-- No separator, no parent directory, no null character. -/
def validatePathComponent (s label : String) : Except MuliError Unit :=
  if s = "" ∨ "..".toList <:+: s.toList ∨ '/' ∈ s.toList ∨ '\\' ∈ s.toList ∨
      Char.ofNat 0 ∈ s.toList then
    yamlError ("invalid " ++ label ++ ": '" ++ s ++ "' (path traversal not allowed)")
  else .ok ()

/-- The names that become paths. -/
def checkArtifactNames (artifacts : Option ArtifactsDef) (cache : Option CacheDef) :
    Except MuliError Unit := do
  match artifacts.bind ArtifactsDef.upload |>.bind ArtifactUploadDef.name with
  | some name => validatePathComponent name "artifact name"
  | none => pure ()
  match cache with
  | some cache => validatePathComponent cache.key "cache key"
  | none => pure ()

/-- Whether nothing is left of a text once it is trimmed. -/
def isBlank (s : String) : Bool := s.toList.all isWhiteSpace

def validateArtifactNames (pipeline : PipelineDef) : Except MuliError Unit :=
  if pipeline.jobsMode then
    pipeline.jobs.forM fun job => do
      checkArtifactNames job.2.artifacts job.2.cache
      job.2.steps.forM fun step =>
        if isBlank step.name then
          yamlError ("job '" ++ job.1 ++ "' contains a step with an empty name")
        else pure ()
  else pipeline.steps.forM fun step => checkArtifactNames step.artifacts step.cache

/-- **The checks of a definition**, in the order of the source. -/
def validatePipeline (pipeline : PipelineDef) : Except MuliError Unit := do
  validateUniqueNames pipeline
  validateDag pipeline
  validateMatrixSizes pipeline
  validateArtifactNames pipeline

/-! ### What an accepted definition satisfies -/

theorem nodup_of_checkUnique (ok : checkUnique seen names = .ok ()) :
    names.Nodup ∧ ∀ name ∈ names, name ∉ seen := by
  induction names generalizing seen with
  | nil => simp
  | cons name names ih =>
    rw [checkUnique] at ok
    split_ifs at ok with known
    · cases ok
    · obtain ⟨nodup, fresh⟩ := ih ok
      have notLater : name ∉ names := fun later => fresh name later mem_cons_self
      refine ⟨nodup_cons.mpr ⟨notLater, nodup⟩, fun other mem => ?_⟩
      rcases mem_cons.mp mem with rfl | later
      · exact known
      · exact fun old => fresh other later (.tail _ old)

variable {pipeline : PipelineDef}

/-- **An accepted definition declares every name once.** -/
theorem nodup_names_of_valid (valid : validatePipeline pipeline = .ok ()) :
    pipeline.names.Nodup := by
  obtain ⟨_, unique, _⟩ := exists_of_bind_eq_ok valid
  unfold validateUniqueNames at unique
  unfold PipelineDef.names PipelineDef.nodes
  split_ifs at unique ⊢ with jobs
  · simpa [comp_def] using pipeline.jobsNodup
  · simpa [comp_def] using (nodup_of_checkUnique unique).1

variable {nodes : List (String × List String)}

theorem foldl_update_of_not_mem (unknown : name ∉ nodes.map fst) (adj : String → List String) :
    nodes.foldl (fun adj node => update adj node.1 node.2) adj name = adj name := by
  induction nodes generalizing adj with
  | nil => rfl
  | cons node nodes ih => simp_all

theorem adjacency_of_mem (nodup : (nodes.map fst).Nodup) (declared : (name, deps) ∈ nodes) :
    adjacency nodes name = deps := by
  obtain ⟨before, later, rfl⟩ := append_of_mem declared
  rw [map_append, map_cons, nodup_append] at nodup
  have last : name ∉ later.map fst := (nodup_cons.mp nodup.2.1).1
  rw [adjacency, foldl_append, foldl_cons, foldl_update_of_not_mem last,
    update_self]

theorem exists_mem_of_mem_adjacency (mem : dep ∈ adjacency nodes name) :
    ∃ node ∈ nodes, node.1 = name ∧ dep ∈ node.2 := by
  suffices ∀ adj : String → List String,
      dep ∈ nodes.foldl (fun adj node => update adj node.1 node.2) adj name →
        dep ∈ adj name ∨ ∃ node ∈ nodes, node.1 = name ∧ dep ∈ node.2 from
    (this _ mem).resolve_left not_mem_nil
  clear mem
  induction nodes with
  | nil => exact fun adj found => .inl found
  | cons node nodes ih =>
    intro adj found
    rcases ih _ found with first | ⟨other, later, declared⟩
    · by_cases same : name = node.1
      · simp_all
      · simp_all
    · exact .inr ⟨other, .tail _ later, declared⟩

theorem adjacency_closed (known : ∀ node ∈ nodes, ∀ dep ∈ node.2, dep ∈ nodes.map fst) :
    ∀ name ∈ nodes.map fst, ∀ dep ∈ adjacency nodes name, dep ∈ nodes.map fst := by
  intro name _ dep mem
  obtain ⟨node, declared, _, listed⟩ := exists_mem_of_mem_adjacency mem
  exact known node declared dep listed

theorem checkKnown_eq_ok_iff (kind : String) :
    checkKnown kind nodes = .ok () ↔ ∀ node ∈ nodes, ∀ dep ∈ node.2, dep ∈ nodes.map fst := by
  have noUnknown : (nodes.findSome? fun node =>
      (node.2.find? fun dep => dep ∉ nodes.map fst).map fun dep => (node.1, dep)) = none ↔
        ∀ node ∈ nodes, ∀ dep ∈ node.2, dep ∈ nodes.map fst := by
    simp only [findSome?_eq_none_iff, Option.map_eq_none_iff, find?_eq_none,
      decide_eq_true_eq, not_not]
  rw [← noUnknown, checkKnown]
  cases nodes.findSome? _ with
  | none => simp
  | some unknown => simp [yamlError]

theorem checkAcyclic_eq_ok_iff (known : ∀ node ∈ nodes, ∀ dep ∈ node.2, dep ∈ nodes.map fst) :
    checkAcyclic kind nodes = .ok () ↔ ∀ name ∈ nodes.map fst,
    Acc (Needed (adjacency nodes)) name := by
  rw [← findCycle_eq_none_iff (adjacency_closed known) (length_map fst).le, checkAcyclic]
  cases findCycle (adjacency nodes) nodes.length (nodes.map fst) ⟨∅, ∅⟩ <;> simp

/-- **The dependency check accepts exactly the acyclic graphs whose dependencies are declared.** -/
theorem validateDag_eq_ok_iff : validateDag pipeline = .ok () ↔
      (∀ node ∈ pipeline.nodes, ∀ dep ∈ node.2, dep ∈ pipeline.names) ∧
        ∀ name ∈ pipeline.names, Acc (Needed (adjacency pipeline.nodes)) name := by
  constructor
  · intro ok
    obtain ⟨_, known, acyclic⟩ := exists_of_bind_eq_ok ok
    have declared := (checkKnown_eq_ok_iff _).mp known
    exact ⟨declared, (checkAcyclic_eq_ok_iff declared).mp acyclic⟩
  · rintro ⟨declared, acyclic⟩
    rw [validateDag, (checkKnown_eq_ok_iff _).mpr declared]
    exact (checkAcyclic_eq_ok_iff declared).mpr acyclic

theorem validateDag_of_valid (valid : validatePipeline pipeline = .ok ()) :
    validateDag pipeline = .ok () := by
  obtain ⟨_, _, rest⟩ := exists_of_bind_eq_ok valid
  obtain ⟨_, dag, _⟩ := exists_of_bind_eq_ok rest
  exact dag

end Muli
