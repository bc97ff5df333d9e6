/-
**The levels of a pipeline.**

`DagGraph` is the graph the executor builds from a definition; its levels are computed by counting
down in-degrees, while the definition was accepted by a depth-first search for cycles.

* `topologicalLevels_of_valid` — **every name has one level, later than the levels of everything it
  needs, whose index is the length of the longest chain of dependencies ending at it**, whatever the
  order in which the hash sets are iterated.
-/

import Muli.Pipeline.Definition
import Muli.Graph.Levels
import Mathlib.Order.Bounds.Basic

namespace Muli

open Graph

structure DagGraph where
  adj : String → List String
  names : List String

namespace DagGraph

def fromSteps (steps : List (String × List String)) : DagGraph where
  adj := adjacency steps
  names := steps.map Prod.fst

def topologicalLevels (graph : DagGraph) (order : HashOrder String) : List (List String) :=
  Graph.topologicalLevels graph.adj graph.names order

def dependenciesOf (graph : DagGraph) (stepName : String) : List String := graph.adj stepName

/-- `cycle_dfs` from every name; the search is the validator's, on the graph's own map. -/
def hasCycle (graph : DagGraph) : Bool :=
  (findCycle graph.adj graph.names.length graph.names ⟨∅, ∅⟩).isSome

end DagGraph

open DagGraph

def InLevel (levels : List (List String)) (i : ℕ) (name : String) : Prop :=
  ∃ level ∈ levels[i]?, name ∈ level

def PipelineDef.graph (pipeline : PipelineDef) : DagGraph := .fromSteps pipeline.nodes

section Valid

variable {pipeline : PipelineDef} (valid : validatePipeline pipeline = .ok ())
include valid

theorem closed_of_valid : ∀ name ∈ pipeline.graph.names, ∀ dep ∈ pipeline.graph.adj name,
    dep ∈ pipeline.graph.names :=
  adjacency_closed (validateDag_eq_ok_iff.mp (validateDag_of_valid valid)).1

theorem flatten_perm_of_valid (order : HashOrder String) :
    (pipeline.graph.topologicalLevels order).flatten.Perm pipeline.names :=
  topologicalLevels_perm (nodup_names_of_valid valid) (closed_of_valid valid)
    (validateDag_eq_ok_iff.mp (validateDag_of_valid valid)).2 order

/-- **A name is in the level whose index is the length of its longest chain.** -/
theorem inLevel_iff_of_valid (order : HashOrder String) (i : ℕ) (name : String) :
    InLevel (pipeline.graph.topologicalLevels order) i name ↔
      name ∈ pipeline.names ∧ HasChain pipeline.graph.dependenciesOf i name ∧
        ¬ HasChain pipeline.graph.dependenciesOf (i + 1) name :=
  mem_topologicalLevels_iff (nodup_names_of_valid valid) (closed_of_valid valid)
    (validateDag_eq_ok_iff.mp (validateDag_of_valid valid)).2 order i name

theorem exists_inLevel_of_valid (order : HashOrder String) (declared : name ∈ pipeline.names) :
    ∃ i, InLevel (pipeline.graph.topologicalLevels order) i name := by
  obtain ⟨i, longest⟩ := exists_longest_chain (nodup_names_of_valid valid) (closed_of_valid valid)
    (validateDag_eq_ok_iff.mp (validateDag_of_valid valid)).2 declared
  exact ⟨i, (inLevel_iff_of_valid valid order i name).mpr ⟨declared, longest⟩⟩

end Valid

theorem isGreatest_of_hasChain (chain : HasChain needs i name)
    (longest : ¬ HasChain needs (i + 1) name) : IsGreatest {k | HasChain needs k name} i := by
  refine ⟨chain, fun k longer => ?_⟩
  by_contra exceeds
  exact longest (.mono (Nat.lt_of_not_le exceeds) longer)

variable {order : HashOrder String} {pipeline : PipelineDef}

theorem inLevel_unique_of_valid (valid : validatePipeline pipeline = .ok ())
    (inFirst : InLevel (pipeline.graph.topologicalLevels order) i name)
    (inSecond : InLevel (pipeline.graph.topologicalLevels order) j name) : i = j := by
  obtain ⟨-, chain, longest⟩ := (inLevel_iff_of_valid valid order i name).mp inFirst
  obtain ⟨-, chain', longest'⟩ := (inLevel_iff_of_valid valid order j name).mp inSecond
  exact (isGreatest_of_hasChain chain longest).unique (isGreatest_of_hasChain chain' longest')

theorem inLevel_lt_of_valid (valid : validatePipeline pipeline = .ok ())
    (needed : dep ∈ pipeline.graph.dependenciesOf name)
    (inLevel : InLevel (pipeline.graph.topologicalLevels order) i name)
    (depLevel : InLevel (pipeline.graph.topologicalLevels order) j dep) : j < i := by
  obtain ⟨-, chain, longest⟩ := (inLevel_iff_of_valid valid order i name).mp inLevel
  have depChain := ((inLevel_iff_of_valid valid order j dep).mp depLevel).2.1
  exact (isGreatest_of_hasChain chain longest).2 ⟨dep, needed, depChain⟩

/-- **The levels of an accepted pipeline.** Every name is in exactly one, everything it needs is in
strictly earlier ones, and the index is the length of the longest chain ending at the name. -/
theorem topologicalLevels_of_valid (pipeline : PipelineDef)
    (valid : validatePipeline pipeline = .ok ()) (order : HashOrder String) :
    ((fromSteps pipeline.nodes).topologicalLevels order).flatten.Perm pipeline.names ∧
    ∀ name deps, (name, deps) ∈ pipeline.nodes →
      ∃! i, InLevel ((fromSteps pipeline.nodes).topologicalLevels order) i name ∧
        (∀ dep ∈ deps, ∃ j < i,
          InLevel ((fromSteps pipeline.nodes).topologicalLevels order) j dep) ∧
        IsGreatest {k | HasChain (fromSteps pipeline.nodes).dependenciesOf k name} i := by
  refine ⟨flatten_perm_of_valid valid order, fun name deps node => ?_⟩
  have declared : name ∈ pipeline.names := List.mem_map_of_mem node
  have listed := adjacency_of_mem (nodup_names_of_valid valid) node
  obtain ⟨i, inLevel⟩ := exists_inLevel_of_valid valid order declared
  obtain ⟨-, chain, longest⟩ := (inLevel_iff_of_valid valid order i name).mp inLevel
  have greatest := isGreatest_of_hasChain chain longest
  refine ⟨i, ⟨inLevel, fun dep needed => ?_, greatest⟩, fun j other => other.2.2.unique greatest⟩
  rw [← listed] at needed
  have known : dep ∈ pipeline.names := closed_of_valid valid name declared dep needed
  obtain ⟨j, depLevel⟩ := exists_inLevel_of_valid valid order known
  exact ⟨j, inLevel_lt_of_valid valid needed inLevel depLevel, depLevel⟩

def releasePipeline : PipelineDef where
  jobs := [("release", { needs := ["lint", "test"] }), ("test", { needs := ["build"] }),
    ("build", {}), ("lint", { needs := ["build"] })]
  jobsNodup := by decide
  steps := []

theorem topologicalLevels_of_valid_release : validatePipeline releasePipeline = .ok () ∧
      ∃! i, InLevel ((fromSteps releasePipeline.nodes).topologicalLevels
          ⟨id, fun _ => List.Perm.refl _⟩) i "release" ∧ (∀ dep ∈ ["lint", "test"], ∃ j < i,
          InLevel ((fromSteps releasePipeline.nodes).topologicalLevels
            ⟨id, fun _ => List.Perm.refl _⟩) j dep) ∧
        IsGreatest {k | HasChain (fromSteps releasePipeline.nodes).dependenciesOf k
          "release"} i :=
  ⟨by rfl, (topologicalLevels_of_valid releasePipeline (by rfl)
    ⟨id, fun _ => .refl _⟩).2 "release" ["lint", "test"] (by decide)⟩

example : (fromSteps releasePipeline.nodes).topologicalLevels
    ⟨List.reverse, List.reverse_perm⟩ = [["build"], ["lint", "test"], ["release"]] := by decide

/-! ### The three checks for a cycle -/

section Cycles

variable {steps : List (String × List String)}

/-- A name that needs itself, directly or not. -/
def Cyclic (steps : List (String × List String)) (name : String) : Prop :=
  Relation.TransGen (Needed (fromSteps steps).dependenciesOf) name name

theorem Cyclic.declared (cycle : Cyclic steps name) : name ∈ steps.map Prod.fst := by
  obtain ⟨dep, -, needed⟩ := Relation.TransGen.tail'_iff.mp cycle
  obtain ⟨node, declared, rfl, -⟩ := exists_mem_of_mem_adjacency needed
  exact List.mem_map_of_mem declared

/-- **The validator's search, `has_cycle` and the levels agree on whether there is a cycle:** the
two searches report one, and the levels leave out some name, exactly when some name is on a cycle.
-/
theorem cycle_checks_agree (kind : String) (steps : List (String × List String))
    (unique : (steps.map Prod.fst).Nodup)
    (known : ∀ node ∈ steps, ∀ dep ∈ node.2, dep ∈ steps.map Prod.fst) (order : HashOrder String) :
    ((∃ error, checkAcyclic kind steps = .error error) ↔ ∃ name, Cyclic steps name) ∧
    ((fromSteps steps).hasCycle = true ↔ ∃ name, Cyclic steps name) ∧
    ((∃ name ∈ (fromSteps steps).names,
        name ∉ ((fromSteps steps).topologicalLevels order).flatten) ↔
      ∃ name, Cyclic steps name) := by
  have closed := adjacency_closed known
  have acyclic : (∀ name ∈ steps.map Prod.fst, Acc (Needed (adjacency steps)) name) ↔
      ¬ ∃ name, Cyclic steps name := by
    rw [forall_acc_iff closed, not_exists]
    exact ⟨fun none name cycle => none name cycle.declared cycle, fun none name _ => none name⟩
  refine ⟨?_, ?_, ?_⟩
  · rw [← not_iff_not, ← acyclic, ← @checkAcyclic_eq_ok_iff _ kind known]
    cases checkAcyclic kind steps <;> simp
  · rw [← not_iff_not, ← acyclic, ← findCycle_eq_none_iff closed (List.length_map _).le,
      Bool.not_eq_true, hasCycle, Option.isSome_eq_false_iff, Option.isNone_iff_eq_none]
    simp [fromSteps]
  · constructor
    · rintro ⟨name, declared, leftOut⟩
      by_contra none
      exact leftOut ((topologicalLevels_perm unique closed (acyclic.mpr none) order).mem_iff.mpr
        declared)
    · rintro ⟨name, cycle⟩
      exact ⟨name, cycle.declared, not_mem_topologicalLevels_of_cycle unique closed cycle⟩

/-- `test` and `lint` need each other: all three checks find the cycle. -/
theorem cycle_checks_agree_testLint :
    let steps := [("build", []), ("test", ["build", "lint"]), ("lint", ["test"])]
    (∃ name, Cyclic steps name) ∧ (∃ error, checkAcyclic "job" steps = .error error) ∧
      (fromSteps steps).hasCycle = true ∧
      ∃ name ∈ (fromSteps steps).names,
        name ∉ ((fromSteps steps).topologicalLevels ⟨id, fun _ => .refl _⟩).flatten := by
  intro steps
  obtain ⟨validator, graph, levels⟩ := cycle_checks_agree "job" steps (by decide) (by decide)
    ⟨id, fun _ => .refl _⟩
  have cyclic : ∃ name, Cyclic steps name := graph.mp (by decide)
  exact ⟨cyclic, validator.mpr cyclic, graph.mpr cyclic, levels.mpr cyclic⟩

end Cycles

end Muli
