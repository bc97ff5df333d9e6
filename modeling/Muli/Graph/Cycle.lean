/-
**Depth-first search for a dependency cycle.**

`needs` gives the nodes a node depends on. `cycleFrom` is the textbook search with a set of visited
nodes and the set of those on the stack; `fuel` bounds the depth of the recursion.

* `cycleFrom_spec` — with as much fuel as there are unvisited nodes, the search ends; it reports a
  cycle only if the node lies above one, and otherwise **every node it has finished is accessible**
  (no infinite chain of dependencies).
* `findCycle_eq_none_iff` — searching from every name finds nothing exactly when all are accessible.
-/

import Mathlib.Data.Finset.Card
import Mathlib.Data.Finset.Insert
import Mathlib.Data.Finset.SDiff
import Mathlib.Data.Fintype.Card
import Mathlib.Data.Fintype.EquivFin
import Mathlib.Data.Fintype.Sets
import Mathlib.Logic.Relation
import Mathlib.Order.WellFounded
import Mathlib.Tactic.Common

namespace Graph

open List

/-- The nodes met so far, and those whose dependencies are still being followed. -/
structure Visit (α : Type) where
  visited : Finset α
  inStack : Finset α

variable {α : Type} [DecidableEq α] (needs : α → List α)

/-- Follow the dependencies of a node: `true` when one of them is on the stack, or `visit` reports a
cycle. -/
def visitDeps (visit : α → Visit α → Option (Bool × Visit α)) :
    List α → Visit α → Option (Bool × Visit α)
  | [], v => some (false, v)
  | dep :: deps, v =>
    if dep ∉ v.visited then
      match visit dep v with
      | some (false, v') => visitDeps visit deps v'
      | found => found
    else if dep ∈ v.inStack then some (true, v)
    else visitDeps visit deps v

/-- Whether the search from a node meets a cycle; `none` when the fuel runs out. -/
def cycleFrom : ℕ → α → Visit α → Option (Bool × Visit α)
  | 0, _, _ => none
  | fuel + 1, node, v =>
    match visitDeps (cycleFrom fuel) (needs node)
      ⟨insert node v.visited, insert node v.inStack⟩ with
    | some (false, v') => some (false, ⟨v'.visited, v'.inStack.erase node⟩)
    | found => found

/-- The first name from which the search meets a cycle. -/
def findCycle (fuel : ℕ) : List α → Visit α → Option α
  | [], _ => none
  | name :: names, v =>
    if name ∈ v.visited then findCycle fuel names v
    else match cycleFrom needs fuel name v with
      | some (false, v') => findCycle fuel names v'
      | _ => some name

/-! ### Accessible nodes -/

def Needed (dep node : α) : Prop := dep ∈ needs node

variable {needs}

omit [DecidableEq α] in
theorem not_acc_of_cycle (cycle : Relation.TransGen (Needed needs) node node) :
    ¬ Acc (Needed needs) node := by
  intro acc
  have irreflexive : ∀ n, Acc (Relation.TransGen (Needed needs)) n →
      ¬ Relation.TransGen (Needed needs) n n := by
    intro n below
    induction below with
    | intro n _ ih => exact fun loop => ih n loop loop
  exact irreflexive node acc.transGen cycle

variable (needs)

/-- What the search knows: a visited node that is off the stack is accessible. -/
structure Sound (v : Visit α) : Prop where
  stack : v.inStack ⊆ v.visited
  done : ∀ node ∈ v.visited, node ∉ v.inStack → Acc (Needed needs) node

/-- What a search from `node` may answer. -/
def Answers (node : α) (v : Visit α) : Option (Bool × Visit α) → Prop
  | none => False
  | some (true, _) => ¬ Acc (Needed needs) node
  | some (false, v') => Sound needs v' ∧ v.visited ⊆ v'.visited ∧ v'.inStack = v.inStack ∧
      node ∈ v'.visited

/-- What following `deps`, dependencies of `node`, may answer. -/
def Follows (node : α) (deps : List α) (v : Visit α) : Option (Bool × Visit α) → Prop
  | none => False
  | some (true, _) => ¬ Acc (Needed needs) node
  | some (false, v') => Sound needs v' ∧ v.visited ⊆ v'.visited ∧ v'.inStack = v.inStack ∧
      ∀ dep ∈ deps, Acc (Needed needs) dep

/-- Every node on the stack depends on `node`, directly or not. -/
def OnPath (v : Visit α) (node : α) : Prop :=
  ∀ above ∈ v.inStack, Relation.ReflTransGen (Needed needs) node above

variable {needs}

omit [DecidableEq α] in
theorem Follows.cons {v : Visit α} (rest : Follows needs node deps v' answer)
    (grows : v.visited ⊆ v'.visited) (sameStack : v'.inStack = v.inStack)
    (acc : Acc (Needed needs) dep) : Follows needs node (dep :: deps) v answer := by
  match answer, rest with
  | some (true, _), cyclic => exact cyclic
  | some (false, _), ⟨sound, grows', sameStack', accs⟩ =>
    exact ⟨sound, grows.trans grows', sameStack'.trans sameStack,
      forall_mem_cons.mpr ⟨acc, accs⟩⟩

variable {v : Visit α}

theorem visitDeps_spec (sub : ∀ dep ∈ deps, Needed needs dep node) (sound : Sound needs v)
    (path : OnPath needs v node)
    (visits : ∀ dep ∈ deps, ∀ v', v.visited ⊆ v'.visited → v'.inStack = v.inStack →
      dep ∉ v'.visited → Sound needs v' → Answers needs dep v' (visit dep v')) :
    Follows needs node deps v (visitDeps visit deps v) := by
  induction deps generalizing v with
  | nil => exact ⟨sound, Finset.Subset.refl _, rfl, nofun⟩
  | cons dep deps ih =>
    obtain ⟨isDep, sub'⟩ := forall_mem_cons.mp sub
    obtain ⟨visitsDep, visits'⟩ := forall_mem_cons.mp visits
    by_cases seen : dep ∈ v.visited
    · by_cases onStack : dep ∈ v.inStack
      · simp only [visitDeps, seen, onStack, not_true, if_false, if_true]
        exact not_acc_of_cycle (.tail' (path dep onStack) isDep)
      · simp only [visitDeps, seen, onStack, not_true, if_false]
        exact (ih sub' sound path visits').cons (Finset.Subset.refl _) rfl
          (sound.done dep seen onStack)
    · have answers := visitsDep v (Finset.Subset.refl _) rfl seen sound
      simp only [visitDeps, seen, not_false_eq_true, if_true]
      match visit dep v, answers with
      | some (true, _), cyclic => exact fun acc => cyclic (acc.inv isDep)
      | some (false, v'), ⟨sound', grows, sameStack, visited⟩ =>
        have offStack : dep ∉ v'.inStack := sameStack ▸ fun on => seen (sound.stack on)
        have rest := ih sub' sound' (sameStack ▸ path : ∀ _ ∈ v'.inStack, _)
          fun d mem v'' grows' sameStack' =>
            visits' d mem v'' (grows.trans grows') (sameStack'.trans sameStack)
        exact rest.cons grows sameStack (sound'.done dep visited offStack)

variable {fuel : ℕ}

/-- **The search ends, reports only what lies above a cycle, and otherwise leaves every finished
node accessible.** -/
theorem cycleFrom_spec (closed : ∀ node ∈ names, ∀ dep ∈ needs node, dep ∈ names)
    (known : node ∈ names) (fresh : node ∉ v.visited) (enough : (names \ v.visited).card ≤ fuel)
    (sound : Sound needs v) (path : OnPath needs v node) :
    Answers needs node v (cycleFrom needs fuel node v) := by
  induction fuel generalizing node v with
  | zero => grind [Finset.card_pos]
  | succ fuel ih =>
    let entered : Visit α := ⟨insert node v.visited, insert node v.inStack⟩
    have offStack : node ∉ v.inStack := fun on => fresh (sound.stack on)
    have sound' : Sound needs entered := by
      refine ⟨Finset.insert_subset_insert _ sound.stack, fun other visited notOn => ?_⟩
      rw [Finset.mem_insert, not_or] at notOn
      exact sound.done other ((Finset.mem_insert.mp visited).resolve_left notOn.1) notOn.2
    have path' : OnPath needs entered node := by
      intro above on
      rcases Finset.mem_insert.mp on with rfl | below
      · exact .refl
      · exact path above below
    have fewer : ∀ v' : Visit α, entered.visited ⊆ v'.visited →
        (names \ v'.visited).card ≤ fuel := by
      intro v' grows
      have smaller : names \ v'.visited ⊂ names \ v.visited := by
        refine (Finset.ssubset_iff_of_subset ?_).mpr ⟨node, ?_, ?_⟩
        · grind
        · exact Finset.mem_sdiff.mpr ⟨known, fresh⟩
        · exact fun mem => (Finset.mem_sdiff.mp mem).2 (grows (Finset.mem_insert_self ..))
      have := Finset.card_lt_card smaller
      omega
    have follows : Follows needs node (needs node) entered
        (visitDeps (cycleFrom needs fuel) (needs node) entered) := by
      refine visitDeps_spec (fun _ => id) sound' path' ?_
      intro dep isDep v' grows sameStack unseen soundV
      refine ih (closed node known dep isDep) unseen (fewer v' grows) soundV ?_
      intro above on
      exact .head isDep (path' above (sameStack ▸ on))
    rw [cycleFrom]
    match visitDeps (cycleFrom needs fuel) (needs node) entered, follows with
    | some (true, _), cyclic => exact cyclic
    | some (false, v'), ⟨soundV, grows, sameStack, accs⟩ =>
      have left : v'.inStack.erase node = v.inStack := by grind
      refine ⟨⟨?_, ?_⟩, (Finset.subset_insert _ _).trans grows, left,
        grows (Finset.mem_insert_self ..)⟩
      · exact (Finset.erase_subset _ _).trans soundV.stack
      · intro other visited notOn
        by_cases same : other = node
        · exact same ▸ Acc.intro node fun dep isDep => accs dep isDep
        · refine soundV.done other visited fun on => notOn ?_
          exact Finset.mem_erase.mpr ⟨same, on⟩

theorem findCycle_eq_none_iff_of_sound {names : Finset α}
    (closed : ∀ node ∈ names, ∀ dep ∈ needs node, dep ∈ names) (enough : names.card ≤ fuel)
    (known : ∀ name ∈ rest, name ∈ names) (sound : Sound needs v) (empty : v.inStack = ∅) :
    findCycle needs fuel rest v = none ↔ ∀ name ∈ rest, Acc (Needed needs) name := by
  induction rest generalizing v with
  | nil => simp [findCycle]
  | cons name rest ih =>
    obtain ⟨knownName, knownRest⟩ := forall_mem_cons.mp known
    rw [forall_mem_cons]
    by_cases seen : name ∈ v.visited
    · have acc : Acc (Needed needs) name := sound.done name seen (by simp [empty])
      simp only [findCycle, seen, if_true, acc, true_and]
      exact ih knownRest sound empty
    · have fuelLeft : (names \ v.visited).card ≤ fuel :=
        (Finset.card_le_card Finset.sdiff_subset).trans enough
      have path : OnPath needs v name := by simp [OnPath, empty]
      have answers := cycleFrom_spec closed knownName seen fuelLeft sound path
      simp only [findCycle, seen, if_false]
      match cycleFrom needs fuel name v, answers with
      | some (true, _), cyclic =>
        exact iff_of_false (Option.some_ne_none _) fun accs => cyclic accs.1
      | some (false, v'), ⟨sound', _, sameStack, visited⟩ =>
        have acc : Acc (Needed needs) name :=
          sound'.done name visited (by simp [sameStack, empty])
        simp only [acc, true_and]
        exact ih knownRest sound' (sameStack.trans empty)

variable {names : List α} (closed : ∀ node ∈ names, ∀ dep ∈ needs node, dep ∈ names)
include closed

/-- **A search from every name finds a cycle exactly when some name is not accessible.** -/
theorem findCycle_eq_none_iff (enough : names.length ≤ fuel) :
    findCycle needs fuel names ⟨∅, ∅⟩ = none ↔ ∀ name ∈ names, Acc (Needed needs) name := by
  have closed' : ∀ node ∈ names.toFinset, ∀ dep ∈ needs node, dep ∈ names.toFinset := by
    intro node known dep isDep
    exact mem_toFinset.mpr (closed node (mem_toFinset.mp known) dep isDep)
  refine findCycle_eq_none_iff_of_sound closed' ?_ (fun name known => mem_toFinset.mpr known) ?_
    rfl
  · exact (toFinset_card_le names).trans enough
  · exact ⟨Finset.Subset.refl _, fun node visited => absurd visited (Finset.notMem_empty node)⟩

/-- **Among finitely many names, nothing but a cycle keeps a name from being accessible.** -/
theorem forall_acc_iff :
    (∀ name ∈ names, Acc (Needed needs) name) ↔
      ∀ name ∈ names, ¬ Relation.TransGen (Needed needs) name name := by
  refine ⟨fun accs name known cycle => not_acc_of_cycle cycle (accs name known), fun none => ?_⟩
  let below (dep node : {name // name ∈ names}) : Prop :=
    Relation.TransGen (Needed needs) dep.1 node.1
  have : Std.Irrefl below := ⟨fun name => none name.1 name.2⟩
  have : IsTrans _ below := ⟨fun _ _ _ => .trans⟩
  intro name known
  have acc := (Finite.wellFounded_of_trans_of_irrefl below).apply ⟨name, known⟩
  generalize isNode : (⟨name, known⟩ : {name // name ∈ names}) = node at acc
  induction acc generalizing name with
  | intro node _ ih =>
    subst isNode
    exact .intro name fun dep isDep =>
      ih ⟨dep, closed name known dep isDep⟩ (.single isDep) dep _ rfl

end Graph
