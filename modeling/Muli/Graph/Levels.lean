/-
**Topological levels by counting open dependencies.**

Kahn's algorithm level by level: the nodes without open dependencies form a level, then every node
that depends on one of them has one dependency less.

* `AtRound k` — **the invariant of the loop:** after `k` rounds the remaining nodes are those at the
  end of a chain of length `k`, and a node's count is the number of its dependencies among them.
* `mem_topologicalLevels_iff` — in an acyclic graph the level of a node is the length of the longest
  chain that ends at it; `topologicalLevels_perm` — the levels hold every node once.
-/

import Mathlib.Data.List.Dedup
import Mathlib.Data.List.Perm.Basic
import Mathlib.Logic.Function.Basic
import Muli.Graph.Cycle

set_option linter.unusedSectionVars false

namespace Graph

open List Function

/-- The order in which a hash set happens to be iterated. -/
structure HashOrder (α : Type) where
  arrange : List α → List α
  perm : ∀ items, (arrange items).Perm items

variable {α : Type} [DecidableEq α] (needs : α → List α) (names : List α)

def inDegrees : α → ℕ :=
  names.foldl (fun degree name => update degree name (degree name + (needs name).length))
    fun _ => 0

def dependents (node : α) : List α :=
  names.flatMap fun name => ((needs name).filter (· = node)).map fun _ => name

/-- One dependency less for everything that depends on the node. -/
def release (degree : α → ℕ) (node : α) : α → ℕ :=
  (dependents needs names node).foldl
    (fun degree name => update degree name (degree name - 1)) degree

def levelsLoop (order : HashOrder α) : ℕ → (α → ℕ) → List α → List (List α)
  | 0, _, _ => []
  | fuel + 1, degree, remaining =>
    let level := order.arrange (remaining.filter fun node => degree node = 0)
    if level = [] then []
    else level :: levelsLoop order fuel (level.foldl (release needs names) degree)
      (remaining.filter fun node => node ∉ level)

/-- The levels: each holds the nodes whose dependencies are all in earlier ones. -/
def topologicalLevels (order : HashOrder α) : List (List α) :=
  levelsLoop needs names order names.length (inDegrees needs names) names.dedup

/-- A chain of `k` dependencies ends at the node. -/
def HasChain : ℕ → α → Prop
  | 0, _ => True
  | k + 1, node => ∃ dep ∈ needs node, HasChain k dep

variable {needs names}

/-! ### Chains -/

omit [DecidableEq α] in
theorem HasChain.pred (chain : HasChain needs (k + 1) node) : HasChain needs k node := by
  induction k generalizing node with
  | zero => trivial
  | succ k ih =>
    obtain ⟨dep, isDep, shorter⟩ := chain
    exact ⟨dep, isDep, ih shorter⟩

omit [DecidableEq α] in
theorem HasChain.mono (le : j ≤ k) (chain : HasChain needs k node) : HasChain needs j node := by
  induction le with
  | refl => exact chain
  | step _ ih => exact ih chain.pred

omit [DecidableEq α] in
theorem HasChain.of_transGen (path : Relation.TransGen (Needed needs) below above)
    (chain : HasChain needs k below) : HasChain needs (k + 1) above := by
  induction path with
  | single needed => exact ⟨below, needed, chain⟩
  | tail _ needed ih => exact .pred ⟨_, needed, ih⟩

/-! ### The counts -/

theorem inDegrees_apply (name : α) :
    inDegrees needs names name = names.count name * (needs name).length := by
  suffices fold : ∀ degree : α → ℕ, names.foldl (fun degree name =>
      update degree name (degree name + (needs name).length)) degree name =
        degree name + names.count name * (needs name).length from
    (fold fun _ => 0).trans (Nat.zero_add _)
  induction names with
  | nil => simp
  | cons first rest ih =>
    intro degree
    rw [foldl_cons, ih, count_cons]
    by_cases same : first = name
    · grind
    · rw [update_of_ne (Ne.symm same), if_neg (by simpa using same), Nat.add_zero]

theorem foldl_decrement (released : List α) (degree : α → ℕ) (node : α) :
    released.foldl (fun degree name => update degree name (degree name - 1)) degree node =
      degree node - released.count node := by
  induction released generalizing degree with
  | nil => rfl
  | cons first rest ih =>
    rw [foldl_cons, ih, count_cons]
    by_cases same : first = node
    · grind
    · rw [update_of_ne (Ne.symm same), if_neg (by simpa using same), Nat.add_zero]

theorem count_dependents (node name : α) :
    (dependents needs names node).count name = names.count name * (needs name).count node := by
  induction names with
  | nil => simp [dependents]
  | cons first rest ih =>
    rw [dependents, flatMap_cons, count_append, ← dependents, ih, count_cons,
      map_const']
    by_cases same : first = name
    · subst same
      have listed : ((needs first).filter (· = node)).length = (needs first).count node := by
        rw [count, countP_eq_length_filter]
        rfl
      rw [count_replicate_self, listed, if_pos (beq_self_eq_true first), Nat.add_mul]
      omega
    · grind

theorem countP_eq_add {p q r : α → Bool} {items : List α}
    (split : ∀ item ∈ items, (p item ↔ q item ∨ r item) ∧ ¬ (q item ∧ r item)) :
    items.countP p = items.countP q + items.countP r := by
  induction items with
  | nil => rfl
  | cons item items ih =>
    by_cases inQ : q item <;> by_cases inR : r item <;> simp_all <;> omega

variable {level : List α}

theorem count_flatMap_dependents (nodup : level.Nodup) {name : α} (once : names.count name = 1) :
    (level.flatMap (dependents needs names)).count name = (needs name).countP (· ∈ level) := by
  induction level with
  | nil => simp
  | cons node level ih =>
    obtain ⟨notIn, nodup'⟩ := nodup_cons.mp nodup
    rw [flatMap_cons, count_append, count_dependents, once, Nat.one_mul, ih nodup']
    refine (countP_eq_add fun dep _ => ?_).symm
    simp only [mem_cons, decide_eq_true_eq, beq_iff_eq, true_and]
    rintro ⟨rfl, mem⟩
    exact notIn mem

theorem foldl_release (nodup : level.Nodup) (degree : α → ℕ) (once : names.count name = 1) :
    level.foldl (release needs names) degree name = degree name - (needs name).countP
    (· ∈ level) := by
  have flat : level.foldl (release needs names) degree =
      (level.flatMap (dependents needs names)).foldl
        (fun degree name => update degree name (degree name - 1)) degree := by
    rw [foldl_flatMap]
    rfl
  rw [flat, foldl_decrement, count_flatMap_dependents nodup once]

/-! ### The loop -/

open scoped Classical in
/-- **After `k` rounds** the nodes at the end of a chain of length `k` remain, and a name's count is
the number of its dependencies among them. -/
structure AtRound (needs : α → List α) (names : List α) (k : ℕ) (degree : α → ℕ)
    (remaining : List α) : Prop where
  nodup : remaining.Nodup
  mem : ∀ node, node ∈ remaining ↔ node ∈ names ∧ HasChain needs k node
  degree : ∀ node ∈ names, degree node = (needs node).countP fun dep => HasChain needs k dep

theorem atRound_zero (nodup : names.Nodup) :
    AtRound needs names 0 (inDegrees needs names) names.dedup := by
  refine ⟨nodup_dedup names, fun node => ?_, fun node known => ?_⟩
  · simp [HasChain]
  · rw [inDegrees_apply, count_eq_one_of_mem nodup known, Nat.one_mul]
    refine (countP_eq_length.mpr fun dep _ => ?_).symm
    classical exact decide_eq_true (p := HasChain needs 0 dep) trivial

variable {k : ℕ} {degree : α → ℕ} {remaining : List α} {order : HashOrder α}

section

variable (round : AtRound needs names k degree remaining)
include round

/-- The level of round `k`: the ends of chains of length `k` and no longer. -/
theorem AtRound.mem_level (order : HashOrder α) (node : α) :
    node ∈ order.arrange (remaining.filter fun node => degree node = 0) ↔
      node ∈ names ∧ HasChain needs k node ∧ ¬ HasChain needs (k + 1) node := by
  rw [(order.perm _).mem_iff, mem_filter, round.mem, and_assoc]
  refine and_congr_right fun known => and_congr_right fun _ => ?_
  rw [decide_eq_true_eq, round.degree node known, countP_eq_zero]
  simp [HasChain]

theorem AtRound.next (nodup : names.Nodup)
    (isLevel : level = order.arrange (remaining.filter fun node => degree node = 0))
    (closed : ∀ node ∈ names, ∀ dep ∈ needs node, dep ∈ names) :
    AtRound needs names (k + 1) (level.foldl (release needs names) degree)
      (remaining.filter fun node => node ∉ level) := by
  have inLevel := isLevel ▸ round.mem_level order
  have nodupLevel : level.Nodup :=
    isLevel ▸ (order.perm _).nodup_iff.mpr (round.nodup.filter _)
  refine ⟨round.nodup.filter _, fun node => ?_, fun node known => ?_⟩
  · rw [mem_filter, round.mem, decide_eq_true_eq, inLevel]
    constructor
    · simp_all
    · rintro ⟨known, chain⟩
      exact ⟨⟨known, chain.pred⟩, fun ⟨_, _, noLonger⟩ => noLonger chain⟩
  · rw [foldl_release nodupLevel degree (count_eq_one_of_mem nodup known),
      round.degree node known]
    apply Nat.sub_eq_of_eq_add
    rw [Nat.add_comm]
    refine countP_eq_add fun dep isDep => ?_
    simp only [decide_eq_true_eq, inLevel]
    have knownDep := closed node known dep isDep
    constructor
    · constructor
      · intro chain
        by_cases longer : HasChain needs (k + 1) dep
        · exact .inr longer
        · exact .inl ⟨knownDep, chain, longer⟩
      · rintro (⟨-, chain, -⟩ | longer)
        · exact chain
        · exact longer.pred
    · simp

theorem AtRound.remaining_eq_nil
    (closed : ∀ node ∈ names, ∀ dep ∈ needs node, dep ∈ names)
    (accessible : ∀ node ∈ names, Acc (Needed needs) node)
    (noLevel : order.arrange (remaining.filter fun node => degree node = 0) = []) :
    remaining = [] := by
  refine eq_nil_iff_forall_not_mem.mpr fun node mem => ?_
  have known := ((round.mem node).mp mem).1
  -- Going down the dependencies that remain ends at a node of the level.
  induction accessible node known with
  | intro node _ ih =>
    by_cases longer : HasChain needs (k + 1) node
    · obtain ⟨dep, isDep, chain⟩ := longer
      have knownDep := closed node known dep isDep
      exact ih dep isDep ((round.mem dep).mpr ⟨knownDep, chain⟩) knownDep
    · have inLevel := (round.mem_level order node).mpr
        ⟨known, ((round.mem node).mp mem).2, longer⟩
      rw [noLevel] at inLevel
      exact not_mem_nil inLevel

end

theorem AtRound.not_hasChain (round : AtRound needs names k degree []) (known : node ∈ names)
    (i : ℕ) : ¬ HasChain needs (k + i) node := fun chain =>
  not_mem_nil ((round.mem node).mpr ⟨known, chain.mono (Nat.le_add_right k i)⟩)

theorem level_append_perm
    (isLevel : level = order.arrange (remaining.filter fun node => degree node = 0)) :
    (level ++ remaining.filter fun node => node ∉ level).Perm remaining := by
  have rest : (remaining.filter fun node => node ∉ level) =
      remaining.filter fun node => !decide (degree node = 0) := by
    refine filter_congr fun node mem => ?_
    have inLevel : node ∈ level ↔ degree node = 0 := by
      rw [isLevel, (order.perm _).mem_iff, mem_filter]
      simp [mem]
    simp [inLevel]
  rw [rest]
  refine .trans ?_ (filter_append_perm (fun node => decide (degree node = 0)) remaining)
  exact (isLevel ▸ order.perm _).append_right _

variable (nodup : names.Nodup) (closed : ∀ node ∈ names, ∀ dep ∈ needs node, dep ∈ names)
include nodup closed

/-- **The levels from round `k` on.** -/
theorem AtRound.levelsLoop_spec (round : AtRound needs names k degree remaining)
    (accessible : ∀ node ∈ names, Acc (Needed needs) node) (enough : remaining.length ≤ fuel) :
    (levelsLoop needs names order fuel degree remaining).flatten.Perm remaining ∧
      ∀ i node, (∃ level ∈ (levelsLoop needs names order fuel degree remaining)[i]?, node ∈ level) ↔
        node ∈ names ∧ HasChain needs (k + i) node ∧ ¬ HasChain needs (k + i + 1) node := by
  induction fuel generalizing k degree remaining with
  | zero =>
    obtain rfl : remaining = [] := length_eq_zero_iff.mp (Nat.le_zero.mp enough)
    refine ⟨.refl _, fun i node => iff_of_false (by simp [levelsLoop]) ?_⟩
    exact fun ⟨known, chain, _⟩ => round.not_hasChain known i chain
  | succ fuel ih =>
    rw [levelsLoop]
    generalize isLevel : order.arrange (remaining.filter fun node => degree node = 0) = level
    by_cases empty : level = []
    · obtain rfl : remaining = [] :=
        round.remaining_eq_nil closed accessible (isLevel.trans empty)
      refine ⟨by simp [empty], fun i node => iff_of_false (by simp [empty]) ?_⟩
      exact fun ⟨known, chain, _⟩ => round.not_hasChain known i chain
    · have partition := level_append_perm isLevel.symm
      have shorter : (remaining.filter fun node => node ∉ level).length ≤ fuel := by
        have sizes := partition.length_eq
        have nonempty := length_pos_iff.mpr empty
        rw [length_append] at sizes
        omega
      obtain ⟨perm, spec⟩ := ih (round.next nodup isLevel.symm closed) shorter
      simp only [empty, if_false]
      refine ⟨(perm.append_left level).trans partition, fun i node => ?_⟩
      cases i with
      | zero =>
        rw [Nat.add_zero, ← round.mem_level order node, isLevel]
        simp
      | succ i => grind

theorem AtRound.exists_not_hasChain (round : AtRound needs names k degree remaining)
    (mem : node ∈ (levelsLoop needs names order fuel degree remaining).flatten) :
    ∃ i, ¬ HasChain needs i node := by
  induction fuel generalizing k degree remaining with
  | zero => cases mem
  | succ fuel ih =>
    rw [levelsLoop] at mem
    split at mem
    · cases mem
    · rcases mem_append.mp mem with inLevel | later
      · exact ⟨k + 1, ((round.mem_level order node).mp inLevel).2.2⟩
      · exact ih (round.next nodup rfl closed) later

/-- **A name on a cycle is in no level.** -/
theorem not_mem_topologicalLevels_of_cycle (cycle : Relation.TransGen (Needed needs) node node) :
    node ∉ (topologicalLevels needs names order).flatten := by
  intro mem
  obtain ⟨i, noChain⟩ := (atRound_zero nodup).exists_not_hasChain nodup closed mem
  refine noChain ?_
  clear noChain
  induction i with
  | zero => trivial
  | succ i ih => exact .of_transGen cycle ih

/-! ### Acyclic graphs -/

section Acyclic

variable (accessible : ∀ node ∈ names, Acc (Needed needs) node)
include accessible

/-- **The levels hold every name once.** -/
theorem topologicalLevels_perm (order : HashOrder α) :
    (topologicalLevels needs names order).flatten.Perm names := by
  have size : names.dedup.length ≤ names.length := (dedup_sublist names).length_le
  refine ((atRound_zero nodup).levelsLoop_spec nodup closed accessible size).1.trans ?_
  rw [List.Nodup.dedup nodup]

/-- **A name is in the level whose index is the length of its longest chain.** -/
theorem mem_topologicalLevels_iff (order : HashOrder α) (i : ℕ) (node : α) :
    (∃ level ∈ (topologicalLevels needs names order)[i]?, node ∈ level) ↔
      node ∈ names ∧ HasChain needs i node ∧ ¬ HasChain needs (i + 1) node := by
  have size : names.dedup.length ≤ names.length := (dedup_sublist names).length_le
  rw [topologicalLevels, ((atRound_zero nodup).levelsLoop_spec nodup closed accessible size).2,
    Nat.zero_add]

theorem exists_longest_chain (known : node ∈ names) :
    ∃ i, HasChain needs i node ∧ ¬ HasChain needs (i + 1) node := by
  let order : HashOrder α := ⟨id, fun _ => .refl _⟩
  have inSome := (topologicalLevels_perm nodup closed accessible order).mem_iff.mpr known
  obtain ⟨level, isLevel, mem⟩ := mem_flatten.mp inSome
  obtain ⟨i, atIndex⟩ := getElem?_of_mem isLevel
  exact ⟨i, ((mem_topologicalLevels_iff nodup closed accessible order i node).mp
    ⟨level, atIndex, mem⟩).2⟩

end Acyclic

end Graph
