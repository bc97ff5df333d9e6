/-
**Matrices: how many copies a definition gets, and how they are told apart.**

* `findsOriginals_iff` — **a copy is assigned to its definition** exactly when no name that may come
  before claims it.
* `fullExpansion_iff` — **every definition has a copy for each combination, all under names of their
  own**, exactly when no list of values is empty or repeats a value and no two copies have the same
  text.
-/

import Mathlib.Algebra.BigOperators.Ring.List
import Mathlib.Algebra.Order.Ring.Nat
import Mathlib.Data.List.Pairwise
import Muli.Pipeline.Expansion

namespace Muli

open List Option

/-! ### Sizes -/

/-- The product of lists, the first one varying slowest. -/
def cartesian : List (List String) → List (List String)
  | [] => [[]]
  | values :: rest => values.flatMap fun value => (cartesian rest).map (value :: ·)

/-- The number of combinations. -/
def sizes (entries : List (String × List String)) : ℕ :=
  (entries.map fun entry => entry.2.length).prod

/-- The product of which the check reads the last 64 bits. -/
def counts (entries : List (String × List String)) : ℕ :=
  (entries.map fun entry => max entry.2.length 1).prod

/-- The combinations of the first `k` variables, which expansion builds on its way. -/
def Matrix.combosAfter (matrix : Matrix) (k : ℕ) : List (List String) :=
  (matrix.entries.take k).foldl
    (fun combos entry => combos.flatMap fun combo => entry.2.map fun value => combo ++ [value]) [[]]

variable {entries : List (String × List String)}

theorem foldl_combos (combos : List (List String)) :
    entries.foldl (fun combos entry => combos.flatMap fun combo =>
      entry.2.map fun value => combo ++ [value]) combos =
        combos.flatMap fun combo => (cartesian (entries.map Prod.snd)).map (combo ++ ·) := by
  induction entries generalizing combos with
  | nil => simp [cartesian]
  | cons entry entries ih =>
    rw [foldl_cons, ih, flatMap_assoc]
    refine flatMap_congr fun combo _ => ?_
    simp [cartesian, flatMap_map, map_flatMap, Function.comp_def]

theorem Matrix.combos_eq (matrix : Matrix) :
    matrix.combos = cartesian (matrix.entries.map Prod.snd) := by
  rw [combos, foldl_combos]
  simp

theorem length_cartesian : (cartesian (entries.map Prod.snd)).length = sizes entries := by
  induction entries with
  | nil => rfl
  | cons entry entries ih => simp [cartesian, sizes, length_flatMap, ih]

theorem Matrix.length_combosAfter (matrix : Matrix) (k : ℕ) :
    (matrix.combosAfter k).length = sizes (matrix.entries.take k) := by
  rw [combosAfter, foldl_combos, ← length_cartesian]
  simp

theorem sizes_le_counts : sizes entries ≤ counts entries := by
  induction entries with
  | nil => exact le_rfl
  | cons entry entries ih =>
    simp only [sizes, counts, map_cons, prod_cons] at ih ⊢
    exact Nat.mul_le_mul (Nat.le_max_left ..) ih

theorem sizes_eq_counts (nonempty : ∀ entry ∈ entries, entry.2 ≠ []) :
    sizes entries = counts entries := by
  refine congrArg prod (map_congr_left fun entry mem => ?_)
  exact (Nat.max_eq_left (length_pos_iff.mpr (nonempty entry mem))).symm

theorem sizes_eq_zero_iff : sizes entries = 0 ↔ ∃ entry ∈ entries, entry.2 = [] := by
  simp [sizes, prod_eq_zero_iff]

theorem counts_append (first second : List (String × List String)) :
    counts (first ++ second) = counts first * counts second := by
  simp [counts]

theorem counts_pos : 0 < counts entries := by
  refine Nat.pos_of_ne_zero fun zero => ?_
  obtain ⟨entry, -, isZero⟩ := mem_map.mp (prod_eq_zero_iff.mp zero)
  omega

theorem Matrix.combinations_eq (matrix : Matrix) :
    matrix.combinations = counts matrix.entries % 2 ^ 64 := by
  suffices fold : ∀ (entries : List (String × List String)) (product : ℕ), product < 2 ^ 64 →
      entries.foldl (fun product entry => product * max entry.2.length 1 % 2 ^ 64) product =
        product * counts entries % 2 ^ 64 by
    rw [combinations, fold _ 1 (by decide), Nat.one_mul]
  intro entries
  induction entries with
  | nil =>
    intro product small
    rw [counts, map_nil, prod_nil, Nat.mul_one, Nat.mod_eq_of_lt small]
    rfl
  | cons entry entries ih =>
    intro product _
    rw [foldl_cons, ih _ (Nat.mod_lt _ (by decide)), Nat.mod_mul_mod, Nat.mul_assoc]
    rfl

theorem checkMatrixSize_eq_ok_iff : checkMatrixSize kind name (some matrix) = .ok () ↔
      counts matrix.entries % 2 ^ 64 ≤ maxMatrixSize := by
  rw [← matrix.combinations_eq, checkMatrixSize]
  split_ifs with tooMany
  · exact iff_of_false nofun (Nat.not_le.mpr tooMany)
  · exact iff_of_true rfl (Nat.not_lt.mp tooMany)

/-- **What the check is for:** it accepts exactly the matrices with at most 25 combinations, and
then expansion builds no longer list. -/
def ExactBound (kind name : String) (matrix : Matrix) : Prop :=
  (checkMatrixSize kind name (some matrix) = .ok () ↔ sizes matrix.entries ≤ maxMatrixSize) ∧
    (checkMatrixSize kind name (some matrix) = .ok () →
      ∀ k, (matrix.combosAfter k).length ≤ maxMatrixSize)

theorem exactBound_of_le (small : counts matrix.entries ≤ maxMatrixSize) :
    ExactBound kind name matrix := by
  refine ⟨iff_of_true ?_ (sizes_le_counts.trans small), fun _ k => ?_⟩
  · exact checkMatrixSize_eq_ok_iff.mpr ((Nat.mod_le _ _).trans small)
  · rw [matrix.length_combosAfter]
    refine sizes_le_counts.trans (le_trans ?_ small)
    conv_rhs => rw [← take_append_drop k matrix.entries, counts_append]
    exact Nat.le_mul_of_pos_right _ counts_pos

/-- The matrix with its empty lists last. -/
def Matrix.emptyLast (matrix : Matrix) : Matrix where
  entries := matrix.entries.filter (fun entry => !entry.2.isEmpty) ++
    matrix.entries.filter fun entry => !!entry.2.isEmpty
  nodup := ((filter_append_perm _ _).map _).nodup_iff.mpr matrix.nodup

theorem Matrix.length_combosAfter_emptyLast (matrix : Matrix) :
    (matrix.emptyLast.combosAfter (matrix.entries.filter fun entry =>
      !entry.2.isEmpty).length).length = counts matrix.entries := by
  have perm : matrix.emptyLast.entries.Perm matrix.entries := filter_append_perm _ _
  have ones : counts (matrix.entries.filter fun entry => !!entry.2.isEmpty) = 1 := by
    refine prod_eq_one fun count mem => ?_
    obtain ⟨entry, isEmpty, rfl⟩ := mem_map.mp mem
    simp_all
  rw [length_combosAfter, emptyLast, take_left, sizes_eq_counts (by simp),
    ← Nat.mul_one (counts _), ← ones, ← counts_append]
  exact (perm.map _).prod_eq

theorem validateMatrixSizes_eq_ok_iff : validateMatrixSizes pipeline = .ok () ↔
      ∀ node ∈ pipeline.nodeDefs, checkMatrixSize pipeline.kind node.name node.matrix = .ok () := by
  unfold validateMatrixSizes PipelineDef.nodeDefs PipelineDef.kind
  split_ifs <;> rw [forM_eq_ok, List.forall_mem_map]

/-- **When the size check is exact, in whatever order the map is iterated:** the product is at most
25 even with empty lists counted as one, or there are none and 64 bits of it exceed 25. -/
theorem exactBound_iff (pipeline : PipelineDef) :
    (validateMatrixSizes pipeline = .ok () ↔ ∀ node ∈ pipeline.nodeDefs,
      checkMatrixSize pipeline.kind node.name node.matrix = .ok ()) ∧ ∀ kind name (matrix : Matrix),
      (∀ matrix' : Matrix, matrix'.entries.Perm matrix.entries → ExactBound kind name matrix') ↔
        counts matrix.entries ≤ maxMatrixSize ∨ (∀ entry ∈ matrix.entries, entry.2 ≠ []) ∧
            maxMatrixSize < counts matrix.entries % 2 ^ 64 := by
  refine ⟨validateMatrixSizes_eq_ok_iff, fun kind name matrix => ⟨fun exact => ?_,
    fun condition matrix' perm => ?_⟩⟩
  · rcases Nat.lt_or_ge maxMatrixSize (counts matrix.entries) with large | small
    · by_cases accepted : checkMatrixSize kind name (some matrix) = .ok ()
      · have perm : matrix.emptyLast.entries.Perm matrix.entries := filter_append_perm _ _
        have bound := (exact matrix.emptyLast perm).2 (checkMatrixSize_eq_ok_iff.mpr (by
          have same : counts matrix.emptyLast.entries = counts matrix.entries :=
            (perm.map _).prod_eq
          rw [same]
          exact checkMatrixSize_eq_ok_iff.mp accepted))
        exact absurd (matrix.length_combosAfter_emptyLast ▸ bound _) (Nat.not_le.mpr large)
      · have exceeds := mt (exact matrix (.refl _)).1.mpr accepted
        refine .inr ⟨fun entry mem isEmpty => exceeds ?_, ?_⟩
        · grind [sizes_eq_zero_iff]
        · exact Nat.not_le.mp (mt checkMatrixSize_eq_ok_iff.mpr accepted)
    · exact .inl small
  · have same : counts matrix'.entries = counts matrix.entries := (perm.map _).prod_eq
    rw [← same] at condition
    rcases condition with small | ⟨nonempty, exceeds⟩
    · exact exactBound_of_le small
    · have rejected : checkMatrixSize kind name (some matrix') ≠ .ok () :=
        mt checkMatrixSize_eq_ok_iff.mp (Nat.not_le.mpr exceeds)
      refine ⟨iff_of_false rejected ?_, fun accepted => absurd accepted rejected⟩
      rw [sizes_eq_counts fun entry mem => nonempty entry (perm.subset mem)]
      exact Nat.not_le.mpr (exceeds.trans_le (Nat.mod_le _ _))

/-- Sixty-four variables with two values each. -/
def wideMatrix : Matrix where
  entries := (range 64).map fun i => (String.ofList (replicate i 'v'), ["on", "off"])
  nodup := by decide +kernel

/-- **A matrix with `2 ^ 64` combinations passes the check.** -/
theorem wideMatrix_accepted : checkMatrixSize "job" "build" (some wideMatrix) = .ok () ∧
      maxMatrixSize < sizes wideMatrix.entries := by
  decide +kernel

/-! ### Definitions told apart -/

/-- No declared name begins with a declared name and ` (`. -/
def PipelineDef.Apart (pipeline : PipelineDef) : Prop :=
  ∀ name ∈ pipeline.names, ∀ other ∈ pipeline.names, ¬ (other ++ " (").toList <+: name.toList

theorem eq_or_prefix_of_length_le {short long text : List Char}
    (first : short ++ [' ', '('] <+: text) (second : long ++ [' ', '('] <+: text)
    (le : short.length ≤ long.length) : short = long ∨ short ++ [' ', '('] <+: long := by
  obtain ⟨rest, within⟩ := prefix_of_prefix_length_le first second (by simpa using le)
  have sizes := congrArg length within
  simp only [length_append, length_cons, length_nil] at sizes
  match rest with
  | [] => exact .inl (by simpa using within)
  | [c] =>
    -- One place further `(` would have to be a blank.
    have shifted : (short ++ [' ']) ++ ['(', c] = long ++ [' ', '('] := by simpa using within
    have ends := append_inj_right' shifted rfl
    simp at ends
  | _ :: _ :: _ =>
    refine .inr (prefix_of_prefix_length_le first ((prefix_append _ _).trans second) ?_)
    simp only [length_append, length_cons, length_nil] at sizes ⊢
    omega

/-- **A name that two declared names may claim tells them apart.** -/
theorem PipelineDef.Apart.eq_of_extends {pipeline : PipelineDef} (apart : pipeline.Apart)
    {name other srName : String} (declared : name ∈ pipeline.names)
    (declared' : other ∈ pipeline.names)
    (ofName : srName = name ∨ (name ++ " (").toList <+: srName.toList)
    (ofOther : srName = other ∨ (other ++ " (").toList <+: srName.toList) : name = other := by
  rcases ofName with rfl | first
  · exact ofOther.resolve_right (apart _ declared _ declared')
  · rcases ofOther with rfl | second
    · exact absurd first (apart _ declared' _ declared)
    · have starts : name.toList ++ [' ', '('] <+: srName.toList := by simpa using first
      have starts' : other.toList ++ [' ', '('] <+: srName.toList := by simpa using second
      have notLonger := apart _ declared' _ declared
      have notShorter := apart _ declared _ declared'
      simp only [String.toList_append] at notLonger notShorter
      apply String.toList_inj.mp
      rcases Nat.le_total name.toList.length other.toList.length with le | le
      · exact (eq_or_prefix_of_length_le starts starts' le).resolve_right (by simpa using notLonger)
      · exact ((eq_or_prefix_of_length_le starts' starts le).resolve_right
          (by simpa using notShorter)).symm

theorem PipelineDef.name_mem_names {pipeline : PipelineDef} (declared : node ∈ pipeline.nodeDefs) :
    node.name ∈ pipeline.names := by
  rw [names, nodes_eq_map_nodeDefs, List.map_map]
  exact mem_map_of_mem (f := fun node : NodeDef => node.name) declared

/-- The orders in which the names are gone through: that of a map in jobs mode, which may be any,
the declared one in steps mode. -/
def PipelineDef.Listed (pipeline : PipelineDef) (names : List String) : Prop :=
  if pipeline.jobsMode then names.Perm pipeline.names else names = pipeline.names

/-- **What `find_original_name` is for:** in whatever order the names come, every copy is assigned
to the definition it was expanded from, and its runs are kept under that name only. -/
def FindsOriginals (pipeline : PipelineDef) : Prop :=
  ∀ names, pipeline.Listed names → ∀ node ∈ pipeline.nodeDefs, ∀ expanded,
    expandNames pipeline.kind node.name node.matrix = .ok expanded → ∀ sr : StepRun,
      sr.stepName ∈ expanded → findOriginalName sr.stepName names = some node.name ∧
        ∀ stepRuns, sr ∈ stepRuns → ∀ orig,
          sr.stepName ∈ originalToRuns stepRuns names orig ↔ orig = node.name

/-- The step run has the name, or the name with ` (` and more. -/
def Claims (name srName : String) : Prop := srName = name ∨ (name ++ " (").toList <+: srName.toList

/-- The names that may come before the one of a definition: all others in jobs mode, those declared
before it in steps mode. -/
def PipelineDef.rivals (pipeline : PipelineDef) (name : String) : List String :=
  if pipeline.jobsMode then pipeline.names.filter (· ≠ name)
    else pipeline.names.takeWhile (· ≠ name)

theorem mem_originalToRuns (mem : sr ∈ stepRuns) :
      sr.stepName ∈ originalToRuns stepRuns names orig ↔
      findOriginalName sr.stepName names = some orig := by
  constructor
  · intro listed
    obtain ⟨other, found, same⟩ := mem_map.mp listed
    rw [← same]
    simpa using (mem_filter.mp found).2
  · exact fun found => mem_map_of_mem (mem_filter.mpr ⟨mem, by simpa using found⟩)

theorem mem_rivals_of_listed {pipeline : PipelineDef} {before after : List String}
    {rival name : String}
    (listed : pipeline.Listed (before ++ rival :: after)) (notBefore : name ∉ before)
    (differs : rival ≠ name) : rival ∈ pipeline.rivals name := by
  unfold PipelineDef.Listed at listed
  unfold PipelineDef.rivals
  split_ifs at listed ⊢ with mode
  · exact mem_filter.mpr ⟨listed.subset (by simp), by simpa using differs⟩
  · have earlier : ∀ other ∈ before, decide (other ≠ name) := by
      simpa using fun other mem (same : other = name) => notBefore (same ▸ mem)
    rw [← listed, takeWhile_append_of_pos earlier, takeWhile_cons_of_pos (by simpa using differs)]
    simp

/-- In some order a rival comes first. -/
theorem exists_listed_of_mem_rivals {pipeline : PipelineDef} {rival name : String}
    (isRival : rival ∈ pipeline.rivals name) : rival ≠ name ∧ ∃ before after,
      pipeline.Listed (before ++ rival :: after) ∧ name ∉ before := by
  unfold PipelineDef.rivals at isRival
  unfold PipelineDef.Listed
  split_ifs at isRival ⊢ with mode
  · obtain ⟨declared, differs⟩ := mem_filter.mp isRival
    obtain ⟨before, after, split⟩ := append_of_mem declared
    exact ⟨by simpa using differs, [], before ++ after, by grind, not_mem_nil⟩
  · obtain ⟨before, after, split⟩ := append_of_mem isRival
    have whole := takeWhile_append_dropWhile (p := (· ≠ name)) (l := pipeline.names)
    have differ : ∀ other ∈ before ++ rival :: after, other ≠ name := fun other mem =>
      of_decide_eq_true (mem_takeWhile_imp (p := (· ≠ name)) (split ▸ mem))
    refine ⟨differ _ (by simp), before, after ++ pipeline.names.dropWhile (· ≠ name), ?_,
      fun mem => differ name (by simp [mem]) rfl⟩
    conv_rhs => rw [← whole, split]
    simp

/-- **Copies are assigned to their definitions exactly if no name that may come before claims one.**
-/
theorem findsOriginals_iff (pipeline : PipelineDef) : FindsOriginals pipeline ↔
    ∀ node ∈ pipeline.nodeDefs, ∀ expanded,
      expandNames pipeline.kind node.name node.matrix = .ok expanded → ∀ copy ∈ expanded,
        ∀ rival ∈ pipeline.rivals node.name, ¬ Claims rival copy := by
  constructor
  · intro finds node declared expanded ok copy isCopy rival isRival claims
    obtain ⟨differs, before, after, listed, notBefore⟩ := exists_listed_of_mem_rivals isRival
    let sr := StepRun.new "" 0 "" copy node.failureStrategy "" none
    have found := (finds _ listed node declared _ ok sr isCopy).1
    rw [findOriginalName, find?_append] at found
    cases earlier : before.find? fun name =>
        decide (copy = name ∨ (name ++ " (").toList <+: copy.toList) with
    | some first =>
      rw [show sr.stepName = copy from rfl, earlier, Option.some_or] at found
      exact notBefore (some.inj found ▸ mem_of_find?_eq_some earlier)
    | none =>
      rw [show sr.stepName = copy from rfl, earlier, Option.none_or,
        find?_cons_of_pos (by simpa [Claims] using claims)] at found
      exact differs (some.inj found)
  · intro unclaimed names listed node declared expanded ok sr isCopy
    have own : Claims node.name sr.stepName := mem_expandNames ok isCopy
    have known : node.name ∈ names := by
      have mem := PipelineDef.name_mem_names declared
      unfold PipelineDef.Listed at listed
      split_ifs at listed
      · exact listed.mem_iff.mpr mem
      · exact listed ▸ mem
    have found : findOriginalName sr.stepName names = some node.name := by
      cases found : findOriginalName sr.stepName names with
      | none => exact absurd own (by simpa [Claims] using find?_eq_none.mp found _ known)
      | some orig =>
        obtain ⟨isOrig, before, after, rfl, notBefore⟩ := find?_eq_some_iff_append.mp found
        by_contra other
        refine unclaimed node declared expanded ok _ isCopy orig
          (mem_rivals_of_listed listed ?_ ?_) ?_
        · exact fun mem => absurd own (by simpa [Claims] using notBefore _ mem)
        · exact fun same => other (congrArg some same)
        · simpa [Claims] using isOrig
    refine ⟨found, fun stepRuns mem orig => ?_⟩
    rw [mem_originalToRuns mem, found, some.injEq, eq_comm]

/-- **With jobs `test` and `test (fast)` the second one may be taken for a copy of the first.** -/
theorem findOriginalName_takes_job_for_copy :
    let pipeline :
    PipelineDef := ⟨"", [("test", {}), ("test (fast)", {})], by decide, [], none, {}, ∅⟩
    validatePipeline pipeline = .ok () ∧
      findOriginalName "test (fast)" pipeline.names = some "test" := by
  decide +kernel

/-! ### Copies told apart -/

/-- The variables with their values, as a name has them. -/
def label (entries : List (String × List String)) (combo : List String) : List Char :=
  [',', ' '].intercalate (zipWith (fun entry value => entry.1.toList ++ '=' :: value.toList)
    entries combo)

namespace NodeDef

variable (node : NodeDef)

/-- The variables with their values; none without a matrix. -/
def dimensions : List (String × List String) := (node.matrix.map Matrix.entries).getD []

/-- One value of each variable, in every way. -/
def combos : List (List String) := cartesian (node.dimensions.map Prod.snd)

/-- The name of the copy with these values; without a matrix it is the name of the definition. -/
def variantText (combo : List String) : List Char :=
  if node.dimensions.isEmpty then node.name.toList
  else node.name.toList ++ [' ', '('] ++ label node.dimensions combo ++ [')']

/-- The names a definition is to have, one for each combination of values. -/
def variants : List String := node.combos.map fun combo => String.ofList (node.variantText combo)

end NodeDef

/-- **What expansion is for:** every definition has a copy for each combination and at least one,
and no two copies of a run share a name. -/
structure FullExpansion (pipeline : PipelineDef) : Prop where
  expands : ∀ node ∈ pipeline.nodeDefs,
    expandNames pipeline.kind node.name node.matrix = .ok node.variants
  nonempty : ∀ node ∈ pipeline.nodeDefs, node.variants ≠ []
  distinct : (pipeline.nodeDefs.flatMap NodeDef.variants).Nodup

/-- No value has a comma, which separates the values in a name. -/
def PipelineDef.NoComma (pipeline : PipelineDef) : Prop :=
  ∀ node ∈ pipeline.nodeDefs, ∀ entry ∈ node.dimensions, ∀ value ∈ entry.2, ',' ∉ value.toList

/-- No list of values is empty or repeats a value, and the product fits in 64 bits. -/
structure NodeDef.Regular (node : NodeDef) : Prop where
  nonempty : ∀ entry ∈ node.dimensions, entry.2 ≠ []
  nodup : ∀ entry ∈ node.dimensions, entry.2.Nodup
  small : sizes node.dimensions < 2 ^ 64

/-- **No two variants have the same text.** -/
def PipelineDef.TextsDiffer (pipeline : PipelineDef) : Prop :=
  ∀ node ∈ pipeline.nodeDefs, ∀ combo ∈ node.combos, ∀ node' ∈ pipeline.nodeDefs,
    ∀ combo' ∈ node'.combos, node.variantText combo = node'.variantText combo' →
      node.name = node'.name ∧ combo = combo'

theorem of_mem_cartesian (mem : combo ∈ cartesian lists) :
    combo.length = lists.length ∧ ∀ value ∈ combo, ∃ values ∈ lists, value ∈ values := by
  induction lists generalizing combo with
  | nil => simp_all [cartesian]
  | cons values lists ih =>
    obtain ⟨value, isValue, inRest⟩ := mem_flatMap.mp mem
    obtain ⟨rest, isRest, rfl⟩ := mem_map.mp inRest
    obtain ⟨length, each⟩ := ih isRest
    refine ⟨congrArg (· + 1) length, forall_mem_cons.mpr ⟨⟨values, by simp, isValue⟩, ?_⟩⟩
    intro other later
    obtain ⟨others, listed, isOther⟩ := each other later
    exact ⟨others, .tail _ listed, isOther⟩

theorem cartesian_eq_nil : cartesian lists = [] ↔ [] ∈ lists := by
  induction lists with
  | nil => simp [cartesian]
  | cons values lists ih =>
    simp only [cartesian, flatMap_eq_nil_iff, map_eq_nil_iff, ih, mem_cons]
    cases values with
    | nil => simp
    | cons value values => simp +contextual

theorem nodup_cartesian (nonempty : [] ∉ lists) :
    (cartesian lists).Nodup ↔ ∀ values ∈ lists, values.Nodup := by
  induction lists with
  | nil => simp [cartesian]
  | cons values lists ih =>
    obtain ⟨first, later⟩ := not_or.mp (mem_cons.not.mp nonempty)
    obtain ⟨value, isValue⟩ := exists_mem_of_ne_nil _ (.symm first)
    obtain ⟨combo, isCombo⟩ := exists_mem_of_ne_nil _ (mt cartesian_eq_nil.mp later)
    have apart : ∀ v w : String, List.Disjoint ((cartesian lists).map (v :: ·))
        ((cartesian lists).map (w :: ·)) ↔ v ≠ w := by
      refine fun v w => ⟨fun disjoint same => ?_, fun differ => ?_⟩
      · exact disjoint (mem_map_of_mem isCombo) (same ▸ mem_map_of_mem isCombo)
      · intro both inFirst inSecond
        obtain ⟨_, -, rfl⟩ := mem_map.mp inFirst
        obtain ⟨_, -, same⟩ := mem_map.mp inSecond
        exact differ (cons.inj same).1.symm
    rw [cartesian, nodup_flatMap, forall_mem_cons, ← ih later, and_comm]
    refine and_congr (List.Pairwise.iff fun {v w} => apart v w) ?_
    simp only [nodup_map_iff cons_injective]
    exact ⟨fun each => each value isValue, fun nodup _ _ => nodup⟩

theorem toList_expandedName (name : String) (matrix : Matrix) (combo : List String) :
    (expandedName name matrix combo).toList =
      (name.toList ++ [' ', '(']) ++ label matrix.entries combo ++ [')'] := by
  simp [expandedName, label, String.toList_intercalate, map_zipWith]

theorem eq_of_label_eq (length : combo.length = entries.length)
    (length' : combo'.length = entries.length) (plain : ∀ value ∈ combo, ',' ∉ value.toList)
    (plain' : ∀ value ∈ combo', ',' ∉ value.toList)
    (same : label entries combo = label entries combo') : combo = combo' := by
  induction entries generalizing combo combo' with
  | nil => rw [length_eq_zero_iff.mp length, length_eq_zero_iff.mp length']
  | cons entry entries ih =>
    match combo, combo', length, length' with
    | value :: rest, value' :: rest', length, length' =>
      obtain ⟨noComma, plainRest⟩ := forall_mem_cons.mp plain
      obtain ⟨noComma', plainRest'⟩ := forall_mem_cons.mp plain'
      match entries, rest, rest', length, length' with
      | [], [], [], _, _ => simpa [label, String.toList_inj] using same
      | next :: entries, second :: rest, second' :: rest', length, length' =>
        have split : value.toList ++ ',' :: ' ' :: label (next :: entries) (second :: rest) =
            value'.toList ++ ',' :: ' ' :: label (next :: entries) (second' :: rest') := by
          simpa [label, intercalate_cons_cons] using same
        have parts := congrArg (Text.splitFirst [',']) split
        rw [Text.splitFirst_singleton noComma, Text.splitFirst_singleton noComma'] at parts
        simp only [some.injEq, Prod.mk.injEq, cons.injEq, true_and] at parts
        rw [String.toList_inj.mp parts.1, ih (by simpa using length) (by simpa using length')
          plainRest plainRest' parts.2]

namespace NodeDef

variable {node : NodeDef}

theorem expandNames_eq_variants_iff : expandNames kind node.name node.matrix = .ok node.variants ↔
      sizes node.dimensions ≤ maxMatrixSize := by
  unfold expandNames expandWith variants variantText combos dimensions
  cases node.matrix with
  | none => simp [cartesian, sizes, maxMatrixSize]
  | some matrix =>
    simp only [matrix.combos_eq, length_cartesian, Option.map_some, Option.getD_some]
    by_cases empty : matrix.entries.isEmpty
    · simp [sizes, isEmpty_iff.mp empty, maxMatrixSize, cartesian]
    · have same : (cartesian (matrix.entries.map Prod.snd)).map (expandedName node.name matrix) =
          (cartesian (matrix.entries.map Prod.snd)).map fun combo => String.ofList
            (node.name.toList ++ [' ', '('] ++ label matrix.entries combo ++ [')']) :=
        map_congr_left fun combo _ => by rw [← toList_expandedName, String.ofList_toList]
      simp only [empty, Bool.false_eq_true, if_false]
      split_ifs with tooMany
      · exact iff_of_false nofun (Nat.not_le.mpr tooMany)
      · exact iff_of_true (congrArg Except.ok same) (Nat.not_lt.mp tooMany)

theorem variants_ne_nil_iff : node.variants ≠ [] ↔ ∀ entry ∈ node.dimensions, entry.2 ≠ [] := by
  rw [variants, ne_eq, map_eq_nil_iff, combos, cartesian_eq_nil, List.mem_map]
  grind

theorem nodup_combos_iff (nonempty : ∀ entry ∈ node.dimensions, entry.2 ≠ []) :
    node.combos.Nodup ↔ ∀ entry ∈ node.dimensions, entry.2.Nodup := by
  have lists : [] ∉ node.dimensions.map Prod.snd := by
    simpa using fun name mem => nonempty (name, []) mem rfl
  rw [combos, nodup_cartesian lists, List.forall_mem_map]

theorem variantText_eq_or (combo : List String) : node.variantText combo = node.name.toList ∨
    node.name.toList ++ [' ', '('] <+: node.variantText combo := by
  unfold variantText
  split_ifs
  · exact .inl rfl
  · exact .inr ⟨label node.dimensions combo ++ [')'], by simp⟩

end NodeDef

namespace PipelineDef

variable {pipeline : PipelineDef}

/-- Names of which none begins another and values without a comma can be read. -/
theorem textsDiffer_of_apart (apart : pipeline.Apart) (noComma : pipeline.NoComma)
    (unique : (pipeline.nodeDefs.map NodeDef.name).Nodup) : pipeline.TextsDiffer := by
  intro node declared combo isCombo node' declared' combo' isCombo' same
  have claims (node : NodeDef) (combo : List String) :
      String.ofList (node.variantText combo) = node.name ∨
        (node.name ++ " (").toList <+: (String.ofList (node.variantText combo)).toList := by
    rw [String.toList_ofList, String.toList_append, ← String.toList_inj, String.toList_ofList]
    exact node.variantText_eq_or combo
  have isName := apart.eq_of_extends (name_mem_names declared) (name_mem_names declared')
    (claims node combo) (same ▸ claims node' combo')
  obtain rfl : node = node' := inj_on_of_nodup_map unique declared declared' isName
  refine ⟨rfl, ?_⟩
  have plain : ∀ combo ∈ node.combos, ∀ value ∈ combo, ',' ∉ value.toList := by
    intro combo mem value isValue
    obtain ⟨values, listed, isOne⟩ := (of_mem_cartesian mem).2 value isValue
    obtain ⟨entry, isEntry, rfl⟩ := mem_map.mp listed
    exact noComma node declared entry isEntry value isOne
  have sizes := (of_mem_cartesian isCombo).1
  have sizes' := (of_mem_cartesian isCombo').1
  rw [length_map] at sizes sizes'
  unfold NodeDef.variantText at same
  split_ifs at same with empty
  · rw [isEmpty_iff.mp empty] at sizes sizes'
    rw [length_eq_zero_iff.mp sizes, length_eq_zero_iff.mp sizes']
  · exact eq_of_label_eq sizes sizes' (plain combo isCombo) (plain combo' isCombo')
      (append_cancel_left (append_cancel_right same))

theorem nodup_variants_iff (unique : (pipeline.nodeDefs.map NodeDef.name).Nodup)
    (nonempty : ∀ node ∈ pipeline.nodeDefs, ∀ entry ∈ node.dimensions, entry.2 ≠ []) :
    (pipeline.nodeDefs.flatMap NodeDef.variants).Nodup ↔
      (∀ node ∈ pipeline.nodeDefs, ∀ entry ∈ node.dimensions, entry.2.Nodup) ∧
        pipeline.TextsDiffer := by
  have sameText {combo combo' : List String} {node node' : NodeDef}
      (same : String.ofList (node.variantText combo) = String.ofList (node'.variantText combo')) :
      node.variantText combo = node'.variantText combo' := String.ofList_injective same
  rw [nodup_flatMap]
  constructor
  · rintro ⟨each, apart⟩
    refine ⟨fun node declared => ?_, ?_⟩
    · exact (NodeDef.nodup_combos_iff (nonempty node declared)).mp (.of_map _ (each node declared))
    · intro node declared combo isCombo node' declared' combo' isCombo' same
      by_cases isNode : node = node'
      · subst isNode
        exact ⟨rfl, inj_on_of_nodup_map (each node declared) isCombo isCombo'
          (congrArg String.ofList same)⟩
      · have : Std.Symm (Function.onFun Disjoint NodeDef.variants) :=
          ⟨fun _ _ => List.Disjoint.symm⟩
        have disjoint := apart.forall declared declared' isNode
        exact (disjoint (mem_map_of_mem isCombo) (mem_map.mpr ⟨combo', isCombo',
          congrArg String.ofList same.symm⟩)).elim
  · rintro ⟨lists, differ⟩
    refine ⟨fun node declared => ?_, ?_⟩
    · refine ((NodeDef.nodup_combos_iff (nonempty node declared)).mpr (lists node declared)).map_on
        fun combo isCombo combo' isCombo' same => ?_
      exact (differ node declared combo isCombo node declared combo' isCombo' (sameText same)).2
    · refine (pairwise_map.mp unique).imp_of_mem fun {first second} declared declared' other => ?_
      intro srName inFirst inSecond
      obtain ⟨combo, isCombo, rfl⟩ := mem_map.mp inFirst
      obtain ⟨combo', isCombo', same⟩ := mem_map.mp inSecond
      exact other (differ first declared combo isCombo second declared' combo' isCombo'
        (sameText same.symm)).1

end PipelineDef

/-- **Expansion is full exactly when every matrix is regular and no two variants have the same
text**, for instance if no declared name begins with another one and ` (` and no value has a comma.
-/
theorem fullExpansion_iff (pipeline : PipelineDef) (valid : validatePipeline pipeline = .ok ()) :
    (FullExpansion pipeline ↔ (∀ node ∈ pipeline.nodeDefs, node.Regular) ∧ pipeline.TextsDiffer) ∧
      (pipeline.Apart → pipeline.NoComma → pipeline.TextsDiffer) := by
  have unique : (pipeline.nodeDefs.map NodeDef.name).Nodup := by
    have names := nodup_names_of_valid valid
    rwa [PipelineDef.names, PipelineDef.nodes_eq_map_nodeDefs, List.map_map] at names
  refine ⟨⟨fun full => ?_, fun ⟨regular, differ⟩ => ?_⟩, fun apart noComma =>
    PipelineDef.textsDiffer_of_apart apart noComma unique⟩
  · have nonempty := fun node declared =>
      NodeDef.variants_ne_nil_iff.mp (full.nonempty node declared)
    obtain ⟨lists, differ⟩ := (PipelineDef.nodup_variants_iff unique nonempty).mp full.distinct
    refine ⟨fun node declared => ⟨nonempty node declared, lists node declared, ?_⟩, differ⟩
    exact (NodeDef.expandNames_eq_variants_iff.mp (full.expands node declared)).trans_lt (by decide)
  · obtain ⟨_, _, rest⟩ := exists_of_bind_eq_ok valid
    obtain ⟨_, _, rest⟩ := exists_of_bind_eq_ok rest
    obtain ⟨_, accepted, _⟩ := exists_of_bind_eq_ok rest
    have nonempty := fun node declared => (regular node declared).nonempty
    refine ⟨fun node declared => ?_, fun node declared =>
      NodeDef.variants_ne_nil_iff.mpr (nonempty node declared),
      (PipelineDef.nodup_variants_iff unique nonempty).mpr
        ⟨fun node declared => (regular node declared).nodup, differ⟩⟩
    have checked := validateMatrixSizes_eq_ok_iff.mp accepted node declared
    have small := (regular node declared).small
    have sizes := sizes_eq_counts (nonempty node declared)
    refine NodeDef.expandNames_eq_variants_iff.mpr ?_
    cases isMatrix : node.matrix with
    | none => simp [NodeDef.dimensions, isMatrix, Muli.sizes, maxMatrixSize]
    | some matrix =>
      have entries : node.dimensions = matrix.entries := by simp [NodeDef.dimensions, isMatrix]
      rw [entries] at small sizes ⊢
      rw [isMatrix, checkMatrixSize_eq_ok_iff, ← sizes, Nat.mod_eq_of_lt small] at checked
      exact checked

def regularPipeline : PipelineDef :=
  ⟨"", [("test", { matrix := some ⟨[("version", ["1", "2"])], by decide⟩ })], by decide, [],
    none, {}, ∅⟩

theorem fullExpansion_versions : FullExpansion regularPipeline := by
  have declared : regularPipeline.nodeDefs =
      [⟨"test", [], some ⟨[("version", ["1", "2"])], by decide⟩, .stop⟩] := rfl
  obtain ⟨exact, readable⟩ := fullExpansion_iff regularPipeline (by decide +kernel)
  refine exact.mpr ⟨?_, readable ?_ ?_⟩
  · simp only [declared, mem_singleton, forall_eq]
    exact ⟨by simp [NodeDef.dimensions], by simp [NodeDef.dimensions], by decide⟩
  · simp [PipelineDef.Apart, PipelineDef.names, PipelineDef.nodes_eq_map_nodeDefs, declared]
  · simp [PipelineDef.NoComma, NodeDef.dimensions, declared]

/-- **A matrix variable without values is accepted, and the job disappears.** -/
theorem expandNames_of_no_values :
    let job : JobDef := { matrix := some ⟨[("version", [])], by decide⟩ }
    validatePipeline ⟨"", [("test", job)], by decide, [], none, {}, ∅⟩ = .ok () ∧
      expandNames "job" "test" job.matrix = .ok [] := by
  decide +kernel

end Muli
