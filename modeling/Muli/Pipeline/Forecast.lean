/-
**What a run of the executor comes to, read off its inputs.**

An `Execution` is a prepared run with an executor and an assignment of outcomes. From these alone:

* `execute_delivers` — **every run of the executor is as forecast**: the stored states, the run's
  verdict and the submissions. Where a store call fails on the way, the submissions made so far are
  still as forecast.
-/

import Muli.Pipeline.Progress

namespace Muli

open Graph Interaction List States DagExecutor

/-- A prepared run, the executor that runs it, and how its jobs fare. -/
structure Execution extends PreparedRun where
  executor : DagExecutor
  outcomes : Outcomes

namespace Execution

variable (execution : Execution)

/-! ### The forecast -/

def levels : List (List String) :=
  (DagGraph.fromSteps execution.pipeline.nodes).topologicalLevels execution.executor.order

def assigned (sr : StepRun) : Option String := findOriginalName sr.stepName execution.names

def stage (sr : StepRun) : ℕ :=
  execution.levels.findIdx fun level => level.any fun orig => execution.assigned sr = some orig

/-- The condition or the path filter of the step run does not hold. -/
def skips (sr : StepRun) : Bool :=
  execution.executor.failsCondition execution.pipeline.plan execution.run sr ||
    match changedPathsForTrigger execution.run.trigger with
    | some changedPaths => execution.executor.failsPaths execution.pipeline.plan changedPaths sr
    | none => false

def ended (sr : StepRun) : StepRunState :=
  execution.outcomes.ended execution.executor.polls sr

/-- The job of the step run would fail, and its failure stops the run. -/
def Stops (sr : StepRun) : Prop :=
  execution.skips sr = false ∧ sr.failureStrategy = .stop ∧ execution.ended sr = .failed
deriving Decidable

/-- **A job is submitted for the step run.** -/
def Launched (sr : StepRun) : Prop :=
  execution.skips sr = false ∧
    ∀ sr' ∈ execution.stepRuns, execution.stage sr' < execution.stage sr → ¬ execution.Stops sr'
deriving Decidable

/-- The step runs of a level, in the order in which their jobs are submitted. -/
def levelRuns (level : List String) : List StepRun :=
  level.flatMap fun orig => execution.stepRuns.filter fun sr => execution.assigned sr = some orig

abbrev live (level : List String) :
    List StepRun := liveRuns execution.skips (execution.levelRuns level)

/-- The state of a step run when `stages` levels are done. -/
def stateAt (stages : ℕ) (sr : StepRun) : StepRunState :=
  if execution.skips sr then .skipped
  else if execution.stage sr < stages then
    if execution.Launched sr then execution.ended sr else .cancelled
  else .pending

def finalState (sr : StepRun) : StepRunState :=
  if execution.skips sr then .skipped
  else if execution.Launched sr then execution.ended sr else .cancelled

/-- The first step run is submitted before the second, in the same level. -/
def Before (sr' sr : StepRun) : Prop :=
  ∃ level ∈ execution.levels, [sr', sr].Sublist (execution.levelRuns level)
deriving Decidable

/-- The state of `sr'` when the job of `sr` is submitted. -/
def seen (sr sr' : StepRun) : StepRunState :=
  if sr' = sr then .running
  else if execution.skips sr' then .skipped
  else if execution.stage sr' < execution.stage sr then execution.ended sr'
  else if execution.Before sr' sr then execution.outcomes.started sr'
  else .pending

def Forecast (launch : Launch) : Prop :=
  ∃ sr ∈ execution.stepRuns, execution.Launched sr ∧ launch.stepRun = some sr.id ∧
    ∀ sr' ∈ execution.stepRuns, launch.states sr'.id = some (execution.seen sr sr')

def FailsBy (stages : ℕ) : Prop :=
  ∃ sr ∈ execution.stepRuns, execution.stage sr < stages ∧ execution.Launched sr ∧
    execution.ended sr = .failed
deriving Decidable

def StopsBy (stages : ℕ) : Prop :=
  ∃ sr ∈ execution.stepRuns, execution.stage sr < stages ∧ execution.Stops sr
deriving Decidable

/-! ### Stages -/

section Stages

variable {execution} {sr : StepRun}

theorem inLevel_stage {orig : String} (declared : orig ∈ execution.names)
    (isAssigned : execution.assigned sr = some orig) :
    InLevel execution.levels (execution.stage sr) orig := by
  obtain ⟨i, level, atIndex, mem⟩ :=
    exists_inLevel_of_valid execution.valid execution.executor.order declared
  have holds : ∃ level ∈ execution.levels,
      (level.any fun orig => execution.assigned sr = some orig) = true :=
    ⟨level, mem_of_getElem? atIndex, any_eq_true.mpr ⟨orig, mem, by simp [isAssigned]⟩⟩
  have inRange : execution.stage sr < execution.levels.length :=
    findIdx_lt_length_of_exists holds
  have atStage := findIdx_getElem (w := inRange)
  obtain ⟨orig', mem', same⟩ := any_eq_true.mp atStage
  have isOrig : orig' = orig := by simp_all
  exact ⟨_, getElem?_eq_getElem inRange, isOrig ▸ mem'⟩

theorem exists_inLevel_stage (mem : sr ∈ execution.stepRuns) :
    ∃ orig ∈ execution.names, execution.assigned sr = some orig ∧
      InLevel execution.levels (execution.stage sr) orig := by
  obtain ⟨orig, declared, isAssigned⟩ := execution.exists_findOriginalName mem
  exact ⟨orig, declared, isAssigned, inLevel_stage declared isAssigned⟩

theorem stage_lt_length (mem : sr ∈ execution.stepRuns) :
    execution.stage sr < execution.levels.length := by
  obtain ⟨-, -, -, level, atIndex, -⟩ := exists_inLevel_stage mem
  exact (List.getElem?_eq_some_iff.mp atIndex).1

variable {level : List String}

/-- **A level takes up the step runs of its stage.** -/
theorem mem_levelRuns {k : ℕ} (atIndex : execution.levels[k]? = some level) :
    sr ∈ execution.levelRuns level ↔ sr ∈ execution.stepRuns ∧ execution.stage sr = k := by
  unfold levelRuns
  simp only [mem_flatMap, mem_filter, decide_eq_true_eq]
  constructor
  · rintro ⟨orig, inLevel, mem, isAssigned⟩
    refine ⟨mem, ?_⟩
    obtain ⟨orig', declared, isAssigned', atStage⟩ := exists_inLevel_stage mem
    obtain rfl := Option.some.inj (isAssigned.symm.trans isAssigned')
    exact inLevel_unique_of_valid execution.valid atStage ⟨level, atIndex, inLevel⟩
  · rintro ⟨mem, rfl⟩
    obtain ⟨orig, -, isAssigned, level', atStage, inLevel⟩ := exists_inLevel_stage mem
    obtain rfl := Option.some.inj (atIndex.symm.trans atStage)
    exact ⟨orig, inLevel, mem, isAssigned⟩

theorem nodup_levelRuns_of_nodup {names : List String} (nodup : names.Nodup) :
    (execution.levelRuns names).Nodup := by
  unfold levelRuns
  rw [nodup_flatMap]
  refine ⟨fun orig _ => execution.nodup.filter _, nodup.imp fun different => ?_⟩
  intro sr inFirst inSecond
  have first := (mem_filter.mp inFirst).2
  have second := (mem_filter.mp inSecond).2
  simp only [decide_eq_true_eq] at first second
  exact different (Option.some.inj (first.symm.trans second))

theorem levelRuns_subset {names : List String}
    (mem : sr ∈ execution.levelRuns names) : sr ∈ execution.stepRuns := by
  obtain ⟨orig, -, inFilter⟩ := mem_flatMap.mp mem
  exact (mem_filter.mp inFilter).1

theorem nodup_flatten_levels : execution.levels.flatten.Nodup :=
  (flatten_perm_of_valid execution.valid execution.executor.order).nodup_iff.mpr
    (nodup_names_of_valid execution.valid)

theorem nodup_levelRuns (isLevel : level ∈ execution.levels) : (execution.levelRuns level).Nodup :=
  nodup_levelRuns_of_nodup ((nodup_flatten.mp nodup_flatten_levels).1 level isLevel)

variable {stepRuns : List StepRun}

theorem id_not_mem (members : ∀ sr ∈ stepRuns, sr ∈ execution.stepRuns)
    (mem : sr ∈ execution.stepRuns) (absent : sr ∉ stepRuns) : sr.id ∉ stepRuns.map StepRun.id := by
  intro listed
  obtain ⟨sr', listed', sameId⟩ := mem_map.mp listed
  exact absent (execution.eq_of_id (members sr' listed') mem sameId ▸ listed')

theorem nodup_ids (nodup : stepRuns.Nodup)
    (members : ∀ sr ∈ stepRuns, sr ∈ execution.stepRuns) : (stepRuns.map StepRun.id).Nodup :=
  nodup.map_on fun sr mem sr' mem' same =>
    execution.eq_of_id (members sr mem) (members sr' mem') same

theorem pair_sublist_iff {α : Type} {before after : List α} {x y : α}
    (nodup : (before ++ x :: after).Nodup) :
    [y, x].Sublist (before ++ x :: after) ↔ y ∈ before := by
  obtain ⟨-, tail, apart⟩ := nodup_append.mp nodup
  constructor
  · intro sub
    obtain ⟨first, second, split, inBefore, inAfter⟩ := sublist_append_iff.mp sub
    match first, split with
    | [], split =>
      subst split
      have twice : x ∈ after := by
        rcases sublist_cons_iff.mp inAfter with deeper | ⟨rest, same, deeper⟩
        · exact deeper.subset (by simp)
        · grind
      exact absurd twice (nodup_cons.mp tail).1
    | z :: rest, split => grind
  · grind

theorem before_iff {k : ℕ} (atIndex : execution.levels[k]? = some level)
    {earlier later : List StepRun} {sr sr' : StepRun}
    (split : execution.live level = earlier ++ sr :: later)
    (live : execution.skips sr' = false) : execution.Before sr' sr ↔ sr' ∈ earlier := by
  have nodup : (execution.live level).Nodup :=
    (nodup_levelRuns (mem_of_getElem? atIndex)).filter _
  have isLive : sr ∈ execution.live level := by simp [split]
  obtain ⟨inLevel, notSkipped⟩ := mem_filter.mp isLive
  rw [← pair_sublist_iff (split ▸ nodup), ← split]
  constructor
  · rintro ⟨level', isLevel', sub⟩
    obtain ⟨k', atIndex'⟩ := getElem?_of_mem isLevel'
    have inLevel' : sr ∈ execution.levelRuns level' := sub.subset (by simp)
    have sameStage : k' = k := by grind [mem_levelRuns]
    subst sameStage
    obtain rfl := Option.some.inj (atIndex.symm.trans atIndex')
    have filtered := sub.filter fun sr => !execution.skips sr
    simpa [live, notSkipped, liveRuns] using filtered
  · intro sub
    exact ⟨level, mem_of_getElem? atIndex, sub.trans filter_sublist⟩

end Stages

/-! ### The invariant of the level loop -/

/-- **The progress when some stages are done.** -/
structure AtStage (stages : ℕ) (progress : RunProgress) : Prop where
  states : ∀ sr ∈ execution.stepRuns, progress.states sr.id = some (execution.stateAt stages sr)
  forecast : ∀ launch ∈ progress.launches, execution.Forecast launch
  complete : ∀ sr ∈ execution.stepRuns, execution.Launched sr → execution.stage sr < stages →
    ∃ launch ∈ progress.launches, launch.stepRun = some sr.id
  started : progress.run execution.run.id ≠ none

section Level

variable {execution} {k : ℕ} {level : List String} (atIndex : execution.levels[k]? = some level)
include atIndex

variable {progress : RunProgress}

theorem AtStage.resolves (atStage : execution.AtStage k progress) :
    Resolves execution.stepRuns (execution.levelRuns level) progress.states := by
  have members : ∀ sr ∈ execution.levelRuns level, sr ∈ execution.stepRuns :=
    fun sr mem => ((mem_levelRuns atIndex).mp mem).1
  refine ⟨fun sr mem => execution.stepRunMap_eq (members sr mem), ?_, fun sr mem => ?_⟩
  · exact nodup_ids (nodup_levelRuns (mem_of_getElem? atIndex)) members
  · rw [atStage.states sr (members sr mem)]
    exact Option.some_ne_none _

theorem AtStage.fresh (atStage : execution.AtStage k progress) :
    ∀ sr ∈ execution.levelRuns level, progress.states sr.id =
      some (if execution.skips sr then .skipped else .pending) := by
  intro sr mem
  obtain ⟨isStepRun, sameStage⟩ := (mem_levelRuns atIndex).mp mem
  rw [atStage.states sr isStepRun, stateAt, sameStage, if_neg (lt_irrefl k)]

variable {sr : StepRun}

theorem mem_live : sr ∈ execution.live level ↔
      sr ∈ execution.stepRuns ∧ execution.stage sr = k ∧ execution.skips sr = false := by
  unfold live liveRuns
  rw [mem_filter, mem_levelRuns atIndex, and_assoc, Bool.not_eq_true']

theorem nodup_live_ids : ((execution.live level).map StepRun.id).Nodup :=
  nodup_ids ((nodup_levelRuns (mem_of_getElem? atIndex)).filter _)
    fun _ mem => ((mem_live atIndex).mp mem).1

omit atIndex in
theorem setAll_apply {states : States} {state : StepRun → StepRunState} {runs : List StepRun}
    (ids : (runs.map StepRun.id).Nodup) (members : ∀ sr ∈ runs, sr ∈ execution.stepRuns)
    (mem : sr ∈ execution.stepRuns) :
    states.setAll state runs sr.id = if sr ∈ runs then some (state sr) else states sr.id := by
  split_ifs with isRun
  · exact setAll_of_mem ids isRun
  · exact setAll_of_not_mem (id_not_mem members mem isRun)

theorem launched_of_mem_live (running : ¬ execution.StopsBy k)
    (live : sr ∈ execution.live level) : execution.Launched sr := by
  obtain ⟨-, sameStage, notSkipped⟩ := (mem_live atIndex).mp live
  refine ⟨notSkipped, fun sr' mem earlier stops => running ⟨sr', mem, ?_, stops⟩⟩
  rwa [sameStage] at earlier

omit atIndex in
theorem not_launched_of_stopsBy (stopped : execution.StopsBy k) {sr : StepRun}
    (sameStage : execution.stage sr = k) : ¬ execution.Launched sr := by
  intro launched
  obtain ⟨sr', mem', earlier, stops⟩ := stopped
  exact launched.2 sr' mem' (sameStage ▸ earlier) stops

theorem stateAt_succ_of_mem_live (live : sr ∈ execution.live level) : execution.stateAt (k + 1) sr =
      if execution.Launched sr then execution.ended sr else .cancelled := by
  obtain ⟨-, sameStage, notSkipped⟩ := (mem_live atIndex).mp live
  unfold stateAt
  rw [if_neg (by simp [notSkipped]), if_pos (by omega)]

theorem stateAt_succ_of_not_mem_live (mem : sr ∈ execution.stepRuns)
    (notLive : sr ∉ execution.live level) :
    execution.stateAt (k + 1) sr = execution.stateAt k sr := by
  unfold stateAt
  by_cases skipped : execution.skips sr
  · rw [if_pos skipped, if_pos skipped]
  · have otherStage : execution.stage sr ≠ k := fun same =>
      notLive ((mem_live atIndex).mpr ⟨mem, same, by simpa using skipped⟩)
    have sameSide : execution.stage sr < k + 1 ↔ execution.stage sr < k := by omega
    simp only [sameSide]

section

variable (atStage : execution.AtStage k progress)
include atStage

/-- **A submission pass makes the launches that are forecast.** -/
theorem AtStage.launches_forecast
    (running : ¬ execution.StopsBy k) {launch : Launch}
    (mem : launch ∈ execution.outcomes.launches progress.states
      (execution.live level)) : execution.Forecast launch := by
  obtain ⟨earlier, sr, later, split, rfl⟩ := Outcomes.mem_launches.mp mem
  have live : sr ∈ execution.live level := by simp [split]
  obtain ⟨isStepRun, sameStage, -⟩ := (mem_live atIndex).mp live
  refine ⟨sr, isStepRun, launched_of_mem_live atIndex running live, rfl, fun sr' isStepRun' => ?_⟩
  show (progress.states.setAll execution.outcomes.started earlier).set sr.id .running sr'.id = _
  unfold seen
  by_cases same : sr' = sr
  · rw [if_pos same, same, set_self]
  rw [if_neg same, set_of_ne _ _ fun sameId => same (execution.eq_of_id isStepRun' isStepRun
    sameId)]
  have ids := nodup_live_ids atIndex
  rw [split, map_append, nodup_append] at ids
  have lives : ∀ sr' ∈ earlier, sr' ∈ execution.live level := fun sr' listed =>
    split ▸ mem_append_left _ listed
  by_cases inEarlier : sr' ∈ earlier
  · -- answered before in this pass
    obtain ⟨-, sameStage', notSkipped'⟩ := (mem_live atIndex).mp (lives sr' inEarlier)
    rw [setAll_of_mem ids.1 inEarlier, if_neg (by simp [notSkipped']), if_neg (by omega),
      if_pos ((before_iff atIndex split notSkipped').mpr inEarlier)]
  · have members : ∀ sr'' ∈ earlier, sr'' ∈ execution.stepRuns := fun sr'' listed =>
      ((mem_live atIndex).mp (lives sr'' listed)).1
    have notEarlier : sr'.id ∉ earlier.map StepRun.id := id_not_mem members isStepRun' inEarlier
    rw [setAll_of_not_mem notEarlier, atStage.states sr' isStepRun', stateAt, sameStage]
    cases skipped' : execution.skips sr' with
    | true => simp
    | false =>
      have notBefore : ¬ execution.Before sr' sr := fun before =>
        inEarlier ((before_iff atIndex split skipped').mp before)
      have launched' : execution.stage sr' < k → execution.Launched sr' := fun earlierStage =>
        ⟨skipped', fun sr'' mem'' before stops =>
          running ⟨sr'', mem'', before.trans earlierStage, stops⟩⟩
      by_cases earlierStage : execution.stage sr' < k
      · simp [earlierStage, launched' earlierStage]
      · simp [earlierStage, notBefore]

/-- **One level of a run that is not stopped.** -/
theorem AtStage.next (running : ¬ execution.StopsBy k) :
    execution.AtStage (k + 1) ((progress.submitAll execution.outcomes
      (execution.live level)).setAll execution.ended (liveRuns execution.outcomes.refused
          (execution.live level))) := by
  have ids := nodup_live_ids atIndex
  have members : ∀ sr ∈ execution.live level,
      sr ∈ execution.stepRuns := fun sr live => ((mem_live atIndex).mp live).1
  have acceptedMembers : ∀ sr ∈ liveRuns execution.outcomes.refused
      (execution.live level), sr ∈ execution.stepRuns :=
    fun sr accepted => members sr (mem_of_mem_filter accepted)
  rw [RunProgress.submitAll_eq]
  refine ⟨fun sr mem => ?_, fun launch mem => ?_, fun sr mem launched stage => ?_,
    atStage.started⟩
  · show ((progress.states.setAll execution.outcomes.started _).setAll execution.ended _) sr.id = _
    refine (setAll_apply (ids.sublist (filter_sublist.map _)) acceptedMembers mem).trans ?_
    rw [setAll_apply ids members mem]
    by_cases live : sr ∈ execution.live level
    · rw [stateAt_succ_of_mem_live atIndex live,
        if_pos (launched_of_mem_live atIndex running live), if_pos live]
      cases refused : execution.outcomes.refused sr with
      | false => exact if_pos (mem_filter.mpr ⟨live, by simp [refused]⟩)
      | true =>
        rw [if_neg (by simp [liveRuns, refused]), Outcomes.started_eq_ended_of_refused refused]
        rfl
    · rw [if_neg fun accepted => live (mem_of_mem_filter accepted), if_neg live,
        stateAt_succ_of_not_mem_live atIndex mem live]
      exact atStage.states sr mem
  · rcases mem_append.mp mem with old | new
    · exact atStage.forecast launch old
    · exact atStage.launches_forecast atIndex running new
  · rcases Nat.lt_succ_iff_lt_or_eq.mp stage with old | new
    · obtain ⟨launch, isLaunch, names⟩ := atStage.complete sr mem launched old
      exact ⟨launch, mem_append_left _ isLaunch, names⟩
    · have live : sr ∈ execution.live level :=
        (mem_live atIndex).mpr ⟨mem, new, launched.1⟩
      obtain ⟨earlier, later, split⟩ := append_of_mem live
      exact ⟨_, mem_append_right _
        (Outcomes.mem_launches.mpr ⟨earlier, sr, later, split, rfl⟩), rfl⟩

/-- **One level of a run that was stopped.** -/
theorem AtStage.cancelled (stopped : execution.StopsBy k) :
    execution.AtStage (k + 1) (progress.setAll (fun _ => .cancelled) (execution.live level)) := by
  have members : ∀ sr ∈ execution.live level,
      sr ∈ execution.stepRuns := fun sr live => ((mem_live atIndex).mp live).1
  refine ⟨fun sr mem => ?_, atStage.forecast, fun sr mem launched stage => ?_,
    atStage.started⟩
  · refine (setAll_apply (nodup_live_ids atIndex) members mem).trans ?_
    split_ifs with live
    · have sameStage := ((mem_live atIndex).mp live).2.1
      rw [stateAt_succ_of_mem_live atIndex live, if_neg (not_launched_of_stopsBy stopped sameStage)]
    · rw [stateAt_succ_of_not_mem_live atIndex mem live]
      exact atStage.states sr mem
  · rcases Nat.lt_succ_iff_lt_or_eq.mp stage with old | new
    · exact atStage.complete sr mem launched old
    · exact absurd launched (not_launched_of_stopsBy stopped new)

end

/-! ### The failure flags -/

omit atIndex in
theorem exists_lt_succ {P : StepRun → Prop} :
      (∃ sr ∈ execution.stepRuns, execution.stage sr < k + 1 ∧ P sr) ↔
      (∃ sr ∈ execution.stepRuns, execution.stage sr < k ∧ P sr) ∨
        ∃ sr ∈ execution.stepRuns, execution.stage sr = k ∧ P sr := by
  simp only [Nat.lt_succ_iff_lt_or_eq, or_and_right, and_or_left, exists_or]

theorem failsBy_succ (running : ¬ execution.StopsBy k) : execution.FailsBy (k + 1) ↔
      execution.FailsBy k ∨ ∃ sr ∈ execution.live level, execution.ended sr = .failed := by
  refine exists_lt_succ.trans (or_congr_right (exists_congr fun sr => ?_))
  constructor
  · rintro ⟨mem, sameStage, launched, failed⟩
    exact ⟨(mem_live atIndex).mpr ⟨mem, sameStage, launched.1⟩, failed⟩
  · rintro ⟨live, failed⟩
    obtain ⟨mem, sameStage, -⟩ := (mem_live atIndex).mp live
    exact ⟨mem, sameStage, launched_of_mem_live atIndex running live, failed⟩

omit atIndex in
theorem failsBy_succ_of_stopped (stopped : execution.StopsBy k) :
    execution.FailsBy (k + 1) ↔ execution.FailsBy k := by
  refine exists_lt_succ.trans (or_iff_left ?_)
  rintro ⟨sr, -, sameStage, launched, -⟩
  exact not_launched_of_stopsBy stopped sameStage launched

theorem stopsBy_succ : execution.StopsBy (k + 1) ↔ execution.StopsBy k ∨
      ∃ sr ∈ execution.live level, execution.ended sr = .failed ∧ sr.failureStrategy = .stop := by
  refine exists_lt_succ.trans (or_congr_right (exists_congr fun sr => ?_))
  rw [mem_live atIndex, Stops]
  tauto

variable (execution) in
omit atIndex in
theorem flags_iff (live : List StepRun) (extra : StepRun → Bool) :
    ((live.any fun sr => execution.outcomes.refused sr && extra sr) ||
      (liveRuns execution.outcomes.refused live).any fun sr =>
        decide (execution.outcomes.ended execution.executor.polls sr = .failed) &&
      extra sr) = true ↔
      ∃ sr ∈ live, execution.ended sr = .failed ∧ extra sr = true := by
  simp only [Bool.or_eq_true, List.any_eq_true, Bool.and_eq_true, decide_eq_true_eq]
  constructor
  · rintro (⟨sr, mem, refused, holds⟩ | ⟨sr, accepted, failed, holds⟩)
    · exact ⟨sr, mem, Outcomes.ended_of_refused refused, holds⟩
    · exact ⟨sr, mem_of_mem_filter accepted, failed, holds⟩
  · rintro ⟨sr, mem, failed, holds⟩
    cases refused : execution.outcomes.refused sr with
    | true => exact .inl ⟨sr, mem, refused, holds⟩
    | false => exact .inr ⟨sr, List.mem_filter.mpr ⟨mem, by simp [refused]⟩, failed, holds⟩

end Level

/-! ### The level loop -/

def levelPairs (level : List String) : List (String × StepRun) :=
  level.flatMap fun orig =>
    (execution.stepRuns.filter fun sr => execution.assigned sr = some orig).map fun sr => (orig, sr)

section Loop

variable {execution}

theorem map_snd_levelPairs (level : List String) :
    (execution.levelPairs level).map Prod.snd = execution.levelRuns level := by
  unfold levelPairs levelRuns
  rw [map_flatMap]
  simp [Function.comp_def]

theorem levelRunPairs_eq (level : List String) :
    levelRunPairs execution.pipeline.plan execution.stepRuns level =
      (execution.levelPairs level).map fun pair => (pair.1, pair.2.stepName) := by
  unfold levelRunPairs levelPairs originalToRuns
  rw [map_flatMap, PipelineDef.plan_names]
  simp only [List.map_map]
  rfl

theorem cancelLevelRuns_eq (level : List String) :
    cancelLevelRuns execution.pipeline.plan execution.stepRuns level =
      (execution.levelRuns level).forM fun sr =>
      DagExecutor.cancelRun execution.stepRuns sr.stepName := by
  unfold cancelLevelRuns levelRuns originalToRuns
  rw [PipelineDef.plan_names, ← List.map_flatMap, List.forM_eq_forM, List.forM_map,
    List.forM_eq_forM]
  rfl

theorem declared_of_mem_levelPairs {level : List String} (isLevel : level ∈ execution.levels)
    {pair : String × StepRun} (mem : pair ∈ execution.levelPairs level) :
    pair.1 ∈ execution.pipeline.plan.names := by
  obtain ⟨orig, inLevel, inPairs⟩ := mem_flatMap.mp mem
  obtain ⟨sr, -, rfl⟩ := mem_map.mp inPairs
  rw [PipelineDef.plan_names]
  refine (flatten_perm_of_valid execution.valid execution.executor.order).mem_iff.mp ?_
  exact mem_flatten.mpr ⟨level, isLevel, inLevel⟩

section OneLevel

variable {k : ℕ} {level : List String} (atIndex : execution.levels[k]? = some level)
  {world : PipelineWorld} (atStage : execution.AtStage k world.progress)
include atIndex atStage

theorem cancelLevelRuns_delivers (stopped : execution.StopsBy k) :
      Brings execution.outcomes execution.Forecast
      (cancelLevelRuns execution.pipeline.plan execution.stepRuns level)
      (fun _ world' => execution.AtStage (k + 1) world'.progress) world := by
  rw [cancelLevelRuns_eq]
  refine (cancelRun_forM_delivers atStage.forecast (atStage.resolves atIndex)
    (atStage.fresh atIndex)).mono ?_ fun _ => id
  intro _ world' after
  rw [after]
  exact atStage.cancelled atIndex stopped

section

variable (running : ¬ execution.StopsBy k)
include running

theorem submitAll_forecast :
    ∀ launch ∈ (world.progress.submitAll execution.outcomes (execution.live level)).launches,
      execution.Forecast launch := by
  rw [RunProgress.submitAll_eq]
  intro launch mem
  rcases mem_append.mp mem with old | new
  · exact atStage.forecast launch old
  · exact atStage.launches_forecast atIndex running new

theorem submitLevel_delivers_at (run : PipelineRun) :
    Brings execution.outcomes execution.Forecast
      (execution.executor.submitLevel execution.pipeline execution.pipeline.plan run
        execution.stepRuns
        (levelRunPairs execution.pipeline.plan execution.stepRuns level)) (fun result world' =>
        result = execution.outcomes.submitted (execution.live level) ∧
        world'.progress = world.progress.submitAll execution.outcomes (execution.live level))
        world := by
  have isLevel := mem_of_getElem? atIndex
  unfold live
  rw [levelRunPairs_eq, ← map_snd_levelPairs]
  refine submitLevel_delivers execution.skips (fun pair => declared_of_mem_levelPairs isLevel) ?_
    (fun pair mem => ?_) ?_
  · rw [map_snd_levelPairs]
    exact atStage.resolves atIndex
  · apply atStage.fresh atIndex pair.2
    rw [← map_snd_levelPairs]
    exact mem_map_of_mem mem
  · rw [map_snd_levelPairs]
    exact submitAll_forecast atIndex atStage running

theorem waitLevel_delivers_at {world' : PipelineWorld}
    (submitted : world'.progress = world.progress.submitAll execution.outcomes
      (execution.live level)) (deadline : Timestamp) : Brings execution.outcomes execution.Forecast
      (execution.executor.waitLevel execution.stepRuns deadline
        (execution.outcomes.submitted (execution.live level)).1) (fun flags world'' =>
        flags = execution.outcomes.failures execution.executor.polls (liveRuns
          execution.outcomes.refused (execution.live level)) ∧
          execution.AtStage (k + 1) world''.progress) world' := by
  have resolves : Resolves execution.stepRuns
      (execution.live level) world'.progress.states := by
    rw [submitted, RunProgress.submitAll_eq]
    exact ((atStage.resolves atIndex).filter _).setAll _ _
  have safe : OnlyLaunches execution.Forecast world' := by grind [OnlyLaunches, submitAll_forecast]
  refine (waitLevel_delivers safe resolves).mono ?_ fun _ => id
  rintro _ world'' ⟨rfl, finished⟩
  rw [finished, submitted]
  exact ⟨rfl, atStage.next atIndex running⟩

end

end OneLevel

/-- **The loop over the levels** brings the run to its last stage. -/
theorem executeDagLevels_delivers {k : ℕ} (inRange : k ≤ execution.levels.length)
    {world : PipelineWorld} {hadFailure hadStopFailure : Bool} (run : PipelineRun)
    (deadline : Timestamp) (atStage : execution.AtStage k world.progress)
    (failure : hadFailure = true ↔ execution.FailsBy k)
    (stop : hadStopFailure = true ↔ execution.StopsBy k) :
    Brings execution.outcomes execution.Forecast
      (execution.executor.executeDagLevels execution.pipeline execution.pipeline.plan run
        execution.stepRuns deadline (execution.levels.drop k) hadFailure hadStopFailure)
      (fun flags world' => execution.AtStage execution.levels.length world'.progress ∧
        (flags.1 = true ↔ execution.FailsBy execution.levels.length) ∧
        (flags.2 = true ↔ execution.StopsBy execution.levels.length)) world := by
  induction rest : execution.levels.drop k generalizing k world hadFailure hadStopFailure with
  | nil =>
    obtain rfl : k = execution.levels.length :=
      le_antisymm inRange (drop_eq_nil_iff.mp rest)
    exact ⟨atStage, failure, stop⟩
  | cons level levels ih =>
    have atIndex : execution.levels[k]? = some level := by
      rw [← head?_drop, rest]
      rfl
    have next : execution.levels.drop (k + 1) = levels := by
      rw [← tail_drop, rest]
      rfl
    have inRange' : k + 1 ≤ execution.levels.length := (List.getElem?_eq_some_iff.mp atIndex).1
    cases hadStopFailure with
    | true =>
      have stopped : execution.StopsBy k := stop.mp rfl
      refine .andThen (cancelLevelRuns_delivers atIndex atStage stopped) ?_
      intro _ world' atStage'
      have failure' : hadFailure = true ↔ execution.FailsBy (k + 1) :=
        failure.trans (failsBy_succ_of_stopped stopped).symm
      have stop' : true = true ↔ execution.StopsBy (k + 1) :=
        iff_of_true rfl ((stopsBy_succ atIndex).mpr (.inl stopped))
      exact ih inRange' atStage' failure' stop' next
    | false =>
      have running : ¬ execution.StopsBy k := fun stopped => absurd (stop.mpr stopped) (by simp)
      refine .andThen (submitLevel_delivers_at atIndex atStage running run) ?_
      rintro _ world' ⟨rfl, submitted⟩
      refine .andThen
        (waitLevel_delivers_at atIndex atStage running submitted deadline) ?_
      rintro _ world'' ⟨rfl, atStage'⟩
      refine ih inRange' atStage' ?_ ?_ next
      · rw [Bool.or_assoc, Bool.or_eq_true, failure, failsBy_succ atIndex running]
        apply or_congr_right
        simpa using flags_iff execution (execution.live level) fun _ => true
      · rw [stopsBy_succ atIndex, or_iff_right running]
        simpa using flags_iff execution (execution.live level) fun sr =>
          decide (sr.failureStrategy = .stop)

end Loop

/-! ### The run -/

def verdict : PipelineRunState :=
  computeFinalState (execution.FailsBy execution.levels.length)
    (execution.StopsBy execution.levels.length)

/-- **What a run leaves behind.** -/
structure AsForecast (state : PipelineRunState) (progress : RunProgress) : Prop where
  verdict : state = execution.verdict
  run : progress.run execution.run.id = some state
  states : ∀ sr ∈ execution.stepRuns, progress.states sr.id = some (execution.finalState sr)
  launches : ∀ launch ∈ progress.launches, execution.Forecast launch
  complete : ∀ sr ∈ execution.stepRuns, execution.Launched sr →
    ∃ launch ∈ progress.launches, launch.stepRun = some sr.id

section Run

variable {execution}

theorem execute_eq :
    execution.executor.execute execution.pipeline execution.run execution.stepRuns =
    execution.executor.executePlan execution.pipeline execution.pipeline.plan execution.run
      execution.stepRuns := by
  unfold execute PipelineDef.plan
  split_ifs <;> rfl

theorem atStage_zero {progress : RunProgress}
      (states : ∀ sr ∈ execution.stepRuns, progress.states sr.id =
      some (if execution.skips sr then .skipped else .pending))
    (launches : progress.launches = []) (started : progress.run execution.run.id ≠ none) :
    execution.AtStage 0 progress := by
  refine ⟨fun sr mem => ?_, fun launch mem => ?_, fun sr _ _ stage => ?_, started⟩
  · rw [states sr mem, stateAt, if_neg (Nat.not_lt_zero _)]
  · simp_all
  · exact absurd stage (Nat.not_lt_zero _)

section

variable {world : PipelineWorld} (safe : OnlyLaunches execution.Forecast world)
include safe

theorem skipRun_forM_marks (marked fails : StepRun → Bool)
    (states : ∀ sr ∈ execution.stepRuns, world.progress.states sr.id =
      some (if marked sr then .skipped else .pending)) :
    Brings execution.outcomes execution.Forecast (execution.stepRuns.forM (skipRun fails))
    (fun _ world' =>
        (∀ sr ∈ execution.stepRuns, world'.progress.states sr.id =
          some (if marked sr || fails sr then .skipped else .pending)) ∧
        world'.progress.launches = world.progress.launches ∧
          world'.progress.run = world.progress.run) world := by
  have known : ∀ sr ∈ execution.stepRuns, world.progress.states sr.id ≠ none := by simp_all
  refine (skipRun_forM_delivers safe known).mono ?_ fun _ => id
  intro _ world' after
  rw [after]
  refine ⟨fun sr mem => ?_, rfl, rfl⟩
  have members : ∀ sr ∈ execution.stepRuns.filter fails, sr ∈ execution.stepRuns :=
    fun sr fails => mem_of_mem_filter fails
  refine (setAll_apply (nodup_ids (execution.nodup.filter _) members) members mem).trans ?_
  simp only [states sr mem, mem_filter, mem, true_and]
  cases fails sr <;> cases marked sr <;> rfl

theorem skip_delivers {run : PipelineRun}
    (sameContext : makeExprCtx run = makeExprCtx execution.run)
    (sameTrigger : run.trigger = execution.run.trigger)
    (pending : ∀ sr ∈ execution.stepRuns, world.progress.states sr.id = some .pending) :
    Brings execution.outcomes execution.Forecast (do
        execution.executor.evaluateConditions execution.pipeline.plan run execution.stepRuns
        execution.executor.evaluateJobPaths execution.pipeline.plan run execution.stepRuns)
          (fun _ world' =>
        (∀ sr ∈ execution.stepRuns, world'.progress.states sr.id =
          some (if execution.skips sr then .skipped else .pending)) ∧
        world'.progress.launches = world.progress.launches ∧
          world'.progress.run = world.progress.run) world := by
  have sameCondition : execution.executor.failsCondition execution.pipeline.plan run =
      execution.executor.failsCondition execution.pipeline.plan execution.run := by
    funext sr
    unfold failsCondition
    rw [sameContext]
  refine .andThen (skipRun_forM_marks safe (fun _ => false) _ pending) ?_
  rintro _ world' ⟨states, launches, runs⟩
  rw [sameCondition] at states
  unfold evaluateJobPaths skips
  rw [sameTrigger]
  cases changedPathsForTrigger execution.run.trigger with
  | none => grind [Delivers.pure]
  | some changedPaths =>
    have safe' : OnlyLaunches execution.Forecast world' := by grind [OnlyLaunches]
    refine (skipRun_forM_marks safe' _ _ states).mono ?_ fun _ => id
    rintro _ world'' ⟨states', launches', runs'⟩
    exact ⟨states', launches'.trans launches, runs'.trans runs⟩

theorem markRunStarted_delivers (stored : world.progress.run execution.run.id ≠ none) :
    Brings execution.outcomes execution.Forecast (markRunStarted execution.run)
      (fun run world' => run.id = execution.run.id ∧ makeExprCtx run = makeExprCtx execution.run ∧
        run.trigger = execution.run.trigger ∧ world'.progress.states = world.progress.states ∧
        world'.progress.launches = world.progress.launches ∧ world'.progress.run execution.run.id ≠
        none) world := by
  refine .bind (delivers_utcNow fun startedAt => ?_)
  refine .bind (delivers_utcNow fun updatedAt => ?_)
  refine .bind (delivers_updateRun safe (.pure ?_))
  refine ⟨rfl, rfl, rfl, rfl, rfl, ?_⟩
  exact ne_of_eq_of_ne (progress_run_put { execution.run with
    state := .running, startedAt := some startedAt, updatedAt := updatedAt } stored)
    (Option.some_ne_none _)

theorem finalizeRun_delivers {run : PipelineRun}
    (sameId : run.id = execution.run.id) {hadFailure hadStopFailure : Bool}
    (stored : world.progress.run execution.run.id ≠ none) :
    Brings execution.outcomes execution.Forecast (finalizeRun run hadFailure hadStopFailure)
      (fun state world' => state = computeFinalState hadFailure hadStopFailure ∧
        world'.progress.states = world.progress.states ∧
        world'.progress.launches = world.progress.launches ∧
        world'.progress.run execution.run.id = some state) world := by
  refine .bind (delivers_utcNow fun finishedAt => ?_)
  refine .bind (delivers_utcNow fun updatedAt => ?_)
  refine .bind (delivers_updateRun safe (.pure ?_))
  rw [← sameId] at stored ⊢
  exact ⟨rfl, rfl, rfl, progress_run_put { run with
    state := computeFinalState hadFailure hadStopFailure, finishedAt := some finishedAt,
    updatedAt := updatedAt } stored⟩

end

/-- **Every run is as forecast.** Where a store call fails on the way, the submissions made so far
are. -/
theorem execute_delivers : Brings execution.outcomes execution.Forecast
    (execution.executor.execute execution.pipeline execution.run execution.stepRuns)
    (fun state world' => execution.AsForecast state world'.progress) execution.world := by
  have empty : execution.world.progress.launches = [] := by
    show execution.world.submissions.map Submission.launch = []
    rw [execution.unsubmitted]
    rfl
  have safe : OnlyLaunches execution.Forecast execution.world := by
    intro launch mem
    rw [empty] at mem
    cases mem
  have pending : ∀ sr ∈ execution.stepRuns,
      execution.world.progress.states sr.id = some .pending := by
    intro sr mem
    show (execution.world.steps.find sr.id).map StepRun.state = some .pending
    rw [execution.stored sr mem, Option.map_some, execution.pending sr mem]
  have stored : execution.world.progress.run execution.run.id ≠ none := by
    show (execution.world.runs.find execution.run.id).map PipelineRun.state ≠ none
    simpa using execution.runStored
  rw [execute_eq]
  refine .andThen (markRunStarted_delivers safe stored) ?_
  rintro run world₁ ⟨sameId, sameContext, sameTrigger, states₁, launches₁, stored₁⟩
  have safe₁ : OnlyLaunches execution.Forecast world₁ := by
    unfold OnlyLaunches
    rw [launches₁]
    exact safe
  have pending₁ : ∀ sr ∈ execution.stepRuns, world₁.progress.states sr.id = some .pending := by
    rw [states₁]
    exact pending
  rw [← bind_assoc]
  refine .andThen (skip_delivers safe₁ sameContext sameTrigger pending₁) ?_
  rintro _ world₂ ⟨states₂, launches₂, runs₂⟩
  refine .bind (delivers_utcNow fun startedAt => ?_)
  have atStage : execution.AtStage 0 world₂.progress :=
    atStage_zero states₂ (launches₂.trans (launches₁.trans empty)) (runs₂ ▸ stored₁)
  have failure : false = true ↔ execution.FailsBy 0 := by simp [FailsBy]
  have stop : false = true ↔ execution.StopsBy 0 := by simp [StopsBy]
  rw [PipelineDef.plan_deps]
  refine .andThen (executeDagLevels_delivers (Nat.zero_le _) run _ atStage failure stop) ?_
  rintro ⟨hadFailure, hadStopFailure⟩ world₃ ⟨atEnd, failure₃, stop₃⟩
  refine (finalizeRun_delivers atEnd.forecast sameId atEnd.started).mono ?_ fun _ => id
  rintro state world₄ ⟨isState, states₄, launches₄, run₄⟩
  refine ⟨?_, run₄, fun sr mem => ?_, fun launch mem => ?_, fun sr mem launched => ?_⟩
  · rw [isState, verdict]
    congr 1
    · exact Bool.eq_iff_iff.mpr (failure₃.trans decide_eq_true_iff.symm)
    · exact Bool.eq_iff_iff.mpr (stop₃.trans decide_eq_true_iff.symm)
  · rw [states₄, atEnd.states sr mem, stateAt, finalState, if_pos (stage_lt_length mem)]
  · rw [launches₄] at mem
    exact atEnd.forecast launch mem
  · rw [launches₄]
    exact atEnd.complete sr mem launched (stage_lt_length mem)

variable (execution) in
def result (env : ℕ → DagMoment) : Except MuliError PipelineRunState × PipelineWorld :=
  Prog.run execution.outcomes.handle env
    (execution.executor.execute execution.pipeline execution.run execution.stepRuns).run
    execution.world

theorem asForecast_of_ok {env : ℕ → DagMoment} {state : PipelineRunState}
    (returned : (execution.result env).1 = .ok state) :
    execution.AsForecast state (execution.result env).2.progress := by
  have settles : Settles _ _ (execution.result env).1 (execution.result env).2 :=
    Prog.Ensures.run execute_delivers env
  rw [returned] at settles
  exact settles

theorem launches_forecast (env : ℕ → DagMoment) :
    ∀ launch ∈ (execution.result env).2.progress.launches, execution.Forecast launch := by
  have settles : Settles _ _ (execution.result env).1 (execution.result env).2 :=
    Prog.Ensures.run execute_delivers env
  cases returned : (execution.result env).1 with
  | ok state => exact (asForecast_of_ok returned).launches
  | error e =>
    rw [returned] at settles
    exact settles

end Run

end Execution

end Muli
