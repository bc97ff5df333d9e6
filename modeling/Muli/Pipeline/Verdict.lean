/-
**The state a run ends in.**

`VerdictLaw` relates the stored state of a run to how its jobs ended: failed exactly if a job with
strategy stop failed, degraded exactly if a job with strategy continue did and none with stop,
succeeded exactly if nothing but ignored failures happened, and never succeeded after a job was
cancelled or timed out.

* `verdictLaw_iff` — **the law holds of a run exactly if some job that is not to be ignored fails,
  or every job succeeds.** An ignored failure degrades the run, and a cancelled job leaves it
  succeeded.
-/

import Muli.Pipeline.Forecast

namespace Muli

open Interaction List DagExecutor

namespace Execution

variable (execution : Execution)

def Ends (world : PipelineWorld) (sr : StepRun) (state : StepRunState) : Prop :=
  world.steps.stateOf sr.id = some state
deriving Decidable

theorem Ends.ignored {world : PipelineWorld} {sr : StepRun} (ends : Ends world sr .failed)
    (fine : Ends world sr
    .succeeded ∨ Ends world sr .skipped ∨ Ends world sr .failed ∧ sr.failureStrategy = .ignore) :
    sr.failureStrategy = .ignore := by
  rcases fine with fine | fine | ⟨-, ignored⟩
  · cases ends.symm.trans fine
  · cases ends.symm.trans fine
  · exact ignored

def Interrupted (world : PipelineWorld) : Prop :=
  ∃ sr ∈ execution.stepRuns, (∃ submission ∈ world.submissions,
    submission.job.spec.pipelineStepRunId = some sr.id) ∧
    ∃ jobId, execution.outcomes.submit sr.id = .ok jobId ∧
      (execution.outcomes.fate jobId execution.executor.polls 0 = some .cancelled ∨
        execution.outcomes.fate jobId execution.executor.polls 0 = some .timedOut)

/-- **The stored state of the run is the one its jobs call for.** -/
structure VerdictLaw (world : PipelineWorld) : Prop where
  failed : world.progress.run execution.run.id = some .failed ↔
    ∃ sr ∈ execution.stepRuns, sr.failureStrategy = .stop ∧ Ends world sr .failed
  degraded : world.progress.run execution.run.id = some .degraded ↔
    (¬ ∃ sr ∈ execution.stepRuns, sr.failureStrategy = .stop ∧ Ends world sr .failed) ∧
      ∃ sr ∈ execution.stepRuns, sr.failureStrategy = .continued ∧ Ends world sr .failed
  succeeded : world.progress.run execution.run.id = some .succeeded ↔
    ∀ sr ∈ execution.stepRuns, Ends world sr .succeeded ∨ Ends world sr .skipped ∨
      Ends world sr .failed ∧ sr.failureStrategy = .ignore
  interrupted : execution.Interrupted world →
    world.progress.run execution.run.id ≠ some .succeeded

/-- Some job that is not to be ignored fails, or every job succeeds. -/
def ClearOutcome : Prop :=
  (∃ sr ∈ execution.stepRuns, execution.skips sr = false ∧ sr.failureStrategy ≠ .ignore ∧
    execution.ended sr = .failed) ∨
  ∀ sr ∈ execution.stepRuns, execution.skips sr = false → execution.ended sr = .succeeded

variable {execution}

/-! ### Who fails -/

/-- **A job that would stop the run is launched**, unless an earlier one stops it. -/
theorem exists_launched_stop (stops : ∃ sr ∈ execution.stepRuns, execution.Stops sr) :
    ∃ sr ∈ execution.stepRuns, execution.Stops sr ∧ execution.Launched sr := by
  obtain ⟨sr, mem, stops⟩ := stops
  -- a step run that stops the run at the first stage at which one does
  induction stage : execution.stage sr using Nat.strong_induction_on generalizing sr with
  | _ n ih =>
    by_cases launched : execution.Launched sr
    · exact ⟨sr, mem, stops, launched⟩
    · have blocked : ∃ sr' ∈ execution.stepRuns, execution.stage sr' < execution.stage sr ∧
          execution.Stops sr' := by
        by_contra none
        push Not at none
        exact launched ⟨stops.1, none⟩
      obtain ⟨sr', mem', earlier, stops'⟩ := blocked
      exact ih _ (stage ▸ earlier) sr' mem' stops' rfl

variable {sr : StepRun}

theorem launched_of_no_stop (running : ¬ ∃ sr ∈ execution.stepRuns, execution.Stops sr)
    (live : execution.skips sr = false) : execution.Launched sr :=
  ⟨live, fun sr' mem _ stops => running ⟨sr', mem, stops⟩⟩

theorem stepStateOf_cases (fate : Option JobState) :
    stepStateOf fate = .succeeded ∨ stepStateOf fate = .cancelled ∨
      stepStateOf fate = .failed := by
  cases fate with
  | none => exact .inr (.inr rfl)
  | some state => cases state <;> simp [stepStateOf]

theorem ended_cases (sr : StepRun) : execution.ended sr = .succeeded ∨
    execution.ended sr = .cancelled ∨ execution.ended sr = .failed := by
  unfold ended Outcomes.ended
  cases execution.outcomes.submit sr.id with
  | error e => exact .inr (.inr rfl)
  | ok jobId => exact stepStateOf_cases _

theorem finalState_eq_failed :
    execution.finalState sr = .failed ↔ execution.Launched sr ∧ execution.ended sr = .failed := by
  unfold finalState
  by_cases skipped : execution.skips sr
  · simp [skipped, Launched]
  · by_cases launched : execution.Launched sr
    · simp [skipped, launched]
    · simp [skipped, launched]

theorem verdict_eq : execution.verdict = if ∃ sr ∈ execution.stepRuns,
    execution.Stops sr then .failed
    else if ∃ sr ∈ execution.stepRuns, execution.Launched sr ∧ execution.ended sr = .failed
      then .degraded else .succeeded := by
  have stops : execution.StopsBy execution.levels.length ↔
      ∃ sr ∈ execution.stepRuns, execution.Stops sr :=
    exists_congr fun sr => and_congr_right fun mem =>
      and_iff_right (stage_lt_length mem)
  have fails : execution.FailsBy execution.levels.length ↔
      ∃ sr ∈ execution.stepRuns, execution.Launched sr ∧ execution.ended sr = .failed :=
    exists_congr fun sr => and_congr_right fun mem =>
      and_iff_right (stage_lt_length mem)
  unfold verdict computeFinalState
  simp only [decide_eq_true_eq, stops, fails]

/-! ### The law -/

section Law

variable {state : PipelineRunState} {world : PipelineWorld}
  (asForecast : execution.AsForecast state world.progress)
include asForecast

variable {final : StepRunState}

theorem AsForecast.ends_iff (mem : sr ∈ execution.stepRuns)
    : Ends world sr final ↔ execution.finalState sr = final := by
  unfold Ends
  rw [show world.steps.stateOf sr.id = some (execution.finalState sr) from
    asForecast.states sr mem]
  exact Option.some_inj

theorem AsForecast.stop_failed_iff :
    (∃ sr ∈ execution.stepRuns, sr.failureStrategy = .stop ∧ Ends world sr .failed) ↔
      ∃ sr ∈ execution.stepRuns, execution.Stops sr := by
  constructor
  · rintro ⟨sr, mem, stop, ends⟩
    obtain ⟨launched, failed⟩ := finalState_eq_failed.mp ((asForecast.ends_iff mem).mp ends)
    exact ⟨sr, mem, launched.1, stop, failed⟩
  · intro stops
    obtain ⟨sr, mem, ⟨-, stop, failed⟩, launched⟩ := exists_launched_stop stops
    exact ⟨sr, mem, stop,
      (asForecast.ends_iff mem).mpr (finalState_eq_failed.mpr ⟨launched, failed⟩)⟩

theorem AsForecast.run_eq : world.progress.run execution.run.id = some execution.verdict := by
  rw [asForecast.run, asForecast.verdict]

theorem verdictLaw_of_stops (stops : ∃ sr ∈ execution.stepRuns, execution.Stops sr) :
    execution.VerdictLaw world := by
  have isFailed : world.progress.run execution.run.id = some .failed := by
    rw [asForecast.run_eq, verdict_eq, if_pos stops]
  have someFailed := asForecast.stop_failed_iff.mpr stops
  refine ⟨iff_of_true isFailed someFailed, ?_, ?_, fun _ => by simp [isFailed]⟩
  · exact iff_of_false (by simp [isFailed]) fun degraded => degraded.1 someFailed
  · refine iff_of_false (by simp [isFailed]) fun allFine => ?_
    obtain ⟨sr, mem, stop, ends⟩ := someFailed
    cases stop.symm.trans (ends.ignored (allFine sr mem))

section

variable (running : ¬ ∃ sr ∈ execution.stepRuns, execution.Stops sr)
include running

theorem AsForecast.ends_iff_of_no_stop
    (mem : sr ∈ execution.stepRuns) : Ends world sr final ↔
      (if execution.skips sr then .skipped else execution.ended sr) = final := by
  rw [asForecast.ends_iff mem, finalState]
  cases live : execution.skips sr with
  | true => rfl
  | false => simp [launched_of_no_stop running live]

/-- **A run with a failure but no stop** obeys the law exactly if some failure is not ignored. -/
theorem verdictLaw_iff_of_fails
    (fails : ∃ sr ∈ execution.stepRuns, execution.Launched sr ∧ execution.ended sr = .failed) :
    execution.VerdictLaw world ↔ ∃ sr ∈ execution.stepRuns, execution.skips sr = false ∧
      sr.failureStrategy ≠ .ignore ∧ execution.ended sr = .failed := by
  have isDegraded : world.progress.run execution.run.id = some .degraded := by
    rw [asForecast.run_eq, verdict_eq, if_neg running, if_pos fails]
  have noStop := mt asForecast.stop_failed_iff.mp running
  constructor
  · intro law
    obtain ⟨sr, mem, continued, ends⟩ := (law.degraded.mp isDegraded).2
    obtain ⟨launched, failed⟩ := finalState_eq_failed.mp ((asForecast.ends_iff mem).mp ends)
    exact ⟨sr, mem, launched.1, by simp [continued], failed⟩
  · rintro ⟨sr, mem, live, notIgnored, failed⟩
    have ends : Ends world sr .failed := by
      rw [asForecast.ends_iff_of_no_stop running mem, live, failed]
      rfl
    have continued : sr.failureStrategy = .continued := by
      cases strategy : sr.failureStrategy with
      | stop => exact absurd ⟨sr, mem, strategy, ends⟩ noStop
      | continued => rfl
      | ignore => exact absurd strategy notIgnored
    refine ⟨iff_of_false (by simp [isDegraded]) noStop,
      iff_of_true isDegraded ⟨noStop, sr, mem, continued, ends⟩,
      iff_of_false (by simp [isDegraded]) fun allFine => ?_, fun _ => by simp [isDegraded]⟩
    exact notIgnored (ends.ignored (allFine sr mem))

/-- **A run without failure** obeys the law exactly if every job succeeds. -/
theorem verdictLaw_iff_of_no_failure
    (noFailure : ¬ ∃ sr ∈ execution.stepRuns, execution.Launched sr ∧
      execution.ended sr = .failed) :
    execution.VerdictLaw world ↔ ∀ sr ∈ execution.stepRuns, execution.skips sr = false →
      execution.ended sr = .succeeded := by
  have isSucceeded : world.progress.run execution.run.id = some .succeeded := by
    rw [asForecast.run_eq, verdict_eq, if_neg running, if_neg noFailure]
  have noneFailed : ∀ sr ∈ execution.stepRuns, ¬ Ends world sr .failed := by
    intro sr mem ends
    exact noFailure ⟨sr, mem, finalState_eq_failed.mp ((asForecast.ends_iff mem).mp ends)⟩
  constructor
  · intro law sr mem live
    rcases law.succeeded.mp isSucceeded sr mem with fine | fine | ⟨failed, -⟩
    · rw [asForecast.ends_iff_of_no_stop running mem, live] at fine
      exact fine
    · rw [asForecast.ends_iff_of_no_stop running mem, live] at fine
      rcases execution.ended_cases sr with ended | ended | ended <;> simp [ended] at fine
    · exact absurd failed (noneFailed sr mem)
  · intro allSucceed
    refine ⟨iff_of_false (by simp [isSucceeded]) ?_, iff_of_false (by simp [isSucceeded]) ?_,
      iff_of_true isSucceeded fun sr mem => ?_, ?_⟩
    · simp_all
    · simp_all
    · cases live : execution.skips sr with
      | true =>
        refine .inr (.inl ?_)
        rw [asForecast.ends_iff_of_no_stop running mem, live]
        rfl
      | false =>
        refine .inl ?_
        rw [asForecast.ends_iff_of_no_stop running mem, live]
        exact allSucceed sr mem live
    · rintro ⟨sr, mem, ⟨submission, isSubmission, names⟩, jobId, accepted, ended⟩
      -- the submission is one the forecast makes, so its step run is live and its job succeeds
      have isLaunch : submission.launch ∈ world.progress.launches :=
        mem_map_of_mem isSubmission
      obtain ⟨sr', mem', launched, sameId, -⟩ := asForecast.launches _ isLaunch
      have sameRun : sr' = sr := execution.eq_of_id mem' mem
        (Option.some.inj (sameId.symm.trans names))
      have succeeds := allSucceed sr mem (sameRun ▸ launched.1)
      unfold Execution.ended Outcomes.ended at succeeds
      rw [accepted] at succeeds
      rcases ended with cancelled | timedOut
      · simp [cancelled, stepStateOf] at succeeds
      · simp [timedOut, stepStateOf] at succeeds

end

end Law

/-- **The law holds of a run that returns exactly if its outcome is clear.** -/
theorem verdictLaw_iff (execution : Execution) (env : ℕ → DagMoment) (state : PipelineRunState)
    (returned : (execution.result env).1 = .ok state) :
    execution.VerdictLaw (execution.result env).2 ↔ execution.ClearOutcome := by
  have asForecast := asForecast_of_ok returned
  by_cases stops : ∃ sr ∈ execution.stepRuns, execution.Stops sr
  · obtain ⟨sr, member, live, stop, failed⟩ := stops
    exact iff_of_true (verdictLaw_of_stops asForecast ⟨sr, member, live, stop, failed⟩)
      (.inl ⟨sr, member, live, by simp [stop], failed⟩)
  by_cases fails : ∃ sr ∈ execution.stepRuns,
      execution.Launched sr ∧ execution.ended sr = .failed
  · rw [verdictLaw_iff_of_fails asForecast stops fails]
    refine (or_iff_left fun allSucceed => ?_).symm
    obtain ⟨sr, member, launched, failed⟩ := fails
    rw [allSucceed sr member launched.1] at failed
    cases failed
  · rw [verdictLaw_iff_of_no_failure asForecast stops fails]
    refine (or_iff_right fun someFails => ?_).symm
    obtain ⟨sr, member, live, -, failed⟩ := someFails
    exact fails ⟨sr, member, launched_of_no_stop stops live, failed⟩

/-! ### Runs of one job -/

def plainExecutor : DagExecutor where
  order := ⟨id, fun _ => List.Perm.refl _⟩
  evaluateCondition _ _ := true
  matchesAnyPath _ _ := true
  jobSpec _ _ _ _ := { tenantId := "tenant", priorityTier := .standard }
  polls := 1

def jobIn (state : JobState) : Job :=
  let job := Job.new "job" 0 { tenantId := "tenant", priorityTier := .standard }
  { job with state := state }

def createdRun : PipelineRun :=
  .new "run" 0 "pipeline" "tenant" "repo" 1 "sha" "refs/heads/main" (.manual "user") ""

theorem nodup_createdRun : ([createdRun].map PipelineRun.id).Nodup := nodup_singleton _

def lintPipeline (strategy : String) : PipelineDef where
  jobs := [("lint", { failureStrategy := some strategy })]
  jobsNodup := nodup_singleton _
  steps := []

def lintStep (strategy : String) : StepRun :=
  StepRun.new "step" 0 "run" "lint" (failureStrategyOf (some strategy))

def lintRun (strategy : String) (state : JobState) : Execution where
  pipeline := lintPipeline strategy
  valid := rfl
  run := createdRun
  stepRuns := [lintStep strategy]
  nodeOf _ := ⟨"lint", [], none, failureStrategyOf (some strategy)⟩
  declared := by
    intro sr member
    exact mem_singleton.mpr rfl
  expands := by
    intro sr member
    obtain rfl := mem_singleton.mp member
    exact ⟨rfl, ["lint"], rfl, mem_singleton.mpr rfl⟩
  namesNodup := nodup_singleton _
  pending := by
    intro sr member
    obtain rfl := mem_singleton.mp member
    rfl
  world := ⟨⟨[createdRun], nodup_createdRun⟩, ⟨[lintStep strategy], nodup_singleton _⟩, []⟩
  stored := by
    intro sr member
    obtain rfl := mem_singleton.mp member
    rfl
  runStored := Option.some_ne_none createdRun
  unsubmitted := rfl
  executor := plainExecutor
  outcomes := {
    submit := fun _ => .ok "job"
    expires := fun _ _ => false
    observe := fun _ _ => .ok (some (jobIn state)) }

/-- A job with strategy continue that fails. -/
theorem verdictLaw_lint_continue :
    (lintRun "continue" .failed).VerdictLaw ((lintRun "continue" .failed).result fun _ => {}).2 :=
  (verdictLaw_iff (lintRun "continue" .failed) (fun _ => {}) .degraded rfl).mpr
    (.inl ⟨_, mem_singleton.mpr rfl, rfl, by decide, rfl⟩)

/-- **A failure that is to be ignored degrades the run, and a cancelled job leaves it succeeded.**
-/
theorem not_verdictLaw_lint :
    ¬ (lintRun "ignore" .failed).VerdictLaw ((lintRun "ignore" .failed).result fun _ => {}).2 ∧
      ¬ (lintRun "stop" .cancelled).VerdictLaw
      ((lintRun "stop" .cancelled).result fun _ => {}).2 := by
  constructor
  · intro law
    obtain ⟨sr, member, continued, -⟩ := (law.degraded.mp rfl).2
    obtain rfl := mem_singleton.mp member
    cases continued
  · intro law
    rcases law.succeeded.mp rfl _ (mem_singleton.mpr rfl) with ends | ends | ⟨ends, -⟩ <;>
      exact absurd ends (by decide)

end Execution

end Muli
