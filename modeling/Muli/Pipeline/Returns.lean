/-
**The executor returns.**

The wait for a job ends at the deadline and every loop of the executor is over a list, so a run goes
on until a store call fails.

* `DagExecutor.execute_returns` — **where no store call fails, every run of the executor returns a
  state**, whatever becomes of the jobs.
-/

import Muli.Pipeline.Passes
import Muli.Pipeline.Progress

namespace Muli

open Interaction

def DagMoment.Quiet (moment : DagMoment) : Prop :=
  moment.storeFailure = none ∧ ∃ job, moment.job = .ok job

/-- The calls of a run at whose moments no store call fails. -/
def Outcomes.quietly (outcomes : Outcomes) :
    Handler Dag PipelineWorld {moment : DagMoment // moment.Quiet} :=
  fun moment => outcomes.handle moment.1

theorem stored_settles_of_quiet {α : Type} (quiet : moment.Quiet) {value : α} :
    Settles (fun _ _ => True) (fun _ => False) (stored moment world (.ok value) after).1
      (stored moment world (.ok value) after).2 := by
  unfold stored
  rw [quiet.1]
  exact trivial

theorem Outcomes.getJob_returns (outcomes : Outcomes) (jobId : String) :
    Returns outcomes.quietly (getJob jobId) := by
  intro world moment
  show Settles (fun _ _ => True) (fun _ => False) moment.1.job world
  obtain ⟨job, shows⟩ := moment.2.2
  rw [shows]
  exact trivial

theorem Outcomes.returns_callClosed (outcomes : Outcomes) :
    CallClosed fun _ p => Returns outcomes.quietly p where
  pure := .pure
  bind := .bind
  getStep _ := fun _ moment => stored_settles_of_quiet moment.2
  updateStep _ := fun _ moment => stored_settles_of_quiet moment.2
  updateStepState _ _ := fun _ moment => stored_settles_of_quiet moment.2
  updateRun _ := fun _ moment => stored_settles_of_quiet moment.2
  getJob := outcomes.getJob_returns
  newUuid := .lift _
  utcNow := .lift _
  waitForJob _ _ _ _ := .lift _

/-- **Where no store call fails, the executor returns.** -/
theorem DagExecutor.execute_returns (outcomes : Outcomes) (executor : DagExecutor)
    (pipeline : PipelineDef) (run : PipelineRun) (stepRuns : List StepRun) :
    Returns outcomes.quietly (executor.execute pipeline run stepRuns) :=
  outcomes.returns_callClosed.execute fun _ _ _ _ _ _ _ _ _ => .lift _

end Muli
