/-
**Cancelling a pipeline run while it executes.**

`cancelPipelineImpl` marks the step runs that have not ended and then the run as cancelled, row by
row and without a guard; the executor goes on and overwrites the same rows.

* `runStaysCancelled_iff` — the run stays cancelled **exactly** if the executor writes the run's row
  no more once a request has written it.
-/

import Muli.Pipeline.RowHistory
import Muli.Server.Actors

namespace Muli

open Interaction List

/-! ### The request -/

structure CancelPipelineRequest where
  header : Option String
  tenantId : String
  runId : String
  repoId : String
deriving DecidableEq, Repr

abbrev RequestM := ExceptT Status (Prog Dag)

/-- A store call; its error is reported after the given text. -/
def orInternal {α : Type} (context : String) (call : DagM α) : RequestM α :=
  call.adapt fun e => ⟨.internal, context ++ e.toString⟩

def getRun (id : String) : DagM (Option PipelineRun) :=
  ExceptT.mk (Prog.perform (I := Dag) (.getRun id))

def listByRun (runId : String) : DagM (List StepRun) :=
  ExceptT.mk (Prog.perform (I := Dag) (.listByRun runId))

def requestNow : RequestM Timestamp := ExceptT.lift (Prog.perform (I := Dag) .now)

def cancelStep (step : StepRun) : RequestM Unit :=
  if step.state.isTerminal then pure ()
  else orInternal ("Failed to cancel step " ++ step.stepName ++ ": ")
    (updateStepState step.id .cancelled)

def cancelRows (run : PipelineRun) (runId : String) : RequestM Unit := do
  let steps ← orInternal "Failed to list steps: " (listByRun runId)
  steps.forM cancelStep
  let finishedAt ← requestNow
  let updatedAt ← requestNow
  orInternal "Failed to update run: " (updateRun
    { run with state := .cancelled, finishedAt := some finishedAt, updatedAt := updatedAt })

/-- The checks on the run that was found, and then the cancellation. -/
def cancelFound (callerTenant : String) (request : CancelPipelineRequest) :
    Option PipelineRun → RequestM Unit
  | none => throw ⟨.notFound, "run " ++ request.runId ++ " not found"⟩
  | some run =>
    if run.tenantId ≠ callerTenant then
      throw ⟨.notFound, "run " ++ request.runId ++ " not found"⟩
    else if request.repoId ≠ "" ∧ run.repoId ≠ request.repoId then
      throw ⟨.notFound, "run " ++ request.runId ++ " not found"⟩
    else if run.state.isTerminal then
      throw ⟨.failedPrecondition, "run is already in terminal state: " ++ run.state.asStr⟩
    else cancelRows run request.runId

/-- **Cancel a pipeline run.** -/
def cancelPipelineImpl (request : CancelPipelineRequest) : RequestM Unit :=
  match validateTenant request.header request.tenantId with
  | .error status => throw status
  | .ok callerTenant =>
    if request.runId = "" then throw ⟨.invalidArgument, "run_id is required"⟩
    else do
      let found ← orInternal "Failed to get run: " (getRun request.runId)
      cancelFound callerTenant request found

/-- The writes of a request: cancelled steps and a cancelled run. -/
def CancelCall : DagOp → Prop
  | .updateStepState _ state => state = .cancelled
  | .updateRun run => run.state = .cancelled
  | .updateStep _ | .createStep _ | .submit _ => False
  | _ => True

variable {id : String} {op : DagOp}

theorem CancelCall.written (isCancel : CancelCall op) (isWritten : written id op = some state) :
    op = .updateStepState id .cancelled ∧ state = .cancelled := by
  cases op with
  | updateStepState id' state' =>
    obtain rfl : state' = .cancelled := isCancel
    replace isWritten : (if id' = id then some .cancelled else none) = some state := isWritten
    split_ifs at isWritten with same
    exact ⟨same ▸ rfl, (Option.some.inj isWritten).symm⟩
  | updateStep | createStep => exact isCancel.elim
  | _ => cases isWritten

def cancelProtocol : Protocol Dag Unit where
  expects _ _ := True
  permits _ := CancelCall
  next _ _ _ := ()

theorem cancelStep_keeps (step : StepRun) : Keeps cancelProtocol (cancelStep step) := by
  unfold cancelStep
  split_ifs
  · exact .pure ()
  · exact .adapt _ fun _ => ⟨rfl, fun _ _ _ _ => rfl⟩

theorem cancelRows_keeps (run : PipelineRun) (runId : String) :
    Keeps cancelProtocol (cancelRows run runId) := by
  have now : Keeps cancelProtocol requestNow := fun _ => .lift ⟨trivial, fun _ _ => rfl⟩
  refine .bind (.adapt _ fun _ => ⟨trivial, fun _ _ _ _ => rfl⟩) fun steps => ?_
  refine .bind (.forM fun step _ => cancelStep_keeps step) fun _ => ?_
  refine now.bind fun finishedAt => now.bind fun updatedAt => ?_
  exact .adapt _ fun _ => ⟨rfl, fun _ _ _ _ => rfl⟩

/-- **A request only cancels**, whatever the store answers. -/
theorem cancelPipelineImpl_keeps (request : CancelPipelineRequest) :
    Keeps cancelProtocol (cancelPipelineImpl request) := by
  unfold cancelPipelineImpl
  split
  · exact Keeps.throw _
  split_ifs
  · exact .throw _
  refine .bind (.adapt _ fun _ => ⟨trivial, fun _ _ _ _ => rfl⟩) fun found => ?_
  cases found with
  | none => exact .throw _
  | some run =>
    simp only [cancelFound]
    split_ifs
    · exact Keeps.throw _
    · exact Keeps.throw _
    · exact .throw _
    · exact cancelRows_keeps run _

/-! ### The law -/

abbrev History := List (ℕ × Event Dag PipelineWorld DagMoment)

def Submits (id : String) : DagOp → Prop
  | .submit job => job.spec.pipelineStepRunId = some id
  | _ => False

theorem Submits.onRow (submits : Submits id op) : OnRow id op := by
  cases op with
  | submit job => exact submits
  | _ => exact submits.elim

theorem CancelCall.not_submits (isCancel : CancelCall op) : ¬ Submits id op := by
  cases op with
  | submit job => exact isCancel.elim
  | _ => exact not_false

/-- Once the run is stored as cancelled, it is stored so after every later call. -/
def RunStaysCancelled (runId : String) (history : History) : Prop :=
  ∀ earlier event later, history = earlier ++ event :: later →
    event.2.before.runs.stateOf runId = some .cancelled →
    ∀ event' ∈ event :: later,
      (event'.2.after dagHandle).runs.stateOf runId = some .cancelled

/-- Once a step run is stored as cancelled, it is stored so after every later call, and no later
call submits a job for it. -/
def StepsStayCancelled (history : History) : Prop :=
  ∀ earlier event later, history = earlier ++ event :: later → ∀ id,
    event.2.before.steps.stateOf id = some .cancelled →
    ∀ event' ∈ event :: later,
      (event'.2.after dagHandle).steps.stateOf id = some .cancelled ∧ ¬ Submits id event'.2.op

/-- **What is cancelled stays cancelled.** -/
structure CancellationLaw (runId : String) (history : History) : Prop where
  run : RunStaysCancelled runId history
  steps : StepsStayCancelled history

def KeepsRun (runId : String) (event : Event Dag PipelineWorld DagMoment) : Prop :=
  event.before.runs.stateOf runId = some .cancelled →
    (event.after dagHandle).runs.stateOf runId = some .cancelled

/-- One call keeps a cancelled step run, and submits no job for it. -/
def KeepsRow (id : String) (event : Event Dag PipelineWorld DagMoment) : Prop :=
  event.before.steps.stateOf id = some .cancelled →
    (event.after dagHandle).steps.stateOf id = some .cancelled ∧ ¬ Submits id event.op

section Calls

variable {world : PipelineWorld} {history : History}

theorem runStaysCancelled_of_forall (chained : Chained dagHandle world history)
    (keeps : ∀ event ∈ history, KeepsRun runId event.2) : RunStaysCancelled runId history := by
  rintro earlier event later rfl cancelled event' mem
  refine (chained.suffix.preserves (P := fun world => world.runs.stateOf runId = some .cancelled)
    (fun event mem => ?_) cancelled event' mem).2
  exact keeps event (mem_append_right _ mem)

theorem stepsStayCancelled_of_forall (chained : Chained dagHandle world history)
    (keeps : ∀ id, ∀ event ∈ history, KeepsRow id event.2) : StepsStayCancelled history := by
  rintro earlier event later rfl id cancelled event' mem
  have stays := chained.suffix.preserves
    (P := fun world => world.steps.stateOf id = some .cancelled)
    (fun event mem now => (keeps id event (mem_append_right _ mem) now).1) cancelled
  exact keeps id event' (mem_append_right _ mem) (stays event' mem).1

end Calls

/-! ### Timely requests -/

/-- A request cancels the step row, and the write reaches the store. -/
def CancelsRow (id : String) (event : ℕ × Event Dag PipelineWorld DagMoment) : Prop :=
  event.1 ≠ 0 ∧ event.2.decision.storeFailure = none ∧ event.2.op = .updateStepState id .cancelled

/-- The executor makes a call on the step row. -/
def ExecutorOnRow (id : String) (event : ℕ × Event Dag PipelineWorld DagMoment) : Prop :=
  event.1 = 0 ∧ OnRow id event.2.op

/-- A request cancels the run, and the write reaches the store. -/
def CancelsRun (runId : String) (event : ℕ × Event Dag PipelineWorld DagMoment) : Prop :=
  event.1 ≠ 0 ∧ event.2.decision.storeFailure = none ∧
    ∃ run, event.2.op = .updateRun run ∧ run.id = runId

/-- The executor writes the row of its run, and the write reaches the store. -/
def ExecutorWritesRun (event : ℕ × Event Dag PipelineWorld DagMoment) : Prop :=
  event.1 = 0 ∧ event.2.decision.storeFailure = none ∧ ∃ run, event.2.op = .updateRun run

/-- Once a request has cancelled the run, the executor writes its row no more. -/
def RunTimely (runId : String) (history : History) : Prop :=
  ∀ earlier cancel later, history = earlier ++ cancel :: later → CancelsRun runId cancel →
    ∀ next ∈ later, ¬ ExecutorWritesRun next

/-- **A request cancels a step run before the executor takes it up**, and the executor does not skip
it, **or after the executor is done with it.** -/
def StepsTimely (execution : Execution) (history : History) : Prop :=
  ∀ earlier cancel later id, history = earlier ++ cancel :: later → CancelsRow id cancel →
    ((∀ sr ∈ execution.stepRuns, sr.id = id → execution.skips sr = false) ∧
      ∀ past ∈ earlier, ¬ ExecutorOnRow id past) ∨
    ∀ next ∈ later, ¬ ExecutorOnRow id next

/-! ### The row of the run -/

section Run

variable {runId : String} {world : PipelineWorld} {history : History}
  (chained : Chained dagHandle world history)
  (executorCalls : ∀ event ∈ history, event.1 = 0 → RunCall runId event.2.op)
  (cancels : ∀ event ∈ history, event.1 ≠ 0 → CancelCall event.2.op)
include chained executorCalls cancels

/-- The run stays cancelled if the executor writes its row neither while it is cancelled at the
start nor after a request has cancelled it. -/
theorem keepsRun_of_timely (quiet : world.runs.stateOf runId = some .cancelled → ∀ event ∈ history,
      ¬ ExecutorWritesRun event)
    (timely : RunTimely runId history) : ∀ event ∈ history, KeepsRun runId event.2 := by
  induction history generalizing world with
  | nil => exact fun _ mem => absurd mem not_mem_nil
  | cons event later ih =>
    obtain ⟨rfl, rest⟩ := chained
    have effect := runStateOf_dagHandle event.2.decision event.2.op event.2.before runId
    have here : KeepsRun runId event.2 := by
      intro cancelled
      rcases effect with same | ⟨performed, run, isWrite, -, after⟩
      · exact same.trans cancelled
      · by_cases thread : event.1 = 0
        · exact absurd ⟨thread, performed, run, isWrite⟩
            (quiet cancelled event mem_cons_self)
        · have isCancel := cancels event mem_cons_self thread
          rw [isWrite] at isCancel
          exact after.trans (congrArg some isCancel)
    refine forall_mem_cons.mpr ⟨here, ih rest ?_ ?_ ?_ ?_⟩
    · exact fun event' mem => executorCalls event' (.tail _ mem)
    · exact fun event' mem => cancels event' (.tail _ mem)
    · intro cancelled
      rcases effect with same | ⟨performed, run, isWrite, ofRun, after⟩
      · exact fun event' mem =>
          quiet (same.symm.trans cancelled) event' (.tail _ mem)
      · by_cases thread : event.1 = 0
        · -- the executor never stores its run as cancelled
          have isLive := executorCalls event mem_cons_self thread
          rw [isWrite] at isLive
          exact absurd (Option.some.inj (after.symm.trans cancelled)) isLive.2
        · exact timely [] event later rfl ⟨thread, performed, run, isWrite, ofRun⟩
    · intro earlier cancel later' split
      exact timely (event :: earlier) cancel later' (congrArg (event :: ·) split)

/-- **A run that is not cancelled yet stays cancelled exactly if the executor writes its row no more
once a request has.** -/
theorem runStaysCancelled_iff (known : world.runs.stateOf runId ≠ none)
    (live : world.runs.stateOf runId ≠ some .cancelled) :
    RunStaysCancelled runId history ↔ RunTimely runId history := by
  constructor
  · rintro stays earlier cancel later rfl isCancel next mem isWrite
    have stored := chained.preserves (P := fun world => world.runs.stateOf runId ≠ none)
      (fun event _ => runStateOf_ne_none event.2) known
    have inHistory : next ∈ earlier ++ cancel :: later :=
      mem_append_right _ (.tail _ mem)
    obtain ⟨thread, performed, run, isCall, rfl⟩ := isCancel
    obtain ⟨thread', performed', run', isCall'⟩ := isWrite
    -- the request stores the run as cancelled
    have cancelled : (cancel.2.after dagHandle).runs.stateOf run.id = some .cancelled := by
      have isCancel := cancels cancel (by simp) thread
      rw [isCall] at isCancel
      unfold Event.after
      rw [isCall, runStateOf_updateRun performed (stored cancel (by simp)).1]
      exact congrArg some isCancel
    -- and it is stored so after the executor's write, which stores something else
    have after : (next.2.after dagHandle).runs.stateOf run.id = some .cancelled := by
      cases later with
      | nil => cases mem
      | cons first later =>
        refine stays (earlier ++ [cancel]) first later (by simp) ?_ next mem
        rw [chained.suffix.2.1]
        exact cancelled
    obtain ⟨ofRun, isLive⟩ : RunCall run.id (.updateRun run') :=
      isCall' ▸ executorCalls next inHistory thread'
    unfold Event.after at after
    rw [isCall', ← ofRun, runStateOf_updateRun performed'] at after
    · exact isLive (Option.some.inj after)
    · simp [*]
  · intro timely
    exact runStaysCancelled_of_forall chained
      (keepsRun_of_timely chained executorCalls cancels (fun cancelled =>
        absurd cancelled live) timely)

end Run

end Muli
