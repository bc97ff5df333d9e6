/-
**The daily limit on pipeline runs.**

Admission compares the day's counter with the limit once per event; the counter is raised after each
run that a trigger creates. One event may create several runs, two events may pass admission before
either is counted, and a retry neither asks nor counts.

* `dailyRuns_bounded` — **if every run is, no day has more runs than the limit**, for all actors and
  schedules.
-/

import Muli.Server.RunNumbers

namespace Muli

open Interaction

/-! ### Reading the count -/

def readCount : (op : TriggerOp) → op.Answer → Option ℕ
  | .getDailyRunCount, .ok count => some count
  | _, _ => none

def expectsLimits (limits : TenantLimits) : (op : TriggerOp) → op.Answer → Prop
  | .getLimits, .ok answer => answer = some limits
  | _, _ => True

def countProtocol (limits : TenantLimits) : Protocol Trigger (Option ℕ) :=
  remembering (expectsLimits limits) readCount fun phase op =>
    op.creates ≠ none → ∀ count ∈ phase, count < limits.maxPipelineRunsPerDay

def BelowLimit (limits : TenantLimits) (phase : Option ℕ) : Prop :=
  ∀ count ∈ phase, count < limits.maxPipelineRunsPerDay

section Protocol

variable {limits : TenantLimits}

theorem readCount_eq_none (other : op ≠ .getDailyRunCount) (answer : op.Answer) :
    readCount op answer = none := by
  cases op with
  | getDailyRunCount => exact absurd rfl other
  | _ => rfl

theorem ask_count_within (op : TriggerOp) (other : op ≠ .getDailyRunCount) :
    (ask op).Within (countProtocol limits) (BelowLimit limits) := by
  refine .perform (fun phase below _ => below) fun phase answer below _ => ?_
  show BelowLimit limits ((readCount op answer).or phase)
  rw [readCount_eq_none other, Option.none_or]
  exact below

theorem concurrentRunsAllow_count :
    (concurrentRunsAllow limits).Within (countProtocol limits) (BelowLimit limits) := by
  unfold concurrentRunsAllow
  split_ifs
  · exact .pure _
  · refine .bind (ask_count_within .countActive nofun) fun answer => ?_
    cases answer <;> exact .pure _

section

variable (limited : 0 < limits.maxPipelineRunsPerDay)
include limited

theorem limitsAllow_count (below : BelowLimit limits phase) :
    (limitsAllow (.ok (some limits))).Obeys (countProtocol limits)
      (fun allowed phase' => allowed = true → BelowLimit limits phase') phase := by
  have passes : ∀ phase', BelowLimit limits phase' →
      (concurrentRunsAllow limits).Obeys (countProtocol limits)
        (fun allowed phase'' => allowed = true → BelowLimit limits phase'') phase' :=
    fun phase' below' => (concurrentRunsAllow_count phase' below').mono fun _ _ below'' _ => below''
  simp only [limitsAllow, dailyRunsAllow, if_neg limited.ne']
  refine ⟨fun isCreate => absurd rfl isCreate, fun answer _ => ?_⟩
  cases answer with
  | error e => exact passes _ below
  | ok count =>
    show Prog.Obeys _ (if decide (count < limits.maxPipelineRunsPerDay) = true then
      concurrentRunsAllow limits else pure false) _ (some count)
    split_ifs with allowed
    · refine passes (some count) ?_
      rintro _ ⟨⟩
      exact of_decide_eq_true allowed
    · exact nofun

theorem admissionAllows_count
    (request : TriggerRequest) (below : BelowLimit limits phase) :
    (admissionAllows request).Obeys (countProtocol limits)
      (fun allowed phase' => allowed = true → BelowLimit limits phase') phase := by
  have checked : ∀ phase', BelowLimit limits phase' →
      (ask .getLimits >>= limitsAllow).Obeys (countProtocol limits)
        (fun allowed phase'' => allowed = true → BelowLimit limits phase'') phase' := by
    intro phase' below'
    refine ⟨fun isCreate => absurd rfl isCreate, fun answer expected => ?_⟩
    cases answer with
    | error e => exact fun _ => below'
    | ok found =>
      obtain rfl : found = some limits := expected
      exact limitsAllow_count limited below'
  refine Prog.obeys_bind.mpr ((ask_count_within (.recentlyTriggered _) nofun phase below).mono ?_)
  rintro (- | -) phase' below'
  · refine Prog.obeys_bind.mpr ((ask_count_within .isSuspended nofun phase' below').mono ?_)
    rintro (e | (- | -)) phase'' below''
    · exact checked phase'' below''
    · exact checked phase'' below''
    · exact nofun
  · exact nofun

/-- **No thread creates a run after it has read a count at the limit.** -/
theorem triggerActors_count (actor : TriggerActor) :
    actor.program.Obeys (countProtocol limits) (fun _ _ => True) none := by
  have rules : TriggerRules (countProtocol limits) (BelowLimit limits) :=
    { free := fun op phase below other _ _ =>
        ⟨fun _ => below, fun answer => by
          show BelowLimit limits ((readCount op answer).or phase)
          rw [readCount_eq_none other, Option.none_or]
          exact below⟩
      admission := fun request _ below => admissionAllows_count limited request below
      build := buildRun_within ask_count_within
      rerun := rerun_within ask_count_within }
  exact rules.obeys actor nofun

end

end Protocol

/-! ### Runs of a day -/

def createdOn (world : TenantWorld) (day : ℤ) : ℕ :=
  world.created.countP fun entry => dayOf entry.1 = day

/-- **A run that is created is within the limit**: its thread has read the count, on the same day;
the count covered all runs created that day, and none has been created since. -/
def CountCurrent (limits : TenantLimits) (earlier : List (ℕ × TriggerEvent))
    (entry : ℕ × TriggerEvent) : Prop :=
  ∀ _run ∈ newRun? entry.2,
    ∃ found ∈ lastRead (triggerHandle (some limits)) readCount entry.1 earlier,
      let day := dayOf entry.2.decision.now
      dayOf found.2.1.decision.now = day ∧
        createdOn found.2.1.before day ≤ found.2.1.before.dailyCounts day ∧
        ∀ other ∈ found.2.2, newRun? other.2 = none
deriving Decidable

variable {limits : Option TenantLimits}

theorem createdOn_after (event : TriggerEvent) (day : ℤ) :
    createdOn (event.after (triggerHandle limits)) day = createdOn event.before day +
      if newRun? event ≠ none ∧ dayOf event.decision.now = day then 1 else 0 := by
  rw [createdOn, created_after, List.countP_append]
  congr 1
  cases newRun? event with
  | none => rfl
  | some run => simp [List.countP_singleton]

variable {check : TriggerEvent}

theorem readCount_spec
    (isRead : readCount check.op (check.answer (triggerHandle limits)) = some count) :
    count = check.before.dailyCounts (dayOf check.decision.now) ∧
      check.after (triggerHandle limits) = check.before := by
  obtain ⟨before, moment, op⟩ := check
  cases op with
  | getDailyRunCount =>
    simp only [Event.answer, Event.after, triggerHandle, orFailure] at isRead ⊢
    cases failure : moment.storeFailure with
    | some reason =>
      rw [failure] at isRead
      cases isRead
    | none =>
      rw [failure] at isRead
      exact ⟨(Option.some.inj isRead).symm, rfl⟩
  | _ => cases isRead

section Runs

variable {limits : TenantLimits} {world : TenantWorld} {actors : List TriggerActor}
  {schedule : List (ℕ × TriggerMoment)} {earlier later : List (ℕ × TriggerEvent)} {i : ℕ}
  {event : TriggerEvent} {run : PipelineRun}

section

variable (split : (triggerPool world actors).trace (triggerHandle (some limits))
    schedule = earlier ++ (i, event) :: later)
include split

theorem lt_limit_of_lastRead (limited : 0 < limits.maxPipelineRunsPerDay)
    (asks : event.op.creates = some run)
    (found : lastRead (triggerHandle (some limits)) readCount i earlier =
    some (count, check, since)) : count < limits.maxPipelineRunsPerDay := by
  have meets : (triggerHandle (some limits)).Meets (countProtocol limits) := by
    intro moment op world
    cases op with
    | getLimits =>
      simp only [triggerHandle, orFailure]
      cases moment.storeFailure with
      | some reason => exact trivial
      | none => exact rfl
    | _ => exact trivial
  obtain ⟨phase, permitted, remembers⟩ :=
    Pool.permits_lastRead readCount id (fun _ _ _ => rfl) meets
      (List.forall_mem_map.mpr fun actor _ => triggerActors_count limited actor) split
  rw [found] at remembers
  exact permitted (by simp [asks]) count remembers

/-- **A run that is within the limit keeps the day within it.** -/
theorem createdOn_lt_of_current (limited : 0 < limits.maxPipelineRunsPerDay)
    (creates : newRun? event = some run) (current : CountCurrent limits earlier (i, event)) :
    createdOn event.before (dayOf event.decision.now) < limits.maxPipelineRunsPerDay := by
  obtain ⟨⟨count, check, since⟩, found, sameDay, covered, undisturbed⟩ := current run creates
  obtain ⟨isCount, unchanged⟩ := readCount_spec (lastRead_split found).2
  have below := lt_limit_of_lastRead split limited (Option.filter_eq_some_iff.mp creates).1 found
  have chained := split ▸ Pool.trace_chained (triggerPool world actors) schedule
  refine chained.since_lastRead (P := fun world =>
    createdOn world (dayOf event.decision.now) < limits.maxPipelineRunsPerDay) found ?_ ?_
  · grind
  · intro other isSince before
    rw [createdOn_after, undisturbed other isSince]
    simpa using before

end

end Runs

/-- **Where every run is within the limit when it is created, no day has more runs than the limit**,
whatever the pushes, manual triggers, retries and retention sweeps of the tenant do. -/
theorem dailyRuns_bounded (limits : TenantLimits) (world : TenantWorld) (actors : List TriggerActor)
    (schedule : List (ℕ × TriggerMoment)) (limited : 0 < limits.maxPipelineRunsPerDay)
    (start : ∀ day, createdOn world day ≤ limits.maxPipelineRunsPerDay) :
    let trace := (triggerPool world actors).trace (triggerHandle (some limits)) schedule
    AtEach (CountCurrent limits) trace →
      ∀ entry ∈ trace, ∀ day,
        createdOn (entry.2.after (triggerHandle (some limits))) day ≤
        limits.maxPipelineRunsPerDay := by
  intro trace current entry isEntry
  have chained := Pool.trace_chained (H := triggerHandle (some limits)) (triggerPool world actors)
    schedule
  refine (chained.preserves (P := fun world => ∀ day,
    createdOn world day ≤ limits.maxPipelineRunsPerDay) ?_ start entry isEntry).2
  intro event isEvent before day
  rw [createdOn_after]
  split_ifs with creates
  · obtain ⟨isNew, rfl⟩ := creates
    obtain ⟨run, isRun⟩ := Option.ne_none_iff_exists'.mp isNew
    obtain ⟨earlier, later, split⟩ := List.append_of_mem isEvent
    exact createdOn_lt_of_current split limited isRun (current.of_split split)
  · exact before day

def oneRunPerDay : TenantLimits where
  maxPipelineRunsPerDay := 1

/-- The first manual trigger of the day passes, the second is refused. -/
theorem dailyRuns_bounded_inTurn :
    let trace := (triggerPool (worldOf ∅) [manualOn "main", manualOn "dev"]).trace
      (triggerHandle (some oneRunPerDay))
      (List.replicate 14 (0, ciMoment "first") ++ List.replicate 14 (1, ciMoment "second"))
    ∀ entry ∈ trace, ∀ day,
      createdOn (entry.2.after (triggerHandle (some oneRunPerDay))) day ≤ 1 :=
  dailyRuns_bounded oneRunPerDay (worldOf ∅) [manualOn "main", manualOn "dev"] _ (by decide)
    (fun _ => Nat.zero_le _) (by decide +kernel)

def pushOn (branch : String) : TriggerActor :=
  .event ⟨"tenant", "repo", "sha", "refs/heads/" ++ branch, .push ("refs/heads/" ++ branch) []⟩

def twoPipelines (uuid : String) : TriggerMoment where
  uuid := uuid
  discovery := some
    { pipelineFiles := ["build", "deploy"].map fun name => ⟨"yaml", some
        { name := name, jobs := [("job", {})], jobsNodup := List.nodup_singleton _, steps := [] }⟩
      knownPipelines := [⟨"pipeline-1", "build"⟩, ⟨"pipeline-2", "deploy"⟩] }

/-- **Without the condition.** Under a limit of one run a day, one push creates a run for each of
two pipelines; and a retry creates a second run after the day's only one. -/
theorem not_dailyRuns_bounded :
    (let trace := (triggerPool (worldOf ∅) [pushOn "main"]).trace
      (triggerHandle (some oneRunPerDay))
        (List.replicate 14 (0, twoPipelines "first") ++ List.replicate 9 (0, twoPipelines "second"))
      ∃ entry ∈ trace, 1 < createdOn (entry.2.after (triggerHandle (some oneRunPerDay))) 0) ∧
    (let trace := (triggerPool (worldOf ∅)
          [manualOn "main", .retry ⟨some "tenant", "tenant", "first", "repo"⟩]).trace
        (triggerHandle (some oneRunPerDay))
        (List.replicate 14 (0, ciMoment "first") ++ List.replicate 6 (1, ciMoment "second"))
      ∃ entry ∈ trace, 1 < createdOn (entry.2.after (triggerHandle (some oneRunPerDay))) 0) := by
  decide +kernel

end Muli
