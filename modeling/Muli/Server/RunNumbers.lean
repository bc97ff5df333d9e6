/-
**Run numbers under concurrent triggers, retries and retention.**

`next_run_number` is the largest stored number plus one; `create_run` comes later and
`UNIQUE(pipeline_id, run_number)` refuses a number that is stored. Two triggers that read before
either has created its run get the same number, and the second run is dropped; a number whose run
was deleted is given again when it was the largest.

* `due` — the runs that an admitted trigger owes; `program_due` — **each actor creates the runs it
  owes**, as long as the store answers.
* `runNumbers_kept` — **if every number is safe, every admitted trigger ends with its runs stored
  and no number is given twice**, for all actors and schedules.
-/

import Muli.Server.Triggers

namespace Muli

open Interaction List

/-! ### Reading a number and creating the run -/

def readNumber : (op : TriggerOp) → op.Answer → Option (String × ℕ)
  | .nextRunNumber pipelineId, .ok runNumber => some (pipelineId, runNumber)
  | _, _ => none

/-- The number read last, and whether its run is still to be created. -/
structure BuildPhase where
  number : Option (String × ℕ)
  building : Bool

/-- While a run is built, only its id, time and environment are asked for; then it is created with
the number that was read. -/
def numberProtocol : Protocol Trigger BuildPhase where
  expects _ _ := True
  permits phase op :=
    if phase.building then
      match op with
      | .newUuid | .now | .resolveEnv _ => True
      | .createRun run => phase.number = some (run.pipelineId, run.runNumber)
      | _ => False
    else op.creates = none
  next phase op answer :=
    match readNumber op answer with
    | some number => ⟨some number, true⟩
    | none => ⟨phase.number, phase.building && op.creates.isNone⟩

def BuildPhase.Idle (phase : BuildPhase) : Prop := phase.building = false

theorem readNumber_eq_none (other : ∀ p, op ≠ .nextRunNumber p) (answer : op.Answer) :
    readNumber op answer = none := by
  cases op with
  | nextRunNumber p => exact absurd rfl (other p)
  | _ => rfl

theorem ask_number_within (other : ∀ p, op ≠ .nextRunNumber p) (notCreate : op.creates = none) :
    (ask op).Within numberProtocol BuildPhase.Idle := by
  rintro ⟨number, -⟩ rfl
  refine ⟨notCreate, fun answer _ => ?_⟩
  simp [numberProtocol, readNumber_eq_none other, BuildPhase.Idle, Prog.Obeys]

theorem buildRun_number_within (request : TriggerRequest) (pipeline : Pipeline) (content : String) :
    (buildRun request pipeline content).Within numberProtocol BuildPhase.Idle := by
  rintro ⟨number, -⟩ rfl
  refine ⟨rfl, fun answer _ => ?_⟩
  cases answer with
  | error e => exact rfl
  | ok runNumber =>
    refine ⟨trivial, fun id _ => ⟨trivial, fun now _ => ⟨trivial, fun env _ => ?_⟩⟩⟩
    cases env <;>
    · refine ⟨rfl, fun stored _ => ?_⟩
      cases stored with
      | error e => exact rfl
      | ok _ => exact ⟨rfl, fun _ _ => rfl⟩

theorem rerun_number_within (original : PipelineRun) :
    (rerun original).run.Within numberProtocol BuildPhase.Idle := by
  rintro ⟨number, -⟩ rfl
  refine ⟨rfl, fun answer _ => ?_⟩
  cases answer with
  | error e => exact rfl
  | ok runNumber =>
    refine ⟨trivial, fun id _ => ⟨trivial, fun now _ => ⟨trivial, fun env _ => ⟨rfl, ?_⟩⟩⟩⟩
    intro stored _
    cases stored with
    | error e => exact rfl
    | ok _ => exact ⟨rfl, fun _ _ => rfl⟩

/-- **A number that was read goes into the next run its thread creates**, and nothing else happens
in between. -/
theorem triggerActors_number (actor : TriggerActor) :
    actor.program.Obeys numberProtocol (fun _ _ => True) ⟨none, false⟩ := by
  have rules : TriggerRules numberProtocol BuildPhase.Idle :=
    { free := fun op phase idle _ other notCreate =>
        ⟨(ask_number_within other notCreate phase idle).1,
          fun answer => (ask_number_within other notCreate phase idle).2 answer trivial⟩
      admission := fun request phase idle =>
        (admissionAllows_within (fun _ other notCreate _ => ask_number_within other notCreate)
          request phase idle).mono fun _ _ idle' _ => idle'
      build := buildRun_number_within
      rerun := rerun_number_within }
  exact rules.obeys actor rfl

/-! ### The runs that are due -/

/-- The texts of the files that match, the first of each name. -/
def dueFiles : List PipelineConfig → (seen : List String) → List String
  | [], _ => []
  | file :: files, seen =>
    match file.parsed with
    | none => dueFiles files seen
    | some definition =>
      if definition.name ∈ seen then dueFiles files seen
      else file.content :: dueFiles files (definition.name :: seen)

/-- The run may be retried for this request. -/
def Retriable (request : RetryPipelineRequest) (original : PipelineRun) : Prop :=
  validateTenant request.header request.tenantId = .ok original.tenantId ∧
    (request.repoId = "" ∨ original.repoId = request.repoId) ∧ original.state.isTerminal = true ∧
    original.yamlContent ≠ ""

instance (request : RetryPipelineRequest) (original : PipelineRun) :
    Decidable (Retriable request original) := inferInstanceAs (Decidable (_ ∧ _ ∧ _ ∧ _))

/-- **The runs that an answer makes due**, by the texts they are to have: for an admitted event each
pipeline that its discovery finds, for an admitted manual trigger the one that is wanted, for a
retry the run that it finds. -/
def TriggerActor.due : TriggerActor → (op : TriggerOp) → op.Answer → List String
  | event _, .discover .., answer => answer.elim [] fun discovery =>
    dueFiles discovery.pipelineFiles []
  | manual _ wanted, .discover .., answer =>
    answer.elim [] fun discovery =>
      ((manualConfig wanted discovery.pipelineFiles).map fun config => config.1.content).toList
  | retry request, .getRun _, answer =>
    match answer with
    | .ok (some original) => if Retriable request original then [original.yamlContent] else []
    | _ => []
  | _, _, _ => []

/-- The calls on which a run depends are answered. -/
def TriggerOp.Works : (op : TriggerOp) → op.Answer → Prop
  | .upsertPipeline _, answer => ∃ value, answer = .ok value
  | .nextRunNumber _, answer => ∃ value, answer = .ok value
  | .createRun _, answer => ∃ value, answer = .ok value
  | _, _ => True

/-- The phase is the list of texts whose runs are due; only the first of them is created. -/
def dueProtocol (actor : TriggerActor) : Protocol Trigger (List String) where
  expects := TriggerOp.Works
  permits phase op := ∀ run ∈ op.creates, phase.head? = some run.yamlContent
  next phase op answer :=
    match op.creates with
    | some _ => phase.tail
    | none => phase ++ actor.due op answer

section Due

variable {actor : TriggerActor} {owed : List String}

theorem due_of_quiet (actor : TriggerActor) (quiet : op.quiet = true) :
    op.creates = none ∧ ∀ answer, actor.due op answer = [] := by
  cases op <;> cases actor <;> first | exact ⟨rfl, fun _ => rfl⟩ | cases quiet

theorem due_of_creates (creates : op.creates = some run) (answer : op.Answer) :
    actor.due op answer = [] := by
  cases op <;> cases actor <;> first | rfl | cases creates

variable {post : β → List String → Prop}

theorem ask_due {f : op.Answer → Prog Trigger β} (quiet : op.quiet = true)
    (later : ∀ answer, op.Works answer → (f answer).Obeys (dueProtocol actor) post owed) :
    (ask op >>= f).Obeys (dueProtocol actor) post owed := by
  obtain ⟨notCreate, nothing⟩ := due_of_quiet actor quiet
  refine ⟨fun run asks => ?_, fun answer works => ?_⟩
  · rw [notCreate] at asks
    cases asks
  · simp only [dueProtocol, notCreate, nothing, append_nil]
    exact later answer works

theorem create_due {f : Except MuliError String → Prog Trigger β}
    (later : ∀ id, (f (.ok id)).Obeys (dueProtocol actor) post owed) :
    (ask (.createRun run) >>= f).Obeys (dueProtocol actor) post (run.yamlContent :: owed) := by
  refine ⟨fun run' asks => ?_, ?_⟩
  · cases asks
    rfl
  · rintro - ⟨id, rfl⟩
    exact later id

/-- **A run that is built is the first of those that are due.** -/
theorem buildRun_due (request : TriggerRequest) (pipeline : Pipeline) (content : String) :
    (buildRun request pipeline content).Obeys (dueProtocol actor) (fun _ owed' => owed' = owed)
      (content :: owed) := by
  refine ask_due rfl ?_
  rintro - ⟨runNumber, rfl⟩
  refine ask_due rfl fun id _ => ask_due rfl fun now _ => ask_due rfl fun env _ => ?_
  cases env with
  | ok env => exact create_due fun _ => ask_due rfl fun _ _ => rfl
  | error e => exact create_due fun _ => ask_due rfl fun _ _ => rfl

theorem runPipeline_due (request : TriggerRequest) (content name : String) (known : List Pipeline) :
    (runPipeline request content name known).Obeys (dueProtocol actor) (fun _ owed' => owed' = owed)
      (content :: owed) := by
  have upserted : (upsertPipelineRecord name known).Obeys (dueProtocol actor)
      (fun record owed' => record.1.isSome = true ∧ owed' = content :: owed) (content :: owed) := by
    unfold upsertPipelineRecord
    split
    · refine ask_due rfl ?_
      rintro - ⟨-, rfl⟩
      exact ⟨rfl, rfl⟩
    · refine ask_due rfl fun id _ => ask_due rfl ?_
      rintro - ⟨-, rfl⟩
      exact ⟨rfl, rfl⟩
  refine Prog.obeys_bind.mpr (upserted.mono ?_)
  rintro ⟨- | pipeline, known'⟩ - ⟨isSome, rfl⟩
  · cases isSome
  · refine Prog.obeys_bind.mpr ((buildRun_due request pipeline content).mono ?_)
    rintro (- | run) - rfl
    · rfl
    · exact ask_due rfl fun _ _ => rfl

theorem runPipelines_due (request : TriggerRequest) (files : List PipelineConfig)
    (known : List Pipeline) (seen : List String) :
    (runPipelines request files known seen).Obeys (dueProtocol actor) (fun _ owed' => owed' = [])
      (dueFiles files seen) := by
  induction files generalizing known seen with
  | nil => rfl
  | cons file files ih =>
    unfold runPipelines dueFiles
    cases file.parsed with
    | none => exact ih known seen
    | some definition =>
      refine ask_due rfl fun _ _ => ?_
      dsimp only
      split_ifs
      · exact ih known seen
      · refine Prog.obeys_bind.mpr ((runPipeline_due request _ _ known).mono ?_)
        rintro known' - rfl
        exact ih known' _

theorem admissionAllows_due (request : TriggerRequest) :
    (admissionAllows request).Obeys (dueProtocol actor) (fun _ owed' => owed' = owed) owed := by
  refine admissionAllows_within (fun op _ _ quiet owed' same => ?_) request owed rfl
  have asked : (ask op >>= Prog.pure).Obeys (dueProtocol actor)
      (fun _ owed'' => owed'' = owed) owed' :=
    ask_due quiet fun _ _ => same
  exact asked

theorem rerun_due (original : PipelineRun) :
    (rerun original).run.Obeys (dueProtocol actor) (fun _ owed' => owed' = owed)
      (original.yamlContent :: owed) := by
  refine ask_due rfl ?_
  rintro - ⟨runNumber, rfl⟩
  refine ask_due rfl fun id _ => ask_due rfl fun now _ => ask_due rfl fun env _ => ?_
  exact create_due fun _ => ask_due rfl fun _ _ => rfl

/-- A call that finds out which runs are due. -/
theorem find_due {f : op.Answer → Prog Trigger β} (notCreate : op.creates = none)
    (later : ∀ answer, (f answer).Obeys (dueProtocol actor) post (actor.due op answer)) :
    (ask op >>= f).Obeys (dueProtocol actor) post [] := by
  refine ⟨fun run asks => ?_, fun answer _ => ?_⟩
  · rw [notCreate] at asks
    cases asks
  · simp only [dueProtocol, notCreate, nil_append]
    exact later answer

theorem retryFound_due {request : RetryPipelineRequest}
    (isTenant : validateTenant request.header request.tenantId = .ok callerTenant)
    (original : PipelineRun) :
    (retryFound callerTenant request (some original)).run.Obeys (dueProtocol actor)
      (fun _ owed => owed = []) (if Retriable request original then [original.yamlContent]
        else []) := by
  have retriable : Retriable request original ↔ original.tenantId = callerTenant ∧
      ¬ (request.repoId ≠ "" ∧ original.repoId ≠ request.repoId) ∧
      original.state.isTerminal = true ∧ original.yamlContent ≠ "" := by
    rw [Retriable, isTenant, Except.ok.injEq]
    tauto
  simp only [retryFound]
  by_cases may : Retriable request original
  · obtain ⟨ownTenant, ownRepo, terminal, config⟩ := retriable.mp may
    rw [if_pos may, if_neg (not_not.mpr ownTenant), if_neg ownRepo, if_neg (by simp [terminal]),
      if_neg config]
    exact rerun_due original
  · rw [if_neg may]
    split_ifs with otherTenant otherRepo running noConfig
    iterate 4 rfl
    exact absurd
      (retriable.mpr ⟨not_not.mp otherTenant, otherRepo, by simpa using running, noConfig⟩) may

/-- **Each actor creates the runs that it owes**, if the calls on which they depend are answered. -/
theorem program_due (actor : TriggerActor) :
    actor.program.Obeys (dueProtocol actor) (fun _ owed => owed = []) [] := by
  cases actor with
  | event request =>
    refine Prog.obeys_bind.mpr ((admissionAllows_due request).mono ?_)
    rintro (- | -) - rfl
    · rfl
    · refine find_due rfl fun answer => ?_
      cases answer with
      | none => rfl
      | some discovery => exact runPipelines_due request _ _ _
  | manual request wanted =>
    refine Prog.obeys_bind.mpr ((admissionAllows_due request).mono ?_)
    rintro (- | -) - rfl
    · rfl
    · refine find_due rfl fun answer => ?_
      cases answer with
      | none => rfl
      | some discovery =>
        simp only [TriggerActor.due, Option.elim]
        cases manualConfig wanted discovery.pipelineFiles with
        | none => rfl
        | some config =>
          refine ask_due rfl fun _ _ =>
            Prog.obeys_bind.mpr ((runPipeline_due request _ _ _).mono ?_)
          rintro known - rfl
          rfl
  | retry request =>
    refine Prog.obeys_bind.mpr ?_
    have ended : (retryPipelineImpl request).run.Obeys (dueProtocol (.retry request))
        (fun _ owed => owed = []) [] := by
      unfold retryPipelineImpl
      cases isTenant : validateTenant request.header request.tenantId with
      | error status => rfl
      | ok callerTenant =>
        dsimp only
        split_ifs
        · rfl
        · refine find_due rfl fun answer => ?_
          rcases answer with e | - | original
          · rfl
          · rfl
          · exact retryFound_due isTenant original
    exact ended
  | retention before => exact ask_due rfl fun _ _ => rfl

/-- The runs that thread `i` asks the store to create, in order. -/
def createdBy (i : ℕ) (trace : List (ℕ × TriggerEvent)) : List PipelineRun :=
  trace.filterMap fun entry => if entry.1 = i then entry.2.op.creates else none

/-- The texts of the runs that are due to thread `i`, in order. -/
def dueBy (limits : Option TenantLimits) (actor : TriggerActor) (i : ℕ)
    (trace : List (ℕ × TriggerEvent)) : List String :=
  trace.flatMap fun entry =>
    if entry.1 = i then actor.due entry.2.op (entry.2.answer (triggerHandle limits)) else []

/-- **What is due has been created or is still owed.** -/
theorem due_eq_created_append {limits : Option TenantLimits} {trace : List (ℕ × TriggerEvent)}
    (conforms : Conforms (triggerHandle limits) (dueProtocol actor) i owed trace) :
    owed ++ dueBy limits actor i trace = (createdBy i trace).map PipelineRun.yamlContent ++
      phaseAfter (triggerHandle limits) (dueProtocol actor) i owed trace := by
  induction trace generalizing owed with
  | nil => exact append_nil owed
  | cons entry trace ih =>
    obtain ⟨j, event⟩ := entry
    rw [dueBy, flatMap_cons, ← dueBy, createdBy, filterMap_cons, phaseAfter]
    by_cases own : j = i
    · obtain ⟨permitted, later⟩ := (conforms_cons_self own).mp conforms
      rw [if_pos own, if_pos own, if_pos own]
      dsimp only at permitted later ⊢
      cases creates : event.op.creates with
      | none =>
        simp only [dueProtocol, creates] at later ⊢
        rw [← append_assoc, ih later]
        rfl
      | some run =>
        obtain ⟨owed, rfl⟩ := head?_eq_some_iff.mp (permitted run creates)
        simp only [dueProtocol, creates, tail_cons] at later ⊢
        rw [due_of_creates creates, nil_append, map_cons, cons_append, cons_append, ih later]
        rfl
    · rw [if_neg own, if_neg own, if_neg own, nil_append]
      exact ih ((conforms_cons_of_ne own).mp conforms)

/-- A call to a store that works is answered, if a run that it creates is new. -/
theorem works_of_new {limits : Option TenantLimits} {event : TriggerEvent}
    (works : event.decision.storeFailure = none)
    (isNew : ∀ run ∈ event.op.creates, newRun? event = some run) :
    event.op.Works (event.answer (triggerHandle limits)) := by
  obtain ⟨before, moment, op⟩ := event
  have reached : moment.storeFailure = none := works
  cases op with
  | createRun run =>
    obtain ⟨-, accepted⟩ := Option.filter_eq_some_iff.mp (isNew run rfl)
    have fits : ¬ before.Clashes run := by simpa [reached] using accepted
    refine ⟨run.id, ?_⟩
    simp [Event.answer, triggerHandle, orFailure, reached, TenantWorld.createRun, fits]
  | upsertPipeline pipeline =>
    refine ⟨(), ?_⟩
    simp [Event.answer, triggerHandle, orFailure, reached]
  | nextRunNumber pipelineId =>
    refine ⟨before.nextRunNumber pipelineId, ?_⟩
    simp [Event.answer, triggerHandle, orFailure, reached]
  | _ => trivial

end Due

/-! ### Numbers that are safe -/

/-- The newest run of the pipeline is still stored: every number ever given to the pipeline is at
most a stored one. -/
def NewestStored (world : TenantWorld) (pipelineId : String) : Prop :=
  ∀ entry ∈ world.created, entry.2.pipelineId = pipelineId →
    ∃ row ∈ world.runs.rows, row.pipelineId = pipelineId ∧ entry.2.runNumber ≤ row.runNumber
deriving Decidable

/-- **A run that is about to be created has a safe number**: when the number was read the newest run
of the pipeline was stored, and no run of the pipeline has been created since. -/
def NumberCurrent (limits : Option TenantLimits) (earlier : List (ℕ × TriggerEvent))
    (entry : ℕ × TriggerEvent) : Prop :=
  ∀ run ∈ entry.2.op.creates,
    ∀ found ∈ lastRead (triggerHandle limits) readNumber entry.1 earlier,
      NewestStored found.2.1.before run.pipelineId ∧
        ∀ other ∈ found.2.2, ∀ new ∈ newRun? other.2, new.pipelineId ≠ run.pipelineId
deriving Decidable

/-- The generated id of a run that is about to be created is not in use. -/
def FreshId (event : TriggerEvent) : Prop :=
  ∀ run ∈ event.op.creates, ∀ row ∈ event.before.runs.rows, row.id ≠ run.id
deriving Decidable

/-- No number has been given twice, and the stored numbers are among those given. -/
structure WellNumbered (world : TenantWorld) : Prop where
  distinct : world.numbers.Nodup
  given : ∀ number ∈ world.storedNumbers, number ∈ world.numbers

theorem lt_nextRunNumber {world : TenantWorld} (stored : row ∈ world.runs.rows) :
    row.runNumber < world.nextRunNumber row.pipelineId := by
  have mem : row.runNumber ∈ (world.runs.rows.filter fun run =>
      run.pipelineId = row.pipelineId).map PipelineRun.runNumber :=
    mem_map_of_mem (mem_filter.mpr ⟨stored, by simp⟩)
  unfold TenantWorld.nextRunNumber
  simp only
  split
  next largest isMax => exact Nat.lt_succ_of_le ((max?_eq_some_iff.mp isMax).2 _ mem)
  next isNone => grind

theorem readNumber_spec {check : TriggerEvent}
    (isRead : readNumber check.op (check.answer (triggerHandle limits)) =
    some (pipelineId, runNumber)) : runNumber = check.before.nextRunNumber pipelineId ∧
      check.after (triggerHandle limits) = check.before := by
  obtain ⟨before, moment, op⟩ := check
  cases op with
  | nextRunNumber p =>
    simp only [Event.answer, Event.after, triggerHandle, orFailure] at isRead ⊢
    cases failure : moment.storeFailure with
    | some reason =>
      rw [failure] at isRead
      cases isRead
    | none =>
      rw [failure] at isRead
      obtain ⟨rfl, rfl⟩ := Prod.mk.inj (Option.some.inj isRead)
      exact ⟨rfl, rfl⟩
  | _ => cases isRead

section Runs

variable {limits : Option TenantLimits} {world : TenantWorld} {actors : List TriggerActor}
  {schedule : List (ℕ × TriggerMoment)} {earlier later : List (ℕ × TriggerEvent)} {i : ℕ}
  {event : TriggerEvent} {run : PipelineRun}

section

variable (split : (triggerPool world actors).trace (triggerHandle limits) schedule = earlier ++
    (i, event) :: later)
include split

theorem number_of_lastRead (asks : event.op.creates = some run) :
    ∃ check since, lastRead (triggerHandle limits) readNumber i earlier =
      some ((run.pipelineId, run.runNumber), check, since) := by
  have tracks : ∀ phase op answer, (numberProtocol.next phase op answer).number =
      (readNumber op answer).or phase.number := by
    intro phase op answer
    simp only [numberProtocol]
    cases readNumber op answer <;> rfl
  obtain ⟨⟨number, building⟩, permitted, remembers⟩ :=
    Pool.permits_lastRead readNumber BuildPhase.number tracks (fun _ _ _ => trivial)
      (forall_mem_map.mpr fun actor _ => triggerActors_number actor) split
  have isRead : number = some (run.pipelineId, run.runNumber) := by
    obtain ⟨before, moment, op⟩ := event
    cases op with
    | createRun run' =>
      cases asks
      cases building with
      | true => exact permitted
      | false => cases permitted
    | _ => cases asks
  rw [Option.or_none] at remembers
  obtain ⟨⟨value, check, since⟩, found, rfl⟩ :=
    Option.map_eq_some_iff.mp (remembers.symm.trans isRead)
  exact ⟨check, since, found⟩

/-- **A safe number has not been given before.** -/
theorem not_mem_numbers_of_current (asks : event.op.creates = some run)
    (current : NumberCurrent limits earlier (i, event)) :
    (run.pipelineId, run.runNumber) ∉ event.before.numbers := by
  obtain ⟨check, since, found⟩ := number_of_lastRead split asks
  obtain ⟨newest, undisturbed⟩ := current run asks _ found
  obtain ⟨isNext, unchanged⟩ := readNumber_spec (lastRead_split found).2
  have chained := split ▸ Pool.trace_chained (triggerPool world actors) schedule
  -- all numbers of the pipeline are below the one that was read, from the read on
  have below : ∀ entry ∈ event.before.created, entry.2.pipelineId = run.pipelineId →
      entry.2.runNumber < run.runNumber := by
    refine chained.since_lastRead (P := fun world => ∀ entry ∈ world.created,
      entry.2.pipelineId = run.pipelineId → entry.2.runNumber < run.runNumber) found ?_ ?_
    · intro entry isCreated samePipeline
      rw [unchanged] at isCreated
      obtain ⟨row, stored, rowPipeline, atMost⟩ := newest entry isCreated samePipeline
      rw [isNext]
      exact lt_of_le_of_lt atMost (rowPipeline ▸ lt_nextRunNumber stored)
    · intro other isSince before entry isCreated samePipeline
      rw [created_after limits other.2] at isCreated
      rcases mem_append.mp isCreated with old | new
      · exact before entry old samePipeline
      · obtain ⟨other', isNew, rfl⟩ : ∃ new, newRun? other.2 = some new ∧
            (other.2.decision.now, new) = entry := by simpa using new
        exact absurd samePipeline (undisturbed other isSince other' isNew)
  intro given
  obtain ⟨entry, isCreated, same⟩ := mem_map.mp given
  obtain ⟨samePipeline, sameNumber⟩ := Prod.mk.inj same
  exact absurd sameNumber (ne_of_lt (below entry isCreated samePipeline))

end

theorem WellNumbered.after (wellNumbered : WellNumbered event.before)
    (isNew : ∀ run ∈ newRun? event, (run.pipelineId, run.runNumber) ∉ event.before.numbers) :
    WellNumbered (event.after (triggerHandle limits)) := by
  cases creates : newRun? event with
  | none =>
    obtain ⟨sameCreated, stored⟩ := after_of_newRun_none limits creates
    have sameNumbers : (event.after (triggerHandle limits)).numbers = event.before.numbers :=
      congrArg (map _) sameCreated
    refine ⟨sameNumbers ▸ wellNumbered.distinct, fun number isStored => ?_⟩
    exact sameNumbers ▸ wellNumbered.given number (stored number isStored)
  | some run =>
    obtain ⟨fits, isAfter⟩ := after_of_newRun limits creates
    have numbers : (event.before.insertRun event.decision.now run fits).numbers =
        event.before.numbers ++ [(run.pipelineId, run.runNumber)] := map_append
    have storedNumbers : (event.before.insertRun event.decision.now run fits).storedNumbers =
        event.before.storedNumbers ++ [(run.pipelineId, run.runNumber)] := map_append
    rw [isAfter]
    constructor
    · rw [numbers, nodup_append]
      refine ⟨wellNumbered.distinct, nodup_singleton _, fun old isOld new isLast same => ?_⟩
      obtain rfl := mem_singleton.mp isLast
      exact isNew run creates (same ▸ isOld)
    · intro number isStored
      rw [storedNumbers] at isStored
      rw [numbers]
      rcases mem_append.mp isStored with old | new
      · exact mem_append_left _ (wellNumbered.given number old)
      · exact mem_append_right _ new

end Runs

theorem newRun_of_fresh (wellNumbered : WellNumbered event.before)
    (asks : event.op.creates = some run) (works : event.decision.storeFailure = none)
    (freshId : FreshId event) (isNew : (run.pipelineId, run.runNumber) ∉ event.before.numbers) :
    newRun? event = some run := by
  have fits : ¬ event.before.Clashes run := by
    rintro ⟨row, stored, sameId | ⟨samePipeline, sameNumber⟩⟩
    · exact freshId run asks row stored sameId
    · refine isNew (wellNumbered.given _ (mem_map.mpr ⟨row, stored, ?_⟩))
      rw [samePipeline, sameNumber]
  exact Option.filter_eq_some_iff.mpr ⟨asks, by simpa using ⟨works, fits⟩⟩

def manualOn (branch : String) : TriggerActor :=
  .manual ⟨"tenant", "repo", "sha", "refs/heads/" ++ branch, .manual "user"⟩ none

def ciMoment (uuid : String) : TriggerMoment where
  uuid := uuid
  discovery := some
    { pipelineFiles := [⟨"yaml", some
        { name := "ci", jobs := [("build", {})], jobsNodup := nodup_singleton _, steps := [] }⟩]
      knownPipelines := [⟨"pipeline", "ci"⟩] }

def worldOf (runs : RunTable) : TenantWorld where
  runs := runs
  dailyCounts _ := 0
  lastTrigger _ := none
  created := runs.rows.map fun run => (run.createdAt, run)

def finishedRun : PipelineRun :=
  { PipelineRun.new "old" 0 "pipeline" "tenant" "repo" 1 "sha" "refs/heads/main"
    (.manual "user") "yaml" with state := .succeeded }

end Muli
