/-
**How the executor treats one step row.**

The executor takes up each step run once: it reads the row, and unless the row is skipped or
cancelled it goes on to overwrite it several times. `executorProtocol` follows these calls for one
row, whatever the store answers.

* `execute_adheres` — **the executor adheres to the protocol of every row**, whatever others write
  in between: each pass over a level takes up each of its step runs once.
-/

import Muli.Interaction.Typestate
import Muli.Pipeline.Forecast

namespace Muli

open Graph Interaction List Prod

/-! ### Phases -/

inductive RowPhase where
  /-- It has not called anything on the row. -/
  | untouched
  /-- It is at work on the row, and no read showed the row cancelled. -/
  | active
  /-- It is at work on the row although a read showed the row cancelled. -/
  | stale
  /-- It will not come back to the row. -/
  | closed
deriving DecidableEq, Repr

namespace RowPhase

def read : RowPhase → Except MuliError (Option StepRun) → RowPhase
  | untouched, .error _ => closed
  | untouched, .ok row => if row.map StepRun.state = some .cancelled then closed else active
  | active, .ok row => if row.map StepRun.state = some .cancelled then stale else active
  | phase, _ => phase

def write : RowPhase → Option StepRunState → RowPhase
  | active, some .cancelled => closed
  | phase, _ => phase

def Fresh (phase : RowPhase) : Prop := phase = untouched ∨ phase = active

def InHand (phase : RowPhase) : Prop := phase = active ∨ phase = stale

variable {phase : RowPhase} {row : Option StepRun}

theorem write_none (phase : RowPhase) : phase.write none = phase := by
  cases phase <;> rfl

theorem write_ne_stale (notStale : phase ≠ stale) : phase.write state ≠ stale := by
  unfold write
  split
  · exact nofun
  · exact notStale

theorem read_of_fresh (fresh : phase.Fresh) (live : row.map StepRun.state ≠ some .cancelled) :
    phase.read (.ok row) = active := by
  rcases fresh with rfl | rfl <;> exact if_neg live

section

variable (inHand : phase.InHand)
include inHand

theorem InHand.read : (phase.read (.ok row)).InHand := by
  rcases inHand with rfl | rfl
  · show InHand (if _ then _ else _)
    split_ifs
    · exact .inr rfl
    · exact .inl rfl
  · exact .inr rfl

theorem InHand.read_cancelled
    (cancelled : row.map StepRun.state = some .cancelled) : phase.read (.ok row) = stale := by
  rcases inHand with rfl | rfl
  · exact if_pos cancelled
  · rfl

theorem InHand.write (live : state ≠ .cancelled) :
    (phase.write (some state)).InHand := by
  rcases inHand with rfl | rfl
  · cases state <;> first | exact .inl rfl | exact absurd rfl live
  · exact .inr rfl

theorem InHand.ne_closed : phase ≠ closed := by
  rcases inHand with rfl | rfl <;> decide

theorem InHand.ne_untouched : phase ≠ untouched := by
  rcases inHand with rfl | rfl <;> decide

end

theorem Fresh.ne_closed (fresh : phase.Fresh) : phase ≠ closed := by
  rcases fresh with rfl | rfl <;> decide

end RowPhase

/-! ### The protocol -/

/-- A row that is found has the id it was asked for. -/
def FindsRow : (op : DagOp) → op.Answer → Prop
  | .getStep id, .ok (some step) => step.id = id
  | _, _ => True

/-- The executor writes the row of its own run only, and never as cancelled. -/
def RunCall (runId : String) : DagOp → Prop
  | .updateRun run => run.id = runId ∧ run.state ≠ .cancelled
  | _ => True

def rowNext (id : String) : RowPhase → (op : DagOp) → op.Answer → RowPhase
  | phase, .getStep id', answer => if id' = id then phase.read answer else phase
  | phase, op, _ => phase.write (written id op)

/-- **The protocol of the executor for one step row:** the first call on the row reads it, and there
is no call on a closed row. -/
def executorProtocol (runId id : String) : Protocol Dag RowPhase where
  expects := FindsRow
  permits phase op := RunCall runId op ∧
    (OnRow id op → (phase = .untouched → op = .getStep id) ∧ phase ≠ .closed)
  next := rowNext id

theorem dagHandle_meets (runId id : String) :
    Handler.Meets dagHandle (executorProtocol runId id) := by
  intro moment op world
  cases op with
  | getStep id =>
    show FindsRow (.getStep id) (stored moment world (.ok (world.steps.find id)) world).1
    rcases stored_cases moment world (.ok (world.steps.find id)) world with ⟨e, failed⟩ | answered
    · rw [failed]
      exact trivial
    · rw [answered]
      cases found : world.steps.find id with
      | none => exact trivial
      | some step => exact Table.find_key found
  | _ => exact trivial

theorem rowNext_of_not_onRow {id : String} (op : DagOp) (off : ¬ OnRow id op) (phase : RowPhase)
    (answer : op.Answer) : rowNext id phase op answer = phase := by
  have unwritten : phase.write (written id op) = phase := by
    rw [written_eq_none op off]
    exact phase.write_none
  cases op with
  | getStep id' => exact if_neg off
  | _ => exact unwritten

/-- A part of the executor takes up the row (`hit`) and leaves it in a phase with `ok`, or leaves
its phase alone. -/
def Turn (hit : Prop) (ok : RowPhase → Prop) (phase phase' : RowPhase) : Prop :=
  (hit → ok phase') ∧ (¬ hit → phase' = phase)

variable {ok ok' : RowPhase → Prop} {phase phase' phase'' : RowPhase} {hit : Prop}

theorem Turn.trans (first : Turn hit ok phase phase') (second : Turn hit ok' phase' phase'') :
    Turn hit ok' phase phase'' :=
  ⟨second.1, fun off => (second.2 off).trans (first.2 off)⟩

theorem Turn.weaken (turn : Turn hit ok phase phase') (weaker : hit → ok phase' → ok' phase') :
    Turn hit ok' phase phase' :=
  ⟨fun isHit => weaker isHit (turn.1 isHit), turn.2⟩

theorem Turn.either {hit hit' : Prop}
    (first : Turn hit ok phase phase') (second : Turn hit' ok' phase' phase'') :
    Turn (hit ∨ hit') (fun _ => True) phase phase'' :=
  ⟨fun _ => trivial, fun off =>
    (second.2 fun isHit => off (.inr isHit)).trans (first.2 fun isHit => off (.inl isHit))⟩

theorem Turn.refl {ok : RowPhase → Prop} (holds : hit → ok phase) :
    Turn hit ok phase phase := ⟨holds, fun _ => rfl⟩

namespace DagExecutor

variable {runId id : String} {phase : RowPhase}

/-! ### The calls -/

theorem permits_of_inHand (runCall : RunCall runId op) (held : OnRow id op → phase.InHand) :
    (executorProtocol runId id).permits phase op :=
  ⟨runCall, fun onRow => ⟨fun untouched => absurd untouched (held onRow).ne_untouched,
    (held onRow).ne_closed⟩⟩

/-- A part of the executor is one turn at the row. -/
def TakesTurn {α : Type} (runId id : String) (p : DagM α) (hit : Prop) (ok : RowPhase → Prop)
    (phase : RowPhase) : Prop :=
  Adheres (executorProtocol runId id) p (fun _ phase' => Turn hit ok phase phase') phase

variable {id' : String}

theorem getStep_adheres (ready : id' = id → phase ≠ .closed) :
    Adheres (executorProtocol runId id) (getStep id') (fun row phase' =>
      (∀ step, row = some step → step.id = id') ∧
        Turn (id' = id) (· = phase.read (.ok row)) phase phase') phase := by
  refine ⟨⟨trivial, fun onRow => ⟨fun _ => congrArg DagOp.getStep onRow, ready onRow⟩⟩, ?_⟩
  rintro answer finds row rfl
  refine ⟨?_, fun same => if_pos same, fun other => if_neg other⟩
  rintro step rfl
  exact finds

theorem updateStep_adheres (held : step.id = id → phase.InHand) :
    TakesTurn runId id (updateStep step) (step.id = id)
    (· = phase.write (some step.state)) phase := by
  refine ⟨permits_of_inHand trivial held, fun answer _ _ _ => ⟨fun same => ?_, fun other => ?_⟩⟩
  · show phase.write (if step.id = id then _ else _) = _
    rw [if_pos same]
  · exact rowNext_of_not_onRow (.updateStep step) other phase answer

variable {state : StepRunState}

theorem updateStepState_adheres (held : id' = id → phase.InHand) :
    TakesTurn runId id (updateStepState id' state) (id' = id)
    (· = phase.write (some state)) phase := by
  refine ⟨permits_of_inHand trivial held, fun answer _ _ _ => ⟨fun same => ?_, fun other => ?_⟩⟩
  · show phase.write (if id' = id then _ else _) = _
    rw [if_pos same]
  · exact rowNext_of_not_onRow (.updateStepState id' state) other phase answer

theorem submit_adheres (held : job.spec.pipelineStepRunId = some id → phase.InHand) :
    Adheres (executorProtocol runId id) (submit job) (fun _ phase' => phase' = phase) phase := by
  exact .lift ⟨permits_of_inHand trivial held, fun _ _ => phase.write_none⟩

theorem obeys_call {α : Type} (op : DagOp) (runCall : RunCall runId op) (off : ¬ OnRow id op)
    {next : op.Answer → Prog Dag α} {post : α → RowPhase → Prop}
    (rest : ∀ answer, (next answer).Obeys (executorProtocol runId id) post phase) :
    (Prog.call (I := Dag) op next).Obeys (executorProtocol runId id) post phase := by
  refine ⟨permits_of_inHand runCall fun onRow => absurd onRow off, fun answer _ => ?_⟩
  show (next answer).Obeys _ post (rowNext id phase op answer)
  rw [rowNext_of_not_onRow op off]
  exact rest answer

theorem newUuid_keeps : Keeps (executorProtocol runId id) newUuid :=
  fun _ => Adheres.lift (obeys_call .newUuid trivial not_false fun _ => rfl)

theorem utcNow_keeps : Keeps (executorProtocol runId id) utcNow :=
  fun _ => Adheres.lift (obeys_call .now trivial not_false fun _ => rfl)

theorem getJob_keeps (jobId : String) : Keeps (executorProtocol runId id) (getJob jobId) :=
  fun _ => obeys_call (.getJob jobId) trivial not_false fun _ _ _ => rfl

theorem updateRun_keeps {run : PipelineRun} (ofRun : run.id = runId)
    (live : run.state ≠ .cancelled) : Keeps (executorProtocol runId id) (updateRun run) :=
  fun _ => obeys_call (.updateRun run) ⟨ofRun, live⟩ not_false fun _ _ _ => rfl

theorem waitForJob_keeps (jobId : String) (deadline : Timestamp) (polls attempt : ℕ) :
    Keeps (executorProtocol runId id)
      (ExceptT.lift (waitForJob jobId deadline polls attempt) : DagM (Option JobState)) := by
  refine fun phase => .lift ?_
  induction polls generalizing attempt with
  | zero => exact rfl
  | succ polls ih =>
    refine obeys_call (.checkDeadline jobId attempt deadline) trivial not_false fun expired => ?_
    split_ifs
    · exact rfl
    · refine obeys_call (.pollJob jobId attempt) trivial not_false fun answer => ?_
      match answer with
      | .ok (some job) =>
        show Prog.Obeys _ (if job.state.isTerminal = true then _ else _) _ _
        split_ifs
        · exact rfl
        · exact ih (attempt + 1)
      | .ok none => exact rfl
      | .error _ => exact ih (attempt + 1)

/-! ### Work on one step run -/

theorem rewriteStep_adheres (held : id' = id → phase.InHand)
    (sameId : ∀ step changedAt updatedAt, (change step changedAt updatedAt).id = step.id)
    (writes : ∀ step changedAt updatedAt, (change step changedAt updatedAt).state = state)
    (otherwise : ∀ phase : RowPhase, (id' = id → phase.InHand) →
      TakesTurn runId id missing (id' = id)
      (fun phase => state ≠ .cancelled → phase.InHand) phase) :
    TakesTurn runId id (rewriteStep id' change missing) (id' = id)
      (fun phase => state ≠ .cancelled → phase.InHand) phase := by
  refine .andThen (getStep_adheres fun same => (held same).ne_closed) ?_
  rintro row phase' ⟨isRow, turn⟩
  have held' : id' = id → phase'.InHand := fun same => turn.1 same ▸ (held same).read
  cases row with
  | none => exact (otherwise phase' held').mono fun _ _ turn' => turn.trans turn'
  | some step =>
    have sameRow : ∀ changedAt updatedAt, (change step changedAt updatedAt).id = id' :=
      fun _ _ => (sameId ..).trans (isRow step rfl)
    refine utcNow_keeps.andThen fun changedAt => utcNow_keeps.andThen fun updatedAt => ?_
    refine (updateStep_adheres fun onRow => held' ((sameRow ..).symm.trans onRow)).mono ?_
    intro _ phase'' turn'
    rw [sameRow] at turn'
    refine turn.trans (turn'.weaken fun same isWrite live => ?_)
    rw [isWrite, writes]
    exact (held' same).write live

theorem overwrite_adheres (held : id' = id → phase.InHand) :
    TakesTurn runId id (updateStepState id' state) (id' = id)
    (fun phase => state ≠ .cancelled → phase.InHand) phase := by
  refine (updateStepState_adheres held).mono fun _ _ turn => turn.weaken fun same isWrite live => ?_
  rw [isWrite]
  exact (held same).write live

variable {sr : StepRun}

section

variable (held : sr.id = id → phase.InHand)
include held

theorem startStep_adheres :
    TakesTurn runId id (startStep sr substeps) (sr.id = id) RowPhase.InHand phase := by
  refine .mono (rewriteStep_adheres held (fun _ _ _ => rfl) (fun _ _ _ => rfl) ?_) ?_
  · exact fun _ held' => overwrite_adheres held'
  · exact fun _ _ turn => turn.weaken fun _ inHand => inHand (by decide)

theorem failSubmission_adheres {e : MuliError} :
    TakesTurn runId id (failSubmission sr e) (sr.id = id) RowPhase.InHand phase := by
  refine .mono (rewriteStep_adheres held (fun _ _ _ => rfl) (fun _ _ _ => rfl) ?_) ?_
  · exact fun _ held' => overwrite_adheres held'
  · exact fun _ _ turn => turn.weaken fun _ inHand => inHand (by decide)

theorem finishStep_adheres :
    TakesTurn runId id (finishStep sr stepState errorMessage) (sr.id = id)
    (fun _ => True) phase := by
  refine .mono (rewriteStep_adheres held (fun _ _ _ => rfl) (fun _ _ _ => rfl) ?_) ?_
  · exact fun _ held' => .pure (.refl fun same _ => held' same)
  · exact fun _ _ turn => turn.weaken fun _ _ => trivial

theorem linkJob_adheres :
    TakesTurn runId id (linkJob sr jobId) (sr.id = id) RowPhase.InHand phase := by
  refine .andThen (getStep_adheres fun same => (held same).ne_closed) ?_
  rintro row phase' ⟨isRow, turn⟩
  have held' : sr.id = id → phase'.InHand := fun same => turn.1 same ▸ (held same).read
  cases row with
  | none => exact .pure (turn.trans (.refl held'))
  | some step =>
    have sameRow : step.id = sr.id := isRow step rfl
    refine utcNow_keeps.andThen fun updatedAt => ?_
    refine .mono (updateStep_adheres fun onRow => held' (sameRow.symm.trans onRow)) ?_
    intro _ phase'' turn'
    simp only [sameRow] at turn'
    refine turn.trans (turn'.weaken fun same isWrite => ?_)
    rw [isWrite]
    by_cases live : step.state = .cancelled
    · have stale : phase' = .stale :=
        (turn.1 same).trans ((held same).read_cancelled (congrArg some live))
      rw [stale]
      exact .inr rfl
    · exact (held' same).write live

end

def Names (stepRuns : List StepRun) (id name : String) : Prop :=
  ∃ sr, stepRunMap stepRuns name = some sr ∧ sr.id = id

variable {executor : DagExecutor} {pipeline : PipelineDef} {plan : DagPlan} {run : PipelineRun}
  {stepRuns : List StepRun} {name : String}

theorem names_iff (known : stepRunMap stepRuns name = some sr) :
    Names stepRuns id name ↔ sr.id = id := by
  constructor
  · rintro ⟨sr', known', same⟩
    obtain rfl := Option.some.inj (known.symm.trans known')
    exact same
  · exact fun same => ⟨sr, known, same⟩

theorem not_names (unknown : stepRunMap stepRuns name = none) : ¬ Names stepRuns id name := by
  rintro ⟨sr, known, -⟩
  exact Option.some_ne_none sr (known.symm.trans unknown)

theorem submitRun_adheres (fresh : Names stepRuns id srName → phase.Fresh) :
    Adheres (executorProtocol runId id) (executor.submitRun pipeline plan run stepRuns orig srName)
      (fun outcome phase' => Turn (Names stepRuns id srName)
        (fun phase => (∃ jobId, outcome = .submitted jobId) → phase.InHand) phase phase')
        phase := by
  unfold submitRun
  cases known : stepRunMap stepRuns srName with
  | none => exact .pure (.refl fun hit => absurd hit (not_names known))
  | some sr =>
    simp only [names_iff known] at fresh ⊢
    refine .andThen (getStep_adheres fun same => (fresh same).ne_closed) ?_
    rintro current phase' ⟨-, turn⟩
    have passes : Adheres (executorProtocol runId id) (pure .passed : DagM SubmitOutcome)
        (fun outcome phase'' => Turn (sr.id = id)
          (fun phase => (∃ jobId, outcome = .submitted jobId) → phase.InHand) phase phase'')
        phase' := by
      refine .pure (turn.weaken fun _ _ => ?_)
      rintro ⟨_, ⟨⟩⟩
    split_ifs with stays
    · exact passes
    · have held : sr.id = id → phase'.InHand := fun same =>
        .inl ((turn.1 same).trans (RowPhase.read_of_fresh (fresh same) fun read =>
          stays (.inr read)))
      cases built : executor.buildFn pipeline plan run stepRuns orig srName with
      | none => exact passes
      | some spec =>
        have isFor : spec.pipelineStepRunId = some sr.id := by
          unfold buildFn at built
          split_ifs at built
          rw [known] at built
          exact congrArg JobSpec.pipelineStepRunId (Option.some.inj built).symm
        refine newUuid_keeps.andThen fun uuid => utcNow_keeps.andThen fun createdAt => ?_
        refine .andThen (startStep_adheres held) fun _ phase'' started => ?_
        refine .andThen (submit_adheres fun onRow => started.1 ?_) ?_
        · exact Option.some.inj (isFor.symm.trans onRow)
        rintro answer _ rfl
        cases answer with
        | ok jobId =>
          refine .andThen (linkJob_adheres started.1) fun _ _ linked => ?_
          exact .pure ((turn.trans (started.trans linked)).weaken
            fun _ inHand _ => inHand)
        | error e =>
          refine .andThen (failSubmission_adheres started.1) fun _ _ failed => ?_
          exact .pure ((turn.trans (started.trans failed)).weaken
            fun _ inHand _ => inHand)

/-! ### The passes over a level -/

def Hits (stepRuns : List StepRun) (id : String) (names : List String) : Prop :=
  ∃ name ∈ names, Names stepRuns id name

theorem not_hits_nil : ¬ Hits stepRuns id [] := by
  rintro ⟨_, ⟨⟩, -⟩

theorem hits_cons : Hits stepRuns id (name :: names) ↔ Names stepRuns id name ∨
    Hits stepRuns id names :=
  exists_mem_cons_iff ..

variable {names names' : List String}

theorem hits_append :
    Hits stepRuns id (names ++ names') ↔ Hits stepRuns id names ∨ Hits stepRuns id names' := by
  simp only [Hits, mem_append, or_and_right, exists_or]

theorem Hits.of_sublist (hits : Hits stepRuns id names)
    (sub : names.Sublist names') : Hits stepRuns id names' := by
  obtain ⟨name, mem, isName⟩ := hits
  exact ⟨name, sub.subset mem, isName⟩

section Passes

variable (unique : ∀ name name', Names stepRuns id name → Names stepRuns id name' → name = name')
include unique

theorem Hits.apart (once : (names ++ names').Nodup)
    (hits : Hits stepRuns id names) : ¬ Hits stepRuns id names' := by
  rintro ⟨name', mem', isName'⟩
  obtain ⟨name, mem, isName⟩ := hits
  exact (nodup_append.mp once).2.2 name mem name' mem' (unique name name' isName isName')

/-- **The submission pass** leaves the row in hand if its job was submitted. -/
theorem submitLevel_adheres (once : (pairs.map snd).Nodup)
    (fresh : Hits stepRuns id (pairs.map snd) → phase.Fresh) :
    Adheres (executorProtocol runId id) (executor.submitLevel pipeline plan run stepRuns pairs)
      (fun result phase' => (result.1.map fst).Sublist (pairs.map snd) ∧
        Turn (Hits stepRuns id (pairs.map snd))
          (fun phase => Hits stepRuns id (result.1.map fst) → phase.InHand) phase phase')
          phase := by
  induction pairs generalizing phase with
  | nil => exact .pure ⟨.slnil, .refl fun hits => absurd hits not_hits_nil⟩
  | cons pair pairs ih =>
    obtain ⟨orig, srName⟩ := pair
    simp only [map_cons, hits_cons] at once fresh ⊢
    have apart : Names stepRuns id srName → ¬ Hits stepRuns id (pairs.map snd) :=
      fun isName => Hits.apart unique once ⟨srName, mem_singleton.mpr rfl, isName⟩
    refine .andThen (submitRun_adheres fun isName => fresh (.inl isName)) ?_
    intro outcome phase' turn
    have fresh' : Hits stepRuns id (pairs.map snd) → phase'.Fresh := by
      intro hits
      rw [turn.2 fun isName => apart isName hits]
      exact fresh (.inr hits)
    refine .andThen (ih once.of_cons fresh') ?_
    rintro ⟨submitted, hadFailure, hadStop⟩ phase'' ⟨sub, turn'⟩
    -- the row is hit here and left alone afterwards, or hit later
    have both : Turn (Names stepRuns id srName ∨ Hits stepRuns id (pairs.map snd))
        (fun phase => (Names stepRuns id srName ∧ ∃ jobId, outcome = .submitted jobId) ∨
          Hits stepRuns id (submitted.map fst) → phase.InHand) phase phase'' := by
      refine ⟨?_, fun off => ?_⟩
      · rintro - (⟨isName, isSubmitted⟩ | hits)
        · rw [turn'.2 (apart isName)]
          exact turn.1 isName isSubmitted
        · exact turn'.1 (hits.of_sublist sub) hits
      · exact (turn'.2 fun hits => off (.inr hits)).trans (turn.2 fun isName => off (.inl isName))
    cases outcome with
    | submitted jobId => grind [Adheres.pure, hits_cons]
    | _ => exact .pure ⟨sub.cons _, both.weaken fun _ held hits => held (.inr hits)⟩

omit unique in
theorem failureMessage_keeps (jobId : String) (stepState : StepRunState) :
    Keeps (executorProtocol runId id) (failureMessage jobId stepState) := by
  unfold failureMessage
  split_ifs
  · exact (getJob_keeps jobId).bind fun _ => .pure _
  · exact .pure _

variable {deadline : Timestamp}

/-- **The wait** needs the rows of its jobs in hand. -/
theorem waitLevel_adheres (once : (submitted.map fst).Nodup)
    (held : Hits stepRuns id (submitted.map fst) → phase.InHand) :
    TakesTurn runId id (executor.waitLevel stepRuns deadline submitted)
      (Hits stepRuns id (submitted.map fst)) (fun _ => True) phase := by
  induction submitted generalizing phase with
  | nil => exact .pure (.refl fun _ => trivial)
  | cons entry submitted ih =>
    obtain ⟨stepName, jobId⟩ := entry
    simp only [map_cons, hits_cons] at once held ⊢
    unfold waitLevel
    cases known : stepRunMap stepRuns stepName with
    | none =>
      simp only [not_names known, false_or] at held ⊢
      exact ih once.of_cons held
    | some sr =>
      simp only [names_iff known] at held ⊢
      refine (waitForJob_keeps jobId deadline _ _).andThen fun jobState => ?_
      refine (failureMessage_keeps jobId _).andThen fun errorMessage => ?_
      refine .andThen (finishStep_adheres fun same => held (.inl same)) ?_
      intro _ phase' turn
      have held' : Hits stepRuns id (submitted.map fst) → phase'.InHand := by
        intro hits
        have other : sr.id ≠ id := fun same => Hits.apart unique once
          ⟨stepName, mem_singleton.mpr rfl, (names_iff known).mpr same⟩ hits
        rw [turn.2 other]
        exact held (.inr hits)
      refine .andThen (ih once.of_cons held') ?_
      rintro ⟨hadFailure, hadStop⟩ phase'' turn'
      split_ifs <;> exact .pure (turn.either turn')

omit unique in
theorem cancelRun_adheres (fresh : Names stepRuns id name → phase.Fresh) :
    TakesTurn runId id (cancelRun stepRuns name) (Names stepRuns id name)
    (fun _ => True) phase := by
  unfold cancelRun
  cases known : stepRunMap stepRuns name with
  | none => exact .pure (.refl fun _ => trivial)
  | some sr =>
    simp only [names_iff known] at fresh ⊢
    refine .andThen (getStep_adheres fun same => (fresh same).ne_closed) ?_
    rintro row phase' ⟨-, turn⟩
    cases row with
    | none => exact .pure (turn.weaken fun _ _ => trivial)
    | some step =>
      show Adheres _ (if _ then _ else _) _ _
      split_ifs with terminal
      · exact .pure (turn.weaken fun _ _ => trivial)
      · -- a row that has not ended is not cancelled
        have live : (some step).map StepRun.state ≠ some .cancelled := by
          intro cancelled
          rw [Option.some.inj cancelled] at terminal
          exact terminal rfl
        have held : sr.id = id → phase'.InHand := fun same =>
          .inl ((turn.1 same).trans (RowPhase.read_of_fresh (fresh same) live))
        refine .mono (updateStepState_adheres held) fun _ _ turn' => ?_
        exact turn.trans (turn'.weaken fun _ _ => trivial)

theorem cancelRun_forM_adheres (once : names.Nodup) (fresh : Hits stepRuns id names → phase.Fresh) :
    TakesTurn runId id (names.forM (cancelRun stepRuns)) (Hits stepRuns id names)
    (fun _ => True) phase := by
  induction names generalizing phase with
  | nil => exact .pure (.refl fun _ => trivial)
  | cons name names ih =>
    simp only [hits_cons] at fresh ⊢
    refine .andThen (cancelRun_adheres fun isName => fresh (.inl isName)) ?_
    intro _ phase' turn
    have fresh' : Hits stepRuns id names → phase'.Fresh := by
      intro hits
      have other : ¬ Names stepRuns id name := fun isName =>
        Hits.apart unique once ⟨name, mem_singleton.mpr rfl, isName⟩ hits
      rw [turn.2 other]
      exact fresh (.inr hits)
    exact (ih once.of_cons fresh').mono fun _ _ turn' => turn.either turn'

/-! ### The levels -/

omit unique in
theorem map_snd_levelRunPairs (level : List String) : (levelRunPairs plan stepRuns level).map snd =
      level.flatMap (originalToRuns stepRuns plan.names) := by
  unfold levelRunPairs
  rw [map_flatMap]
  simp [Function.comp_def]

/-- **The loop over the levels** takes up each row once. -/
theorem executeDagLevels_adheres
    (once : (levels.flatMap fun level => level.flatMap (originalToRuns stepRuns plan.names)).Nodup)
    (fresh : Hits stepRuns id (levels.flatMap fun level =>
      level.flatMap (originalToRuns stepRuns plan.names)) → phase.Fresh)
    (hadFailure hadStopFailure : Bool) : Adheres (executorProtocol runId id)
      (executor.executeDagLevels pipeline plan run stepRuns deadline levels hadFailure
        hadStopFailure) (fun _ _ => True) phase := by
  induction levels generalizing phase hadFailure hadStopFailure with
  | nil => exact .pure trivial
  | cons level levels ih =>
    rw [flatMap_cons] at once fresh
    simp only [hits_append] at fresh
    obtain ⟨onceHere, onceLater, -⟩ := nodup_append.mp once
    -- a level that hits the row leaves nothing for the later ones
    have goOn : ∀ (phase' : RowPhase) (ok : RowPhase → Prop),
        Turn (Hits stepRuns id (level.flatMap (originalToRuns stepRuns plan.names))) ok phase
          phase' → Hits stepRuns id (levels.flatMap fun level =>
            level.flatMap (originalToRuns stepRuns plan.names)) → phase'.Fresh := by
      intro phase' ok turn hits
      rw [turn.2 fun here => Hits.apart unique once here hits]
      exact fresh (.inr hits)
    cases hadStopFailure with
    | true =>
      refine .andThen (cancelRun_forM_adheres unique onceHere
        fun hits => fresh (.inl hits)) fun _ _ turn => ?_
      exact ih onceLater (goOn _ _ turn) _ _
    | false =>
      rw [← map_snd_levelRunPairs] at onceHere fresh goOn
      refine .andThen (submitLevel_adheres unique onceHere
        fun hits => fresh (.inl hits)) ?_
      rintro ⟨submitted, submitFailed, submitStop⟩ phase' ⟨sub, turn⟩
      refine .andThen (waitLevel_adheres unique (onceHere.sublist sub)
        fun hits => turn.1 (hits.of_sublist sub) hits) ?_
      rintro ⟨waitFailed, waitStop⟩ phase'' turn'
      refine ih onceLater (goOn phase'' (fun _ => True) ⟨fun _ => trivial, fun off => ?_⟩) _ _
      exact (turn'.2 fun hits => off (hits.of_sublist sub)).trans (turn.2 off)

end Passes

/-! ### The skips -/

variable {fails : StepRun → Bool}

theorem skipRun_adheres (skipped : fails sr = true → sr.id = id → phase = .active) :
    Adheres (executorProtocol runId id) (skipRun fails sr)
    (fun _ phase' => phase' = phase) phase := by
  unfold skipRun
  split_ifs with isSkipped
  · have held : sr.id = id → phase.InHand := fun same => .inl (skipped isSkipped same)
    refine .mono (updateStepState_adheres held) fun _ phase' turn => ?_
    by_cases same : sr.id = id
    · rw [turn.1 same, skipped isSkipped same]
      rfl
    · exact turn.2 same
  · exact .pure rfl

theorem skipRun_forM_adheres {items : List StepRun}
    (skipped : ∀ sr ∈ items, fails sr = true → sr.id = id → phase = .active) :
    Adheres (executorProtocol runId id) (items.forM (skipRun fails))
      (fun _ phase' => phase' = phase) phase := by
  induction items with
  | nil => exact .pure rfl
  | cons sr items ih =>
    refine .andThen (skipRun_adheres (skipped sr mem_cons_self)) ?_
    rintro _ _ rfl
    exact ih fun sr' mem => skipped sr' (.tail _ mem)

theorem markRunStarted_adheres :
    Adheres (executorProtocol run.id id) (markRunStarted run) (fun started phase' =>
      started.id = run.id ∧ makeExprCtx started = makeExprCtx run ∧
        started.trigger = run.trigger ∧ phase' = phase) phase := by
  refine utcNow_keeps.andThen fun startedAt => utcNow_keeps.andThen fun updatedAt => ?_
  refine Keeps.andThen (updateRun_keeps rfl nofun) fun _ => ?_
  exact .pure ⟨rfl, rfl, rfl, rfl⟩

theorem computeFinalState_ne_cancelled (hadFailure hadStopFailure : Bool) :
    computeFinalState hadFailure hadStopFailure ≠ .cancelled := by
  cases hadFailure <;> cases hadStopFailure <;> decide

theorem finalizeRun_keeps (hadFailure hadStopFailure : Bool) :
    Keeps (executorProtocol run.id id) (finalizeRun run hadFailure hadStopFailure) := by
  refine utcNow_keeps.bind fun finishedAt => utcNow_keeps.bind fun updatedAt => ?_
  refine .bind (updateRun_keeps rfl ?_) fun _ => .pure _
  exact computeFinalState_ne_cancelled hadFailure hadStopFailure

end DagExecutor

open DagExecutor

namespace Execution

variable (execution : Execution)

/-! ### The whole run -/

/-- A step run whose condition or path filter fails is in the executor's hands from the start: it is
skipped without a look at its row. -/
def rowStart (id : String) : RowPhase :=
  if ∃ sr ∈ execution.stepRuns, sr.id = id ∧ execution.skips sr = true then .active else .untouched

theorem rowStart_fresh (id : String) : (execution.rowStart id).Fresh := by
  unfold rowStart
  split_ifs
  · exact .inr rfl
  · exact .inl rfl

variable {execution} {id : String}

theorem exists_of_rowStart (active : execution.rowStart id = .active) :
    ∃ sr ∈ execution.stepRuns, sr.id = id ∧ execution.skips sr = true := by
  unfold rowStart at active
  split_ifs at active with skipped
  exact skipped

theorem rowStart_of_live (live : ∀ sr ∈ execution.stepRuns, sr.id = id →
    execution.skips sr = false) : execution.rowStart id = .untouched := by
  apply if_neg
  rintro ⟨sr, mem, same, skipped⟩
  rw [live sr mem same] at skipped
  cases skipped

theorem rowStart_of_skips (mem : sr ∈ execution.stepRuns) (same : sr.id = id)
    (skipped : execution.skips sr = true) : execution.rowStart id = .active :=
  if_pos ⟨sr, mem, same, skipped⟩

theorem mem_of_stepRunMap (known : stepRunMap stepRuns name = some sr) :
    sr ∈ stepRuns ∧ sr.stepName = name :=
  ⟨mem_reverse.mp (mem_of_find?_eq_some known), by simpa using find?_some known⟩

theorem names_unique (name name' : String) (isName : DagExecutor.Names execution.stepRuns id name)
    (isName' : DagExecutor.Names execution.stepRuns id name') : name = name' := by
  obtain ⟨sr, known, same⟩ := isName
  obtain ⟨sr', known', same'⟩ := isName'
  obtain ⟨mem, rfl⟩ := mem_of_stepRunMap known
  obtain ⟨mem', rfl⟩ := mem_of_stepRunMap known'
  rw [execution.eq_of_id mem mem' (same.trans same'.symm)]

theorem nodup_taken : (execution.levels.flatMap fun level =>
    level.flatMap (originalToRuns execution.stepRuns execution.pipeline.plan.names)).Nodup := by
  have asNames : (execution.levels.flatMap fun level =>
      level.flatMap (originalToRuns execution.stepRuns execution.pipeline.plan.names)) =
      (execution.levelRuns execution.levels.flatten).map StepRun.stepName := by
    unfold levelRuns
    rw [map_flatMap, PipelineDef.plan_names, flatten_eq_flatMap, flatMap_assoc]
    rfl
  rw [asNames]
  refine (nodup_levelRuns_of_nodup nodup_flatten_levels).map_on fun sr mem sr' mem' same => ?_
  exact inj_on_of_nodup_map execution.namesNodup (levelRuns_subset mem)
    (levelRuns_subset mem') same

theorem evaluateConditions_adheres {run : PipelineRun}
    (sameContext : makeExprCtx run = makeExprCtx execution.run) :
    Adheres (executorProtocol execution.run.id id)
      (execution.executor.evaluateConditions execution.pipeline.plan run execution.stepRuns)
      (fun _ phase' => phase' = execution.rowStart id) (execution.rowStart id) := by
  refine skipRun_forM_adheres fun sr mem fails same => ?_
  apply rowStart_of_skips mem same
  have fails' : execution.executor.failsCondition execution.pipeline.plan execution.run
      sr = true := by
    unfold failsCondition at fails ⊢
    rwa [sameContext] at fails
  simp [skips, fails']

theorem evaluateJobPaths_adheres {run : PipelineRun}
    (sameTrigger : run.trigger = execution.run.trigger) :
    Adheres (executorProtocol execution.run.id id)
      (execution.executor.evaluateJobPaths execution.pipeline.plan run execution.stepRuns)
      (fun _ phase' => phase' = execution.rowStart id) (execution.rowStart id) := by
  unfold evaluateJobPaths
  rw [sameTrigger]
  cases paths : changedPathsForTrigger execution.run.trigger with
  | none => exact .pure rfl
  | some changedPaths =>
    refine skipRun_forM_adheres fun sr mem fails same => ?_
    exact rowStart_of_skips mem same (by simp [skips, paths, fails])

/-- **The executor adheres to the protocol of every step row.** -/
theorem execute_adheres (execution : Execution) (id : String) :
      Adheres (executorProtocol execution.run.id id)
      (execution.executor.execute execution.pipeline execution.run execution.stepRuns)
      (fun _ _ => True) (execution.rowStart id) := by
  rw [execute_eq]
  apply Adheres.andThen markRunStarted_adheres
  rintro run _ ⟨sameId, sameContext, sameTrigger, rfl⟩
  refine .andThen (evaluateConditions_adheres sameContext) ?_
  rintro _ _ rfl
  refine .andThen (evaluateJobPaths_adheres sameTrigger) ?_
  rintro _ _ rfl
  refine utcNow_keeps.andThen fun startedAt => ?_
  rw [PipelineDef.plan_deps]
  refine .andThen (executeDagLevels_adheres names_unique nodup_taken
    (fun _ => execution.rowStart_fresh id) false false) ?_
  rintro ⟨hadFailure, hadStopFailure⟩ phase -
  rw [← sameId]
  exact (finalizeRun_keeps hadFailure hadStopFailure phase).mono fun _ _ _ => trivial

end Execution

end Muli
