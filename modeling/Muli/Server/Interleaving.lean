/-
**Concurrent actors and the job state machine.**

Any number of actors (`executeJob`, `handleCancelJob`, `assignJobs`, `reportJobResult`, the
watchdog) interleave call by call on one store.

* `tame_updateJob` — **why most overwrites are harmless.** Every actor overwrites with a state the
  job was in before (its own compare-and-swap, or a read, put it there). Edges climb, so the
  overwrite obeys the law exactly if the job is still in that state, and a terminal state it still
  is in.
* `statesFollowEdges_iff` — every run obeys the law, and keeps terminal states, **exactly** when
  each overwrite with a non-terminal state finds the job still in it.
-/

import Muli.Server.Actors

namespace Muli

open Interaction Option JobTable SqliteJobStore

variable {σ : Type} (store : JobStore σ) (abs : σ → JobTable)

/-! ### The law -/

def stateAt (world : World σ) (id : String) : Option JobState := (abs world.store).stateOf id

/-- A stored state moves along one edge. -/
def StateEdge (before after : Option JobState) : Prop :=
  ∃ source target, before = some source ∧ after = some target ∧ source.canTransitionTo target

/-- **Every stored state stays or moves along an edge.** -/
def FollowsEdges (before after : World σ) : Prop :=
  ∀ id, stateAt abs after id = stateAt abs before id ∨
    StateEdge (stateAt abs before id) (stateAt abs after id)

def Lawful (event : Event Server (World σ) Moment) : Prop :=
  FollowsEdges abs event.before (event.after (handle store))

/-- **An overwrite with a non-terminal state finds the job in that state.** (No demand on the other
calls, nor on an overwrite that fails.) -/
def FreshWrite (event : Event Server (World σ) Moment) : Prop :=
  match event.op with
  | .updateJob job => event.decision.storeFailure = none → ¬ job.state.isTerminal →
      stateAt abs event.before job.id = some job.state
  | _ => True

/-- What the other actors may have done in the meantime. -/
def Progress (before after : World σ) : Prop :=
  ∀ id, Relation.ReflTransGen StateEdge (stateAt abs before id) (stateAt abs after id)

instance : Std.Refl (Progress abs) := ⟨fun _ _ => .refl⟩

instance : IsTrans (World σ) (Progress abs) :=
  ⟨fun _ _ _ first second id => (first id).trans (second id)⟩

variable {store abs} {before after : World σ}

theorem FollowsEdges.progress (follows : FollowsEdges abs before after) :
    Progress abs before after := by
  intro id
  rcases follows id with same | edge
  · rw [same]
  · exact .single edge

variable {state : JobState}

theorem StateEdge.moves {after : Option JobState}
    (edges : Relation.ReflTransGen StateEdge (some state) after) :
    ∃ target, after = some target ∧ state.Moves target := by
  induction edges with
  | refl => exact ⟨state, rfl, .refl⟩
  | tail _ edge ih =>
    obtain ⟨middle, rfl, moves⟩ := ih
    obtain ⟨_, target, ⟨⟩, rfl, step⟩ := edge
    exact ⟨target, rfl, moves.tail step⟩

/-- The job has been in the state and has since moved along edges only. -/
def HasBeen (abs : σ → JobTable) (world : World σ) (id : String) (state : JobState) : Prop :=
  ∃ current, stateAt abs world id = some current ∧ state.Moves current

variable {id : String}

theorem HasBeen.progress (been : HasBeen abs before id state) (moved : Progress abs before after) :
    HasBeen abs after id state := by
  obtain ⟨current, now, moves⟩ := been
  obtain ⟨later, then', moves'⟩ := StateEdge.moves (now ▸ moved id)
  exact ⟨later, then', moves.trans moves'⟩

/-! ### What a call does to the stored states -/

/-- What a compare-and-swap answers and leaves: an error and the same store, or the job moved along
an edge. -/
def Swaps (abs : σ → JobTable) (world : World σ) (id : String) (source target : JobState)
    (result : Except MuliError Unit × World σ) : Prop :=
  ((∃ error, result.1 = .error error) ∧ result.2.store = world.store) ∨
    (result.1 = .ok () ∧ stateAt abs world id = some source ∧ source.canTransitionTo target ∧
      ∀ other, stateAt abs result.2 other = if other = id then some target
      else stateAt abs world other)

theorem swaps_updateState (refines : store.Refines abs) (moment : Moment) (world : World σ)
    (id : String) (source target : JobState) :
    Swaps abs world id source target
    (handle store moment (.updateState id source target) world) := by
  simp only [handle, storeCall]
  cases moment.storeFailure with
  | some reason => exact .inl ⟨⟨_, rfl⟩, rfl⟩
  | none =>
    have performs := refines.updateState moment.now id source target world.store
    cases swap : (abs world.store).cas moment.now id source target with
    | none =>
      rw [swap] at performs
      exact .inl ⟨performs.1, performs.2⟩
    | some jobs =>
      rw [swap] at performs
      obtain ⟨job, found, inSource, edge, rfl⟩ := cas_eq_some.mp swap
      obtain rfl : job.id = id := Table.find_key found
      have stored : (abs world.store).stateOf job.id = some source := by
        simp [stateOf, found, inSource]
      refine .inr ⟨performs.1, stored, edge, fun other => ?_⟩
      show (abs (store.updateState moment.now job.id source target world.store).2).stateOf _ = _
      rw [performs.2]
      refine stateOf_put _ ?_ other
      exact stored ▸ some_ne_none source

theorem updateJob_cases (refines : store.Refines abs) (moment : Moment) (world : World σ)
    (job : Job) : ((moment.storeFailure ≠ none ∨ stateAt abs world job.id = none) ∧
      (handle store moment (.updateJob job) world).2.store = world.store) ∨
      (moment.storeFailure = none ∧
      stateAt abs world job.id ≠ none ∧
      ∀ other, stateAt abs (handle store moment (.updateJob job) world).2 other =
        if other = job.id then some job.state else stateAt abs world other) := by
  simp only [handle, storeCall]
  cases moment.storeFailure with
  | some reason => exact .inl ⟨.inl (some_ne_none _), rfl⟩
  | none =>
    have performs := refines.updateJob job world.store
    cases found : (abs world.store).find job.id with
    | none =>
      rw [overwrite, found] at performs
      exact .inl ⟨.inr (map_eq_none_iff.mpr found), performs.2⟩
    | some old =>
      rw [overwrite, found] at performs
      have known : (abs world.store).stateOf job.id ≠ none := by simp [stateOf, found]
      refine .inr ⟨rfl, known, fun other => ?_⟩
      show (abs (store.updateJob job world.store).2).stateOf other = _
      rw [performs.2]
      exact stateOf_put job known other

theorem followsEdges_of_store_eq (same : after.store = before.store) :
    FollowsEdges abs before after := by
  intro id
  left
  rw [stateAt, same]
  rfl

theorem updateState_followsEdges (refines : store.Refines abs) (moment : Moment) (world : World σ)
    (id : String) (source target : JobState) :
    FollowsEdges abs world (handle store moment (.updateState id source target) world).2 := by
  rcases swaps_updateState refines moment world id source target with ⟨-, same⟩ | ⟨-, stored,
    edge, after⟩
  · exact followsEdges_of_store_eq same
  · intro other
    rw [after]
    by_cases isId : other = id
    · subst isId
      exact .inr ⟨source, target, stored, if_pos rfl, edge⟩
    · exact .inl (if_neg isId)

/-! ### Rules for one actor among others -/

/-- From `world` on, with the others making progress in between, every call of the program obeys the
law exactly if it is fresh. -/
def Tame (store : JobStore σ) (abs : σ → JobTable) {α : Type} (p : Prog Server α)
    (world : World σ) : Prop :=
  p.Guarded (handle store) (Progress abs)
    (fun event => Lawful store abs event ↔ FreshWrite abs event) (Lawful store abs)
    (fun _ _ => True) world

variable {α β : Type} {world : World σ}

theorem tame_pure : Tame store abs (pure value) world := trivial

theorem tame_bind {p : Prog Server α} {f : α → Prog Server β}
    (first : Tame store abs p world) (second : ∀ value world', Tame store abs (f value) world') :
    Tame store abs (p >>= f) world :=
  Prog.guarded_bind.mpr (first.mono fun value world' _ => second value world')

theorem tame_forM {items : List β} {f : β → Prog Server PUnit}
    (each : ∀ item world', Tame store abs (f item) world') :
    Tame store abs (items.forM f) world := by
  induction items generalizing world with
  | nil => exact tame_pure
  | cons item items ih => exact tame_bind (each item world) fun _ _ => ih

theorem tame_call (notWrite : ∀ job, op ≠ .updateJob job)
    (lawful : ∀ moment world', FollowsEdges abs world' (handle store moment op world').2)
    (goOn : ∀ moment world', Progress abs world world' →
      Progress abs world (handle store moment op world').2 →
      Tame store abs (next (handle store moment op world').1) (handle store moment op world').2) :
    Tame store abs (call op >>= next) world := by
  intro world' moved moment
  have fresh : FreshWrite abs ⟨world', moment, op⟩ := by
    unfold FreshWrite
    split
    · next job isWrite => exact absurd isWrite (notWrite job)
    · trivial
  refine ⟨⟨fun _ => fresh, fun _ => lawful moment world'⟩, fun _ => goOn moment world' moved ?_⟩
  exact IsTrans.trans _ _ _ moved (lawful moment world').progress

theorem tame_getJob (refines : store.Refines abs)
    (failed : ∀ error world', Tame store abs (next (.error error)) world')
    (missing : ∀ world', Tame store abs (next (.ok none)) world')
    (found : ∀ job world', job.id = id → Progress abs world world' → stateAt abs world' id =
      some job.state → Tame store abs (next (.ok (some job))) world') :
    Tame store abs (call (.getJob id) >>= next) world := by
  refine tame_call (fun _ => by simp) (fun moment world' => ?_) fun moment world' _ moved => ?_
  · apply followsEdges_of_store_eq
    simp only [handle, storeCall]
    split <;> rfl
  · simp only [handle, storeCall] at moved ⊢
    cases failure : moment.storeFailure with
    | some reason => exact failed _ _
    | none =>
      simp only [failure] at moved
      simp only [refines.getJob]
      cases stored : (abs world'.store).find id with
      | none => exact missing _
      | some job =>
        refine found job _ (Table.find_key stored) moved ?_
        simp [stateAt, stateOf, stored]

variable {next : Except MuliError Unit → Prog Server α}

theorem tame_updateState (refines : store.Refines abs)
    (failed : ∀ error world', Tame store abs (next (.error error)) world')
    (swapped : ∀ world', HasBeen abs world' id target → Tame store abs (next (.ok ())) world') :
    Tame store abs (call (.updateState id source target) >>= next) world := by
  refine tame_call (fun _ => by simp)
    (fun moment world' => updateState_followsEdges refines moment world' id source target)
    fun moment world' _ _ => ?_
  rcases answer : (handle store moment (.updateState id source target) world').1 with error | ok
  · exact failed error _
  · refine swapped _ ?_
    rcases swaps_updateState refines moment world' id source target with ⟨⟨_, refused⟩, -⟩ | ⟨-,
      -, -, after⟩
    · rw [answer] at refused
      cases refused
    · exact ⟨target, by rw [after, if_pos rfl], .refl⟩

theorem tame_quiet {next : op.Answer → Prog Server α} (notWrite : ∀ job, op ≠ .updateJob job)
    (same : ∀ moment world', (handle store moment op world').2.store = world'.store)
    (goOn : ∀ answer world', Progress abs world world' → Tame store abs (next answer) world') :
    Tame store abs (call op >>= next) world :=
  tame_call notWrite (fun moment world' => followsEdges_of_store_eq (same moment world'))
    fun _ _ _ moved => goOn _ _ moved

variable {job : Job}

/-- **An overwrite with a state the job has been in** obeys the law exactly if it is fresh: the job
cannot have an edge back, and a terminal state it has not left. -/
theorem tame_updateJob (refines : store.Refines abs) (been : HasBeen abs world job.id job.state)
    (goOn : ∀ answer world', Tame store abs (next answer) world') :
    Tame store abs (call (.updateJob job) >>= next) world := by
  intro world' moved moment
  refine ⟨?_, fun _ => goOn _ _⟩
  obtain ⟨current, stored, moves⟩ := been.progress moved
  rcases updateJob_cases refines moment world' job with ⟨failure, same⟩ | ⟨working, -, after⟩
  · have failure := failure.resolve_right fun missing => some_ne_none _ (stored.symm.trans missing)
    exact ⟨fun _ none => absurd none failure, fun _ => followsEdges_of_store_eq same⟩
  have back := (after job.id).trans (if_pos rfl)
  constructor
  · intro lawful _ _
    rcases lawful job.id with same | ⟨source, target, isSource, isTarget, edge⟩
    · rw [← same]
      exact back
    · rw [stored] at isSource
      cases isSource
      obtain rfl : job.state = target := some.inj (back.symm.trans isTarget)
      exact absurd edge moves.not_canTransitionTo
  · intro fresh other
    have unmoved : stateAt abs world' job.id = some job.state := by
      by_cases terminal : job.state.isTerminal
      · rw [stored, moves.eq_of_isTerminal terminal]
      · exact fresh working terminal
    refine .inl ((after other).trans ?_)
    by_cases isJob : other = job.id
    · simp_all
    · exact if_neg isJob

/-! ### The actors -/

section Actors

variable (refines : store.Refines abs)
include refines

theorem tame_settleJob {final : JobState} (isJob : job.id = id) :
    Tame store abs (settleJob id source final job result) world := by
  refine tame_updateState refines (fun _ _ => tame_pure) fun world' been => ?_
  refine tame_quiet (fun _ => by simp) (fun _ _ => rfl) fun finishedAt world'' moved => ?_
  refine tame_updateJob refines ?_ fun _ _ => tame_pure
  exact isJob ▸ been.progress moved

theorem tame_retryJob (isJob : job.id = id) : Tame store abs (retryJob id job delay) world := by
  refine tame_updateState refines (fun _ _ => tame_pure) fun world' been => ?_
  refine tame_quiet (fun _ => by simp) (fun _ _ => rfl) fun updatedAt world'' moved => ?_
  refine tame_updateJob refines (isJob ▸ been.progress moved) fun _ world'' => ?_
  exact tame_quiet (fun _ => by simp) (fun _ _ => rfl) fun _ _ _ => tame_pure

theorem tame_recordExecution (isJob : job.id = id) :
    Tame store abs (recordExecution policy id job outcome) world := by
  cases outcome with
  | ok result => exact tame_settleJob refines isJob
  | error error =>
    simp only [recordExecution]
    cases policy.shouldRetry error job.retryCount with
    | some delay => exact tame_retryJob refines isJob
    | none => exact tame_settleJob refines isJob

theorem tame_executeJob (policy : RetryPolicy) (id : String) (world : World σ) :
    Tame store abs (executeJob policy id) world := by
  refine tame_getJob refines (fun _ _ => tame_pure) (fun _ => tame_pure) fun job _ isJob _ _ => ?_
  refine tame_updateState refines (fun _ _ => tame_pure) fun _ _ => ?_
  refine tame_updateState refines (fun _ _ => tame_pure) fun _ _ => ?_
  exact tame_quiet (fun _ => by simp) (fun _ _ => rfl) fun _ _ _ =>
    tame_recordExecution refines isJob

theorem tame_handleCancelJob (header : Option String) (id : String) (world : World σ) :
    Tame store abs (handleCancelJob header id) world := by
  unfold handleCancelJob
  cases extractTenantId header with
  | error status => exact tame_pure
  | ok callerTenant =>
  cases validateNonEmpty "job_id" id 256 with
  | error status => exact tame_pure
  | ok _ =>
  refine tame_getJob refines (fun _ _ => tame_pure) (fun _ => tame_pure) fun job world' _ _ _ => ?_
  dsimp only
  cases verifyJobOwnership job callerTenant with
  | error status => exact tame_pure
  | ok _ =>
  by_cases terminal : job.state.isTerminal
  · simp only [terminal, if_true]
    exact tame_pure
  · simp only [terminal]
    refine tame_quiet (fun _ => by simp) (fun _ _ => rfl) fun _ _ _ => ?_
    exact tame_updateState refines (fun _ _ => tame_pure) fun _ _ => tame_pure

theorem tame_assignJobs (agentId : String) (available : ℕ) (world : World σ) :
    Tame store abs (assignJobs agentId available) world := by
  induction available generalizing world with
  | zero => exact tame_pure
  | succ available ih =>
    refine tame_quiet (fun _ => by simp) (fun _ _ => rfl) fun popped _ _ => ?_
    cases popped with
    | none => exact tame_pure
    | some scoredJob =>
      refine tame_getJob refines (fun _ _ => ih _) (fun _ => ih _) fun job _ isJob _ _ => ?_
      refine tame_updateState refines (fun _ _ => ?_) fun world' been => ?_
      · exact tame_quiet (fun _ => by simp) (fun _ _ => rfl) fun _ _ _ => ih _
      · refine tame_updateJob refines ?_ fun _ _ => tame_bind (ih _) fun _ _ => tame_pure
        exact isJob.symm ▸ been

theorem tame_recordReport (request : ReportJobResultRequest) (current final : JobState)
    (world : World σ) : Tame store abs (recordReport request current final) world := by
  refine tame_updateState refines (fun _ _ => tame_pure) fun _ _ => ?_
  refine tame_getJob refines (fun _ _ => tame_pure) (fun _ => tame_pure) fun job _ isJob _ now => ?_
  refine tame_updateJob refines ?_ fun _ _ => tame_pure
  exact ⟨job.state, isJob.symm ▸ now, .refl⟩

theorem tame_reportJobResult (request : ReportJobResultRequest) (world : World σ) :
    Tame store abs (reportJobResult request) world := by
  unfold reportJobResult
  cases validateNonEmpty "job_id" request.jobId 256 with
  | error status => exact tame_pure
  | ok _ =>
  cases validateNonEmpty "agent_id" request.agentId 256 with
  | error status => exact tame_pure
  | ok _ =>
  cases protoStateToCore request.finalState with
  | none => exact tame_pure
  | some final =>
  refine tame_getJob refines (fun _ _ => tame_pure) (fun _ => tame_pure) fun job world' _ _ _ => ?_
  simp only
  split
  · exact tame_pure
  split
  · exact tame_pure
  split
  · refine tame_updateState refines (fun _ _ => tame_pure) fun _ _ => ?_
    exact tame_recordReport refines request .running final _
  · exact tame_recordReport refines request job.state final _

theorem tame_checkStaleJobs (gracePeriod : ℕ) (world : World σ) :
    Tame store abs (checkStaleJobs gracePeriod) world := by
  refine tame_forM fun state _ => ?_
  refine tame_quiet (fun _ => by simp) (fun moment world' => ?_) fun listed _ _ => ?_
  · simp only [handle, storeCall]
    split <;> rfl
  · cases listed with
    | error error => exact tame_pure
    | ok jobs =>
      refine tame_forM fun job _ => ?_
      refine tame_quiet (fun _ => by simp) (fun _ _ => rfl) fun now _ _ => ?_
      by_cases recent : now < job.updatedAt + graceOf gracePeriod
      · simp only [recent, if_true]
        exact tame_pure
      · simp only [recent, if_false]
        exact tame_settleJob refines rfl

theorem tame_program (actor : Actor) (world : World σ) : Tame store abs actor.program world := by
  cases actor with
  | executeJob policy id => exact tame_executeJob refines policy id world
  | cancelJob header id =>
    exact tame_bind (tame_handleCancelJob refines header id world) fun _ _ => tame_pure
  | assignJobs agentId caps =>
    exact tame_bind (tame_assignJobs refines agentId _ world) fun _ _ => tame_pure
  | reportJobResult request =>
    exact tame_bind (tame_reportJobResult refines request world) fun _ _ => tame_pure
  | watchdog gracePeriod => exact tame_checkStaleJobs refines gracePeriod world

end Actors

/-! ### Whole runs -/

abbrev Run (σ : Type) := List (ℕ × Event Server (World σ) Moment)

def serve (store : JobStore σ) (actors : List Actor) (world : World σ)
    (schedule : List (ℕ × Moment)) : Run σ :=
  Pool.trace (handle store) ⟨actors.map Actor.program, world⟩ schedule

/-- **The state machine's law along a run:** every call moves stored states along edges only, and a
state that is terminal at one call is stored after every later one. -/
structure StatesFollowEdges (store : JobStore σ) (abs : σ → JobTable) (run : Run σ) : Prop where
  edges : ∀ event ∈ run, FollowsEdges abs event.2.before (event.2.after (handle store))
  absorbing : ∀ earlier event later, run = earlier ++ event :: later → ∀ id state,
    stateAt abs event.2.before id = some state → state.isTerminal →
    ∀ event' ∈ event :: later, stateAt abs (event'.2.after (handle store)) id = some state

theorem FollowsEdges.keeps (follows : FollowsEdges abs before after)
    (stored : stateAt abs before id = some state)
    (terminal : state.isTerminal) : stateAt abs after id = some state := by
  rcases follows id with same | ⟨source, target, isSource, -, edge⟩
  · exact same.trans stored
  · obtain rfl : source = state := some.inj (isSource.symm.trans stored)
    simp [JobState.canTransitionTo, terminal] at edge

/-- **For every list of actors and every schedule, the run follows the state machine exactly when
every overwrite with a non-terminal state finds the job still in that state.** -/
theorem statesFollowEdges_serve_iff (refines : store.Refines abs) (actors : List Actor)
    (world : World σ) (schedule : List (ℕ × Moment)) :
    StatesFollowEdges store abs (serve store actors world schedule) ↔
      ∀ event ∈ serve store actors world schedule, FreshWrite abs event.2 := by
  have guarded : Pool.Guarded (handle store) (Progress abs)
      (fun event => Lawful store abs event ↔ FreshWrite abs event) (Lawful store abs)
      ⟨actors.map Actor.program, world⟩ := by
    intro thread mem
    obtain ⟨actor, -, rfl⟩ := List.mem_map.mp mem
    exact tame_program refines actor world
  have exact' :=
    forall_trace_iff guarded (fun event lawful => FollowsEdges.progress lawful) schedule
  constructor
  · intro follows
    exact exact'.mp follows.edges
  · intro fresh
    have edges : ∀ event ∈ serve store actors world schedule, Lawful store abs event.2 :=
      exact'.mpr fresh
    refine ⟨edges, fun earlier event later split id state stored terminal => ?_⟩
    have chained : Chained (handle store) world (serve store actors world schedule) :=
      Pool.trace_chained ⟨actors.map Actor.program, world⟩ schedule
    rw [split] at chained edges
    refine fun event' mem => (chained.suffix.preserves
      (P := fun world' => stateAt abs world' id = some state) ?_ stored event' mem).2
    intro event' mem now
    exact FollowsEdges.keeps (edges event' (List.mem_append_right _ mem)) now terminal

def onePending : World SqliteJobStore where
  store := ⟨⟨[rowOf
    (Job.new "job" 0 { tenantId := "tenant", priorityTier := .free })], List.nodup_singleton _⟩,
    List.pairwise_singleton ..⟩
  queue := PriorityQueue.new.push (ScoredJob.new 0 "job" .free 0 "tenant") .free
  delayed := []

def assignAndCancel : List Actor :=
  [.assignJobs "agent" ⟨1, 0⟩, .cancelJob (some "tenant") "job"]

/-- The cancellation runs between the heartbeat's compare-and-swap and its overwrite. -/
def cancelInBetween : List (ℕ × Moment) :=
  [(0, { now := 1 }), (0, { now := 2 }), (0, { now := 3 }), (1, { now := 4 }), (1, { now := 5 }),
    (1, { now := 6 }), (0, { now := 7 })]

end Muli
