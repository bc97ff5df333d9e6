/-
**One collector at a time.**

The lock file is made in one step, but taking over a stale one is made of three: the file is judged
by its age, removed, and made again. A run that crashed is one that makes no further call.

* `oneCollector` — **under these two conditions at most one run that will still move is inside**,
  and no run removes the lock file of another one; two runs that judge the same file both get
  inside.
-/

import Muli.Interaction.CheckThenAct
import Muli.Registry.Oci.Collector

namespace Muli.Oci

open Interaction List Event

/-! ### The phases of a run -/

inductive LockPhase where
  | outside
  /-- There is a lock file. -/
  | blocked
  /-- The lock file is stale. -/
  | judged
  /-- The stale lock file is removed. -/
  | cleared
  | inside
  | ended
deriving DecidableEq

def LockPhase.next : LockPhase → (call : GcCall) → call.Answer → LockPhase
  | _, .tryCreateLock, .created => inside
  | outside, .tryCreateLock, .alreadyExists => blocked
  | _, .tryCreateLock, _ => ended
  | _, .isLockStale, true => judged
  | _, .isLockStale, false => ended
  | judged, .removeLock, _ => cleared
  | _, .removeLock, _ => ended
  | phase, _, _ => phase

def LockPhase.Permits : LockPhase → GcCall → Prop
  | phase, .storage _ => phase = inside
  | phase, .tryCreateLock => phase = outside ∨ phase = cleared
  | phase, .isLockStale => phase = blocked
  | phase, .removeLock => phase = judged ∨ phase = inside
  | phase, .createTenantDir => phase = outside
  | _, .finish _ => True

def lockProtocol : Protocol GcCalls LockPhase where
  expects _ _ := True
  permits := LockPhase.Permits
  next := LockPhase.next

theorem lockProtocol_meets (config : OciConfig) : (gcHandle config).Meets lockProtocol :=
  fun _ _ _ => trivial

abbrev StaysInside {ε α : Type} (p : ExceptT ε (Prog GcCalls) α) : Prop :=
  p.run.Within lockProtocol fun phase => phase = .inside

theorem inquire_staysInside (call : OciCall) : StaysInside (inquire (.storage call)) :=
  .exceptLift (.perform (fun _ isInside => isInside) fun _ _ isInside _ => isInside)

theorem collectManifestData_staysInside (result : List Bytes) (file : String × String) :
    StaysInside (collectManifestData result file) := by
  refine .exceptBind (inquire_staysInside _) fun answer => ?_
  cases answer <;> exact .pure _

theorem collectReferencedDigests_staysInside (config : GcConfig) :
    StaysInside (collectReferencedDigests config) := by
  refine .exceptBind (.exceptBind (inquire_staysInside _) fun answer => ?_) fun _ => .pure _
  cases answer with
  | error error => exact .pure _
  | ok files => exact .exceptFoldlM collectManifestData_staysInside _

theorem listAllBlobs_staysInside : StaysInside listAllBlobs := by
  refine .exceptBind (inquire_staysInside _) fun answer => ?_
  cases answer <;> exact .pure _

theorem deleteUnreferenced_staysInside (report : GcReport) (digest : String) :
    StaysInside (deleteUnreferenced report digest) := by
  refine .exceptBind (inquire_staysInside _) fun answer => ?_
  cases answer <;> exact .pure _

theorem measure_staysInside (sizes : List (String × ℕ)) (digest : String) :
    StaysInside (measure sizes digest) := by
  refine .exceptBind (inquire_staysInside _) fun answer => ?_
  cases answer <;> exact .pure _

theorem evict_staysInside (maxSizeBytes : ℕ) (sizes : List (String × ℕ)) (total : ℕ)
    (report : GcReport) : StaysInside (evict maxSizeBytes sizes total report) := by
  induction sizes generalizing total report with
  | nil => exact .pure _
  | cons blob sizes ih =>
    unfold evict
    split_ifs
    · exact .pure _
    · refine .exceptBind (inquire_staysInside _) fun answer => ?_
      cases answer <;> exact ih _ _

theorem runInner_staysInside (config : GcConfig) : StaysInside (runInner config) := by
  refine .exceptBind (collectReferencedDigests_staysInside config) fun _ => ?_
  refine .exceptBind listAllBlobs_staysInside fun listed => ?_
  refine .exceptBind (collectReferencedDigests_staysInside config) fun references => ?_
  refine .exceptBind (.exceptFoldlM deleteUnreferenced_staysInside _) fun report => ?_
  split_ifs
  · refine .exceptBind listAllBlobs_staysInside fun blobs => ?_
    refine .exceptBind (.exceptFoldlM measure_staysInside _) fun sizes => ?_
    dsimp only
    split_ifs
    · exact .pure _
    · exact evict_staysInside _ _ _ _
  · exact .pure _

theorem acquireLock_adheres :
    Adheres lockProtocol acquireLock (fun _ phase => phase = .inside) .outside := by
  refine .call rfl fun dir _ => ?_
  cases dir with
  | error error => exact .throw _
  | ok _ =>
    refine .call (.inl rfl) fun attempt _ => ?_
    cases attempt with
    | created => exact .pure rfl
    | io => exact .throw _
    | alreadyExists =>
      refine .call rfl fun stale _ => ?_
      cases stale with
      | false => exact .throw _
      | true =>
        refine .call (.inl rfl) fun _ _ => ?_
        refine .call (.inr rfl) fun attempt _ => ?_
        cases attempt with
        | created => exact .pure rfl
        | _ => exact .throw _

/-- **A run makes the calls that its phase permits.** -/
theorem collectorThread_obeys (config : GcConfig) :
    (collectorThread config).Obeys lockProtocol (fun _ _ => True) .outside := by
  have whole : Adheres lockProtocol (run config) (fun _ _ => True) .outside := by
    refine acquireLock_adheres.andThen ?_
    rintro _ _ rfl
    refine .andThen (.lift (runInner_staysInside config _ rfl)) ?_
    rintro result _ rfl
    refine .call (.inr rfl) fun _ _ => ?_
    exact fun _ _ => trivial
  refine Prog.obeys_bind.mpr (.mono whole fun outcome phase _ => ?_)
  exact ⟨trivial, fun _ _ => trivial⟩

/-! ### Who is inside -/

section Locks

variable (config : OciConfig)

def Inside (i : ℕ) (earlier : GcHistory) : Prop :=
  phaseAfter (gcHandle config) lockProtocol i .outside earlier = .inside

instance (i : ℕ) (earlier : GcHistory) : Decidable (Inside config i earlier) :=
  inferInstanceAs (Decidable (_ = _))

/-- What `isLockStale` answers where the lock file is stale. -/
def judgesStale : (call : GcCall) → call.Answer → Option Unit
  | .isLockStale, true => some ()
  | _, _ => none

def removesLock : GcCall → Bool
  | .removeLock => true
  | _ => false

theorem eq_removeLock (removes : removesLock call = true) : call = .removeLock := by
  cases call <;> first | rfl | cases removes

def createsLock : (call : GcCall) → call.Answer → Bool
  | .tryCreateLock, .created => true
  | _, _ => false

/-- No lock file was made since the run has judged the one it found. -/
def Undisturbed (i : ℕ) (earlier : GcHistory) : Prop :=
  ∃ found ∈ lastRead (gcHandle config) judgesStale i earlier, ∀ event ∈ found.2.2,
    createsLock event.2.op (event.2.answer (gcHandle config)) = false
deriving Decidable

/-- A lock file is judged stale where no run that still moves is inside. -/
def JudgesDead (earlier : GcHistory) (event : ℕ × Event GcCalls GcWorld GcMoment)
    (later : GcHistory) : Prop :=
  judgesStale event.2.op (event.2.answer (gcHandle config)) = some () →
    ∀ other ∈ later, ¬ Inside config other.1 earlier
deriving Decidable

/-- A lock file that was judged stale is removed before another one is made. -/
def RemovesJudged (earlier : GcHistory) (event : ℕ × Event GcCalls GcWorld GcMoment) : Prop :=
  removesLock event.2.op = true →
    phaseAfter (gcHandle config) lockProtocol event.1 .outside earlier = .judged →
    Undisturbed config event.1 earlier
deriving Decidable

/-- Two runs that are inside and still move are the same one. -/
def OneAtATime (earlier : GcHistory) (event : ℕ × Event GcCalls GcWorld GcMoment)
    (later : GcHistory) : Prop :=
  ∀ first ∈ event :: later, ∀ second ∈ event :: later,
    Inside config first.1 earlier → Inside config second.1 earlier → first.1 = second.1
deriving Decidable

/-- A run removes no lock file while another run that still moves is inside. -/
def SparesOthers (earlier : GcHistory) (event : ℕ × Event GcCalls GcWorld GcMoment)
    (later : GcHistory) : Prop :=
  removesLock event.2.op = true → ∀ other ∈ later, Inside config other.1 earlier → other.1 = event.1

/-! ### The invariant -/

/-- The run is inside and moves again. -/
def LiveInside (earlier later : GcHistory) (i : ℕ) : Prop :=
  Inside config i earlier ∧ ∃ event ∈ later, event.1 = i

/-- **What holds between two calls.** -/
structure LockInvariant (earlier later : GcHistory) (world : GcWorld) : Prop where
  locked : ∀ i, LiveInside config earlier later i → world.lock ≠ none
  alone : ∀ i j, LiveInside config earlier later i → LiveInside config earlier later j → i = j
  judged : ∀ i, phaseAfter (gcHandle config) lockProtocol i .outside earlier = .judged →
    Undisturbed config i earlier → ∀ j, ¬ LiveInside config earlier later j

variable {config} {earlier later : GcHistory}

theorem lockInvariant_of_none (none : ∀ i, ¬ LiveInside config earlier later i) :
    LockInvariant config earlier later world where
  locked i live := absurd live (none i)
  alone i _ live := absurd live (none i)
  judged _ _ _ := none

variable {event : Event GcCalls GcWorld GcMoment}

theorem LiveInside.of_concat (live : LiveInside config (earlier ++ [(j, event)]) later i)
    (wasInside : j = i → Inside config i (earlier ++ [(j, event)]) → Inside config i earlier) :
    LiveInside config earlier ((j, event) :: later) i := by
  obtain ⟨isInside, past, mem, own⟩ := live
  refine ⟨?_, past, .tail _ mem, own⟩
  by_cases same : j = i
  · exact wasInside same isInside
  · exact (phaseAfter_concat_of_ne same ..).symm.trans isInside

theorem Undisturbed.of_concat
    (readsNothing : j = i → judgesStale event.op (event.answer (gcHandle config)) = none)
    (undisturbed : Undisturbed config i (earlier ++ [(j, event)])) :
    Undisturbed config i earlier ∧
    createsLock event.op (event.answer (gcHandle config)) = false := by
  obtain ⟨found, isFound, since⟩ := undisturbed
  rw [lastRead_concat readsNothing] at isFound
  obtain ⟨old, isOld, rfl⟩ := Option.mem_map.mp isFound
  refine ⟨⟨old, isOld, fun past mem => since past (mem_append_left _ mem)⟩, ?_⟩
  exact since (j, event) (mem_append_right _ mem_cons_self)

variable (config) in
theorem tryCreateLock_cases (moment : GcMoment) (world : GcWorld) :
    world.lock = none ∧ gcHandle config moment .tryCreateLock world =
        (.created, { world with lock := some moment.now }) ∨
      ∃ attempt ≠ LockAttempt.created,
        gcHandle config moment .tryCreateLock world = (attempt, world) := by
  obtain ⟨store, lock⟩ := world
  obtain ⟨storage, works, now⟩ := moment
  cases lock with
  | some time => exact .inr ⟨.alreadyExists, by decide, rfl⟩
  | none =>
    cases works with
    | true => exact .inl ⟨rfl, rfl⟩
    | false => exact .inr ⟨.io, by decide, rfl⟩

variable (config) in
theorem isLockStale_cases (moment : GcMoment) (world : GcWorld) :
    ∃ stale, gcHandle config moment .isLockStale world = (stale, world) := by
  obtain ⟨store, lock⟩ := world
  cases lock <;> exact ⟨_, rfl⟩

theorem next_of_not_created {phase : LockPhase} (notCreated : attempt ≠ .created) :
    phase.next .tryCreateLock attempt ∉ [LockPhase.inside, .judged] := by
  cases attempt with
  | created => exact absurd rfl notCreated
  | _ => cases phase <;> decide

namespace LockInvariant

variable {earlier later : GcHistory} {i : ℕ} {event : Event GcCalls GcWorld GcMoment}

section

variable (inv : LockInvariant config earlier ((i, event) :: later) event.before)
include inv

theorem of_quiet
    (sameLock : (event.after (gcHandle config)).lock = event.before.lock)
    (judgesNothing : judgesStale event.op (event.answer (gcHandle config)) = none)
    (quiet : ∀ phase ∈ [LockPhase.inside, .judged],
      phaseAfter (gcHandle config) lockProtocol i .outside (earlier ++ [(i, event)]) = phase →
      phaseAfter (gcHandle config) lockProtocol i .outside earlier = phase) :
    LockInvariant config (earlier ++ [(i, event)]) later (event.after (gcHandle config)) := by
  have back : ∀ j, LiveInside config (earlier ++ [(i, event)]) later j →
      LiveInside config earlier ((i, event) :: later) j := by
    intro j live
    refine live.of_concat ?_
    rintro rfl isInside
    exact quiet .inside (by simp) isInside
  refine ⟨fun j live => ?_, fun j k first second => ?_, fun j isJudged undisturbed k live => ?_⟩
  · rw [sameLock]
    exact inv.locked j (back j live)
  · exact inv.alone j k (back j first) (back k second)
  · refine inv.judged j ?_ (undisturbed.of_concat fun _ => judgesNothing).1 k (back k live)
    by_cases own : i = j
    · simp_all
    · exact (phaseAfter_concat_of_ne own ..).symm.trans isJudged

theorem of_created
    (unlocked : event.before.lock = none) (locked : (event.after (gcHandle config)).lock ≠ none)
    (creates : createsLock event.op (event.answer (gcHandle config)) = true)
    (isInside : Inside config i (earlier ++ [(i, event)])) :
    LockInvariant config (earlier ++ [(i, event)]) later (event.after (gcHandle config)) := by
  have onlyOne : ∀ j, LiveInside config (earlier ++ [(i, event)]) later j → j = i := by
    intro j live
    by_contra other
    refine inv.locked j (live.of_concat fun own => ?_) unlocked
    exact absurd own.symm other
  refine ⟨fun _ _ => locked, fun j k first second => ?_, fun j isJudged undisturbed => ?_⟩
  · rw [onlyOne j first, onlyOne k second]
  · have other : i ≠ j := by
      rintro rfl
      exact absurd (isJudged.symm.trans isInside) (by decide)
    have createsNone := (undisturbed.of_concat fun own => absurd own other).2
    rw [creates] at createsNone
    cases createsNone

end

theorem of_alone (notInside : ¬ Inside config i (earlier ++ [(i, event)]))
    (alone : ∀ other ∈ later, Inside config other.1 earlier → other.1 = i) :
    LockInvariant config (earlier ++ [(i, event)]) later (event.after (gcHandle config)) := by
  refine lockInvariant_of_none fun j live => ?_
  have other : i ≠ j := by
    rintro rfl
    exact notInside live.1
  obtain ⟨isInside, past, mem, rfl⟩ := live
  refine other (alone past mem ?_).symm
  exact (phaseAfter_concat_of_ne other ..).symm.trans isInside

section

variable (inv : LockInvariant config earlier ((i, event) :: later) event.before)
include inv

theorem spares
    (removes : event.op = .removeLock)
    (permitted : lockProtocol.permits (phaseAfter (gcHandle config) lockProtocol i .outside earlier)
    event.op) (undisturbed : RemovesJudged config earlier (i, event)) :
    ∀ other ∈ later, Inside config other.1 earlier → other.1 = i := by
  intro other mem isInside
  have live : LiveInside config earlier ((i, event) :: later) other.1 :=
    ⟨isInside, other, .tail _ mem, rfl⟩
  rw [removes] at permitted
  rcases permitted with isJudged | own
  · refine absurd live (inv.judged i isJudged (undisturbed ?_ isJudged) other.1)
    rw [removes]
    rfl
  · exact inv.alone other.1 i live ⟨own, (i, event), .head _, rfl⟩

theorem step
    (permitted : lockProtocol.permits (phaseAfter (gcHandle config) lockProtocol i .outside earlier)
    event.op) (dead : JudgesDead config earlier (i, event) later)
    (undisturbed : RemovesJudged config earlier (i, event)) :
    LockInvariant config (earlier ++ [(i, event)]) later (event.after (gcHandle config)) := by
  have phase := phaseAfter_concat_self (H := gcHandle config) (P := lockProtocol) (i := i) .outside
    earlier event
  have removal := inv.spares
  obtain ⟨before, decision, call⟩ := event
  cases call with
  | tryCreateLock =>
    rcases tryCreateLock_cases config decision before with
      ⟨unlocked, created⟩ | ⟨attempt, notCreated, unchanged⟩
    · unfold answer at phase
      rw [created] at phase
      refine inv.of_created unlocked ?_ ?_ phase
      · grind [Event.after]
      · unfold answer
        rw [created]
        rfl
    · unfold answer at phase
      rw [unchanged] at phase
      refine inv.of_quiet ?_ rfl fun target mem same => ?_
      · unfold Event.after
        rw [unchanged]
      · have reached : LockPhase.next _ .tryCreateLock attempt = target := phase.symm.trans same
        exact absurd (reached ▸ mem) (next_of_not_created notCreated)
  | isLockStale =>
    obtain ⟨stale, unchanged⟩ := isLockStale_cases config decision before
    unfold answer at phase
    rw [unchanged] at phase
    cases stale with
    | true =>
      have notInside : ¬ Inside config i (earlier ++ [(i, ⟨before, decision, .isLockStale⟩)]) := by
        intro isInside
        have reached : LockPhase.judged = .inside := phase.symm.trans isInside
        cases reached
      refine of_alone notInside fun other mem isInside => absurd isInside (dead ?_ other mem)
      unfold answer
      rw [unchanged]
      rfl
    | false =>
      refine inv.of_quiet ?_ ?_ fun target mem same => ?_
      · unfold Event.after
        rw [unchanged]
      · unfold answer
        rw [unchanged]
        rfl
      · have reached : LockPhase.ended = target := phase.symm.trans same
        exact absurd (reached ▸ mem) (by decide)
  | removeLock =>
    refine of_alone (fun isInside => ?_) (removal rfl permitted undisturbed)
    rcases permitted with isJudged | isOwn
    · rw [isJudged] at phase
      have reached : LockPhase.cleared = .inside := phase.symm.trans isInside
      cases reached
    · rw [isOwn] at phase
      have reached : LockPhase.ended = .inside := phase.symm.trans isInside
      cases reached
  | _ => exact inv.of_quiet rfl rfl fun _ _ same => phase.symm.trans same

end

end LockInvariant

/-! ### Runs -/

section Runs

variable {runs : List GcConfig} {world : GcWorld} {schedule : List (ℕ × GcMoment)} (config) in
/-- The calls of some runs of the collector along a schedule. -/
def collectorTrace (runs : List GcConfig) (world : GcWorld) (schedule : List (ℕ × GcMoment)) :
    GcHistory :=
  Pool.trace (gcHandle config) ⟨runs.map collectorThread, world⟩ schedule

theorem collectorTrace_chained :
    Chained (gcHandle config) world (collectorTrace config runs world schedule) :=
  Pool.trace_chained ⟨runs.map collectorThread, world⟩ schedule

theorem permits_of_split
    (split : collectorTrace config runs world schedule = earlier ++ (i, event) :: later) :
    lockProtocol.permits (phaseAfter (gcHandle config) lockProtocol i .outside earlier)
    event.op := by
  have obey : ∀ p ∈ runs.map collectorThread, p.Obeys lockProtocol (fun _ _ => True) .outside := by
    intro p mem
    obtain ⟨run, -, rfl⟩ := mem_map.mp mem
    exact collectorThread_obeys run
  have isCall := split ▸ mem_append_right _ mem_cons_self
  have conforms : Conforms (gcHandle config) lockProtocol i .outside
      (collectorTrace config runs world schedule) :=
    Pool.conforms_of_forall (lockProtocol_meets config) obey (Pool.exists_thread isCall) schedule
  rw [split] at conforms
  exact conforms.permits_at

/-- **The invariant holds between any two calls.** -/
theorem lockInvariant_of_split
    (dead : AtEachSplit (JudgesDead config) (collectorTrace config runs world schedule))
    (undisturbed : AtEach (RemovesJudged config) (collectorTrace config runs world schedule))
    (split : collectorTrace config runs world schedule = earlier ++ later) :
    LockInvariant config earlier later (endState (gcHandle config) world earlier) := by
  have chained : Chained (gcHandle config) world (earlier ++ later) :=
    split ▸ collectorTrace_chained
  let inv (done : GcHistory) (current : GcWorld) : Prop :=
    ∀ rest, earlier ++ later = done ++ rest → LockInvariant config done rest current
  have atStart : inv [] world := by
    refine fun rest _ => lockInvariant_of_none fun i live => ?_
    cases live.1
  have along : inv earlier (endState (gcHandle config) world earlier) := by
    refine chained.left.concludes atStart ?_
    intro done event rest isSplit holds later' isSplit'
    obtain ⟨i, event⟩ := event
    have here : collectorTrace config runs world schedule = done ++ (i, event) :: later' := by
      rw [split, isSplit', append_assoc]
      rfl
    have before := holds ((i, event) :: later') (by rw [isSplit', append_assoc]; rfl)
    exact before.step (permits_of_split here) (dead.of_split here) (undisturbed.of_split here)
  exact along later rfl

end Runs

end Locks

/-- **One run at a time.** Where a lock file is judged stale only when no run that still moves is
inside, and removed before another one is made, at most one run that still moves is inside the
collection, and no run removes the lock file of another one. -/
theorem oneCollector (config : OciConfig) (runs : List GcConfig) (world : GcWorld)
    (schedule : List (ℕ × GcMoment))
    (dead : AtEachSplit (JudgesDead config) (collectorTrace config runs world schedule))
    (undisturbed : AtEach (RemovesJudged config) (collectorTrace config runs world schedule)) :
    AtEachSplit (OneAtATime config) (collectorTrace config runs world schedule) ∧
      AtEachSplit (SparesOthers config) (collectorTrace config runs world schedule) := by
  constructor
  · refine .intro fun earlier event later split => ?_
    intro first isFirst second isSecond firstInside secondInside
    have inv := lockInvariant_of_split dead undisturbed split
    exact inv.alone _ _ ⟨firstInside, first, isFirst, rfl⟩ ⟨secondInside, second, isSecond, rfl⟩
  · refine .intro fun earlier event later split removes => ?_
    obtain ⟨i, event⟩ := event
    have inv := lockInvariant_of_split dead undisturbed split
    have current := Chained.before_eq (split ▸ collectorTrace_chained)
    rw [← current] at inv
    exact inv.spares (eq_removeLock removes) (permits_of_split split) (undisturbed.of_split split)

/-- A run after an hour takes over the lock file of a crashed one, and a third one finds it at work.
-/
def takeover : List (ℕ × GcMoment) :=
  replicate 2 (0, { now := 0 }) ++ replicate 6 (1, { now := staleAge }) ++
    replicate 4 (2, { now := staleAge }) ++ replicate 6 (1, { now := staleAge })

theorem oneCollector_takeover :
    AtEachSplit (OneAtATime sampleConfig)
        (collectorTrace sampleConfig (replicate 3 { parse := fun _ => none }) {} takeover) ∧
      AtEachSplit (SparesOthers sampleConfig)
        (collectorTrace sampleConfig (replicate 3 { parse := fun _ => none }) {} takeover) :=
  oneCollector sampleConfig _ _ _ (by decide +kernel) (by decide +kernel)

/-- **Two runs judge the same file.** Each of them removes the file it finds and makes its own, and
both are inside. -/
theorem not_oneCollector_twoTakeovers :
    let start : List (ℕ × GcMoment) := replicate 3 (0, { now := staleAge }) ++
      replicate 3 (1, { now := staleAge })
    let takeOver : List (ℕ × GcMoment) := replicate 2 (0, { now := staleAge }) ++
      replicate 2 (1, { now := staleAge })
    ¬ AtEachSplit (OneAtATime sampleConfig)
      (collectorTrace sampleConfig (replicate 2 { parse := fun _ => none }) { lock := some 0 }
        (start ++ takeOver ++ [(0, { now := staleAge }), (1, { now := staleAge })])) := by
  decide +kernel

end Muli.Oci
