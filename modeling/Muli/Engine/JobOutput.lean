/-
**From a job's output to its stored log.**

The lines of a job come from detached tasks: two pipes for each `git` command of the checkout, the
follow stream of the container and the final fetch. Each of them numbers a line and pushes it in
separate steps; the checkout numbers from its own counter, the container from the collector's. A
flusher sends what it has not flushed to the database, the executor drains the collector at the end,
and the connections of the database write the rows.

* `jobLog_kept_iff` — **the stored log is what the collector received iff the lines arrived in the
  order of their numbers**, for every output and every interleaving.
-/

import Muli.Interaction.Machine
import Muli.Store.JobLogs

namespace Muli

open Interaction List LogCollector

structure JobOutput where
  jobId : String
  /-- Standard output and standard error of each `git` command. -/
  commands : List (List LogEntry × List LogEntry)
  /-- The chunks of the follow stream, split into lines. -/
  chunks : List (List LogEntry)
  /-- Neither the wait nor the exit codes report a problem. -/
  cleanExit : Bool
  /-- The lines of the one-shot fetch, if it succeeds. -/
  containerLog : Option (List LogEntry)

structure LogWorld where
  collector : LogCollector
  /-- The counter of `perform_checkout`. -/
  checkoutSeq : ℕ
  spawned : ℕ
  following : Bool
  aborted : Bool
  drained : Bool
  pending : List JobLogRow
  logs : JobLogTable
  /-- Every line the collector has received, in order. -/
  received : List LogLine

namespace LogWorld

def start (logs : JobLogTable) : LogWorld := ⟨.new, 0, 0, false, false, false, [], logs, []⟩

def receive (line : LogLine) (world : LogWorld) : LogWorld :=
  { world with
    collector := world.collector.pushLine line
    received := world.received ++ [line] }

def send (jobId : String) (lines : List LogLine) (world : LogWorld) : LogWorld :=
  { world with pending := world.pending ++ appendLogs jobId (lines.map LogLine.toStored) }

def flush (jobId : String) (offset : ℕ) (world : LogWorld) : LogWorld :=
  let peeked := world.collector.peekUnflushed offset
  { world with collector := peeked.2 }.send jobId peeked.1

def drainAndPersist (jobId : String) (offset : ℕ) (world : LogWorld) : LogWorld :=
  let drained := world.collector.drain offset
  { world with collector := drained.2, drained := true }.send jobId drained.1

end LogWorld

/-! ### The tasks -/

inductive LogTask where
  /-- The executor, with commands of the checkout to run. -/
  | checkingOut (commands : ℕ)
  | starting
  /-- It waits for the container, whose lines are numbered from `startSequence`. -/
  | waiting (startSequence : ℕ)
  /-- It appends lines of the one-shot fetch. -/
  | fetching (entries : List LogEntry)
  | fetched (line : LogLine) (entries : List LogEntry)
  | stopping
  | draining (offset : ℕ)
  | finished
  | idle
  | peeking (offset : ℕ)
  | piping (command : ℕ) (entries : List LogEntry)
  | piped (command : ℕ) (line : LogLine) (entries : List LogEntry)
  /-- The follow stream: entries of the chunk that have no number yet, lines that have, later
  chunks. -/
  | following (entries : List LogEntry) (lines : List LogLine) (chunks : List (List LogEntry))
  /-- A database connection, which writes the `n`-th of the pending rows. -/
  | writing (n : ℕ)
deriving DecidableEq

namespace LogTask

/-- **The next atomic operation of a task.** -/
def step (job : JobOutput) : Machine LogTask LogWorld
  | checkingOut 0, world => some (starting, world)
  | checkingOut (commands + 1), world =>
    some (checkingOut commands, { world with spawned := world.spawned + 1 })
  | starting, world => some (waiting world.collector.sequence, { world with following := true })
  | waiting startSequence, world =>
    if world.collector.sequence = startSequence ∨ !job.cleanExit then
      match job.containerLog with
      | some entries => some (fetching (world.collector.remaining startSequence entries), world)
      | none => some (stopping, world)
    else some (stopping, world)
  | fetching [], world => some (stopping, world)
  | fetching (entry :: entries), world =>
    let numbered := world.collector.number entry
    some (fetched numbered.1 entries, { world with collector := numbered.2 })
  | fetched line entries, world => some (fetching entries, world.receive line)
  | stopping, world => some (draining world.collector.flushOffset, { world with aborted := true })
  | draining offset, world => some (finished, world.drainAndPersist job.jobId offset)
  | finished, _ => none
  | idle, world =>
    if world.aborted then none else some (peeking world.collector.flushOffset, world)
  | peeking offset, world => some (idle, world.flush job.jobId offset)
  | piping _ [], _ => none
  | piping command (entry :: entries), world =>
    -- a pipe is read once its command has been spawned
    if command < world.spawned then
      some (piped command ⟨entry, world.checkoutSeq⟩ entries,
        { world with checkoutSeq := world.checkoutSeq + 1 })
    else none
  | piped command line entries, world => some (piping command entries, world.receive line)
  | following (entry :: entries) lines chunks, world =>
    let numbered := world.collector.number entry
    some (following entries (lines ++ [numbered.1]) chunks, { world with collector := numbered.2 })
  | following [] (line :: lines) chunks, world =>
    some (following [] lines chunks, world.receive line)
  | following [] [] (chunk :: chunks), world =>
    if world.following then some (following chunk [] chunks, world) else none
  | following [] [] [], _ => none
  | writing n, world =>
    match world.pending[n]? with
    | some row =>
      some (writing n, { world with
        pending := world.pending.eraseIdx n
        logs := world.logs.insertOrIgnore row })
    | none => none

def pushes : LogTask → Option LogLine
  | fetched line _ | piped _ line _ | following [] (line :: _) _ => some line
  | _ => none

def offset? : LogTask → Option ℕ
  | draining offset | peeking offset => some offset
  | _ => none

end LogTask

open LogTask

/-- The executor, the flusher, the pipes of every command, the follow stream and the connections. -/
def JobOutput.started (job : JobOutput) (connections : ℕ) (logs : JobLogTable) :
    System LogTask LogWorld where
  threads := .checkingOut job.commands.length :: .idle ::
    (job.commands.zipIdx.flatMap fun (output, command) =>
      [.piping command output.1, .piping command output.2]) ++
    .following [] [] job.chunks :: (range connections).map .writing
  shared := .start logs

/-- What the next step of a thread pushes finds room in the ring buffer. -/
def Roomy (sys : System LogTask LogWorld) (i : ℕ) : Prop :=
  ∀ _line ∈ sys.threads[i]?.bind pushes,
    sys.shared.collector.buffer.length < sys.shared.collector.maxLines
deriving Decidable

/-- What the next step of a thread pushes comes before the collector is drained. -/
def Timely (sys : System LogTask LogWorld) (i : ℕ) : Prop :=
  ∀ _line ∈ sys.threads[i]?.bind pushes, sys.shared.drained = false
deriving Decidable

def Ascending (lines : List LogLine) : Prop :=
  lines.Pairwise fun first second => first.sequence < second.sequence
deriving Decidable

variable {lines : List LogLine}

theorem Ascending.eq_of_sequence (ascending : Ascending lines) (isFirst : first ∈ lines)
    (isSecond : second ∈ lines) (same : first.sequence = second.sequence) : first = second := by
  have distinct : (lines.map LogLine.sequence).Nodup :=
    pairwise_map.mpr (ascending.imp fun below => ne_of_lt below)
  exact inj_on_of_nodup_map distinct isFirst isSecond same

/-- The executor has drained the collector and every row has been written. -/
def LogWorld.Complete (world : LogWorld) : Prop := world.drained = true ∧ world.pending = []

/-- Every line the collector received is in the job's log, once and in the order received. -/
def LogKept (job : JobOutput) (world : LogWorld) : Prop :=
  world.logs.jobLog job.jobId = world.received.map LogLine.toStored
deriving Decidable

instance (world : LogWorld) : Decidable world.Complete := inferInstanceAs (Decidable (_ ∧ _))

/-! ### One step -/

structure SameLines (world world' : LogWorld) : Prop where
  buffer : world'.collector.buffer = world.collector.buffer
  flushOffset : world'.collector.flushOffset = world.collector.flushOffset
  drained : world'.drained = world.drained
  pending : world'.pending = world.pending
  logs : world'.logs = world.logs
  received : world'.received = world.received

namespace LogTask

variable {job : JobOutput} {task task' : LogTask} {world world' : LogWorld}

/-- **All that a step can do to lines**: move none, perhaps reading the flush offset; push one;
flush; drain; or write a row. -/
inductive Effect (job : JobOutput) (world : LogWorld) : LogTask → LogTask → LogWorld → Prop where
  | still {task task' : LogTask} {world' : LogWorld} (silent : task.pushes = none)
      (same : SameLines world world')
      (reads : ∀ offset ∈ task'.offset?, offset = world.collector.flushOffset) :
      Effect job world task task' world'
  | push {task task' : LogTask} (line : LogLine) (isNext : task.pushes = some line)
      (reads : task'.offset? = none) : Effect job world task task' (world.receive line)
  | flush (offset : ℕ) : Effect job world (peeking offset) idle (world.flush job.jobId offset)
  | drain (offset : ℕ) :
      Effect job world (draining offset) finished (world.drainAndPersist job.jobId offset)
  | write (n : ℕ) (row : JobLogRow) (isPending : world.pending[n]? = some row) :
      Effect job world (writing n) (writing n) { world with
        pending := world.pending.eraseIdx n
        logs := world.logs.insertOrIgnore row }

theorem Effect.quiet (silent : task.pushes = none) (same : SameLines world world')
    (reads : task'.offset? = none) : Effect job world task task' world' :=
  .still silent same (by simp [reads])

theorem step_effect (steps : task.step job world = some (task', world')) :
    Effect job world task task' world' := by
  cases task with
  | checkingOut rest | fetching rest =>
    cases rest <;>
      (cases steps
       exact .quiet rfl ⟨rfl, rfl, rfl, rfl, rfl, rfl⟩ rfl)
  | starting =>
    cases steps
    exact .quiet rfl ⟨rfl, rfl, rfl, rfl, rfl, rfl⟩ rfl
  | waiting startSequence =>
    simp only [step] at steps
    -- whether the log is fetched again, the world stays
    have outcome : task'.offset? = none ∧ world = world' := by
      revert steps
      cases job.containerLog <;> split_ifs <;> rintro ⟨⟩ <;> exact ⟨rfl, rfl⟩
    obtain ⟨reads, rfl⟩ := outcome
    exact .quiet rfl ⟨rfl, rfl, rfl, rfl, rfl, rfl⟩ reads
  | fetched line | piped _ line =>
    cases steps
    exact .push line rfl rfl
  | stopping =>
    cases steps
    exact .still rfl ⟨rfl, rfl, rfl, rfl, rfl, rfl⟩ (by simp [offset?])
  | draining offset =>
    cases steps
    exact .drain offset
  | finished => cases steps
  | idle =>
    simp only [step] at steps
    split_ifs at steps
    cases steps
    exact .still rfl ⟨rfl, rfl, rfl, rfl, rfl, rfl⟩ (by simp [offset?])
  | peeking offset =>
    cases steps
    exact .flush offset
  | piping command entries =>
    cases entries with
    | nil => cases steps
    | cons entry entries =>
      simp only [step] at steps
      split_ifs at steps
      cases steps
      exact .quiet rfl ⟨rfl, rfl, rfl, rfl, rfl, rfl⟩ rfl
  | following entries lines chunks =>
    rcases entries with - | ⟨entry, entries⟩
    · rcases lines with - | ⟨line, lines⟩
      · rcases chunks with - | ⟨chunk, chunks⟩
        · cases steps
        · simp only [step] at steps
          split_ifs at steps
          cases steps
          exact .quiet rfl ⟨rfl, rfl, rfl, rfl, rfl, rfl⟩ rfl
      · cases steps
        exact .push line rfl rfl
    · cases steps
      exact .quiet rfl ⟨rfl, rfl, rfl, rfl, rfl, rfl⟩ rfl
  | writing n =>
    simp only [step] at steps
    split at steps
    · next row isPending =>
        cases steps
        exact .write n row isPending
    · cases steps

end LogTask

/-! ### Lines on their way -/

namespace LogWorld

def Saved (world : LogWorld) (jobId : String) (stored : StoredLogLine) : Prop :=
  ⟨jobId, stored⟩ ∈ world.pending ∨ ⟨jobId, stored⟩ ∈ world.logs.rows

/-- An offset that a flush has left: what is below it is saved, and it is one above the number of
some line. -/
structure FlushedTo (world : LogWorld) (jobId : String) (offset : ℕ) : Prop where
  saved : ∀ line ∈ world.received, line.sequence < offset → world.Saved jobId line.toStored
  reached : offset = 0 ∨ ∃ line ∈ world.received, offset = line.sequence + 1

/-- **What holds while lines arrive in the order of their numbers.** -/
structure InOrder (jobId : String) (world : LogWorld) : Prop where
  ascending : Ascending world.received
  buffered : world.collector.buffer = if world.drained then [] else world.received
  flushed : world.FlushedTo jobId world.collector.flushOffset
  settled : world.drained = true → ∀ line ∈ world.received, world.Saved jobId line.toStored
  onlyReceived : ∀ stored, world.Saved jobId stored → ∃ line ∈ world.received,
    stored = line.toStored

variable {jobId : String} {world world' : LogWorld} {offset : ℕ}

theorem FlushedTo.mono (flushed : world.FlushedTo jobId offset)
    (sameReceived : world'.received = world.received)
    (kept : ∀ stored, world.Saved jobId stored → world'.Saved jobId stored) :
    world'.FlushedTo jobId offset where
  saved line received below := kept _ (flushed.saved line (sameReceived ▸ received) below)
  reached := sameReceived ▸ flushed.reached

/-! #### A line is received -/

variable {line : LogLine}

theorem FlushedTo.receive (arrives : ∀ old ∈ world.received, old.sequence < line.sequence)
    (flushed : world.FlushedTo jobId offset) : (world.receive line).FlushedTo jobId offset := by
  constructor
  · intro other received below
    rcases mem_append.mp received with old | new
    · exact flushed.saved other old below
    · -- the new number is above the one the offset stands behind
      obtain rfl := mem_singleton.mp new
      rcases flushed.reached with rfl | ⟨last, isOld, rfl⟩
      · omega
      · grind
  · exact flushed.reached.imp_right fun ⟨last, isOld, isNext⟩ =>
      ⟨last, mem_append_left _ isOld, isNext⟩

theorem InOrder.receive (inOrder : world.InOrder jobId)
    (room : world.collector.buffer.length < world.collector.maxLines)
    (early : world.drained = false)
    (arrives : ∀ old ∈ world.received, old.sequence < line.sequence) :
    (world.receive line).InOrder jobId where
  ascending := pairwise_append.mpr
    ⟨inOrder.ascending, pairwise_singleton _ _, fun old isOld new isNew =>
      mem_singleton.mp isNew ▸ arrives old isOld⟩
  buffered := by
    have before := inOrder.buffered
    simp only [LogWorld.receive, LogCollector.pushLine, if_neg (not_le.mpr room)]
    rw [before, early]
    rfl
  flushed := inOrder.flushed.receive arrives
  settled drained := absurd (drained.symm.trans early) (by decide)
  onlyReceived stored saved := by
    obtain ⟨old, isOld, same⟩ := inOrder.onlyReceived stored saved
    exact ⟨old, mem_append_left _ isOld, same⟩

/-! #### Lines are sent -/

theorem saved_send {stored : StoredLogLine} : (world.send jobId lines).Saved jobId stored ↔
      world.Saved jobId stored ∨ ∃ line ∈ lines, stored = line.toStored := by
  simp only [Saved, send, appendLogs, mem_append, mem_map, exists_exists_and_eq_and,
    JobLogRow.mk.injEq, true_and, eq_comm (b := stored)]
  exact or_right_comm

section

variable (inOrder : world.InOrder jobId)
include inOrder

theorem InOrder.mem_received
    (buffered : line ∈ world.collector.buffer) : line ∈ world.received := by
  rw [inOrder.buffered] at buffered
  split_ifs at buffered
  · cases buffered
  · exact buffered

theorem InOrder.send (flushed : world.FlushedTo jobId offset) :
    let sent := world.send jobId (world.collector.linesFrom offset)
    (∀ stored, world.Saved jobId stored → sent.Saved jobId stored) ∧
      (∀ line ∈ world.collector.buffer, sent.Saved jobId line.toStored) ∧
      ∀ stored, sent.Saved jobId stored → ∃ line ∈ world.received, stored = line.toStored := by
  intro sent
  refine ⟨fun stored saved => saved_send.mpr (.inl saved), fun line buffered => ?_,
    fun stored saved => ?_⟩
  · by_cases below : line.sequence < offset
    · exact saved_send.mpr (.inl (flushed.saved line (inOrder.mem_received buffered) below))
    · have isSent : line ∈ world.collector.linesFrom offset :=
        mem_filter.mpr ⟨buffered, by simpa using below⟩
      exact saved_send.mpr (.inr ⟨line, isSent, rfl⟩)
  · rcases saved_send.mp saved with before | ⟨line, isSent, same⟩
    · exact inOrder.onlyReceived stored before
    · exact ⟨line, inOrder.mem_received (mem_filter.mp isSent).1, same⟩

theorem InOrder.flush (loaded : world.FlushedTo jobId offset) :
    (world.flush jobId offset).InOrder jobId := by
  obtain ⟨kept, saved, onlyReceived⟩ := inOrder.send loaded
  rw [← lines_peekUnflushed] at kept saved onlyReceived
  constructor
  case ascending => exact inOrder.ascending
  case buffered => exact buffer_peekUnflushed.trans inOrder.buffered
  case settled => exact fun drained line received => kept _ (inOrder.settled drained line received)
  case onlyReceived => exact onlyReceived
  case flushed =>
    rcases world.collector.flushOffset_peekUnflushed offset with same | ⟨last, isBuffered, next⟩
    · exact same ▸ inOrder.flushed.mono rfl kept
    · -- something is buffered, so the buffer is all that was received
      have all : world.collector.buffer = world.received := by
        have buffered := inOrder.buffered
        split_ifs at buffered
        · simp_all
        · exact buffered
      exact next ▸ ⟨fun line received _ => saved line (all ▸ received),
        .inr ⟨last, inOrder.mem_received isBuffered, rfl⟩⟩

theorem InOrder.drainAndPersist (loaded : world.FlushedTo jobId offset) :
    (world.drainAndPersist jobId offset).InOrder jobId := by
  obtain ⟨kept, saved, onlyReceived⟩ := inOrder.send loaded
  constructor
  case ascending => exact inOrder.ascending
  case buffered => rfl
  case flushed => exact inOrder.flushed.mono rfl kept
  case onlyReceived => exact onlyReceived
  case settled =>
    intro _ line received
    cases drained : world.drained with
    | true => exact kept _ (inOrder.settled drained line received)
    | false =>
      have all := inOrder.buffered
      rw [drained] at all
      exact saved line (all ▸ received)

/-! #### A row is written -/

theorem InOrder.eq_of_saved (isFirst : world.Saved jobId first)
    (isSecond : world.Saved jobId second) (same : first.sequence = second.sequence) :
    first = second := by
  obtain ⟨line, received, rfl⟩ := inOrder.onlyReceived first isFirst
  obtain ⟨line', received', rfl⟩ := inOrder.onlyReceived second isSecond
  rw [inOrder.ascending.eq_of_sequence received received' same]

/-- **Writing a row loses none**: a row that is ignored is stored already. -/
theorem InOrder.saved_write
    (isPending : world.pending[n]? = some row) (stored : StoredLogLine) :
    LogWorld.Saved { world with
        pending := world.pending.eraseIdx n
        logs := world.logs.insertOrIgnore row } jobId stored ↔ world.Saved jobId stored := by
  obtain ⟨inRange, isRow⟩ := List.getElem?_eq_some_iff.mp isPending
  have split : ∀ other, other ∈ world.pending ↔ other = row ∨ other ∈ world.pending.eraseIdx n := by
    intro other
    rw [← (getElem_cons_eraseIdx_perm inRange).mem_iff, isRow, mem_cons]
  unfold Saved
  rw [Table.mem_insertOrIgnore, split]
  constructor
  · rintro (later | before | ⟨rfl, -⟩)
    · exact .inl (.inr later)
    · exact .inr before
    · exact .inl (.inl rfl)
  · rintro ((rfl | later) | before)
    · obtain ⟨⟨owner, other⟩, isStored, sameKey⟩ :=
        world.logs.exists_mem_insertOrIgnore ⟨jobId, stored⟩
      obtain ⟨rfl, sameNumber⟩ := Prod.mk.inj sameKey
      rcases Table.mem_insertOrIgnore.mp isStored with before | ⟨isNew, missing⟩
      · have same := inOrder.eq_of_saved (.inr before) (.inl (mem_of_getElem? isPending))
          sameNumber
        exact .inr (.inl (same ▸ before))
      · exact .inr (.inr ⟨rfl, missing⟩)
    · exact .inl later
    · exact .inr (.inl before)

theorem InOrder.write (isPending : world.pending[n]? = some row) :
    LogWorld.InOrder jobId { world with
      pending := world.pending.eraseIdx n
      logs := world.logs.insertOrIgnore row } where
  ascending := inOrder.ascending
  buffered := inOrder.buffered
  flushed := inOrder.flushed.mono rfl fun stored => (inOrder.saved_write isPending stored).mpr
  settled drained line received :=
    (inOrder.saved_write isPending _).mpr (inOrder.settled drained line received)
  onlyReceived stored saved :=
    inOrder.onlyReceived stored ((inOrder.saved_write isPending stored).mp saved)

end

end LogWorld

/-! ### Whole runs -/

/-- The line that the next step of a thread pushes is numbered above all that were received. -/
def Arrives (sys : System LogTask LogWorld) (i : ℕ) : Prop :=
  ∀ line ∈ sys.threads[i]?.bind pushes, ∀ old ∈ sys.shared.received,
    old.sequence < line.sequence

structure LogsInOrder (job : JobOutput) (sys : System LogTask LogWorld) : Prop where
  world : sys.shared.InOrder job.jobId
  loaded : ∀ task ∈ sys.threads, ∀ offset ∈ task.offset?, sys.shared.FlushedTo job.jobId offset

namespace LogsInOrder

variable {job : JobOutput} {sys : System LogTask LogWorld}

theorem start (connections : ℕ) (fresh : logs.jobLog job.jobId = []) :
    LogsInOrder job (job.started connections logs) := by
  have unread : ∀ task ∈ (job.started connections logs).threads, task.offset? = none := by
    intro task isTask
    simp only [JobOutput.started, cons_append, mem_cons, mem_append, mem_flatMap,
      mem_map, not_mem_nil, or_false] at isTask
    rcases isTask with rfl | rfl | ⟨_, -, rfl | rfl⟩ | rfl | ⟨_, -, rfl⟩ <;> rfl
  refine ⟨⟨.nil, rfl, ⟨nofun, .inl rfl⟩, nofun, fun stored saved => ?_⟩, ?_⟩
  · have isStored : stored ∈ logs.jobLog job.jobId :=
      JobLogTable.mem_jobLog.mpr (saved.resolve_left not_mem_nil)
    rw [fresh] at isStored
    cases isStored
  · simp_all

section

variable (inOrder : LogsInOrder job sys)
include inOrder

theorem step (roomy : Roomy sys i) (timely : Timely sys i)
    (arrives : Arrives sys i) (isThread : sys.threads[i]? = some task)
    (steps : task.step job sys.shared = some (task', world')) :
    LogsInOrder job ⟨sys.threads.set i task', world'⟩ := by
  have own := inOrder.loaded task (mem_of_getElem? isThread)
  -- it suffices that offsets stay good and that the one the task now holds is good
  have assemble : world'.InOrder job.jobId →
      (∀ offset, sys.shared.FlushedTo job.jobId offset → world'.FlushedTo job.jobId offset) →
      (∀ offset ∈ task'.offset?, sys.shared.FlushedTo job.jobId offset) →
      LogsInOrder job ⟨sys.threads.set i task', world'⟩ := by
    refine fun world kept next => ⟨world, fun other isOther offset held => kept offset ?_⟩
    rcases mem_or_eq_of_mem_set isOther with before | rfl
    · exact inOrder.loaded other before offset held
    · exact next offset held
  cases step_effect steps with
  | still silent same reads =>
    have savedIff : ∀ stored, sys.shared.Saved job.jobId stored ↔
        world'.Saved job.jobId stored := by
      intro stored
      simp only [LogWorld.Saved, same.pending, same.logs]
    have kept : ∀ offset, sys.shared.FlushedTo job.jobId offset →
        world'.FlushedTo job.jobId offset :=
      fun offset flushed => flushed.mono same.received fun stored => (savedIff stored).mp
    refine assemble ⟨?_, ?_, ?_, ?_, ?_⟩ kept fun offset held => ?_
    · exact same.received ▸ inOrder.world.ascending
    · rw [same.buffer, same.drained, same.received, inOrder.world.buffered]
    · exact same.flushOffset ▸ kept _ inOrder.world.flushed
    · rw [same.drained, same.received]
      exact fun drained line received =>
        (savedIff _).mp (inOrder.world.settled drained line received)
    · rw [same.received]
      exact fun stored saved => inOrder.world.onlyReceived stored ((savedIff stored).mpr saved)
    · exact reads offset held ▸ inOrder.world.flushed
  | push line isNext reads =>
    have next : line ∈ sys.threads[i]?.bind pushes := by
      rw [isThread]
      exact isNext
    exact assemble (inOrder.world.receive (roomy line next) (timely line next) (arrives line next))
      (fun offset flushed => flushed.receive (arrives line next)) (by simp [reads])
  | flush offset =>
    have loaded := own offset rfl
    obtain ⟨kept, -, -⟩ := inOrder.world.send loaded
    rw [← lines_peekUnflushed] at kept
    exact assemble (inOrder.world.flush loaded) (fun _ flushed => flushed.mono rfl kept)
      (by simp [offset?])
  | drain offset =>
    have loaded := own offset rfl
    obtain ⟨kept, -, -⟩ := inOrder.world.send loaded
    exact assemble (inOrder.world.drainAndPersist loaded) (fun _ flushed => flushed.mono rfl kept)
      (by simp [offset?])
  | write n row isPending =>
    exact assemble (inOrder.world.write isPending)
      (fun _ flushed => flushed.mono rfl fun stored =>
        (inOrder.world.saved_write isPending stored).mpr) (by simp [offset?])

theorem run
    (along : sys.Along (LogTask.step job)
      (fun sys i => (Roomy sys i ∧ Timely sys i) ∧ Arrives sys i) schedule) :
    LogsInOrder job (sys.run (LogTask.step job) schedule) :=
  System.run_induction _ inOrder
    (fun _ _ _ _ _ inOrder good => inOrder.step good.1.1 good.1.2 good.2) along

/-- **When all is written, the job's log is what was received.** -/
theorem kept_of_complete (complete : sys.shared.Complete) :
    LogKept job sys.shared := by
  have savedIff : ∀ stored, sys.shared.Saved job.jobId stored ↔
      (⟨job.jobId, stored⟩ : JobLogRow) ∈ sys.shared.logs.rows := by
    intro stored
    simp [LogWorld.Saved, complete.2]
  refine JobLogTable.jobLog_eq (pairwise_map.mpr inOrder.world.ascending) fun stored => ?_
  rw [← savedIff, mem_map]
  constructor
  · intro saved
    obtain ⟨line, received, same⟩ := inOrder.world.onlyReceived stored saved
    exact ⟨line, received, same.symm⟩
  · rintro ⟨line, received, rfl⟩
    exact inOrder.world.settled complete.1 line received

end

end LogsInOrder

/-! ### Arrival in the order of the numbers -/

theorem LogTask.step_of_pushes {task : LogTask} (job : JobOutput) (isNext : task.pushes = some line)
    (world : LogWorld) : ∃ task', task.step job world = some (task', world.receive line) := by
  unfold pushes at isNext
  split at isNext <;> cases isNext <;> exact ⟨_, rfl⟩

theorem received_prefix_move (job : JobOutput) (sys : System LogTask LogWorld) (i : ℕ) :
    sys.shared.received <+: (sys.move (step job) i).shared.received := by
  rcases System.move_cases (step job) sys i with same | ⟨task, task', world', -, steps, moved⟩
  · exact same.symm ▸ prefix_rfl
  · rw [moved]
    cases step_effect steps with
    | still silent same reads => exact same.received ▸ prefix_rfl
    | push line => exact prefix_append _ _
    | flush | drain | write => exact prefix_rfl

theorem arrives_of_ascending {job : JobOutput} {sys : System LogTask LogWorld}
    (ascending : Ascending (sys.run (step job) schedule).shared.received) :
    sys.Along (step job) Arrives schedule := by
  refine (System.along_of_run (fun sys => Ascending sys.shared.received)
    (fun sys i next => ⟨?_, ?_⟩) ascending).2
  · exact next.sublist (received_prefix_move job sys i).sublist
  · intro line isNext old isOld
    obtain ⟨task, isThread, pushes⟩ := Option.bind_eq_some_iff.mp isNext
    obtain ⟨task', steps⟩ := step_of_pushes job pushes sys.shared
    have moved : (sys.move (step job) i).shared = sys.shared.receive line := by
      simp only [System.move, isThread, steps]
    rw [moved] at next
    exact (pairwise_append.mp next).2.2 old isOld line (mem_singleton_self line)

/-- **The stored log is what the collector received, once each and in that order, iff the lines
arrived in the order of their numbers**: for every output of a job, every interleaving of its tasks
with the flusher and the database in which the ring buffer has room and nothing is pushed after the
final drain. -/
theorem jobLog_kept_iff (job : JobOutput) (connections : ℕ) (logs : JobLogTable)
    (schedule : List ℕ) (fresh : logs.jobLog job.jobId = []) :
    let started := job.started connections logs
    let world := (started.run (step job) schedule).shared
    started.Along (step job) Roomy schedule →
      started.Along (step job) Timely schedule → world.Complete →
        (LogKept job world ↔ Ascending world.received) := by
  intro started world roomy timely complete
  constructor
  · intro kept
    have ascending := world.logs.jobLog_ascending job.jobId
    rw [kept, pairwise_map] at ascending
    exact ascending
  · intro ascending
    have inOrder := (LogsInOrder.start connections fresh).run
      ((roomy.and timely).and (arrives_of_ascending ascending))
    exact inOrder.kept_of_complete complete

def containerOnly : JobOutput where
  jobId := "job"
  commands := [([], [])]
  chunks :=
    [[⟨1, .stdout, "compiling", none, "line", none⟩], [⟨2, .stdout, "done", none, "line", none⟩]]
  cleanExit := true
  containerLog := none

theorem jobLog_kept_containerOnly :
    let started := containerOnly.started 1 ⟨[], nodup_nil⟩
    let schedule := [0, 0, 0, 4, 4, 4, 1, 1, 5, 4, 4, 4, 1, 1, 0, 0, 0, 5]
    LogKept containerOnly (started.run (step containerOnly) schedule).shared := by
  refine (jobLog_kept_iff containerOnly 1 ⟨[], nodup_nil⟩ _ rfl ?_ ?_ ?_).mpr ?_ <;> decide +kernel

def bothPhases : JobOutput where
  jobId := "job"
  commands := [([], [⟨1, .stderr, "Cloning into workspace", none, "line", none⟩])]
  chunks := [[⟨2, .stdout, "compiling", none, "line", none⟩]]
  cleanExit := true
  containerLog := none

/-- **Both lines are number 0**, and the second is ignored. -/
theorem not_logKept_bothPhases :
    let started := bothPhases.started 1 ⟨[], nodup_nil⟩
    let schedule := [0, 3, 3, 0, 0, 4, 4, 4, 0, 0, 0, 5, 5]
    let world := (started.run (step bothPhases) schedule).shared
    started.Along (step bothPhases) Roomy schedule ∧
      started.Along (step bothPhases) Timely schedule ∧ world.Complete ∧
      world.received.length = 2 ∧ ¬ LogKept bothPhases world := by
  decide +kernel

end Muli
