/-
**The log collector of a job.**

A ring buffer of numbered lines, the counter the container's lines are numbered from, and the offset
up to which lines have been flushed. `push_line` keeps the number a line comes with.

* `fetchRemainingLogs_complete_iff` — **when every line of the container is held once:** the buffer
  has room and what precedes the captured lines does not make the overlap longer.
-/

import Mathlib.Data.Nat.Find
import Muli.Core.Job

namespace Muli

open List Nat

inductive LogStream where
  | stdout
  | stderr
deriving DecidableEq, Repr

structure LogEntry where
  timestamp : Timestamp
  stream : LogStream
  message : String
  substepName : Option String := none
  eventType : String := "line"
  exitCode : Option ℤ := none
deriving DecidableEq

structure LogLine extends LogEntry where
  sequence : ℕ
deriving DecidableEq

/-- The lines that are kept, and the number of the next one. -/
structure LogCollector where
  /-- The ring buffer, oldest line first. -/
  buffer : List LogLine
  sequence : ℕ
  flushOffset : ℕ
  maxLines : ℕ

namespace LogCollector

def withCapacity (maxLines : ℕ) : LogCollector := ⟨[], 0, 0, maxLines⟩

def new : LogCollector := withCapacity 10000

/-- Push a line; the oldest one goes when the buffer is full. -/
def pushLine (line : LogLine) (collector : LogCollector) : LogCollector :=
  let kept :=
    if collector.maxLines ≤ collector.buffer.length then collector.buffer.tail else collector.buffer
  { collector with buffer := kept ++ [line] }

def number (entry : LogEntry) (collector : LogCollector) : LogLine × LogCollector :=
  (⟨entry, collector.sequence⟩, { collector with sequence := collector.sequence + 1 })

def linesFrom (offset : ℕ) (collector : LogCollector) : List LogLine :=
  collector.buffer.filter fun line => offset ≤ line.sequence

/-- The lines that have not been flushed, where the flush offset was read as `offset`; the offset
moves behind the last of them. -/
def peekUnflushed (offset : ℕ) (collector : LogCollector) : List LogLine × LogCollector :=
  let lines := collector.linesFrom offset
  match lines.getLast? with
  | some last => (lines, { collector with flushOffset := last.sequence + 1 })
  | none => (lines, collector)

/-- The lines that have not been flushed; the buffer is cleared. -/
def drain (offset : ℕ) (collector : LogCollector) : List LogLine × LogCollector :=
  (collector.linesFrom offset, { collector with buffer := [] })

def renderOverlapKey (entry : LogEntry) : LogStream × String :=
  (entry.stream, entry.eventType ++ "|" ++ entry.substepName.getD "" ++ "|" ++
    (entry.exitCode.map toString).getD "" ++ "|" ++ entry.message)

/-- The length of the longest suffix of `existing` that is a prefix of `fetched`. -/
def overlapLen (existing fetched : List (LogStream × String)) : ℕ :=
  let overlaps := (range (min existing.length fetched.length + 1)).reverse
  (overlaps.find? fun overlap =>
    existing.drop (existing.length - overlap) = fetched.take overlap).getD 0

/-- The fetched lines that the collector does not have yet, as `fetch_remaining_logs` finds them. -/
def remaining (startSequence : ℕ) (fetched : List LogEntry) (collector : LogCollector) :
    List LogEntry :=
  let existing := (collector.linesFrom startSequence).map fun line =>
    renderOverlapKey line.toLogEntry
  fetched.drop (overlapLen existing (fetched.map renderOverlapKey))

variable {collector : LogCollector} {offset : ℕ}

@[simp] theorem buffer_peekUnflushed :
    (collector.peekUnflushed offset).2.buffer = collector.buffer := by
  unfold peekUnflushed
  dsimp only
  split <;> rfl

theorem lines_peekUnflushed : (collector.peekUnflushed offset).1 = collector.linesFrom offset := by
  unfold peekUnflushed
  dsimp only
  split <;> rfl

theorem flushOffset_peekUnflushed (collector : LogCollector) (offset : ℕ) :
    (collector.peekUnflushed offset).2.flushOffset = collector.flushOffset ∨
      ∃ last ∈ collector.buffer, (collector.peekUnflushed offset).2.flushOffset = last.sequence +
      1 := by
  unfold peekUnflushed
  cases isLast : (collector.linesFrom offset).getLast? with
  | none => exact .inl (by simp only [isLast])
  | some last =>
    have buffered := (mem_filter.mp (mem_of_getLast? isLast)).1
    exact .inr ⟨last, buffered, by simp only [isLast]⟩

/-! ### The lines of the one-shot fetch -/

/-- Number a line and push it. -/
def append (collector : LogCollector) (entry : LogEntry) : LogCollector :=
  (collector.number entry).2.pushLine (collector.number entry).1

/-- `fetch_remaining_logs`, where the container's log was read as `fetched`. -/
def fetchRemainingLogs (startSequence : ℕ) (fetched : List LogEntry) (collector : LogCollector) :
    LogCollector :=
  (collector.remaining startSequence fetched).foldl append collector

/-- An entry without the time at which it was read. -/
def content (entry : LogEntry) : LogEntry := { entry with timestamp := 0 }

def contents (collector : LogCollector) : List LogEntry :=
  collector.buffer.map fun line => content line.toLogEntry

/-- What the buffer holds at most; one line even without capacity. -/
def room (collector : LogCollector) : ℕ := max collector.maxLines 1

theorem length_contents (collector : LogCollector) :
    collector.contents.length = collector.buffer.length := length_map _

theorem contents_append (fits : collector.buffer.length ≤ collector.room) (entry : LogEntry) :
    (collector.append entry).contents =
      (collector.contents ++ [content entry]).drop
      (collector.buffer.length + 1 - collector.room) := by
  unfold room at *
  by_cases full : collector.maxLines ≤ collector.buffer.length
  · cases isBuffer : collector.buffer with
    | nil => simp [append, pushLine, number, contents, isBuffer]
    | cons first rest =>
      rw [isBuffer, length_cons] at fits full
      have one : rest.length + 1 + 1 - max collector.maxLines 1 = 1 := by omega
      simp [append, pushLine, number, contents, isBuffer, full, one]
  · have none : collector.buffer.length + 1 - max collector.maxLines 1 = 0 := by omega
    simp [append, pushLine, number, contents, full, none]

/-- **What is pushed comes at the end, and as much as there is no room for goes at the front.** -/
theorem contents_foldl (entries : List LogEntry) (fits : collector.buffer.length ≤ collector.room) :
    (entries.foldl append collector).contents = (collector.contents ++ entries.map content).drop
      (collector.buffer.length + entries.length - collector.room) := by
  induction entries generalizing collector with
  | nil => simp [Nat.sub_eq_zero_of_le fits]
  | cons entry entries ih =>
    have first := contents_append fits entry
    have size := congrArg length first
    rw [length_contents, length_drop, length_append, length_contents, length_singleton]
      at size
    have sameRoom : (collector.append entry).room = collector.room := rfl
    have fits' : (collector.append entry).buffer.length ≤ (collector.append entry).room := by
      rw [size, sameRoom]
      omega
    rw [foldl_cons, ih fits', first, ← drop_append_of_le_length, drop_drop, size, sameRoom,
      append_assoc, map_cons, singleton_append, length_cons]
    · congr 1
      omega
    · grind

theorem find?_reverse_range (p : ℕ → Prop) [DecidablePred p] (n : ℕ) :
    ((range (n + 1)).reverse.find? fun m => p m).getD 0 = findGreatest p n := by
  induction n with
  | zero =>
    by_cases holds : p 0 <;> simp [holds]
  | succ n ih =>
    rw [range_succ, reverse_append, findGreatest_succ, ← ih]
    by_cases holds : p (n + 1) <;> simp [holds]

/-- **The longest prefix of `fetched` that `existing` ends with.** -/
theorem overlapLen_spec (existing fetched : List (LogStream × String)) :
    (overlapLen existing fetched ≤ fetched.length ∧
      fetched.take (overlapLen existing fetched) <:+ existing) ∧
      ∀ m ≤ fetched.length, fetched.take m <:+ existing → m ≤ overlapLen existing fetched := by
  have greatest : overlapLen existing fetched = findGreatest (fun overlap =>
      existing.drop (existing.length - overlap) = fetched.take overlap)
        (min existing.length fetched.length) := find?_reverse_range _ _
  have le := findGreatest_le (P := fun overlap =>
      existing.drop (existing.length - overlap) = fetched.take overlap)
    (min existing.length fetched.length)
  rw [← greatest] at le
  refine ⟨⟨le.trans (min_le_right _ _), ?_⟩, fun m inFetched ends => ?_⟩
  · have matches' : existing.drop (existing.length - overlapLen existing fetched) =
        fetched.take (overlapLen existing fetched) := by
      rw [greatest]
      exact findGreatest_spec (P := fun overlap =>
        existing.drop (existing.length - overlap) = fetched.take overlap) (zero_le _) (by simp)
    exact matches' ▸ drop_suffix _ _
  · have size := ends.length_le
    rw [length_take_of_le inFetched] at size
    rw [greatest]
    refine le_findGreatest (le_min size inFetched) ?_
    have isDrop := suffix_iff_eq_drop.mp ends
    rw [length_take_of_le inFetched] at isDrop
    exact isDrop.symm

/-- **Every line of the container is held once and in order, after what was there before.** -/
def Complete (earlier : List LogLine) (fetched : List LogEntry) (after : LogCollector) : Prop :=
  after.contents = (earlier.map fun line => content line.toLogEntry) ++ fetched.map content

/-- **A one-shot fetch completes the log exactly when the buffer has room for it and no more of the
fetched lines than were captured end what the collector holds** from the start sequence on. -/
theorem fetchRemainingLogs_complete_iff (collector : LogCollector) (startSequence : ℕ)
    (earlier captured : List LogLine) (fetched : List LogEntry)
    (isBuffer : collector.buffer = earlier ++ captured)
    (fits : collector.buffer.length ≤ max collector.maxLines 1)
    (numbered : ∀ line ∈ captured, startSequence ≤ line.sequence)
    (follows : captured.map (fun line => content line.toLogEntry) =
      (fetched.take captured.length).map content) :
    Complete earlier fetched (collector.fetchRemainingLogs startSequence fetched) ↔
      earlier.length + fetched.length ≤ max collector.maxLines 1 ∧ ∀ m ≤ fetched.length,
          captured.length < m → ¬ (fetched.take m).map renderOverlapKey <:+
            (collector.linesFrom startSequence).map fun line =>
            renderOverlapKey line.toLogEntry := by
  have within : captured.length ≤ fetched.length := by
    have size := congrArg length follows
    rw [length_map, length_map, length_take] at size
    omega
  have keys : captured.map (fun line => renderOverlapKey line.toLogEntry) =
      (fetched.take captured.length).map renderOverlapKey := by
    have mapped := congrArg (map renderOverlapKey) follows
    rw [map_map, map_map] at mapped
    exact mapped
  have ends : (fetched.take captured.length).map renderOverlapKey <:+
      (collector.linesFrom startSequence).map fun line => renderOverlapKey line.toLogEntry := by
    have all : captured.filter (fun line => startSequence ≤ line.sequence) = captured :=
      filter_eq_self.mpr fun line mem => by simpa using numbered line mem
    rw [linesFrom, isBuffer, filter_append, map_append, all, keys]
    exact suffix_append _ _
  obtain ⟨⟨inFetched, isSuffix⟩, greatest⟩ := overlapLen_spec
    ((collector.linesFrom startSequence).map fun line => renderOverlapKey line.toLogEntry)
    (fetched.map renderOverlapKey)
  simp only [← map_take, length_map] at inFetched isSuffix greatest
  have atLeast := greatest _ within ends
  have held := contents_foldl (collector.remaining startSequence fetched) fits
  have before : collector.contents = (earlier.map fun line => content line.toLogEntry) ++
      (fetched.take captured.length).map content := by
    rw [contents, isBuffer, map_append, follows]
  unfold Complete fetchRemainingLogs
  rw [held, before, isBuffer]
  unfold remaining room
  dsimp only
  generalize overlapLen _ _ = overlap at *
  constructor
  · intro complete
    have size := congrArg length complete
    simp only [length_drop, length_append, length_map, length_take,
      min_eq_left within] at size
    refine ⟨by omega, fun m inFetched' longer ends' => ?_⟩
    have bound := greatest m inFetched' ends'
    omega
  · rintro ⟨enough, none⟩
    obtain rfl : overlap = captured.length := by
      exact le_antisymm (not_lt.mp fun longer => none overlap inFetched longer isSuffix) atLeast
    have noDrop : (earlier ++ captured).length + (fetched.drop captured.length).length -
        max collector.maxLines 1 = 0 := by
      rw [length_append, length_drop]
      omega
    rw [noDrop, drop_zero, append_assoc, ← map_append, take_append_drop]

def readyLine : LogEntry := ⟨5, .stdout, "2026-01-01T00:00:05Z ready", none, "line", none⟩

/-- A container that was followed up to its first line. -/
theorem fetchRemainingLogs_complete_followed :
    Complete [⟨{ readyLine with message := "Cloning" }, 0⟩] [readyLine, readyLine]
      (fetchRemainingLogs 3 [readyLine, readyLine]
        ⟨[⟨{ readyLine with message := "Cloning" }, 0⟩, ⟨readyLine, 3⟩], 4, 0, 10⟩) :=
  (fetchRemainingLogs_complete_iff _ 3 _ [⟨readyLine, 3⟩] _ rfl (by decide) (by decide) rfl).mpr
    (by decide)

/-- **A line of the checkout that the container writes again is taken for a captured one:** both are
numbered from 0. -/
theorem fetchRemainingLogs_drops_line : ¬ Complete [⟨readyLine, 0⟩] [readyLine]
      (fetchRemainingLogs 0 [readyLine] ⟨[⟨readyLine, 0⟩], 0, 0, 10⟩) := by
  unfold Complete
  decide

end LogCollector

end Muli
