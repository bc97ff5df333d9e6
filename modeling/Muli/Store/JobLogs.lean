/-
**The job log table.**

The primary key is the job together with the number of the line, and lines are written with
`INSERT OR IGNORE`: of two lines with one number the first stays.

* `JobLogTable.jobLog_ascending` — **no two lines of a job's log have the same number**;
  `JobLogTable.jobLog_eq` — a log in ascending order is read back when exactly its lines are stored.
-/

import Mathlib.Data.List.Sort
import Muli.Engine.Logs

namespace Muli

open List

structure StoredLogLine where
  sequence : ℕ
  timestamp : Timestamp
  stream : String
  message : String
  substepName : Option String
  eventType : Option String
  exitCode : Option ℤ
deriving DecidableEq

def LogLine.toStored (line : LogLine) : StoredLogLine where
  sequence := line.sequence
  timestamp := line.timestamp
  stream := match line.stream with
    | .stdout => "stdout"
    | .stderr => "stderr"
  message := line.message
  substepName := line.substepName
  eventType := some line.eventType
  exitCode := line.exitCode

def StoredLogLine.NotAfter (first second : StoredLogLine) : Prop := first.sequence ≤ second.sequence

instance : DecidableRel StoredLogLine.NotAfter := fun _ _ => Nat.decLe _ _

instance : Std.Total StoredLogLine.NotAfter := ⟨fun first _ => Nat.le_total first.sequence _⟩

instance : IsTrans StoredLogLine StoredLogLine.NotAfter := ⟨fun _ _ _ => Nat.le_trans⟩

structure JobLogRow where
  jobId : String
  line : StoredLogLine
deriving DecidableEq

def JobLogRow.key (row : JobLogRow) : String × ℕ := (row.jobId, row.line.sequence)

abbrev JobLogTable := Table JobLogRow.key

/-- The rows that `append_logs` inserts, one statement each. -/
def appendLogs (jobId : String) (lines : List StoredLogLine) : List JobLogRow :=
  lines.map (JobLogRow.mk jobId)

namespace JobLogTable

def linesOf (logs : JobLogTable) (jobId : String) : List StoredLogLine :=
  (logs.rows.filter fun row => row.jobId = jobId).map JobLogRow.line

def jobLog (logs : JobLogTable) (jobId : String) : List StoredLogLine :=
  (logs.linesOf jobId).insertionSort StoredLogLine.NotAfter

def getLogs (logs : JobLogTable) (jobId : String) (tail : ℕ) : List StoredLogLine :=
  let log := logs.jobLog jobId
  log.drop (log.length - tail)

variable {logs : JobLogTable} {jobId : String} {line : StoredLogLine}

theorem mem_linesOf : line ∈ logs.linesOf jobId ↔ ⟨jobId, line⟩ ∈ logs.rows := by
  simp only [linesOf, mem_map, mem_filter, decide_eq_true_eq]
  constructor
  · rintro ⟨row, ⟨mem, rfl⟩, rfl⟩
    exact mem
  · grind

theorem mem_jobLog : line ∈ logs.jobLog jobId ↔ ⟨jobId, line⟩ ∈ logs.rows := by
  rw [jobLog, mem_insertionSort, mem_linesOf]

theorem linesOf_nodup (logs : JobLogTable) (jobId : String) :
    ((logs.linesOf jobId).map StoredLogLine.sequence).Nodup := by
  have keys : ((logs.rows.filter fun row => row.jobId = jobId).map JobLogRow.key).Nodup :=
    logs.nodup.sublist (filter_sublist.map _)
  rw [linesOf, map_map]
  refine .of_map (Prod.mk jobId) ?_
  rw [map_map]
  refine (map_congr_left fun row mem => ?_) ▸ keys
  have own : row.jobId = jobId := by simpa using (mem_filter.mp mem).2
  rw [← own]
  rfl

/-- **No two lines of a log have the same number.** -/
theorem jobLog_ascending (logs : JobLogTable) (jobId : String) :
    (logs.jobLog jobId).Pairwise fun first second => first.sequence < second.sequence := by
  have sorted := pairwise_insertionSort StoredLogLine.NotAfter (logs.linesOf jobId)
  have distinct : ((logs.jobLog jobId).map StoredLogLine.sequence).Nodup :=
    ((perm_insertionSort _ _).map _).nodup_iff.mpr (logs.linesOf_nodup jobId)
  refine (sorted.and (pairwise_map.mp distinct)).imp ?_
  rintro first second ⟨notAfter, other⟩
  exact lt_of_le_of_ne notAfter other

/-- **Lines in ascending order are the log when exactly they are stored.** -/
theorem jobLog_eq (ascending : lines.Pairwise fun first second => first.sequence < second.sequence)
    (stored : ∀ line, ⟨jobId, line⟩ ∈ logs.rows ↔ line ∈ lines) : logs.jobLog jobId = lines := by
  have logged := logs.jobLog_ascending jobId
  have irrefl : ∀ {list : List StoredLogLine},
      list.Pairwise (fun first second => first.sequence < second.sequence) → list.Nodup :=
    fun pairwise => pairwise.imp fun below same => absurd (same ▸ below) (lt_irrefl _)
  have sameLines : (logs.jobLog jobId).Perm lines := by grind [mem_jobLog]
  refine sameLines.eq_of_pairwise (fun first second _ _ below above => ?_) logged ascending
  exact absurd (below.trans above) (lt_irrefl _)

end JobLogTable

end Muli
