/-
**The shell script of a job.**

Each substep of a job runs in a subshell, between two lines that mark its start and its end; the
script stops after the first substep that fails.

* `output_runScript` — **the script prints the timeline.**
-/

import Muli.Core.Job

namespace Muli

open List

def substepStartMarker : String := "__MULI_SUBSTEP_START__"

def substepFinishMarker : String := "__MULI_SUBSTEP_FINISH__"

/-- Standard base64, of which two things are used: it can be undone, and its characters. -/
structure Base64 where
  encode : String → String
  /-- The name that was encoded, if the text is base64 and what it stands for is UTF-8. -/
  decode : String → Option String
  decode_encode : ∀ name, decode (encode name) = some name
  alphabet : ∀ name, ∀ c ∈ (encode name).toList, c.isAlphanum ∨ c = '+' ∨ c = '/' ∨ c = '='

namespace Base64

variable (base64 : Base64)

theorem not_mem_encode (other : c.isAlphanum = false ∧ c ≠ '+' ∧ c ≠ '/' ∧ c ≠ '=')
    (name : String) : c ∉ (base64.encode name).toList := by
  intro mem
  rcases base64.alphabet name c mem with alphanum | plus | slash | equals
  · rw [other.1] at alphanum
    cases alphanum
  · exact other.2.1 plus
  · exact other.2.2.1 slash
  · exact other.2.2.2 equals

def startLine (name : String) : String := substepStartMarker ++ "|" ++ base64.encode name

def finishText (name : String) : String := substepFinishMarker ++ "|" ++ base64.encode name

end Base64

/-! ### The text -/

def commandLines (commands : List String) : String := String.join (commands.map (· ++ "\n"))

def substepScript (base64 : Base64) (substep : JobSubstepSpec) : String :=
  "printf '%s\\n' '" ++ substepStartMarker ++ "|" ++ base64.encode substep.name ++ "'\n" ++
    "(\nset -e\n" ++ commandLines substep.commands ++ ")\n" ++ "status=$?\n" ++
    "printf '%s|%s\\n' '" ++ substepFinishMarker ++ "|" ++ base64.encode substep.name ++
    "' \"$status\"\n" ++ "if [ \"$status\" -ne 0 ]; then\n  exit \"$status\"\nfi\n"

/-- **The script that runs in the container.** -/
def buildJobScript (base64 : Base64) (spec : JobSpec) : String :=
  if spec.substeps.isEmpty then "set -e\n" ++ commandLines spec.commands
  else String.join (spec.substeps.map (substepScript base64))

/-! ### Its statements -/

/-- A text that stands between single quotes and is printed on one line. -/
structure QuotedLine where
  text : String
  noQuote : '\x27' ∉ text.toList
  noNewline : '\n' ∉ text.toList

inductive Statement where
  | printLine (line : QuotedLine)
  /-- The commands in a subshell, up to the first that fails. -/
  | subshell (commands : List String)
  /-- `status=$?`. -/
  | saveStatus
  /-- `printf` of a text and the saved status. -/
  | printStatus (line : QuotedLine)
  /-- `exit` with the saved status unless it is 0. -/
  | exitIfFailed
  /-- The commands in the shell itself, up to the first that fails. -/
  | body (commands : List String)

def Statement.render : Statement → String
  | printLine line => "printf '%s\\n' '" ++ line.text ++ "'\n"
  | subshell commands => "(\nset -e\n" ++ commandLines commands ++ ")\n"
  | saveStatus => "status=$?\n"
  | printStatus line => "printf '%s|%s\\n' '" ++ line.text ++ "' \"$status\"\n"
  | exitIfFailed => "if [ \"$status\" -ne 0 ]; then\n  exit \"$status\"\nfi\n"
  | body commands => "set -e\n" ++ commandLines commands

theorem not_mem_marker (isOther : c = '\x27' ∨ c = '\n' ∨ c = '\r') (base64 : Base64)
    (name : String) : c ∉ (base64.startLine name).toList ∧ c ∉ (base64.finishText name).toList := by
  have encoded : c ∉ (base64.encode name).toList := by
    refine base64.not_mem_encode ?_ name
    rcases isOther with rfl | rfl | rfl <;> decide
  unfold Base64.startLine Base64.finishText
  simp only [String.toList_append, mem_append, not_or]
  refine ⟨⟨?_, encoded⟩, ⟨?_, encoded⟩⟩ <;> rcases isOther with rfl | rfl | rfl <;> decide +kernel

def startQuoted (base64 : Base64) (name : String) : QuotedLine where
  text := base64.startLine name
  noQuote := (not_mem_marker (.inl rfl) base64 name).1
  noNewline := (not_mem_marker (.inr (.inl rfl)) base64 name).1

def finishQuoted (base64 : Base64) (name : String) : QuotedLine where
  text := base64.finishText name
  noQuote := (not_mem_marker (.inl rfl) base64 name).2
  noNewline := (not_mem_marker (.inr (.inl rfl)) base64 name).2

def substepStatements (base64 : Base64) (substep : JobSubstepSpec) : List Statement :=
  [.printLine (startQuoted base64 substep.name), .subshell substep.commands, .saveStatus,
    .printStatus (finishQuoted base64 substep.name), .exitIfFailed]

def statements (base64 : Base64) (spec : JobSpec) : List Statement :=
  if spec.substeps.isEmpty then [.body spec.commands]
  else spec.substeps.flatMap (substepStatements base64)

theorem render_substepStatements (base64 : Base64) (substep : JobSubstepSpec) :
    String.join ((substepStatements base64 substep).map Statement.render) =
    substepScript base64 substep := by
  unfold substepStatements substepScript
  rw [map_cons, map_cons, map_cons, map_cons, map_cons, map_nil,
    String.join_cons, String.join_cons, String.join_cons, String.join_cons, String.join_cons,
    String.join_nil, String.append_empty]
  unfold Statement.render
  dsimp only [startQuoted, finishQuoted, Base64.startLine, Base64.finishText]
  simp only [String.append_assoc]

/-- **The statements are those of the text.** -/
theorem render_statements (base64 : Base64) (spec : JobSpec) :
    String.join ((statements base64 spec).map Statement.render) = buildJobScript base64 spec := by
  unfold statements buildJobScript
  split_ifs
  · rfl
  · induction spec.substeps with
    | nil => rfl
    | cons substep substeps ih =>
      rw [flatMap_cons, map_append, String.join_append, render_substepStatements, ih,
        map_cons, String.join_cons]

/-! ### What it prints -/

/-- What some commands do: the lines they print, and the status they end with. -/
structure Outcome where
  lines : List String
  code : UInt8
  noNewline : ∀ line ∈ lines, '\n' ∉ line.toList

structure ShellState where
  output : List String := []
  /-- `$?`. -/
  lastStatus : UInt8 := 0
  status : UInt8 := 0
  ran : ℕ := 0
  exited : Bool := false

section Running

variable (behave : ℕ → Outcome)

/-- Commands of the job run; `behave` says what they do the `n`-th time. -/
def ShellState.runCommands (shell : ShellState) : ShellState :=
  { shell with
    output := shell.output ++ (behave shell.ran).lines
    lastStatus := (behave shell.ran).code
    ran := shell.ran + 1 }

def ShellState.print (shell : ShellState) (line : String) : ShellState :=
  { shell with output := shell.output ++ [line], lastStatus := 0 }

def Statement.exec : Statement → ShellState → ShellState
  | printLine line, shell => shell.print line.text
  | subshell _, shell => shell.runCommands behave
  | saveStatus, shell => { shell with status := shell.lastStatus, lastStatus := 0 }
  | printStatus line, shell => shell.print (line.text ++ "|" ++ shell.status.toNat.repr)
  | exitIfFailed, shell => { shell with exited := shell.status ≠ 0 }
  | body _, shell => shell.runCommands behave

def runScript (script : List Statement) (shell : ShellState) : ShellState :=
  script.foldl (fun shell statement => if shell.exited then shell else statement.exec behave shell)
    shell

theorem runScript_append (script script' : List Statement) (shell : ShellState) :
    runScript behave (script ++ script') shell =
    runScript behave script' (runScript behave script shell) :=
  foldl_append

variable {shell : ShellState}

theorem runScript_exited (exited : shell.exited = true) (script : List Statement) :
    runScript behave script shell = shell := by
  induction script with
  | nil => rfl
  | cons statement script ih => grind [runScript]

/-! ### The timeline -/

inductive JobEvent where
  | started (name : String)
  /-- A line is printed while a substep runs, or while there is none. -/
  | line (substep : Option String) (text : String)
  | finished (name : String) (code : UInt8)

/-- The substeps in their order, up to the first that fails; the `n`-th commands are the next to
run. -/
def substepEvents (n : ℕ) : List JobSubstepSpec → List JobEvent
  | [] => []
  | substep :: later =>
    .started substep.name :: (behave n).lines.map (.line (some substep.name)) ++
      .finished substep.name (behave n).code ::
        if (behave n).code = 0 then substepEvents (n + 1) later else []

/-- **What happens in a job**: its substeps, or the lines of its commands when it has none. -/
def timeline (spec : JobSpec) : List JobEvent :=
  if spec.substeps.isEmpty then (behave 0).lines.map (.line none)
    else substepEvents behave 0 spec.substeps

def JobEvent.printed (base64 : Base64) : JobEvent → String
  | started name => base64.startLine name
  | line _ text => text
  | finished name code => base64.finishText name ++ "|" ++ code.toNat.repr

theorem map_printed (base64 : Base64) (substep : Option String) (lines : List String) :
    lines.map (JobEvent.printed base64 ∘ JobEvent.line substep) = lines := map_id lines

theorem runScript_substepStatements (base64 : Base64) (substep : JobSubstepSpec)
    (running : shell.exited = false) :
    runScript behave (substepStatements base64 substep) shell =
      { output := shell.output ++ ([base64.startLine substep.name] ++ (behave shell.ran).lines ++
          [base64.finishText substep.name ++ "|" ++ (behave shell.ran).code.toNat.repr])
        lastStatus := 0
        status := (behave shell.ran).code
        ran := shell.ran + 1
        exited := (behave shell.ran).code ≠ 0 } := by
  simp [runScript, substepStatements, Statement.exec, ShellState.print,
    ShellState.runCommands, running, startQuoted, finishQuoted]

theorem output_substeps (base64 : Base64) (substeps : List JobSubstepSpec)
    (running : shell.exited = false) :
    (runScript behave (substeps.flatMap (substepStatements base64)) shell).output =
      shell.output ++ (substepEvents behave shell.ran substeps).map (JobEvent.printed base64) := by
  induction substeps generalizing shell with
  | nil => simp [runScript, substepEvents]
  | cons substep later ih =>
    rw [flatMap_cons, runScript_append, runScript_substepStatements behave base64 substep running,
      substepEvents]
    by_cases succeeded : (behave shell.ran).code = 0
    · rw [if_pos succeeded, ih (by simp [succeeded])]
      simp [JobEvent.printed, map_printed]
    · -- the shell has exited
      rw [if_neg succeeded, runScript_exited behave (by simp [succeeded])]
      simp [JobEvent.printed, map_printed]

/-- **The script prints the timeline.** -/
theorem output_runScript (base64 : Base64) (spec : JobSpec) :
    (runScript behave (statements base64 spec) {}).output =
      (timeline behave spec).map (JobEvent.printed base64) := by
  unfold statements timeline
  split_ifs
  · rw [map_map, map_printed]
    rfl
  · exact output_substeps behave base64 spec.substeps rfl

end Running

end Muli
