/-
**From the container's output back to substeps.**

The output comes in frames of lines, each with a timestamp before it and carriage returns after it.
The collector takes the markers out of the lines and keeps track of the substep that runs.

* `jobLog_roundTrip` — **what the script of a job prints comes back as its timeline**: the substeps
  with their names and exit codes, and every other line under the substep that printed it.
-/

import Muli.Core.Resources
import Muli.Data.Radix64
import Muli.Engine.JobScript
import Muli.Engine.Logs

namespace Muli

open List

/-! ### Lines -/

/-- A line without the carriage return of its line ending. -/
def stripReturn (line : List Char) : List Char :=
  if line.getLast? = some '\r' then line.dropLast else line

/-- `lines()`: what stands between line breaks; nothing follows the last one. -/
def textLines (text : List Char) : List (List Char) :=
  let pieces := text.splitOn '\n'
  (if pieces.getLast? = some [] then pieces.dropLast else pieces).map stripReturn

/-- `trim_end_matches('\r')`. -/
def trimReturns (line : List Char) : List Char := line.rdropWhile (· = '\r')

/-- `parse::<i32>`. -/
def parseI32 (text : List Char) : Option ℤ :=
  match text with
  | [] | ['+'] | ['-'] => none
  | '-' :: digits => (parseDigits 0 digits).toOption.bind fun n => if n ≤ 2 ^ 31 then
      some (-(n : ℤ)) else none
  | '+' :: digits => (parseDigits 0 digits).toOption.bind fun n => if n < 2 ^ 31 then
      some (n : ℤ) else none
  | digits => (parseDigits 0 digits).toOption.bind fun n => if n < 2 ^ 31 then
      some (n : ℤ) else none

/-! ### Markers -/

inductive ParsedControl where
  | visible
  | substepStarted (name : String)
  | substepFinished (name : String) (exitCode : ℤ)
deriving DecidableEq, Repr

/-- What follows a marker and a bar. -/
def afterMarker (marker : String) (line : List Char) : Option (List Char) :=
  if (marker ++ "|").toList <+: line then some (line.drop (marker ++ "|").toList.length) else none

section Parsing

variable (base64 : Base64)

def decodeSubstepName (value : List Char) : Option String := base64.decode (String.ofList value)

/-- A line without its timestamp. -/
def parseNormalized (normalized : List Char) : ParsedControl :=
  match afterMarker substepStartMarker normalized with
  | some payload =>
    match decodeSubstepName base64 payload with
    | some name => .substepStarted name
    | none => .visible
  | none =>
    match (afterMarker substepFinishMarker normalized).bind (Text.splitFirst ['|']) with
    | some (encodedName, exitCode) =>
      match decodeSubstepName base64 encodedName, parseI32 exitCode with
      | some name, some code => .substepFinished name code
      | _, _ => .visible
    | none => .visible

/-- What a line says, after its first space if it has one. -/
def parseControlMarker (line : List Char) : ParsedControl :=
  parseNormalized base64 (((Text.splitFirst [' '] line).map Prod.snd).getD line)

/-- The substep that runs, and the number of the next line; `clock` says when each line is read. -/
structure CollectState where
  currentSubstep : Option String := none
  sequence : ℕ := 0

variable (clock : ℕ → Timestamp) (stream : LogStream)

def parseLine (rawLine : List Char) (state : CollectState) : Option LogLine × CollectState :=
  let lineText := trimReturns rawLine
  if lineText = [] then (none, state)
  else
    let timestamp := clock state.sequence
    let sequence := state.sequence
    match parseControlMarker base64 lineText with
    | .substepStarted name =>
      (some { sequence, timestamp, stream, message := "", substepName := some name
              eventType := "substep_started", exitCode := none },
        ⟨some name, sequence + 1⟩)
    | .substepFinished name exitCode =>
      (some { sequence, timestamp, stream, message := "", substepName := some name
              eventType := "substep_finished", exitCode := some exitCode },
        ⟨none, sequence + 1⟩)
    | .visible =>
      (some { sequence, timestamp, stream, message := String.ofList lineText
              substepName := state.currentSubstep, eventType := "line", exitCode := none },
        ⟨state.currentSubstep, sequence + 1⟩)

def parseLines : List (List Char) → CollectState → List LogLine × CollectState
  | [], state => ([], state)
  | rawLine :: later, state =>
    let (line, state) := parseLine base64 clock stream rawLine state
    let (lines, state) := parseLines later state
    (line.toList ++ lines, state)

def parseOutputLines (text : String) (state : CollectState) : List LogLine × CollectState :=
  parseLines base64 clock stream (textLines text.toList) state

def collect : List (LogStream × String) → CollectState → List LogLine × CollectState
  | [], state => ([], state)
  | (stream, text) :: later, state =>
    let (lines, state) := parseOutputLines base64 clock stream text state
    let (others, state) := collect later state
    (lines ++ others, state)

/-! ### What the parsing of a line depends on -/

theorem parseLines_cons (rawLine : List Char) (later : List (List Char)) (state : CollectState) :
    parseLines base64 clock stream (rawLine :: later) state =
      ((parseLine base64 clock stream rawLine state).1.toList ++
          (parseLines base64 clock stream later (parseLine base64 clock stream rawLine state).2).1,
        (parseLines base64 clock stream later (parseLine base64 clock stream rawLine state).2).2) :=
        rfl

theorem parseLines_congr (same : rawLines.map trimReturns = rawLines'.map trimReturns)
    (state : CollectState) :
    parseLines base64 clock stream rawLines state = parseLines base64 clock stream rawLines'
    state := by
  induction rawLines generalizing rawLines' state with
  | nil => rw [map_eq_nil_iff.mp same.symm]
  | cons rawLine later ih =>
    obtain ⟨rawLine', later', rfl, sameFirst, sameLater⟩ := map_eq_cons_iff.mp same.symm
    rw [parseLines_cons, parseLines_cons, ih sameLater.symm]
    unfold parseLine
    rw [sameFirst]

theorem parseLines_append_empty (rawLines : List (List Char)) (state : CollectState) :
    parseLines base64 clock stream (rawLines ++ [[]]) state =
      parseLines base64 clock stream rawLines state := by
  induction rawLines generalizing state with
  | nil => rfl
  | cons rawLine later ih => rw [cons_append, parseLines_cons, parseLines_cons, ih]

theorem trimReturns_stripReturn (line : List Char) :
    trimReturns (stripReturn line) = trimReturns line := by
  unfold stripReturn
  split_ifs with isReturn
  · obtain ⟨before, rfl⟩ := getLast?_eq_some_iff.mp isReturn
    rw [dropLast_concat]
    exact (Text.rdropWhile_append_of_forall (by simp) before).symm
  · rfl

/-- **A frame is parsed as the texts between its line breaks.** -/
theorem parseOutputLines_eq (text : String) (state : CollectState) :
    parseOutputLines base64 clock stream text state =
      parseLines base64 clock stream (text.toList.splitOn '\n') state := by
  have stripped : ∀ pieces : List (List Char),
      (pieces.map stripReturn).map trimReturns = pieces.map trimReturns := fun pieces => by
    rw [map_map]
    exact map_congr_left fun line _ => trimReturns_stripReturn line
  unfold parseOutputLines textLines
  rw [parseLines_congr base64 clock stream (stripped _)]
  split_ifs with isEmpty
  · grind [getLast?_eq_some_iff, parseLines_append_empty]
  · rfl

end Parsing

/-! ### How lines come from the container -/

/-- What is put around a line on its way: a timestamp and carriage returns. -/
structure Delivery where
  stamp : String
  returns : ℕ
  noSpace : ' ' ∉ stamp.toList
  noNewline : '\n' ∉ stamp.toList

def Delivery.raw (delivery : Delivery) (line : String) : List Char :=
  delivery.stamp.toList ++ ' ' :: (line.toList ++ replicate delivery.returns '\r')

/-- Some lines that come together; the last line break may be missing. -/
structure Frame where
  stream : LogStream
  lines : List (Delivery × String)
  terminated : Bool

def Frame.text (frame : Frame) : String :=
  String.ofList (['\n'].intercalate (frame.lines.map (fun line => line.1.raw line.2) ++
    if frame.terminated then [[]] else []))

theorem Delivery.trimReturns_raw (delivery : Delivery) (line : String) :
    trimReturns (delivery.raw line) = delivery.stamp.toList ++ ' ' :: trimReturns line.toList := by
  unfold Delivery.raw trimReturns
  rw [Text.rdropWhile_append_cons (by decide), Text.rdropWhile_append_of_forall]
  intro c mem
  simp [eq_of_mem_replicate mem]

theorem Delivery.not_mem_raw (delivery : Delivery) (oneLine : '\n' ∉ line.toList) :
    '\n' ∉ delivery.raw line := by
  simp [Delivery.raw, delivery.noNewline, oneLine]

section Frames

variable (base64 : Base64) (clock : ℕ → Timestamp)

theorem parseOutputLines_frame {frame : Frame}
    (oneLine : ∀ line ∈ frame.lines, '\n' ∉ line.2.toList)
    (state : CollectState) : parseOutputLines base64 clock frame.stream frame.text state =
      parseLines base64 clock frame.stream (frame.lines.map fun line => line.1.raw line.2)
      state := by
  rw [parseOutputLines_eq, Frame.text, String.toList_ofList]
  generalize isRaws : frame.lines.map (fun line => line.1.raw line.2) = raws
  have noBreak : ∀ raw ∈ raws, '\n' ∉ raw := by
    intro raw isRaw
    rw [← isRaws] at isRaw
    obtain ⟨line, isLine, rfl⟩ := mem_map.mp isRaw
    exact line.1.not_mem_raw (oneLine line isLine)
  cases frame.terminated with
  | true =>
    have noBreak' : ∀ raw ∈ raws ++ [[]], '\n' ∉ raw := by
      intro raw isRaw
      rcases mem_append.mp isRaw with isRaw | isEmpty
      · exact noBreak raw isRaw
      · simp_all
    rw [if_pos rfl, splitOn_intercalate '\n' noBreak' (by simp), parseLines_append_empty]
  | false =>
    rw [if_neg Bool.false_ne_true, append_nil]
    cases raws with
    | nil => rfl
    | cons raw raws => rw [splitOn_intercalate '\n' noBreak (cons_ne_nil _ _)]

end Frames

/-! ### The line of an event -/

theorem afterMarker_append (marker : String) (payload : List Char) :
    afterMarker marker ((marker ++ "|").toList ++ payload) = some payload := by
  unfold afterMarker
  rw [if_pos (prefix_append _ _), drop_left]

theorem afterMarker_eq_none (other : ¬ marker.toList <+: line) :
    afterMarker marker line = none := by
  refine if_neg fun starts => other ?_
  rw [String.toList_append] at starts
  exact (prefix_append _ _).trans starts

theorem parseI32_repr (code : UInt8) : parseI32 code.toNat.repr.toList = some (code.toNat : ℤ) := by
  have all : ∀ n : ℕ, n < 256 → parseI32 n.repr.toList = some (n : ℤ) := by decide +kernel
  exact all code.toNat code.toNat_lt

namespace JobEvent

/-- The line is not one that the job could have printed to pass for a marker. -/
def Harmless : JobEvent → Prop
  | line _ text => '\n' ∉ text.toList ∧ ¬ substepStartMarker.toList <+: text.toList ∧
      ¬ substepFinishMarker.toList <+: text.toList
  | _ => True

/-- The event can happen while this substep runs. -/
def Fits (current : Option String) : JobEvent → Prop
  | line substep _ => substep = current
  | _ => True

def next (current : Option String) : JobEvent → Option String
  | started name => some name
  | line .. => current
  | finished .. => none

/-- What is kept of an event: the message, the substep, the type and the exit code. -/
def content (delivery : Delivery) : JobEvent → String × Option String × String × Option ℤ
  | started name => ("", some name, "substep_started", none)
  | line substep text =>
    (delivery.stamp ++ " " ++ String.ofList (trimReturns text.toList), substep, "line", none)
  | finished name code => ("", some name, "substep_finished", some code.toNat)

end JobEvent

def LogLine.content (line : LogLine) : String × Option String × String × Option ℤ :=
  (line.message, line.substepName, line.eventType, line.exitCode)

section Events

variable (base64 : Base64) (clock : ℕ → Timestamp) (stream : LogStream)

theorem not_mem_finished (isOther : c = '\n' ∨ c = '\r') (name : String) (code : UInt8) :
    c ∉ (base64.finishText name ++ "|" ++ code.toNat.repr).toList := by
  have digits : ∀ n : ℕ, n < 256 → '\n' ∉ n.repr.toList ∧ '\r' ∉ n.repr.toList := by decide +kernel
  have bar : '\n' ∉ "|".toList ∧ '\r' ∉ "|".toList := by decide
  rw [String.toList_append, String.toList_append, mem_append, mem_append, not_or, not_or]
  refine ⟨⟨(not_mem_marker (.inr isOther) base64 name).2, ?_⟩, ?_⟩
  · grind
  · rcases isOther with rfl | rfl
    exacts [(digits _ code.toNat_lt).1, (digits _ code.toNat_lt).2]

theorem trimReturns_of_not_mem (plain : '\r' ∉ line) : trimReturns line = line := by
  refine Text.rdropWhile_of_forall_not fun c mem => decide_eq_false ?_
  rintro rfl
  exact plain mem

theorem parseControlMarker_delivered (delivery : Delivery) (line : List Char) :
    parseControlMarker base64 (delivery.stamp.toList ++ ' ' :: line) =
    parseNormalized base64 line := by
  unfold parseControlMarker
  rw [Text.splitFirst_singleton delivery.noSpace]
  rfl

theorem parseNormalized_started (name : String) :
    parseNormalized base64 (base64.startLine name).toList = .substepStarted name := by
  unfold parseNormalized decodeSubstepName Base64.startLine
  rw [String.toList_append, afterMarker_append]
  dsimp only
  rw [String.ofList_toList, base64.decode_encode]

theorem parseNormalized_finished (name : String) (code : UInt8) :
    parseNormalized base64 (base64.finishText name ++ "|" ++ code.toNat.repr).toList =
      .substepFinished name code.toNat := by
  have isLine : (base64.finishText name ++ "|" ++ code.toNat.repr).toList =
      (substepFinishMarker ++ "|").toList ++
        ((base64.encode name).toList ++ '|' :: code.toNat.repr.toList) := by
    simp [Base64.finishText]
  have notStart : ¬ substepStartMarker.toList <+: (substepFinishMarker ++ "|").toList ++
      ((base64.encode name).toList ++ '|' :: code.toNat.repr.toList) := fun starts =>
    absurd (prefix_of_prefix_length_le starts (prefix_append _ _) (by decide +kernel))
      (by decide +kernel)
  have noBar : '|' ∉ (base64.encode name).toList := base64.not_mem_encode (by decide) name
  unfold parseNormalized decodeSubstepName
  rw [isLine, afterMarker_eq_none notStart, afterMarker_append]
  dsimp only [Option.bind_some]
  rw [Text.splitFirst_singleton noBar]
  dsimp only
  rw [String.ofList_toList, base64.decode_encode, parseI32_repr]

theorem parseNormalized_visible (notStart : ¬ substepStartMarker.toList <+: line)
    (notFinish : ¬ substepFinishMarker.toList <+: line) :
    parseNormalized base64 line = .visible := by
  unfold parseNormalized
  rw [afterMarker_eq_none notStart, afterMarker_eq_none notFinish]
  rfl

theorem JobEvent.oneLine {event : JobEvent} (harmless : event.Harmless) :
    '\n' ∉ (event.printed base64).toList := by
  cases event with
  | started name => exact (not_mem_marker (.inr (.inl rfl)) base64 name).1
  | line substep text => exact harmless.1
  | finished name code => exact not_mem_finished base64 (.inl rfl) name code

/-- **The line of an event is read as the event**, where the substep that runs is known. -/
theorem parseLine_event {event : JobEvent} (harmless : event.Harmless)
    (fits : event.Fits state.currentSubstep) (delivery : Delivery) :
    ∃ line, parseLine base64 clock stream (delivery.raw (event.printed base64)) state =
        (some line, ⟨event.next state.currentSubstep, state.sequence + 1⟩) ∧
      line.content = event.content delivery := by
  have nonempty : delivery.stamp.toList ++ ' ' :: trimReturns (event.printed base64).toList ≠
      [] := by
    simp
  unfold parseLine
  rw [delivery.trimReturns_raw, if_neg nonempty, parseControlMarker_delivered]
  cases event with
  | started name =>
    have plain := (not_mem_marker (.inr (.inr rfl)) base64 name).1
    rw [JobEvent.printed, trimReturns_of_not_mem plain, parseNormalized_started]
    exact ⟨_, rfl, rfl⟩
  | line substep text =>
    obtain ⟨-, notStart, notFinish⟩ := harmless
    have shorter : trimReturns text.toList <+: text.toList := rdropWhile_prefix _ _
    rw [JobEvent.printed,
      parseNormalized_visible base64 (fun starts => notStart (starts.trans shorter))
      fun starts => notFinish (starts.trans shorter)]
    refine ⟨_, rfl, ?_⟩
    obtain rfl : substep = state.currentSubstep := fits
    simp [LogLine.content, JobEvent.content, String.ofList_append, String.ofList_cons,
      String.append_assoc]
  | finished name code =>
    have plain := not_mem_finished base64 (.inr rfl) name code
    rw [JobEvent.printed, trimReturns_of_not_mem plain, parseNormalized_finished]
    exact ⟨_, rfl, rfl⟩

/-! ### The log of a job -/

/-- Every event fits the substep that the earlier ones leave running, and passes for no marker. -/
def Consistent : Option String → List JobEvent → Prop
  | _, [] => True
  | current, event :: later =>
    event.Harmless ∧ event.Fits current ∧ Consistent (event.next current) later

def lastSubstep (current : Option String) (events : List JobEvent) : Option String :=
  events.foldl JobEvent.next current

theorem consistent_append : Consistent current (events ++ later) ↔
      Consistent current events ∧ Consistent (lastSubstep current events) later := by
  induction events generalizing current with
  | nil => simp [Consistent, lastSubstep]
  | cons event events ih =>
    rw [cons_append, Consistent, Consistent, ih, and_assoc, and_assoc]
    rfl

theorem parseLines_events (printed : lines.map Prod.snd = events.map (JobEvent.printed base64))
    {state : CollectState} (consistent : Consistent state.currentSubstep events) :
    (parseLines base64 clock stream (lines.map fun line => line.1.raw line.2) state).1.map
        LogLine.content = zipWith (fun line event => event.content line.1) lines events ∧
      (parseLines base64 clock stream (lines.map fun line => line.1.raw line.2)
        state).2.currentSubstep = lastSubstep state.currentSubstep events := by
  induction lines generalizing events state with
  | nil =>
    rw [map_eq_nil_iff.mp printed.symm]
    exact ⟨rfl, rfl⟩
  | cons line lines ih =>
    obtain ⟨event, later, rfl, isFirst, isLater⟩ := map_eq_cons_iff.mp printed.symm
    obtain ⟨harmless, fits, consistentLater⟩ := consistent
    obtain ⟨logged, parsed, content⟩ :=
      parseLine_event base64 clock stream harmless fits line.1
    rw [isFirst] at parsed
    obtain ⟨contents, last⟩ := @ih later isLater.symm
      ⟨event.next state.currentSubstep, state.sequence + 1⟩ consistentLater
    rw [map_cons, parseLines_cons, parsed]
    exact ⟨congrArg₂ cons content contents, last⟩

theorem Consistent.harmless (consistent : Consistent current events) :
    ∀ event ∈ events, event.Harmless := by
  induction events generalizing current with
  | nil => exact fun event mem => absurd mem not_mem_nil
  | cons first later ih =>
    intro event mem
    rcases mem_cons.mp mem with rfl | isLater
    · exact consistent.1
    · exact ih consistent.2.2 event isLater

/-- **Frames with the lines of some events are read as the events.** -/
theorem collect_events {frames : List Frame}
    (printed : frames.flatMap (fun frame => frame.lines.map Prod.snd) =
    events.map (JobEvent.printed base64)) (consistent : Consistent state.currentSubstep events) :
    (collect base64 clock (frames.map fun frame => (frame.stream, frame.text)) state).1.map
    LogLine.content =
      zipWith (fun line event => event.content line.1) (frames.flatMap Frame.lines) events := by
  induction frames generalizing events state with
  | nil =>
    rfl
  | cons frame frames ih =>
    obtain ⟨now, later, rfl, isNow, isLater⟩ := map_eq_append_iff.mp printed.symm
    obtain ⟨consistentNow, consistentLater⟩ := consistent_append.mp consistent
    have oneLine : ∀ line ∈ frame.lines, '\n' ∉ line.2.toList := by
      intro line isLine
      have isText : line.2 ∈ now.map (JobEvent.printed base64) := by grind
      obtain ⟨event, isEvent, same⟩ := mem_map.mp isText
      rw [← same]
      exact JobEvent.oneLine base64 (consistentNow.harmless event isEvent)
    have sameLength : frame.lines.length = now.length := by
      simpa using congrArg length isNow.symm
    obtain ⟨contents, last⟩ :=
      parseLines_events base64 clock frame.stream isNow.symm consistentNow
    rw [← last] at consistentLater
    rw [flatMap_cons, zipWith_append sameLength, map_cons, collect,
      parseOutputLines_frame base64 clock oneLine]
    rw [map_append, contents, ih isLater.symm consistentLater]

end Events

section Timelines

variable {behave : ℕ → Outcome}

/-- No line that the commands print starts with the text of a marker. -/
def NoMarkers (behave : ℕ → Outcome) : Prop :=
  ∀ n, ∀ line ∈ (behave n).lines,
    ¬ substepStartMarker.toList <+: line.toList ∧ ¬ substepFinishMarker.toList <+: line.toList

section

variable (noMarkers : NoMarkers behave)
include noMarkers

theorem consistent_lines (n : ℕ) (substep : Option String)
    (consistent : Consistent substep later) :
    Consistent substep ((behave n).lines.map (.line substep) ++ later) := by
  have harmless : ∀ line ∈ (behave n).lines, (JobEvent.line substep line).Harmless :=
    fun line isLine =>
    ⟨(behave n).noNewline line isLine, noMarkers n line isLine⟩
  generalize (behave n).lines = lines at harmless ⊢
  induction lines with
  | nil => exact consistent
  | cons line lines ih =>
    refine ⟨harmless line mem_cons_self, rfl, ih fun other mem => ?_⟩
    exact harmless other (.tail _ mem)

theorem consistent_substepEvents (n : ℕ) (current : Option String)
    (substeps : List JobSubstepSpec) : Consistent current (substepEvents behave n substeps) := by
  induction substeps generalizing n current with
  | nil => trivial
  | cons substep later ih =>
    refine ⟨trivial, trivial, consistent_lines noMarkers n _ ⟨trivial, trivial, ?_⟩⟩
    split_ifs
    · exact ih (n + 1) none
    · trivial

theorem consistent_timeline (spec : JobSpec) :
    Consistent none (timeline behave spec) := by
  unfold timeline
  split_ifs
  · rw [← append_nil (map _ _)]
    exact consistent_lines noMarkers 0 none trivial
  · exact consistent_substepEvents noMarkers 0 none spec.substeps

end

end Timelines

/-- **What the script of a job prints comes back as its timeline.** However its lines are put into
frames, with whatever timestamps and carriage returns, the substeps come back with their names and
exit codes in order, and every other line comes back under the substep that printed it, with its
timestamp and without carriage returns at its end. -/
theorem jobLog_roundTrip (base64 : Base64) (spec : JobSpec) (behave : ℕ → Outcome)
    (noMarkers : NoMarkers behave) (clock : ℕ → Timestamp) (frames : List Frame)
    (delivered : frames.flatMap (fun frame => frame.lines.map Prod.snd) =
      (runScript behave (statements base64 spec) {}).output) :
    String.join ((statements base64 spec).map Statement.render) = buildJobScript base64 spec ∧
      (collect base64 clock (frames.map fun frame => (frame.stream, frame.text)) {}).1.map
      LogLine.content =
        zipWith (fun line event => event.content line.1) (frames.flatMap Frame.lines)
          (timeline behave spec) := by
  rw [output_runScript] at delivered
  exact ⟨render_statements base64 spec,
    collect_events base64 clock delivered (consistent_timeline noMarkers spec)⟩

/-- Base64 of the UTF-8 bytes. -/
def standardBase64 : Base64 where
  encode name := String.ofList (Radix64.encode name.toByteArray.data.toList)
  decode text := (Radix64.decode text.toList).bind fun bytes => String.fromUTF8? ⟨bytes.toArray⟩
  decode_encode name := by
    rw [String.toList_ofList, Radix64.decode_encode]
    exact dif_pos name.isValidUTF8
  alphabet name := by
    rw [String.toList_ofList]
    exact Radix64.mem_encode _

example : standardBase64.encode "Build & test" = "QnVpbGQgJiB0ZXN0" := by decide +kernel

def greeting : Outcome := ⟨["hello"], 0, by decide⟩

def fromTerminal (line : String) : Frame :=
  ⟨.stdout, [(⟨"2026-01-01T00:00:00Z", 1, by decide, by decide⟩, line)], true⟩

def greetingSpec : JobSpec where
  tenantId := "tenant"
  priorityTier := .standard
  substeps := [⟨"Build", ["echo hello"]⟩]

theorem jobLog_roundTrip_greeting :
    (collect standardBase64 (fun _ => 0)
      (((runScript (fun _ => greeting) (statements standardBase64 greetingSpec)
        {}).output.map fromTerminal).map fun frame => (frame.stream, frame.text)) {}).1.map
        LogLine.content =
      [("", some "Build", "substep_started", none),
        ("2026-01-01T00:00:00Z hello", some "Build", "line", none),
        ("", some "Build", "substep_finished", some 0)] := by
  have noMarkers : ∀ line ∈ greeting.lines, ¬ substepStartMarker.toList <+: line.toList ∧
      ¬ substepFinishMarker.toList <+: line.toList := by decide +kernel
  have roundTrip := jobLog_roundTrip standardBase64 greetingSpec (fun _ => greeting)
    (fun _ => noMarkers) (fun _ => 0)
    ((runScript (fun _ => greeting) (statements standardBase64 greetingSpec) {}).output.map
    fromTerminal) (by simp [flatMap_map, fromTerminal])
  exact roundTrip.2.trans (by decide +kernel)

end Muli
