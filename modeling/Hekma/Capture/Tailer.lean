/-
**The tailers of an instance** (`ports/process_backend.rs`).

An agent writes to two raw logs, which all the Runs of its instance share.  The tailer of a Run
appends their new lines to the attributed capture: it reads on from a cursor that was set to the
length of the log when the capture was made, a bounded number of bytes and of lines in one pass, and
consumes whole lines only.  When it is told to stop it makes one more pass and exits.

A pass takes nothing from a line that is longer than its window, one last pass may not be enough for
what is left, and a tailer that makes its last pass after the next process was started reads the
lines of that process too.  Where none of this happens, the capture is exact.

Main definitions:

* `tailNewLines` — the code of a pass;
* `Run`, `State`, `step` — the Runs of an instance, their processes and tailers;
* `Orderly` — the conditions on a step;
* `State.Quiet`, `State.Exact` — every tailer has exited; every line is captured once, in order.

Main results:

* `tailNewLines_spec` — what a pass appends and what it leaves;
* `tailNewLines_consumes` — when a pass consumes a line;
* `Caught.act` — what a step of the newest Run keeps;
* `capture_exact` — **the capture of a run** whose steps are orderly.
-/

import Hekma.Capture.AttributedLog
import Hekma.Lib.Guarded

set_option relaxedAutoImplicit false
set_option autoImplicit false

namespace Hekma

namespace Capture

/-! ### A pass -/

/-- What the capture keeps of a line: its text, or the facts about it. -/
inductive LogCaptureMode where
  | full
  | metadata
  deriving DecidableEq, Repr

/-- The two raw logs of an instance. -/
inductive RawLog where
  | stdout
  | stderr
  deriving DecidableEq, Repr

def RawLog.stream : RawLog → LogStream
  | stdout => .agentOut
  | stderr => .agentErr

/-- The name of the instance, the decoding of bytes, the digest, and the JSON text of a record. -/
structure Env where
  instanceName : InstanceName
  fromUtf8Lossy : List UInt8 → String
  sha256 : List UInt8 → String
  toJson : LogRecord → List UInt8

/-- The most bytes that one pass reads. -/
def maxTailBytesPerPass : ℕ := 4 * 1024 * 1024

/-- The most lines that one pass consumes. -/
def maxTailLinesPerPass : ℕ := 2000

/-- `slice::split` at the newlines. -/
def splitNewlines (bytes : List UInt8) : List (List UInt8) :=
  Lines.complete newline bytes ++ [bytes.drop (Lines.whole newline bytes)]

/-- The facts about some bytes. -/
def metadataRecord (env : Env) (stream : LogStream) (at_ : Timestamp) (raw : List UInt8) :
    LogRecord :=
  .metadata {
    schemaVersion := metadataRecordSchemaVersion
    record := "metadata"
    ts := at_
    stream := stream
    attribution := env.instanceName
    byteLen := raw.length
    sha256 := env.sha256 raw }

/-- The records of a consumed window.  An empty line has no facts. -/
def records (env : Env) (mode : LogCaptureMode) (log : RawLog) (at_ : Timestamp)
    (window : List UInt8) : List LogRecord :=
  match mode with
  | .full =>
      (textLines window).map fun line =>
        .line (LogLine.new env.instanceName log.stream (env.fromUtf8Lossy line) at_)
  | .metadata =>
      ((splitNewlines window).filter fun line => !line.isEmpty).map fun line =>
        metadataRecord env log.stream at_ (stripCr line)

/-- Append to the capture. -/
def appendRecords (env : Env) (out : AttributedLog LogRecord) (batch : List LogRecord) :
    AttributedLog LogRecord :=
  out.append (fun record => (env.toJson record).length) batch

/-- One pass over one raw log: the new cursor, and the capture. -/
def tailNewLines (env : Env) (mode : LogCaptureMode) (log : RawLog) (at_ : Timestamp)
    (raw : List UInt8) (cursor : ℕ) (out : AttributedLog LogRecord) :
    ℕ × AttributedLog LogRecord :=
  let len := raw.length
  if len ≤ cursor then
    -- a log that shrank is not read again from its start
    (if len < cursor then len else cursor, out)
  else
    let want := min (len - cursor) maxTailBytesPerPass
    let buf := (raw.drop cursor).take want
    let consumable := Lines.bounded newline maxTailLinesPerPass buf
    if consumable = 0 then (cursor, out)
    else
      (cursor + consumable,
        appendRecords env out (records env mode log at_ (buf.take consumable)))

/-! ### Runs -/

/-- What the thread of a tailer is about to do. -/
inductive Phase where
  | polling
  | lastStdout
  | lastStderr
  | exited
  deriving DecidableEq, Repr

/-- The capture of a Run: the cursors, the stop flag and the thread. -/
structure LogCapture where
  cursors : RawLog → ℕ
  stop : Bool
  phase : Phase

/-- A Run: its process, what that has written so far, and its capture. -/
structure Run where
  mode : LogCaptureMode
  alive : Bool
  written : RawLog → List UInt8
  capture : Option LogCapture

/-- The raw logs of an instance, its Runs and its attributed capture. -/
structure State where
  raw : RawLog → List UInt8
  runs : List Run
  out : AttributedLog LogRecord

/-- What happens to one Run. -/
inductive Event where
  /-- The cursors are read and the thread is started. -/
  | spawnOutputCapture
  /-- The process writes to a log. -/
  | write (log : RawLog) (bytes : List UInt8)
  /-- The process ends. -/
  | exit
  /-- Somebody holds the lock and makes a pass over a log. -/
  | catchUp (log : RawLog) (at_ : Timestamp)
  /-- The engine appends a line of its own. -/
  | engineLine (text : String) (at_ : Timestamp)
  | signalStop
  /-- The thread reads the stop flag. -/
  | observeStop
  /-- The thread makes its last pass, one log after the other. -/
  | lastCatchUp (at_ : Timestamp)

inductive Action where
  | start (mode : LogCaptureMode)
  | run (i : ℕ) (event : Event)

/-- A pass of a capture over one of the logs. -/
def LogCapture.tail (env : Env) (mode : LogCaptureMode) (c : LogCapture) (log : RawLog)
    (at_ : Timestamp) (raw : RawLog → List UInt8) (out : AttributedLog LogRecord) :
    LogCapture × AttributedLog LogRecord :=
  let (cursor, out) := tailNewLines env mode log at_ (raw log) (c.cursors log) out
  ({ c with cursors := Function.update c.cursors log cursor }, out)

/-- The record of a line of the engine. -/
def engineRecord (env : Env) (mode : LogCaptureMode) (text : String) (at_ : Timestamp) :
    LogRecord :=
  match mode with
  | .full => .line (LogLine.new env.instanceName .engine text at_)
  | .metadata => metadataRecord env .engine at_ text.toUTF8.toList

/-- One event of a Run: the raw logs, the capture and the Run after it. -/
def act (env : Env) (raw : RawLog → List UInt8) (out : AttributedLog LogRecord) (r : Run) :
    Event → (RawLog → List UInt8) × AttributedLog LogRecord × Run
  | .spawnOutputCapture =>
      match r.capture with
      | some _ => (raw, out, r)
      | none =>
          (raw, out, { r with capture := some ⟨fun log => (raw log).length, false, .polling⟩ })
  | .write log bytes =>
      if r.alive then
        (Function.update raw log (raw log ++ bytes), out,
          { r with written := Function.update r.written log (r.written log ++ bytes) })
      else (raw, out, r)
  | .exit => (raw, out, { r with alive := false })
  | .catchUp log at_ =>
      match r.capture with
      | none => (raw, out, r)
      | some c =>
          if c.phase = .exited then (raw, out, r)
          else
            let (c, out) := c.tail env r.mode log at_ raw out
            (raw, out, { r with capture := some c })
  | .engineLine text at_ =>
      (raw, appendRecords env out [engineRecord env r.mode text at_], r)
  | .signalStop =>
      match r.capture with
      | none => (raw, out, r)
      | some c =>
          if c.phase = .exited then (raw, out, r)
          else (raw, out, { r with capture := some { c with stop := true } })
  | .observeStop =>
      match r.capture with
      | none => (raw, out, r)
      | some c =>
          if c.phase = .polling ∧ c.stop then
            (raw, out, { r with capture := some { c with phase := .lastStdout } })
          else (raw, out, r)
  | .lastCatchUp at_ =>
      match r.capture with
      | none => (raw, out, r)
      | some c =>
          match c.phase with
          | .lastStdout =>
              let (c, out) := c.tail env r.mode .stdout at_ raw out
              (raw, out, { r with capture := some { c with phase := .lastStderr } })
          | .lastStderr =>
              let (c, out) := c.tail env r.mode .stderr at_ raw out
              (raw, out, { r with capture := some { c with phase := .exited } })
          | _ => (raw, out, r)

/-- One step.  An event of a Run that does not exist changes nothing. -/
def step (env : Env) (s : State) : Action → State
  | .start mode => { s with runs := s.runs ++ [⟨mode, true, fun _ => [], none⟩] }
  | .run i event =>
      match s.runs[i]? with
      | none => s
      | some r =>
          let (raw, out, r) := act env s.raw s.out r event
          ⟨raw, s.runs.set i r, out⟩

/-- An instance whose logs hold what earlier sessions left in them. -/
def State.fresh (raw : RawLog → List UInt8) (out : AttributedLog LogRecord) : State :=
  ⟨raw, [], out⟩

/-! ### What an exact capture is -/

/-- What a record says about a line. -/
def LogRecord.content : LogRecord → String ⊕ (ℕ × String)
  | .line l => .inl l.text
  | .metadata m => .inr (m.byteLen, m.sha256)

/-- What the record of a line has to say. -/
def expected (env : Env) (mode : LogCaptureMode) (line : List UInt8) : String ⊕ (ℕ × String) :=
  match mode with
  | .full => .inl (env.fromUtf8Lossy (stripCr line))
  | .metadata => .inr ((stripCr line).length, env.sha256 (stripCr line))

/-- What was captured of one stream, in order. -/
def contents (log : RawLog) (out : AttributedLog LogRecord) : List (String ⊕ (ℕ × String)) :=
  (out.all.filter fun record => record.stream = log.stream).map LogRecord.content

/-- What has to be captured of a Run. -/
def Run.lines (env : Env) (log : RawLog) (r : Run) : List (String ⊕ (ℕ × String)) :=
  (Lines.complete newline (r.written log)).map (expected env r.mode)

/-- The process is dead and the thread has exited. -/
def Run.Quiet (r : Run) : Prop :=
  r.alive = false ∧ ∃ c, r.capture = some c ∧ c.phase = .exited

instance (r : Run) : Decidable r.Quiet :=
  decidable_of_iff (r.alive = false ∧ (r.capture.any fun c => c.phase = .exited) = true) <| by
    simp [Run.Quiet, Option.any_eq_true]

/-- Every process is dead and every thread has exited. -/
def State.Quiet (s : State) : Prop := ∀ r ∈ s.runs, r.Quiet

instance (s : State) : Decidable s.Quiet := inferInstanceAs (Decidable (∀ r ∈ s.runs, r.Quiet))

/-- Of each stream every line that ended was captured once, in order, after what was there. -/
def State.Exact (env : Env) (out₀ : AttributedLog LogRecord) (s : State) : Prop :=
  ∀ log, contents log s.out = contents log out₀ ++ s.runs.flatMap (Run.lines env log)

/-! ### Orderly steps -/

/-- What a capture has not consumed yet. -/
def LogCapture.unread (raw : RawLog → List UInt8) (c : LogCapture) (log : RawLog) : List UInt8 :=
  (raw log).drop (c.cursors log)

/-- The log that the thread reads next on its last pass. -/
def Phase.last : Phase → Option RawLog
  | polling => none
  | lastStdout => some .stdout
  | lastStderr => some .stderr
  | exited => none

/-- The lines that have ended fit in one pass. -/
def OnePass (unread : List UInt8) : Prop :=
  Lines.whole newline unread ≤ maxTailBytesPerPass ∧
    (Lines.complete newline unread).length ≤ maxTailLinesPerPass

/-- Facts are kept of every line that has ended: none is empty. -/
def Recordable (mode : LogCaptureMode) (unread : List UInt8) : Prop :=
  mode = .metadata → [] ∉ Lines.complete newline unread

/-- The conditions on an event of a Run: the process writes nothing before the cursors are read;
the thread observes a stop after the process has died; what is left fits in the last pass; and a
metadata capture finds no empty line. -/
def Run.Allows (raw : RawLog → List UInt8) (r : Run) : Event → Prop
  | .write _ _ => r.capture.isSome
  | .catchUp log _ => ∀ c, r.capture = some c → Recordable r.mode (c.unread raw log)
  | .observeStop => r.alive = false
  | .lastCatchUp _ => ∀ c log, r.capture = some c → c.phase.last = some log →
      OnePass (c.unread raw log) ∧ Recordable r.mode (c.unread raw log)
  | _ => True

/-- The conditions on a step: a process is started when every earlier one has died and every
earlier thread has exited. -/
def Orderly (s : State) : Action → Prop
  | .start _ => s.Quiet
  | .run i event => ∀ r, s.runs[i]? = some r → r.Allows s.raw event

/-! ### What a pass appends -/

variable {env : Env} {mode : LogCaptureMode} {log other : RawLog} {at_ : Timestamp}
  {raw before rest window : List UInt8} {cursor : ℕ} {out out₀ : AttributedLog LogRecord}

/-- What the records of whole lines say. -/
theorem records_content (h : Lines.Closed newline window) (hempty : Recordable mode window) :
    (records env mode log at_ window).map LogRecord.content =
      (Lines.complete newline window).map (expected env mode) := by
  cases mode with
  | full =>
      simp only [records, textLines_of_closed h, List.map_map]
      rfl
  | metadata =>
      have hall : (Lines.complete newline window).filter (fun line => !line.isEmpty) =
          Lines.complete newline window := by
        refine List.filter_eq_self.2 fun line hline => ?_
        cases line with
        | nil => exact absurd hline (hempty rfl)
        | cons b line => rfl
      simp only [records, splitNewlines, rest_of_closed h, List.filter_append, hall,
        List.map_append, List.map_map]
      exact List.append_nil _

theorem records_stream {record : LogRecord} (h : record ∈ records env mode log at_ window) :
    record.stream = log.stream := by
  cases mode with
  | full =>
      obtain ⟨line, -, rfl⟩ := List.mem_map.1 h
      rfl
  | metadata =>
      obtain ⟨line, -, rfl⟩ := List.mem_map.1 h
      rfl

theorem contents_append (batch : List LogRecord) :
    contents log (appendRecords env out batch) =
      contents log out ++ (batch.filter fun record => record.stream = log.stream).map
        LogRecord.content := by
  rw [contents, appendRecords, AttributedLog.all_append, List.filter_append, List.map_append]
  rfl

theorem RawLog.stream_injective (h : other.stream = log.stream) : other = log := by
  cases other <;> cases log <;> first | rfl | exact absurd h (by decide)

/-- The records of one log are not of the other. -/
theorem contents_records_of_ne (hne : other ≠ log) (batch : List LogRecord)
    (hbatch : ∀ record ∈ batch, record.stream = log.stream) :
    contents other (appendRecords env out batch) = contents other out := by
  have hnone : (batch.filter fun record => record.stream = other.stream) = [] := by
    refine List.filter_eq_nil_iff.2 fun record hrecord hstream => hne ?_
    have hsame := of_decide_eq_true hstream
    rw [hbatch record hrecord] at hsame
    exact (RawLog.stream_injective hsame).symm
  rw [contents_append, hnone]
  exact List.append_nil _

theorem contents_records (h : Lines.Closed newline window) (hempty : Recordable mode window) :
    contents log (appendRecords env out (records env mode log at_ window)) =
      contents log out ++ (Lines.complete newline window).map (expected env mode) := by
  have hall : ((records env mode log at_ window).filter
      fun record => record.stream = log.stream) = records env mode log at_ window :=
    List.filter_eq_self.2 fun record hrecord => decide_eq_true (records_stream hrecord)
  rw [contents_append, hall, records_content h hempty]

/-- A line of the engine is not one of the agent. -/
theorem contents_engineRecord (text : String) :
    contents log (appendRecords env out [engineRecord env mode text at_]) = contents log out := by
  rw [contents_append]
  cases mode <;> cases log <;> exact List.append_nil _

/-- What a pass did: it took whole lines from the front of what was unread, and recorded them. -/
structure Passed (env : Env) (mode : LogCaptureMode) (log : RawLog) (rest : List UInt8)
    (cursor : ℕ) (out : AttributedLog LogRecord) (result : ℕ × AttributedLog LogRecord)
    (taken left : List UInt8) : Prop where
  split : rest = taken ++ left
  cursor_eq : result.1 = cursor + taken.length
  closed : Lines.Closed newline taken
  recorded : contents log result.2 =
    contents log out ++ (Lines.complete newline taken).map (expected env mode)
  frame : ∀ other, other ≠ log → contents other result.2 = contents other out
  drained : OnePass rest → Lines.complete newline left = []

/-- The window of a pass. -/
theorem tail_window (hraw : raw = before ++ rest) (hcursor : cursor = before.length) :
    (raw.drop cursor).take (min (raw.length - cursor) maxTailBytesPerPass) =
      rest.take maxTailBytesPerPass := by
  subst hraw hcursor
  rw [List.drop_left, List.length_append, Nat.add_sub_cancel_left, List.take_eq_take_iff]
  omega

/-- **What a pass appends and what it leaves.** -/
theorem tailNewLines_spec (env : Env) (log : RawLog) (at_ : Timestamp)
    (out : AttributedLog LogRecord) (hraw : raw = before ++ rest) (hcursor : cursor = before.length)
    (hempty : Recordable mode rest) : ∃ taken left, Passed env mode log rest cursor out
      (tailNewLines env mode log at_ raw cursor out) taken left := by
  have hlen : raw.length = cursor + rest.length := by
    rw [hraw, List.length_append, hcursor]
  -- a pass that reads nothing leaves cursor and log alone
  have hnothing : ∀ result : ℕ × AttributedLog LogRecord, result = (cursor, out) →
      (OnePass rest → Lines.complete newline rest = []) →
      ∃ taken left, Passed env mode log rest cursor out result taken left := by
    rintro result rfl hdrained
    exact ⟨[], rest, rfl, rfl, .inl rfl, (List.append_nil _).symm, fun _ _ => rfl, hdrained⟩
  unfold tailNewLines
  dsimp only
  by_cases hle : raw.length ≤ cursor
  · have hrest : rest = [] := List.eq_nil_of_length_eq_zero (by omega)
    rw [if_pos hle, if_neg (by omega)]
    exact hnothing _ rfl fun _ => by rw [hrest]; rfl
  · rw [if_neg hle, tail_window hraw hcursor]
    have hbuf := Lines.complete_bounded newline maxTailLinesPerPass
      (rest.take maxTailBytesPerPass)
    -- a rest that fits in one pass is read to its last whole line
    have hall : OnePass rest → (Lines.complete newline (rest.take maxTailBytesPerPass)).take
        maxTailLinesPerPass = Lines.complete newline rest := by
      rintro ⟨hbytes, hlines⟩
      rw [Lines.complete_window hbytes, List.take_of_length_le hlines]
    split
    · rename_i hzero
      refine hnothing _ rfl fun hone => ?_
      rw [← hall hone, ← hbuf.2, hzero]
      rfl
    · -- the window is read up to the newline of its last whole line
      generalize hk : Lines.bounded newline maxTailLinesPerPass
        (rest.take maxTailBytesPerPass) = k at hbuf
      have hkle : k ≤ maxTailBytesPerPass := by
        have hle := Lines.bounded_le newline maxTailLinesPerPass
          (rest.take maxTailBytesPerPass)
        rw [hk, List.length_take] at hle
        omega
      have htake : (rest.take maxTailBytesPerPass).take k = rest.take k := by
        rw [List.take_take, Nat.min_eq_left hkle]
      have hklen : (rest.take k).length = k := by
        have hle := Lines.bounded_le newline maxTailLinesPerPass
          (rest.take maxTailBytesPerPass)
        rw [hk, List.length_take] at hle
        rw [List.length_take]
        omega
      rw [htake] at hbuf ⊢
      have hsplit : Lines.complete newline rest =
          Lines.complete newline (rest.take k) ++ Lines.complete newline (rest.drop k) := by
        rw [← Lines.complete_append hbuf.1, List.take_append_drop]
      have hrecordable : Recordable mode (rest.take k) := by
        intro hmode hmem
        refine hempty hmode ?_
        rw [hsplit]
        exact List.mem_append_left _ hmem
      refine ⟨rest.take k, rest.drop k, (List.take_append_drop k rest).symm, ?_, hbuf.1,
        contents_records hbuf.1 hrecordable, fun other hne => ?_, fun hone => ?_⟩
      · rw [hklen]
      · exact contents_records_of_ne hne _ fun record hrecord => records_stream hrecord
      · rw [hbuf.2, hall hone] at hsplit
        exact List.self_eq_append_right.1 hsplit

/-- **When a pass consumes a line**: exactly when the first unread line fits in its window. -/
theorem tailNewLines_consumes (env : Env) (mode : LogCaptureMode) (log : RawLog) (at_ : Timestamp)
    (raw : List UInt8) (cursor : ℕ) (out : AttributedLog LogRecord) :
    cursor < (tailNewLines env mode log at_ raw cursor out).1 ↔
      ∃ line ∈ (Lines.complete newline (raw.drop cursor)).head?,
        line.length < maxTailBytesPerPass := by
  rw [← Lines.complete_window_ne_nil]
  unfold tailNewLines
  dsimp only
  by_cases hle : raw.length ≤ cursor
  · rw [if_pos hle, List.drop_eq_nil_of_le hle]
    split
    · simp [Lines.complete]
      omega
    · simp [Lines.complete]
  · have hlen : cursor = (raw.take cursor).length := by
      rw [List.length_take]
      omega
    have hwindow := tail_window (List.take_append_drop cursor raw).symm hlen
    rw [if_neg hle, hwindow]
    generalize (raw.drop cursor).take maxTailBytesPerPass = buf
    have hpos : 0 < Lines.bounded newline maxTailLinesPerPass buf ↔
        Lines.complete newline buf ≠ [] := by
      constructor
      · intro hpos hnone
        have hends : Lines.ends newline buf = [] :=
          List.eq_nil_of_length_eq_zero (by rw [Lines.length_ends, hnone]; rfl)
        rw [Lines.bounded, hends] at hpos
        exact absurd hpos (by simp)
      · exact Lines.bounded_pos (by decide)
    rw [← hpos]
    split
    · rename_i hzero
      rw [hzero]
      simp
    · simp

/-! ### What a step of the newest Run keeps -/

/-- The thread has made its last pass over the log. -/
def Phase.drained : Phase → RawLog → Bool
  | exited, _ => true
  | lastStderr, .stdout => true
  | _, _ => false

/-- How a raw log is divided: what was there before the process, what the capture has consumed of
what the process wrote, and what it has not. -/
structure Divided (env : Env) (already : List (String ⊕ (ℕ × String)))
    (raw : RawLog → List UInt8) (out : AttributedLog LogRecord) (r : Run) (c : LogCapture)
    (log : RawLog) (base consumed rest : List UInt8) : Prop where
  raw_eq : raw log = base ++ (consumed ++ rest)
  written_eq : r.written log = consumed ++ rest
  cursor_eq : c.cursors log = (base ++ consumed).length
  closed : Lines.Closed newline consumed
  recorded : contents log out =
    already ++ (Lines.complete newline consumed).map (expected env r.mode)
  drained : c.phase.drained log = true → Lines.complete newline rest = []

/-- The newest Run: nothing was written before its cursors were read, each log is divided, and the
process is dead once the thread has observed a stop. -/
structure Caught (env : Env) (already : RawLog → List (String ⊕ (ℕ × String)))
    (raw : RawLog → List UInt8) (out : AttributedLog LogRecord) (r : Run) : Prop where
  unanchored : r.capture = none →
    ∀ log, r.written log = [] ∧ contents log out = already log
  divided : ∀ c, r.capture = some c → ∀ log, ∃ base consumed rest,
    Divided env (already log) raw out r c log base consumed rest
  dead : ∀ c, r.capture = some c → c.phase ≠ .polling → r.alive = false

section Act

variable {already : RawLog → List (String ⊕ (ℕ × String))} {raws : RawLog → List UInt8} {r : Run}
  {c : LogCapture} {phase : Phase}

theorem Divided.unread_eq {base consumed : List UInt8}
    (h : Divided env (already log) raws out r c log base consumed rest) :
    c.unread raws log = rest := by
  rw [LogCapture.unread, h.raw_eq, h.cursor_eq, ← List.append_assoc, List.drop_left]

/-- **A pass** moves whole lines from what is left to what was consumed. -/
theorem Caught.tail (h : Caught env already raws out r) (phase : Phase)
    (hc : r.capture = some c) (at_ : Timestamp)
    (hrecordable : Recordable r.mode (c.unread raws log))
    (hself : phase.drained log = true → OnePass (c.unread raws log) ∨ c.phase.drained log = true)
    (hother : ∀ other, other ≠ log → phase.drained other = true → c.phase.drained other = true)
    (hdead : phase ≠ .polling → r.alive = false) :
    Caught env already raws (c.tail env r.mode log at_ raws out).2
      { r with
        capture := some { (c.tail env r.mode log at_ raws out).1 with phase := phase } } := by
  refine ⟨fun hnone => absurd hnone (by simp), ?_, ?_⟩
  · rintro c' hc' other
    obtain rfl := Option.some.inj hc'
    obtain ⟨base, consumed, rest, hdiv⟩ := h.divided c hc log
    rw [hdiv.unread_eq] at hrecordable hself
    have hraw : raws log = (base ++ consumed) ++ rest := by
      rw [hdiv.raw_eq, List.append_assoc]
    obtain ⟨taken, left, hpass⟩ := tailNewLines_spec env log at_ out hraw hdiv.cursor_eq hrecordable
    by_cases hlog : other = log
    · -- the log of the pass: what it took moves from the rest to the consumed part
      subst hlog
      have hclosed := hdiv.closed.append hpass.closed
      have hlines : Lines.complete newline rest =
          Lines.complete newline taken ++ Lines.complete newline left := by
        rw [hpass.split, Lines.complete_append hpass.closed]
      refine ⟨base, consumed ++ taken, left, ?_, ?_, ?_, hclosed, ?_, fun hdrained => ?_⟩
      · rw [hdiv.raw_eq, hpass.split, List.append_assoc]
      · rw [hdiv.written_eq, hpass.split, List.append_assoc]
      · have hcursor : (c.tail env r.mode other at_ raws out).1.cursors other =
            (tailNewLines env r.mode other at_ (raws other) (c.cursors other) out).1 :=
          Function.update_self _ _ _
        change (c.tail env r.mode other at_ raws out).1.cursors other = _
        rw [hcursor, hpass.cursor_eq, hdiv.cursor_eq, ← List.append_assoc, ← List.length_append]
      · change contents other (tailNewLines env r.mode other at_ (raws other) (c.cursors other)
          out).2 = _
        rw [hpass.recorded, hdiv.recorded, Lines.complete_append hdiv.closed, List.map_append,
          List.append_assoc]
      · rcases hself hdrained with hone | hdrained
        · exact hpass.drained hone
        · rw [hdiv.drained hdrained] at hlines
          exact (List.append_eq_nil_iff.1 hlines.symm).2
    · -- the other log is framed
      obtain ⟨base', consumed', rest', hdiv'⟩ := h.divided c hc other
      refine ⟨base', consumed', rest', hdiv'.raw_eq, hdiv'.written_eq, ?_, hdiv'.closed, ?_,
        fun hdrained => hdiv'.drained (hother other hlog hdrained)⟩
      · have hcursor : (c.tail env r.mode log at_ raws out).1.cursors other = c.cursors other :=
          Function.update_of_ne hlog _ _
        exact hcursor.trans hdiv'.cursor_eq
      · exact (hpass.frame other hlog).trans hdiv'.recorded
  · rintro c' hc' hphase
    obtain rfl := Option.some.inj hc'
    exact hdead hphase

theorem Caught.out_congr {out' : AttributedLog LogRecord} (h : Caught env already raws out r)
    (hout : ∀ log, contents log out' = contents log out) : Caught env already raws out' r := by
  refine ⟨fun hnone log => ?_, fun c hc log => ?_, h.dead⟩
  · rw [hout]
    exact h.unanchored hnone log
  · obtain ⟨base, consumed, rest, hdiv⟩ := h.divided c hc log
    refine ⟨base, consumed, rest, hdiv.raw_eq, hdiv.written_eq, hdiv.cursor_eq, hdiv.closed, ?_,
      hdiv.drained⟩
    rw [hout]
    exact hdiv.recorded

/-- The cursors are read while nothing is written. -/
theorem Caught.spawnOutputCapture (h : Caught env already raws out r) (hnone : r.capture = none) :
    Caught env already raws out
      { r with capture := some ⟨fun log => (raws log).length, false, .polling⟩ } := by
  refine ⟨fun hsome => absurd hsome (by simp), ?_, ?_⟩
  · rintro c hc log
    obtain rfl := Option.some.inj hc
    obtain ⟨hwritten, hcontents⟩ := h.unanchored hnone log
    refine ⟨raws log, [], [], by simp, hwritten, by simp, .inl rfl, ?_, fun _ => rfl⟩
    rw [hcontents]
    exact (List.append_nil _).symm
  · rintro c hc hphase
    obtain rfl := Option.some.inj hc
    exact absurd rfl hphase

/-- What the process writes is left to read: its thread is still polling. -/
theorem Caught.write (h : Caught env already raws out r) (hc : r.capture = some c)
    (halive : r.alive = true) (log : RawLog) (bytes : List UInt8) :
    Caught env already (Function.update raws log (raws log ++ bytes)) out
      { r with written := Function.update r.written log (r.written log ++ bytes) } := by
  -- a thread past its polling phase has seen the process dead
  have hpolling : c.phase = .polling := by
    by_contra hphase
    rw [h.dead c hc hphase] at halive
    exact absurd halive (by decide)
  refine ⟨fun hnone => absurd (hc.symm.trans hnone) (by simp), ?_, fun c' hc' => h.dead c' hc'⟩
  rintro c' hc' other
  obtain rfl : c = c' := Option.some.inj (hc.symm.trans hc')
  obtain ⟨base, consumed, rest, hdiv⟩ := h.divided c hc other
  have hnot : ∀ {P : Prop}, c.phase.drained other = true → P := by
    rw [hpolling]
    exact fun hdrained => absurd hdrained (by cases other <;> decide)
  by_cases hlog : other = log
  · subst hlog
    refine ⟨base, consumed, rest ++ bytes, ?_, ?_, hdiv.cursor_eq, hdiv.closed, hdiv.recorded, hnot⟩
    · rw [Function.update_self, hdiv.raw_eq]
      simp only [List.append_assoc]
    · change Function.update r.written other (r.written other ++ bytes) other = _
      rw [Function.update_self, hdiv.written_eq, List.append_assoc]
  · refine ⟨base, consumed, rest, ?_, ?_, hdiv.cursor_eq, hdiv.closed, hdiv.recorded, hnot⟩
    · rw [Function.update_of_ne hlog]
      exact hdiv.raw_eq
    · change Function.update r.written log (r.written log ++ bytes) other = _
      rw [Function.update_of_ne hlog]
      exact hdiv.written_eq

/-- The stop flag and the phase of the thread do not touch the logs. -/
theorem Caught.phase_congr {c' : LogCapture} (h : Caught env already raws out r)
    (hc : r.capture = some c) (hcursors : c'.cursors = c.cursors)
    (hdrained : ∀ log, c'.phase.drained log = true → c.phase.drained log = true)
    (hdead : c'.phase ≠ .polling → r.alive = false) :
    Caught env already raws out { r with capture := some c' } := by
  refine ⟨fun hnone => absurd hnone (by simp), ?_, ?_⟩
  · rintro c'' hc'' log
    obtain rfl := Option.some.inj hc''
    obtain ⟨base, consumed, rest, hdiv⟩ := h.divided c hc log
    refine ⟨base, consumed, rest, hdiv.raw_eq, hdiv.written_eq, ?_, hdiv.closed, hdiv.recorded,
      fun hd => hdiv.drained (hdrained log hd)⟩
    rw [hcursors]
    exact hdiv.cursor_eq
  · rintro c'' hc'' hphase
    obtain rfl := Option.some.inj hc''
    exact hdead hphase

/-- **What an orderly event of the newest Run keeps.** -/
theorem Caught.act {event : Event} (h : Caught env already raws out r)
    (hallows : r.Allows raws event) :
    Caught env already (act env raws out r event).1 (act env raws out r event).2.1
      (act env raws out r event).2.2 := by
  cases event with
  | spawnOutputCapture =>
      simp only [Capture.act]
      cases hc : r.capture with
      | none => exact h.spawnOutputCapture hc
      | some c => exact h
  | write log bytes =>
      simp only [Capture.act]
      split
      · rename_i halive
        obtain ⟨c, hc⟩ := Option.isSome_iff_exists.1 hallows
        exact h.write hc halive log bytes
      · exact h
  | exit =>
      refine ⟨h.unanchored, fun c hc log => ?_, fun _ _ _ => rfl⟩
      obtain ⟨base, consumed, rest, hdiv⟩ := h.divided c hc log
      exact ⟨base, consumed, rest, hdiv.raw_eq, hdiv.written_eq, hdiv.cursor_eq, hdiv.closed,
        hdiv.recorded, hdiv.drained⟩
  | catchUp log at_ =>
      simp only [Capture.act]
      cases hc : r.capture with
      | none => exact h
      | some c =>
          dsimp only
          split
          · exact h
          · exact h.tail c.phase hc at_ (hallows c hc) (fun hd => .inr hd)
              (fun _ _ hd => hd) (h.dead c hc)
  | engineLine text at_ => exact h.out_congr fun log => contents_engineRecord text
  | signalStop =>
      simp only [Capture.act]
      cases hc : r.capture with
      | none => exact h
      | some c =>
          dsimp only
          split
          · exact h
          · exact h.phase_congr hc rfl (fun _ hd => hd) (h.dead c hc)
  | observeStop =>
      simp only [Capture.act]
      cases hc : r.capture with
      | none => exact h
      | some c =>
          dsimp only
          split
          · refine h.phase_congr hc rfl (fun log hd => ?_) fun _ => hallows
            -- no log is drained yet when the last passes begin
            cases log <;> cases hd
          · exact h
  | lastCatchUp at_ =>
      simp only [Capture.act]
      cases hc : r.capture with
      | none => exact h
      | some c =>
          dsimp only
          cases hphase : c.phase with
          | lastStdout =>
              -- the guard makes one pass enough for what is left of this log
              obtain ⟨hone, hrec⟩ := hallows c .stdout hc (by rw [hphase]; rfl)
              refine h.tail .lastStderr hc at_ hrec (fun _ => .inl hone)
                (fun other hne hd => ?_) fun _ => h.dead c hc (by rw [hphase]; decide)
              cases other <;> first | exact absurd rfl hne | exact absurd hd (by decide)
          | lastStderr =>
              obtain ⟨hone, hrec⟩ := hallows c .stderr hc (by rw [hphase]; rfl)
              refine h.tail .exited hc at_ hrec (fun _ => .inl hone)
                (fun other hne hd => ?_) fun _ => h.dead c hc (by rw [hphase]; decide)
              cases other <;> first | exact absurd rfl hne | rw [hphase]; rfl
          | _ => exact h

/-- A Run whose thread has exited has captured what its process wrote. -/
theorem Caught.exact (h : Caught env already raws out r) (hquiet : r.Quiet) (log : RawLog) :
    contents log out = already log ++ r.lines env log := by
  obtain ⟨-, c, hc, hexited⟩ := hquiet
  obtain ⟨base, consumed, rest, hdiv⟩ := h.divided c hc log
  have hnone : Lines.complete newline rest = [] := hdiv.drained (by rw [hexited]; rfl)
  rw [hdiv.recorded, Run.lines, hdiv.written_eq, Lines.complete_append hdiv.closed, hnone,
    List.append_nil]

/-- Nothing that happens to a Run whose thread has exited touches a log. -/
theorem act_of_quiet (env : Env) (raws : RawLog → List UInt8) (out : AttributedLog LogRecord)
    (hquiet : r.Quiet) (event : Event) :
    (Capture.act env raws out r event).1 = raws ∧
      (Capture.act env raws out r event).2.2 = r ∧
      ∀ log, contents log (Capture.act env raws out r event).2.1 = contents log out := by
  obtain ⟨hdead, c, hc, hexited⟩ := hquiet
  cases event with
  | engineLine text at_ => exact ⟨rfl, rfl, fun log => contents_engineRecord text⟩
  | exit =>
      refine ⟨rfl, ?_, fun log => rfl⟩
      change { r with alive := false } = r
      rw [← hdead]
  | _ => simp [Capture.act, hdead, hc, hexited]

end Act

/-! ### Runs of the instance -/

/-- Every Run but the newest is over and was captured; the newest one is being captured. -/
def Inv (env : Env) (out₀ : AttributedLog LogRecord) (s : State) : Prop :=
  (s.runs = [] ∧ ∀ log, contents log s.out = contents log out₀) ∨
  ∃ earlier r, s.runs = earlier ++ [r] ∧ (∀ q ∈ earlier, q.Quiet) ∧
    Caught env (fun log => contents log out₀ ++ earlier.flatMap (Run.lines env log))
      s.raw s.out r

theorem Inv.exact {s : State} (h : Inv env out₀ s) (hquiet : s.Quiet) : s.Exact env out₀ := by
  intro log
  rcases h with ⟨hnone, hcontents⟩ | ⟨earlier, r, hruns, -, hcaught⟩
  · rw [hnone, hcontents]
    exact (List.append_nil _).symm
  · have hr : r.Quiet := hquiet r (by rw [hruns]; simp)
    rw [hcaught.exact hr, hruns, List.flatMap_append, List.append_assoc]
    simp

/-- **What an orderly step keeps.** -/
theorem Inv.step {s : State} {a : Action} (h : Inv env out₀ s) (horderly : Orderly s a) :
    Inv env out₀ (step env s a) := by
  cases a with
  | start mode =>
      refine .inr ⟨s.runs, ⟨mode, true, fun _ => [], none⟩, rfl, horderly, ?_⟩
      refine ⟨fun _ log => ⟨rfl, h.exact horderly log⟩, fun c hc => ?_, fun c hc => ?_⟩
      · exact absurd hc (by simp)
      · exact absurd hc (by simp)
  | run i event =>
      simp only [Capture.step]
      cases hi : s.runs[i]? with
      | none => exact h
      | some r =>
          dsimp only
          rcases h with ⟨hnone, -⟩ | ⟨earlier, newest, hruns, hquiet, hcaught⟩
          · rw [hnone] at hi
            exact absurd hi (by simp)
          rcases Nat.lt_trichotomy i earlier.length with hlt | rfl | hgt
          · -- an event of a Run that is over
            have hr : r ∈ earlier := by
              rw [hruns, List.getElem?_append_left hlt] at hi
              exact List.mem_of_getElem? hi
            obtain ⟨hraw, hsame, hout⟩ := act_of_quiet env s.raw s.out
              (hquiet r hr) event
            have hset : s.runs.set i r = s.runs := by
              obtain ⟨hlen, hget⟩ := List.getElem?_eq_some_iff.1 hi
              rw [← hget, List.set_getElem_self]
            refine .inr ⟨earlier, newest, ?_, hquiet, ?_⟩
            · dsimp only
              rw [hsame, hset, hruns]
            · dsimp only
              rw [hraw]
              exact hcaught.out_congr hout
          · -- an event of the newest Run
            obtain rfl : newest = r := by
              rw [hruns] at hi
              simpa using hi
            refine .inr ⟨earlier, (Capture.act env s.raw s.out newest event).2.2, ?_, hquiet,
              hcaught.act (horderly newest hi)⟩
            dsimp only
            rw [hruns, List.set_append_right _ _ (Nat.le_refl _), Nat.sub_self]
            rfl
          · rw [hruns, List.getElem?_eq_none (by simp; omega)] at hi
            exact absurd hi (by simp)

/-- **The capture of a run** whose steps are orderly is exact whenever every process is dead and
every thread has exited; and a pass consumes a line exactly when the first unread one, with its
newline, fits in the window. -/
theorem capture_exact (env : Env) (raw : RawLog → List UInt8) (out₀ : AttributedLog LogRecord)
    (as : List Action) (hmeets : Guarded.Meets (step env) Orderly (State.fresh raw out₀) as) :
    (∀ t ∈ Guarded.states (step env) (State.fresh raw out₀) as, t.Quiet → t.Exact env out₀) ∧
    ∀ mode log at_ raw cursor out,
      cursor < (tailNewLines env mode log at_ raw cursor out).1 ↔
        ∃ line ∈ (Lines.complete newline (raw.drop cursor)).head?,
          line.length < maxTailBytesPerPass := by
  refine ⟨fun t ht hquiet => ?_, fun mode log at_ raw cursor out =>
    tailNewLines_consumes env mode log at_ raw cursor out⟩
  have hfresh : Inv env out₀ (State.fresh raw out₀) := .inl ⟨rfl, fun _ => rfl⟩
  have hinv : Inv env out₀ t :=
    Guarded.invariant (fun _ _ h horderly => h.step horderly) hfresh hmeets ht
  exact hinv.exact hquiet

/-- An environment for lines of ASCII letters: the JSON text of such a line needs no escape. -/
def plain : Env where
  instanceName := "a"
  fromUtf8Lossy bytes := String.ofList (bytes.map fun b => Char.ofNat b.toNat)
  sha256 _ := ""
  toJson
    | .line l => ("\x7b\"schema_version\":1,\"instance\":\"" ++ l.instanceName ++
        "\",\"stream\":\"agent-out\",\"at\":\"" ++ l.at_ ++ "\",\"text\":\"" ++ l.text ++
        "\"\x7d").toUTF8.toList
    | .metadata _ => []

/-- One Run that writes a line and dies. -/
def oneRun : List Action :=
  [.start .full, .run 0 .spawnOutputCapture, .run 0 (.write .stdout [97, 10]), .run 0 .exit,
    .run 0 .signalStop, .run 0 .observeStop, .run 0 (.lastCatchUp "1"), .run 0 (.lastCatchUp "1")]

/-- A Run whose thread makes its last pass after the next process has written a line. -/
def latePass : List Action :=
  [.start .full, .run 0 .spawnOutputCapture, .run 0 .exit, .run 0 .signalStop,
    .start .full, .run 1 .spawnOutputCapture, .run 1 (.write .stdout [97, 10]),
    .run 0 .observeStop, .run 0 (.lastCatchUp "1"), .run 0 (.lastCatchUp "1"),
    .run 1 .exit, .run 1 .signalStop, .run 1 .observeStop, .run 1 (.lastCatchUp "2"),
    .run 1 (.lastCatchUp "2")]

/-- The line of the one Run is captured. -/
theorem capture_exact_once :
    (oneRun.foldl (step plain) (State.fresh (fun _ => []) .empty)).Exact plain .empty := by
  have hmeets : Guarded.Meets (step plain) Orderly (State.fresh (fun _ => []) .empty) oneRun := by
    refine ⟨fun r hr => absurd hr List.not_mem_nil, fun r hr => ?_, fun r hr => ?_, fun r hr => ?_,
      fun r hr => ?_, fun r hr => ?_, fun r hr => ?_, fun r hr => ?_, trivial⟩ <;>
      obtain rfl := Option.some.inj hr
    · trivial
    · rfl
    · trivial
    · trivial
    · rfl
    · rintro c log hc hlog
      obtain rfl := Option.some.inj hc
      obtain rfl := Option.some.inj hlog
      exact ⟨⟨by decide, by decide⟩, fun hmode => absurd hmode (by decide)⟩
    · rintro c log hc hlog
      obtain rfl := Option.some.inj hc
      obtain rfl := Option.some.inj hlog
      exact ⟨⟨by decide, by decide⟩, fun hmode => absurd hmode (by decide)⟩
  exact (capture_exact plain (fun _ => []) .empty oneRun hmeets).1 _ Guarded.last_mem_states
    (by decide +kernel)

/-- A log whose only line is as long as the window. -/
def longLine : List UInt8 := Lines.terminated newline [List.replicate maxTailBytesPerPass 97]

theorem complete_longLine :
    Lines.complete newline longLine = [List.replicate maxTailBytesPerPass 97] := by
  refine Lines.complete_terminated fun line hline hmem => ?_
  obtain rfl := List.mem_singleton.1 hline
  exact absurd (List.eq_of_mem_replicate hmem) (by decide)

/-- **A line is captured twice** when the thread of the Run before makes its last pass after it was
written; and a pass over a log whose only line is as long as the window consumes nothing. -/
theorem late_pass_duplicates :
    (¬ ∀ as, ∀ t ∈ Guarded.states (step plain) (State.fresh (fun _ => []) .empty) as,
      t.Quiet → t.Exact plain .empty) ∧
    ¬ ∀ raw, Lines.complete newline raw ≠ [] →
      0 < (tailNewLines plain .full .stdout "1" raw 0 .empty).1 := by
  constructor
  · intro hall
    have hexact := hall latePass _ Guarded.last_mem_states (by decide +kernel) .stdout
    revert hexact
    decide +kernel
  · intro hall
    have hpass := hall longLine (by rw [complete_longLine]; simp)
    obtain ⟨line, hline, hshort⟩ := (tailNewLines_consumes _ _ _ _ _ _ _).1 hpass
    rw [List.drop_zero, complete_longLine] at hline
    obtain rfl := Option.some.inj hline
    rw [List.length_replicate] at hshort
    exact absurd hshort (Nat.lt_irrefl _)

end Capture

end Hekma
