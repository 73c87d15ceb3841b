/-
**The attributed capture** (`domain/event.rs`, `ports/process_backend.rs`).

The output of an instance is kept as one record a line, each record in JSON.  Before a batch of
records is appended the current file is rotated if it has reached its size: it becomes the first
generation, the first becomes the second, and the second is thrown away.

Main definitions:

* `LogStream`, `LogLine`, `MetadataLogRecord`, `LogRecord` — what is appended;
* `textLines` — the lines of a text;
* `AttributedLog` — the current file, its generations, and what rotation has thrown away;
* `AttributedLog.append` — the code.

Main results:

* `AttributedLog.all_append` — a batch follows everything that was appended before it.
-/

import Hekma.Domain.Runs.Record
import Hekma.Lib.Lines

set_option relaxedAutoImplicit false
set_option autoImplicit false

namespace Hekma

namespace Capture

/-! ### Records -/

/-- Which stream a line came from. -/
inductive LogStream where
  | agentOut
  | agentErr
  | engine
  deriving DecidableEq, Repr

def logSchemaVersion : ℕ := 1

/-- A captured line with its text. -/
structure LogLine where
  schemaVersion : ℕ
  instanceName : String
  stream : LogStream
  at_ : Timestamp
  text : String
  deriving DecidableEq, Repr

def LogLine.new (instanceName : String) (stream : LogStream) (text : String) (at_ : Timestamp) :
    LogLine :=
  ⟨logSchemaVersion, instanceName, stream, at_, text⟩

def metadataRecordSchemaVersion : ℕ := 1

/-- The facts about a captured line, without its text. -/
structure MetadataLogRecord where
  schemaVersion : ℕ
  record : String
  ts : Timestamp
  stream : LogStream
  attribution : String
  byteLen : ℕ
  sha256 : String
  deriving DecidableEq, Repr

/-- A record of the capture. -/
inductive LogRecord where
  | line (l : LogLine)
  | metadata (m : MetadataLogRecord)
  deriving DecidableEq, Repr

def LogRecord.stream : LogRecord → LogStream
  | line l => l.stream
  | metadata m => m.stream

/-! ### Text -/

def newline : UInt8 := 10

/-- A line without the carriage return before its newline. -/
def stripCr (line : List UInt8) : List UInt8 :=
  if line.getLast? = some 13 then line.dropLast else line

/-- `str::lines`.  A newline is never inside a character, so the lines are split before they are
decoded. -/
def textLines (bytes : List UInt8) : List (List UInt8) :=
  let rest := bytes.drop (Lines.whole newline bytes)
  (Lines.complete newline bytes).map stripCr ++ if rest.isEmpty then [] else [rest]

variable {bytes : List UInt8}

theorem rest_of_closed (h : Lines.Closed newline bytes) :
    bytes.drop (Lines.whole newline bytes) = [] := by
  rw [Lines.whole_of_closed h, List.drop_length]

theorem textLines_of_closed (h : Lines.Closed newline bytes) :
    textLines bytes = (Lines.complete newline bytes).map stripCr := by
  simp only [textLines, rest_of_closed h, List.isEmpty_nil, if_true, List.append_nil]

/-! ### The rotated file -/

/-- The size at which the current file is rotated. -/
def logRotateMaxBytes : ℕ := 10 * 1024 * 1024

def shouldRotate (currentLen : ℕ) : Bool := logRotateMaxBytes ≤ currentLen

/-- The current file and its two generations, and the records that no file holds any more. -/
structure AttributedLog (α : Type) where
  current : List α
  one : List α
  two : List α
  discarded : List α
  deriving DecidableEq, Repr

namespace AttributedLog

variable {α : Type}

/-- A capture before any record. -/
def empty : AttributedLog α := ⟨[], [], [], []⟩

/-- Every record that was ever appended, in order. -/
def all (log : AttributedLog α) : List α := log.discarded ++ log.two ++ log.one ++ log.current

/-- The size of the current file: every record, and its newline. -/
def currentLen (size : α → ℕ) (log : AttributedLog α) : ℕ :=
  (log.current.map fun record => size record + 1).sum

/-- Discard the oldest generation and shift the others up. -/
def rotateGenerations (log : AttributedLog α) : AttributedLog α :=
  ⟨[], log.current, log.one, log.discarded ++ log.two⟩

/-- The check before a batch. -/
def prepare (size : α → ℕ) (log : AttributedLog α) : AttributedLog α :=
  if shouldRotate (log.currentLen size) then log.rotateGenerations else log

/-- The write of a batch. -/
def write (log : AttributedLog α) (batch : List α) : AttributedLog α :=
  { log with current := log.current ++ batch }

/-- Append a batch of records. -/
def append (size : α → ℕ) (log : AttributedLog α) (batch : List α) : AttributedLog α :=
  if batch.isEmpty then log else (log.prepare size).write batch

theorem all_rotateGenerations (log : AttributedLog α) : log.rotateGenerations.all = log.all := by
  simp [all, rotateGenerations]

@[simp] theorem all_prepare (size : α → ℕ) (log : AttributedLog α) :
    (log.prepare size).all = log.all := by
  unfold prepare
  split
  · exact all_rotateGenerations log
  · rfl

@[simp] theorem all_write (log : AttributedLog α) (batch : List α) :
    (log.write batch).all = log.all ++ batch := by
  simp [all, write]

/-- **A batch follows** everything that was appended before it. -/
theorem all_append (size : α → ℕ) (log : AttributedLog α) (batch : List α) :
    (log.append size batch).all = log.all ++ batch := by
  unfold append
  split
  · rename_i hempty
    rw [List.isEmpty_iff.1 hempty, List.append_nil]
  · rw [all_write, all_prepare]

end AttributedLog

end Capture

end Hekma
