/-
**`agent logs --follow`** (`cli/agent.rs`, `domain/supervisor/interaction.rs`).

The command polls two files.  The attributed capture holds what the tailer of a Service Host has
recorded.  The raw log of the agent is read as well if, at the start of the command, no host held a
live capture of the instance.  Each poll reads the one, then the other, then the state of the
instance; when that is not running any more, a final drain of both follows.

Main definitions:

* `readRawOutputSince` — one read of the raw log;
* `Files` — the files, the state of the instance and the clock;
* `Follower`, `Follower.poll` — the command, one read or check at a time.

Main results:

* `readRawOutputSince_eq` — what a read of the raw log delivers;
* `Follower.readLog_text` — what a read of the attributed capture delivers.
-/

import Hekma.Capture.Follow
import Hekma.Capture.Metadata

set_option relaxedAutoImplicit false
set_option autoImplicit false

namespace Hekma

namespace Logs

open Capture (AttributedLog newline stripCr)
open Capture.Follow (Format FollowPlan planFollow readAgentLogSince text)
open Utf8 (fromUtf8Lossy)

/-! ### The raw log -/

/-- A line that a read of the raw log passes over. -/
def isBlank (line : List Char) : Bool := (Text.trim line).isEmpty

/-- One read of the raw log: the lines that are not blank, and the next cursor.  Without a cursor,
and where the engine of the reader holds a live capture, it only finds the end. -/
def readRawOutputSince (liveCapture : Bool) (raw : List UInt8) (cursor : Option ℕ) :
    List (List Char) × ℕ :=
  let len := raw.length
  match cursor with
  | none => ([], len)
  | some cursor =>
      if liveCapture then ([], len)
      else if len < cursor then ([], len)
      else
        let tail := raw.drop cursor
        match planFollow tail 0 with
        | .shrunk newCursor => ([], cursor + newCursor)
        | .consume start stop newCursor =>
            let lines := Text.lines (fromUtf8Lossy ((tail.take stop).drop start))
            (lines.filter fun line => !isBlank line, cursor + newCursor)

/-- The texts of the lines of some bytes. -/
def textsOf (bytes : List UInt8) : List (List Char) :=
  (Lines.complete newline bytes).map fun line => fromUtf8Lossy (stripCr line)

/-- **What a read of the raw log delivers**: every line that has ended behind the cursor and is not
blank. -/
theorem readRawOutputSince_eq {raw : List UInt8} {cursor : ℕ} (h : cursor ≤ raw.length) :
    readRawOutputSince false raw (some cursor) =
      ((textsOf (raw.drop cursor)).filter fun line => !isBlank line,
        cursor + Lines.whole newline (raw.drop cursor)) := by
  have hbounded := Lines.complete_bounded newline (Lines.complete newline (raw.drop cursor)).length
    (raw.drop cursor)
  rw [← Lines.whole_eq, List.take_length] at hbounded
  have hlines := Capture.lines_fromUtf8Lossy hbounded.1
  rw [hbounded.2] at hlines
  unfold readRawOutputSince
  dsimp only
  rw [if_neg Bool.false_ne_true, if_neg (Nat.not_lt.2 h), planFollow]
  simp only [Nat.not_lt_zero, if_false, List.drop_zero, Nat.zero_add, hlines, List.map_map]
  rfl

theorem readRawOutputSince_shrunk {raw : List UInt8} {cursor : ℕ} (h : raw.length < cursor) :
    readRawOutputSince false raw (some cursor) = ([], raw.length) := by
  unfold readRawOutputSince
  dsimp only
  rw [if_neg Bool.false_ne_true, if_pos h]

/-! ### The command -/

/-- What the command reads. -/
structure Files (α : Type) where
  log : AttributedLog α
  raw : List UInt8
  running : Bool
  now : ℕ

/-- What the command does next. -/
inductive Stage where
  | readLog
  | readRaw
  | readStatus
  | drainLog
  | drainRaw
  | checkDeadline
  | exited
  | failed (detail : String)
  deriving DecidableEq, Repr

/-- The note of a rotation, and that of a raw log that shrank. -/
inductive Note where
  | rotated
  | rawShrunk
  deriving DecidableEq, Repr

/-- The command: the cursors, the deadline of the final drain, whether the current round of it has
found a line, and what has been written. -/
structure Follower (α : Type) where
  stage : Stage
  rawFallback : Bool
  cursor : ℕ
  rawCursor : ℕ
  deadline : ℕ
  found : Bool
  delivered : List α
  rawDelivered : List (List Char)
  notes : List Note

/-- How long the final drain may go on, in milliseconds. -/
def followFinalDrainBound : ℕ := 2000

variable {α : Type}

/-- Read the attributed capture. -/
def Follower.readLog (f : Format α) (w : Files α) (s : Follower α) (next : Stage) : Follower α :=
  match readAgentLogSince f (text f w.log.current) s.cursor with
  | .error detail => { s with stage := .failed detail }
  | .ok (lines, cursor) =>
      { s with
        stage := next
        cursor := cursor
        found := !lines.isEmpty
        delivered := s.delivered ++ lines
        notes := if cursor < s.cursor then s.notes ++ [.rotated] else s.notes }

/-- Read the raw log, unless a host captures it.  The engine of the command holds no capture. -/
def Follower.readRaw (w : Files α) (s : Follower α) (next : Stage) : Follower α :=
  if s.rawFallback then
    let (lines, cursor) := readRawOutputSince false w.raw (some s.rawCursor)
    { s with
      stage := next
      rawCursor := cursor
      found := s.found || !lines.isEmpty
      rawDelivered := s.rawDelivered ++ lines
      notes := if cursor < s.rawCursor then s.notes ++ [.rawShrunk] else s.notes }
  else { s with stage := next }

/-- The next step of the command. -/
def Follower.poll (f : Format α) (w : Files α) (s : Follower α) : Follower α :=
  match s.stage with
  | .readLog => s.readLog f w .readRaw
  | .readRaw => s.readRaw w .readStatus
  | .readStatus =>
      if w.running then { s with stage := .readLog }
      else { s with stage := .drainLog, deadline := w.now + followFinalDrainBound }
  | .drainLog => s.readLog f w .drainRaw
  | .drainRaw => s.readRaw w .checkDeadline
  | .checkDeadline =>
      -- a round that has found nothing ends the drain, as the bound does
      if !s.found ∨ s.deadline ≤ w.now then { s with stage := .exited }
      else { s with stage := .drainLog }
  | .exited => s
  | .failed _ => s

/-- The command after its first dump of the capture. -/
def Follower.start (f : Format α) (w : Files α) (rawFallback : Bool) (rawCursor : ℕ) :
    Follower α where
  stage := .readLog
  rawFallback := rawFallback
  cursor := (text f w.log.current).length
  rawCursor := rawCursor
  deadline := 0
  found := false
  delivered := []
  rawDelivered := []
  notes := []

variable {f : Format α} {w : Files α} {s : Follower α} {seen unseen : List α}

/-- **What a read of the capture delivers**: the lines behind the cursor. -/
theorem Follower.readLog_text (hlog : w.log.current = seen ++ unseen)
    (hcursor : s.cursor = (text f seen).length) (next : Stage) :
    s.readLog f w next =
      { s with
        stage := next
        cursor := (text f w.log.current).length
        found := !unseen.isEmpty
        delivered := s.delivered ++ unseen } := by
  have hle : ¬ (text f (seen ++ unseen)).length < (text f seen).length := by
    rw [Capture.Follow.text_append, List.length_append]
    omega
  rw [Follower.readLog, hcursor, hlog, Capture.Follow.readAgentLogSince_text]
  dsimp only
  rw [if_neg hle]

/-- A read of a capture that was rotated and is shorter than the cursor. -/
theorem Follower.readLog_shrunk (h : (text f w.log.current).length < s.cursor) (next : Stage) :
    s.readLog f w next =
      { s with
        stage := next
        cursor := (text f w.log.current).length
        found := false
        notes := s.notes ++ [.rotated] } := by
  rw [Follower.readLog, Capture.Follow.readAgentLogSince_shrunk h]
  dsimp only
  rw [if_pos h, List.append_nil]
  rfl

end Logs

end Hekma
