/-
**A follow and the hosts under it** (`cli/agent.rs`, `domain/supervisor/interaction.rs`).

A follow decides once, when it begins, which of the two logs it follows.  If the host of the
instance holds a live capture, its tailer records what the agent prints, and the raw log is not
read; if not, the raw log is read to the end.  Meanwhile hosts exit and start, adopt the instance or
spawn it anew, and the raw log is cut.

The lines the agent prints form one stream, of which the raw log holds the last part.  The tailers
record it up to a place, and the follow is through with it up to a place.  A line is said to be
announced as lost if it begins in a window the follow has announced.

Main definitions:

* `Records`, `tailStdout` — the records of a capture, and a pass of the tailer;
* `Session`, `Action`, `Session.step` — the agent, its hosts and the follow;
* `Session.NotSilent` — every line that is owed was delivered;
* `Session.Attended` — the steps after which the log that is followed still holds every line.

Main results:

* `tailNewLines_eq` — the pass is that of a full capture;
* `tailStdout_spec` — a pass takes whole lines from the front of what is unread;
* `owedTexts_between` — what is owed between two places are lines of what stands between them.
-/

import Hekma.Capture.BacklogPrime
import Hekma.Capture.FinalDrain
import Hekma.Capture.Tailer
import Hekma.Lib.LinePlaces

set_option relaxedAutoImplicit false
set_option autoImplicit false

namespace Hekma

namespace Logs

open Capture (AttributedLog LogLine LogRecord maxTailBytesPerPass maxTailLinesPerPass newline
  primeBacklogWindow stripCr textLines)
open Capture.Follow (Format size text)
open Utf8 (fromUtf8Lossy)

/-! ### The tailer -/

/-- The records of a capture: what the tailer makes of a line of the agent, and the text of a record
of its output. -/
structure Records (α : Type) extends Format α where
  record : Timestamp → List UInt8 → α
  heard : α → Option (List Char)
  heard_record : ∀ at_ line, newline ∉ line → heard (record at_ line) = some (fromUtf8Lossy line)

variable {α : Type} {r : Records α}

/-- One pass of the tailer over the raw log of stdout. -/
def tailStdout (r : Records α) (at_ : Timestamp) (raw : List UInt8) (cursor : ℕ)
    (out : AttributedLog α) : ℕ × AttributedLog α :=
  let len := raw.length
  if len ≤ cursor then (if len < cursor then len else cursor, out)
  else
    let want := min (len - cursor) maxTailBytesPerPass
    let buf := (raw.drop cursor).take want
    let consumable := Lines.bounded newline maxTailLinesPerPass buf
    if consumable = 0 then (cursor, out)
    else
      (cursor + consumable,
        out.append (size r.toFormat) ((textLines (buf.take consumable)).map (r.record at_)))

/-- The pass is that of a full capture. -/
theorem tailNewLines_eq (env : Capture.Env) (r : Records LogRecord)
    (hencode : r.encode = env.toJson)
    (hrecord : ∀ at_ line, r.record at_ line =
      .line (LogLine.new env.instanceName .agentOut (env.fromUtf8Lossy line) at_))
    (at_ : Timestamp) (raw : List UInt8) (cursor : ℕ) (out : AttributedLog LogRecord) :
    Capture.tailNewLines env .full .stdout at_ raw cursor out =
      tailStdout r at_ raw cursor out := by
  have hsize : (fun record => (env.toJson record).length) = size r.toFormat := by
    unfold size
    rw [hencode]
  have hline : (fun line => LogRecord.line
      (LogLine.new env.instanceName .agentOut (env.fromUtf8Lossy line) at_)) = r.record at_ :=
    funext fun line => (hrecord at_ line).symm
  unfold Capture.tailNewLines tailStdout Capture.appendRecords Capture.records
  simp only [hsize, Capture.RawLog.stream, hline]

/-! ### The agent, its hosts and the follow -/

/-- The host of the instance: none, one that adopted it, or one that spawned it and tails its raw
log from a cursor. -/
inductive Host where
  | absent
  | adopted
  | capturing (cursor : ℕ)
  deriving DecidableEq, Repr

/-- The host holds a live capture. -/
def Host.liveCapture : Host → Bool
  | .capturing _ => true
  | _ => false

/-- How far the command is before it polls: it dumps the capture, asks the host, and finds the
window of the raw log. -/
inductive Opening where
  | dumping
  | asking
  | priming
  | polling
  deriving DecidableEq, Repr

/-- The stages that read the raw log. -/
def Stage.readsRaw (stage : Stage) : Bool := stage = .readRaw || stage = .drainRaw

/-- The files, the host and the follow.  The rest is not in the source: what the raw log held and
holds no more, the length of the stream when the polls began, the windows that were announced, the
places up to which the follow and the tailers have come, whether the capture was rotated since its
last read, and whether the raw log was cut since its last read. -/
structure Session (α : Type) where
  files : Files α
  host : Host
  opening : Opening
  follower : Follower α
  gone : List UInt8
  since : ℕ
  windows : List (ℕ × ℕ)
  read : ℕ
  recorded : ℕ
  rotated : Bool
  cutBack : Bool

inductive Action (α : Type) where
  /-- Time passes. -/
  | tick (millis : ℕ)
  /-- The agent writes to stdout. -/
  | write (bytes : List UInt8)
  /-- The raw log is cut, and the cursor of a live tailer is set to its start. -/
  | truncate
  /-- Other lines are appended to the capture. -/
  | append (lines : List α)
  /-- The tailer makes a pass. -/
  | pass (at_ : Timestamp)
  /-- The host exits, and its tailer with it. -/
  | exitHost
  /-- A host adopts the instance. -/
  | adopt
  /-- A host spawns the instance anew. -/
  | spawn
  /-- The row of the instance changes. -/
  | settle (running : Bool)
  /-- The next step of the command.  A host that is asked may not answer. -/
  | poll (answers : Bool)

namespace Session

/-- What the agent has written. -/
def stream (s : Session α) : List UInt8 := s.gone ++ s.files.raw

/-- The agent writes. -/
def wrote (s : Session α) (bytes : List UInt8) : Session α :=
  { s with files := { s.files with raw := s.files.raw ++ bytes } }

/-- The raw log is cut, and a live tailer begins anew. -/
def cut (s : Session α) : Session α :=
  { s with
    files := { s.files with raw := [] }
    gone := s.stream
    host := if s.host.liveCapture then .capturing 0 else s.host
    recorded := if s.host.liveCapture then s.stream.length else s.recorded
    cutBack := true }

/-- The files with other lines appended to the capture. -/
def appended (r : Records α) (s : Session α) (lines : List α) : Session α :=
  { s with
    files := s.files.append r.toFormat lines
    rotated := s.rotated || s.files.rotates r.toFormat lines }

/-- A pass of the tailer. -/
def tail (r : Records α) (s : Session α) (at_ : Timestamp) (cursor : ℕ) : Session α :=
  let pass := tailStdout r at_ s.files.raw cursor s.files.log
  { s with
    files := { s.files with log := pass.2 }
    host := .capturing pass.1
    recorded := s.gone.length + pass.1
    rotated := s.rotated ||
      (cursor < pass.1 && Capture.shouldRotate (s.files.log.currentLen (size r.toFormat))) }

/-- A poll of the files.  What the follow is through with depends on the log it follows, and what it
announces on the cursor the read comes back with. -/
def pollFiles (r : Records α) (s : Session α) : Session α :=
  let next := s.follower.poll r.toFormat s.files
  if s.follower.rawFallback then
    if s.follower.stage.readsRaw then
      if next.rawCursor < s.follower.rawCursor then
        { s with
          follower := next
          windows := s.windows ++ [(s.read, s.stream.length)]
          read := s.stream.length
          cutBack := false }
      else
        { s with follower := next, read := s.gone.length + next.rawCursor, cutBack := false }
    else { s with follower := next }
  else if s.follower.stage.readsLog then
    if next.cursor < s.follower.cursor then
      { s with
        follower := next
        windows := s.windows ++ [(s.read, s.recorded)]
        read := s.recorded
        rotated := false }
    else { s with follower := next, read := s.recorded, rotated := false }
  else { s with follower := next }

/-- The next step of the command, for a window of `n` lines. -/
def poll (r : Records α) (n : ℕ) (s : Session α) (answers : Bool) : Session α :=
  match s.opening with
  | .dumping =>
      { s with
        opening := .asking
        follower := .start r.toFormat s.files false 0
        rotated := false }
  | .asking =>
      if answers && s.host.liveCapture then
        { s with opening := .polling, since := s.stream.length, read := s.recorded }
      else { s with opening := .priming, follower := { s.follower with rawFallback := true } }
  | .priming =>
      let cursor := (primeBacklogWindow s.files.raw n).1
      { s with
        opening := .polling
        follower := { s.follower with rawCursor := cursor }
        since := s.stream.length
        read := s.gone.length + cursor
        cutBack := false }
  | .polling => s.pollFiles r

/-- One step.  Nothing follows the end of the follow. -/
def step (r : Records α) (n : ℕ) (s : Session α) (a : Action α) : Session α :=
  if s.follower.stage = .exited then s
  else
    match a with
    | .tick millis => { s with files := { s.files with now := s.files.now + millis } }
    | .write bytes => s.wrote bytes
    | .truncate => s.cut
    | .append lines => s.appended r lines
    | .pass at_ =>
        match s.host with
        | .capturing cursor => s.tail r at_ cursor
        | _ => s
    | .exitHost => { s with host := .absent }
    | .adopt => { s with host := .adopted }
    | .spawn => { s with host := .capturing s.files.raw.length, recorded := s.stream.length }
    | .settle running => { s with files := { s.files with running := running } }
    | .poll answers => s.poll r n answers

/-- An instance that was never started, and a command that has not begun. -/
def fresh (r : Records α) : Session α where
  files := ⟨.empty, [], false, 0⟩
  host := .absent
  opening := .dumping
  follower := .start r.toFormat ⟨.empty, [], false, 0⟩ false 0
  gone := []
  since := 0
  windows := []
  read := 0
  recorded := 0
  rotated := false
  cutBack := false

end Session

/-! ### What a follow owes -/

/-- The text of a line. -/
def lineText (line : List UInt8) : List Char := fromUtf8Lossy (stripCr line)

/-- A line is owed: the agent began it after the polls had, not in a window that was announced, and
it is not blank. -/
def owed (since : ℕ) (windows : List (ℕ × ℕ)) (p : ℕ × List UInt8) : Bool :=
  since ≤ p.1 && (windows.all fun w => p.1 < w.1 || w.2 ≤ p.1) && !isBlank (lineText p.2)

/-- The texts of the lines that are owed. -/
def owedTexts (since : ℕ) (windows : List (ℕ × ℕ)) (lines : List (ℕ × List UInt8)) :
    List (List Char) :=
  (lines.filter (owed since windows)).map fun p => lineText p.2

/-- The next check ends the follow. -/
def Follower.Ends (w : Files α) (c : Follower α) : Prop :=
  c.stage = .checkDeadline ∧ (c.found = false ∨ c.deadline ≤ w.now)

namespace Session

/-- The texts that are owed, each as often as the agent has written its line. -/
def due (s : Session α) : List (List Char) :=
  owedTexts s.since s.windows (Lines.placed newline 0 s.stream)

/-- The texts that were delivered, of attributed and of raw lines. -/
def heardTexts (r : Records α) (s : Session α) : List (List Char) :=
  s.follower.delivered.filterMap r.heard ++ s.follower.rawDelivered

/-- At the end of a follow every line that is owed was delivered. -/
def NotSilent (r : Records α) (s : Session α) : Prop :=
  s.follower.stage = .exited → s.due.Subperm (s.heardTexts r)

/-- The polls follow the capture. -/
def followsCapture (s : Session α) : Prop :=
  s.opening = .polling ∧ s.follower.rawFallback = false

/-- The polls follow the raw log. -/
def followsRaw (s : Session α) : Prop :=
  s.opening = .polling ∧ s.follower.rawFallback = true

/-- The next step ends the follow. -/
def ends (s : Session α) : Prop := s.follower.Ends s.files

/-- A live tailer has recorded every line of the raw log that has ended. -/
def caughtUp (s : Session α) : Prop :=
  ∀ cursor, s.host = .capturing cursor → Lines.complete newline (s.files.raw.drop cursor) = []

/-- A step after which the log that is followed still holds every line.  While the capture is
followed, the agent writes under a live tailer only, a tailer leaves when it has caught up, a new
one begins where the last one left the raw log, and the raw log is cut when its tailer has read it;
a capture that was rotated is read while it is shorter than the cursor, and so is a raw log that was
cut; and the follow ends when nothing is left to read. -/
def Attended (r : Records α) (s : Session α) : Action α → Prop
  | .write _ => s.followsCapture → s.host.liveCapture = true
  | .truncate => s.followsCapture → ∀ cursor, s.host = .capturing cursor →
      cursor = s.files.raw.length
  | .exitHost | .adopt => s.followsCapture → s.caughtUp
  | .spawn => s.followsCapture → s.recorded = s.stream.length
  | .poll _ =>
      (s.followsCapture → s.follower.stage.readsLog = true → s.rotated = true →
        (text r.toFormat s.files.log.current).length < s.follower.cursor) ∧
      (s.followsRaw → s.follower.stage.readsRaw = true → s.cutBack = true →
        s.files.raw.length < s.follower.rawCursor) ∧
      (s.followsCapture → s.ends → s.caughtUp ∧ s.rotated = false ∧
        s.follower.cursor = (text r.toFormat s.files.log.current).length) ∧
      (s.followsRaw → s.ends → s.cutBack = false ∧
        Lines.complete newline (s.files.raw.drop s.follower.rawCursor) = [])
  | _ => True

end Session

/-! ### Texts between two places -/

variable {since lo mid hi : ℕ} {windows : List (ℕ × ℕ)} {lines : List (ℕ × List UInt8)}

theorem owedTexts_append (since : ℕ) (windows : List (ℕ × ℕ)) (a b : List (ℕ × List UInt8)) :
    owedTexts since windows (a ++ b) = owedTexts since windows a ++ owedTexts since windows b := by
  rw [owedTexts, List.filter_append, List.map_append]
  rfl

theorem owedTexts_perm (since : ℕ) (windows : List (ℕ × ℕ)) {a b : List (ℕ × List UInt8)}
    (h : a.Perm b) :
    (owedTexts since windows a).Perm (owedTexts since windows b) := (h.filter _).map _

/-- What is owed is not blank. -/
theorem owedTexts_sublist (since : ℕ) (windows : List (ℕ × ℕ)) (lines : List (ℕ × List UInt8)) :
    (owedTexts since windows lines).Sublist
      (((lines.map Prod.snd).map lineText).filter fun line => !isBlank line) := by
  rw [List.map_map, List.filter_map]
  refine List.Sublist.map _ (List.monotone_filter_right _ fun p hp => ?_)
  simp only [owed, Bool.and_eq_true] at hp
  exact hp.2

/-- **What is owed between two places** are lines of what stands between them. -/
theorem owedTexts_between (since : ℕ) (windows : List (ℕ × ℕ)) {w seg t : List UInt8}
    (hseg : Lines.Closed newline seg)
    (hlo : lo = w.length) (hhi : hi = w.length + seg.length) :
    (owedTexts since windows (Lines.between newline lo hi (w ++ (seg ++ t)))).Sublist
      (((Lines.complete newline seg).map lineText).filter fun line => !isBlank line) :=
  (owedTexts_sublist _ _ _).trans
    (((Lines.between_sublist hseg hlo hhi).map lineText).filter _)

/-- What is owed of the whole lines behind a place. -/
theorem owedTexts_whole {l : List UInt8} (hlo : lo ≤ l.length) (more : List UInt8) :
    (owedTexts since windows
      (Lines.between newline lo (lo + Lines.whole newline (l.drop lo)) (l ++ more))).Sublist
        ((textsOf (l.drop lo)).filter fun line => !isBlank line) :=
  (owedTexts_sublist _ _ _).trans (((Lines.between_whole hlo more).map lineText).filter _)

/-- Before the polls have begun nothing is owed. -/
theorem owedTexts_between_of_le (h : hi ≤ since) (l : List UInt8) :
    owedTexts since windows (Lines.between newline lo hi l) = [] := by
  rw [owedTexts, List.map_eq_nil_iff, Lines.between, List.filter_filter, List.filter_eq_nil_iff]
  intro p _ hp
  simp only [owed, Bool.and_eq_true, decide_eq_true_eq] at hp
  omega

/-- A window that is announced ends what is owed at its beginning. -/
theorem owedTexts_announced (l : List UInt8) :
    (owedTexts since (windows ++ [(mid, hi)]) (Lines.between newline 0 hi l)).Sublist
      (owedTexts since windows (Lines.between newline 0 mid l)) := by
  rw [owedTexts, owedTexts, Lines.between, Lines.between, List.filter_filter, List.filter_filter]
  refine List.Sublist.map _ (List.monotone_filter_right _ fun p hp => ?_)
  simp only [owed, List.all_append, List.all_cons, List.all_nil, Bool.and_true, Bool.and_eq_true,
    Bool.or_eq_true, decide_eq_true_eq] at hp ⊢
  obtain ⟨⟨⟨hsince, hold, hnew⟩, hblank⟩, hplace⟩ := hp
  refine ⟨⟨⟨hsince, hold⟩, hblank⟩, ?_⟩
  omega

/-! ### What a pass records -/

theorem lineText_of_complete {bytes : List UInt8} (h : Lines.Closed newline bytes)
    (at_ : Timestamp) : ((textLines bytes).map (r.record at_)).filterMap r.heard =
      (Lines.complete newline bytes).map lineText := by
  rw [Capture.textLines_of_closed h, List.map_map, List.filterMap_map,
    ← List.filterMap_eq_map]
  refine List.filterMap_congr fun line hline => ?_
  have hnot : newline ∉ stripCr line := by
    have hline := Lines.notMem_of_mem_complete hline
    unfold stripCr
    split
    · exact fun hmem => hline (List.mem_of_mem_dropLast hmem)
    · exact hline
  exact r.heard_record at_ _ hnot

/-- What a pass did: it took whole lines from the front of what was unread, and appended their
records. -/
theorem tailStdout_spec (r : Records α) (at_ : Timestamp) {raw : List UInt8} {cursor : ℕ}
    (hcursor : cursor ≤ raw.length) (out : AttributedLog α) :
    ∃ taken left, raw.drop cursor = taken ++ left ∧ Lines.Closed newline taken ∧
      tailStdout r at_ raw cursor out = (cursor + taken.length,
        out.append (size r.toFormat) ((textLines taken).map (r.record at_))) := by
  have hnone : ∃ taken left, raw.drop cursor = taken ++ left ∧ Lines.Closed newline taken ∧
      (cursor, out) = (cursor + taken.length,
        out.append (size r.toFormat) ((textLines taken).map (r.record at_))) :=
    ⟨[], raw.drop cursor, rfl, .inl rfl, rfl⟩
  unfold tailStdout
  dsimp only
  split
  · rw [if_neg (Nat.not_lt.2 hcursor)]
    exact hnone
  · rename_i hunread
    generalize hbuf : (raw.drop cursor).take
      (min (raw.length - cursor) maxTailBytesPerPass) = buf
    split
    · exact hnone
    · refine ⟨buf.take (Lines.bounded newline maxTailLinesPerPass buf),
        (raw.drop cursor).drop (Lines.bounded newline maxTailLinesPerPass buf), ?_,
        Lines.closed_take_bounded _ _ _, ?_⟩
      · have hle := Lines.bounded_le newline maxTailLinesPerPass buf
        have hshort : Lines.bounded newline maxTailLinesPerPass buf ≤
            min (raw.length - cursor) maxTailBytesPerPass := by
          refine hle.trans ?_
          rw [← hbuf, List.length_take]
          exact Nat.min_le_left _ _
        rw [← hbuf, List.take_take, hbuf, Nat.min_eq_left hshort, List.take_append_drop]
      · rw [List.length_take, Nat.min_eq_left (Lines.bounded_le _ _ _)]

end Logs

end Hekma
