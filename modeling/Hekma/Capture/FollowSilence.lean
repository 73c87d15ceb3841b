/-
**A follow is not silent** (`cli/agent.rs`, `domain/supervisor/interaction.rs`).

What the tailers have recorded and the follow has not read is in the current file of the capture;
what they have not recorded is in the raw log.  A line is lost at the places where one of these
stops to be true: the host that was asked exits or lets go of the instance, and the agent goes on;
a new tailer begins at the end of the raw log; a log is cut and has grown past the cursor before it
is read.

Main definitions:

* `Session.CaptureInv`, `Session.RawInv` — what a follow of the capture keeps, and one of the raw
  log;
* `Session.Inv` — what holds in every state of an attended run.

Main results:

* `Follower.poll_cases` — a step of the polls reads the capture, or the raw log, or neither;
* `Session.Inv.step` — what an attended step keeps;
* `follow_notSilent` — **a follow is not silent** in a run whose steps are attended;
* `hostExit_silent` — a run in which it is.
-/

import Hekma.Capture.HostFollow
import Hekma.Lib.Guarded

set_option relaxedAutoImplicit false
set_option autoImplicit false

namespace Hekma

namespace Logs

open Capture (newline primeBacklogWindow textLines)
open Capture.Follow (Format size text)
open Utf8 (fromUtf8Lossy)

variable {α : Type} {r : Records α}

/-! ### A step of the polls -/

/-- The command has neither ended nor failed. -/
def Stage.GoesOn (stage : Stage) : Prop := stage ≠ .exited ∧ ∀ detail, stage ≠ .failed detail

/-- A stage that reads the capture does not read the raw log. -/
theorem Stage.readsRaw_of_readsLog {stage : Stage} (h : stage.readsLog = true) :
    stage.readsRaw = false := by
  cases stage with
  | readRaw | drainRaw => exact absurd h (by decide)
  | _ => rfl

namespace Follower

variable {f : Format α} {w : Files α} {c : Follower α}

/-- What a step of the polls is: a read of the capture, a read of the raw log, or neither. -/
theorem poll_cases (f : Format α) (w : Files α) (c : Follower α) :
    (c.stage.readsLog = true ∧ ∃ next, Stage.GoesOn next ∧ c.poll f w = c.readLog f w next) ∨
      (c.stage.readsRaw = true ∧ ∃ next, Stage.GoesOn next ∧ c.poll f w = c.readRaw w next) ∨
        (c.stage.readsLog = false ∧ c.stage.readsRaw = false ∧
          ∃ stage deadline, c.poll f w = { c with stage := stage, deadline := deadline } ∧
            (stage.GoesOn ∨ stage = c.stage ∨ stage = .exited ∧ c.Ends w)) := by
  have hgoes : ∀ {stage : Stage}, stage ≠ .exited → (∀ detail, stage ≠ .failed detail) →
      stage.GoesOn := fun hexited hfailed => ⟨hexited, hfailed⟩
  cases hstage : c.stage with
  | readLog =>
      exact .inl ⟨rfl, _, hgoes Stage.noConfusion (fun _ => Stage.noConfusion),
        by rw [poll, hstage]⟩
  | readRaw =>
      exact .inr (.inl ⟨rfl, _, hgoes Stage.noConfusion (fun _ => Stage.noConfusion),
        by rw [poll, hstage]⟩)
  | readStatus =>
      refine .inr (.inr ⟨rfl, rfl, ?_⟩)
      rw [poll, hstage]
      dsimp only
      split
      · exact ⟨_, _, rfl, .inl (hgoes Stage.noConfusion fun _ => Stage.noConfusion)⟩
      · exact ⟨_, _, rfl, .inl (hgoes Stage.noConfusion fun _ => Stage.noConfusion)⟩
  | drainLog =>
      exact .inl ⟨rfl, _, hgoes Stage.noConfusion (fun _ => Stage.noConfusion),
        by rw [poll, hstage]⟩
  | drainRaw =>
      exact .inr (.inl ⟨rfl, _, hgoes Stage.noConfusion (fun _ => Stage.noConfusion),
        by rw [poll, hstage]⟩)
  | checkDeadline =>
      refine .inr (.inr ⟨rfl, rfl, ?_⟩)
      rw [poll, hstage]
      dsimp only
      split
      · rename_i hend
        exact ⟨_, _, rfl, .inr (.inr ⟨rfl, hstage, by simpa using hend⟩)⟩
      · exact ⟨_, _, rfl, .inl (hgoes Stage.noConfusion fun _ => Stage.noConfusion)⟩
  | exited =>
      have hpoll : c.poll f w = c := by simp only [poll, hstage]
      exact .inr (.inr ⟨rfl, rfl, c.stage, c.deadline, hpoll, .inr (.inl hstage)⟩)
  | failed detail =>
      have hpoll : c.poll f w = c := by simp only [poll, hstage]
      exact .inr (.inr ⟨rfl, rfl, c.stage, c.deadline, hpoll, .inr (.inl hstage)⟩)

/-- A read of the capture leaves the raw log alone. -/
theorem readLog_frame (f : Format α) (w : Files α) (c : Follower α) (next : Stage) :
    (c.readLog f w next).rawFallback = c.rawFallback ∧
      (c.readLog f w next).rawCursor = c.rawCursor ∧
        (c.readLog f w next).rawDelivered = c.rawDelivered ∧
          (next ≠ .exited → (c.readLog f w next).stage ≠ .exited) := by
  unfold readLog
  split
  · exact ⟨rfl, rfl, rfl, fun _ => Stage.noConfusion⟩
  · exact ⟨rfl, rfl, rfl, id⟩

/-- A read of the raw log leaves the capture alone. -/
theorem readRaw_frame (w : Files α) (c : Follower α) (next : Stage) :
    (c.readRaw w next).rawFallback = c.rawFallback ∧ (c.readRaw w next).cursor = c.cursor ∧
      (c.readRaw w next).delivered = c.delivered ∧ (c.readRaw w next).stage = next := by
  unfold readRaw
  split <;> exact ⟨rfl, rfl, rfl, rfl⟩

theorem poll_rawFallback (f : Format α) (w : Files α) (c : Follower α) :
    (c.poll f w).rawFallback = c.rawFallback := by
  obtain ⟨-, next, -, hpoll⟩ | ⟨-, next, -, hpoll⟩ | ⟨-, -, _, _, hpoll, -⟩ := poll_cases f w c
  · rw [hpoll]
    exact (readLog_frame f w c next).1
  · rw [hpoll]
    exact (readRaw_frame w c next).1
  · rw [hpoll]

/-- A step that does not read the raw log. -/
theorem poll_raw (f : Format α) (w : Files α) (hreads : c.stage.readsRaw = false) :
    (c.poll f w).rawCursor = c.rawCursor ∧ (c.poll f w).rawDelivered = c.rawDelivered := by
  obtain ⟨-, next, -, hpoll⟩ | ⟨hraw, -⟩ | ⟨-, -, _, _, hpoll, -⟩ := poll_cases f w c
  · rw [hpoll]
    exact ⟨(readLog_frame f w c next).2.1, (readLog_frame f w c next).2.2.1⟩
  · rw [hreads] at hraw
    exact absurd hraw (by decide)
  · rw [hpoll]
    exact ⟨rfl, rfl⟩

/-- A step that does not read the capture. -/
theorem poll_capture (f : Format α) (w : Files α) (hreads : c.stage.readsLog = false)
    (hsound : ∀ detail, c.stage ≠ .failed detail) :
    (c.poll f w).cursor = c.cursor ∧ (c.poll f w).delivered = c.delivered ∧
      ∀ detail, (c.poll f w).stage ≠ .failed detail := by
  obtain ⟨hlog, -⟩ | ⟨-, next, hgoes, hpoll⟩ | ⟨-, -, stage, _, hpoll, hstage⟩ :=
    poll_cases f w c
  · rw [hreads] at hlog
    exact absurd hlog (by decide)
  · obtain ⟨-, hcursor, hdelivered, hnext⟩ := readRaw_frame w c next
    rw [hpoll, hnext]
    exact ⟨hcursor, hdelivered, hgoes.2⟩
  · rw [hpoll]
    refine ⟨rfl, rfl, fun detail => ?_⟩
    obtain hgoes | rfl | ⟨rfl, -⟩ := hstage
    · exact hgoes.2 detail
    · exact hsound detail
    · exact Stage.noConfusion

/-- The step of a stage that reads the capture. -/
theorem poll_readLog (f : Format α) (w : Files α) (hreads : c.stage.readsLog = true) :
    ∃ next, Stage.GoesOn next ∧ c.poll f w = c.readLog f w next := by
  obtain ⟨-, h⟩ | ⟨hraw, -⟩ | ⟨hlog, -⟩ := poll_cases f w c
  · exact h
  · rw [Stage.readsRaw_of_readsLog hreads] at hraw
    exact absurd hraw (by decide)
  · rw [hreads] at hlog
    exact absurd hlog (by decide)

/-- The step of a stage that reads the raw log. -/
theorem poll_readRaw (f : Format α) (w : Files α) (hreads : c.stage.readsRaw = true) :
    ∃ next, c.poll f w = c.readRaw w next := by
  obtain ⟨hlog, -⟩ | ⟨-, next, -, h⟩ | ⟨-, hraw, -⟩ := poll_cases f w c
  · rw [Stage.readsRaw_of_readsLog hlog] at hreads
    exact absurd hreads (by decide)
  · exact ⟨next, h⟩
  · rw [hreads] at hraw
    exact absurd hraw (by decide)

/-- The command ends at a check only. -/
theorem ends_of_poll (hopen : c.stage ≠ .exited) (hexited : (c.poll f w).stage = .exited) :
    c.Ends w := by
  obtain ⟨-, next, hgoes, hpoll⟩ | ⟨-, next, hgoes, hpoll⟩ | ⟨-, -, stage, _, hpoll, hstage⟩ :=
    poll_cases f w c
  · rw [hpoll] at hexited
    exact absurd hexited ((readLog_frame f w c next).2.2.2 hgoes.1)
  · rw [hpoll, (readRaw_frame w c next).2.2.2] at hexited
    exact absurd hexited hgoes.1
  · rw [hpoll] at hexited
    obtain hgoes | rfl | ⟨-, hends⟩ := hstage
    · exact absurd hexited hgoes.1
    · exact absurd hexited hopen
    · exact hends

end Follower

/-! ### The invariant -/

namespace Session

variable {s : Session α} {n : ℕ}

/-- The texts that are owed between two places of the stream, however it goes on. -/
def owedBetween (s : Session α) (more : List UInt8) (lo hi : ℕ) : List (List Char) :=
  owedTexts s.since s.windows (Lines.between newline lo hi (s.stream ++ more))

/-- Where the tailers stand. -/
structure Grounded (s : Session α) : Prop where
  cursor : ∀ cursor, s.host = .capturing cursor →
    cursor ≤ s.files.raw.length ∧ s.gone.length + cursor = s.recorded
  recorded : s.recorded ≤ s.stream.length

/-- The capture was dumped, and its cursor stands between two lines. -/
def Dumped (r : Records α) (s : Session α) : Prop :=
  s.rotated = false → ∃ seen unseen, s.files.log.current = seen ++ unseen ∧
    s.follower.cursor = (text r.toFormat seen).length

/-- While the capture is followed: what is recorded and not read is in the current file, and where
no tailer is live everything was recorded. -/
structure CaptureInv (r : Records α) (s : Session α) : Prop where
  sound : ∀ detail, s.follower.stage ≠ .failed detail
  placed : s.rotated = false → ∃ seen unseen, s.files.log.current = seen ++ unseen ∧
    s.follower.cursor = (text r.toFormat seen).length ∧
      ∀ more, (s.owedBetween more s.read s.recorded).Subperm (unseen.filterMap r.heard)
  heard : ∀ more, (s.owedBetween more 0 s.read).Subperm (s.follower.delivered.filterMap r.heard)
  vacant : s.host.liveCapture = false → Lines.complete newline (s.stream.drop s.recorded) = []
  ordered : s.read ≤ s.recorded

/-- While the raw log is followed: its cursor stands where the follow is through with the stream. -/
structure RawInv (s : Session α) : Prop where
  placed : s.cutBack = false → s.follower.rawCursor ≤ s.files.raw.length ∧
    s.gone.length + s.follower.rawCursor = s.read
  heard : ∀ more, (s.owedBetween more 0 s.read).Subperm s.follower.rawDelivered

/-- What holds in every state of an attended run. -/
structure Inv (r : Records α) (s : Session α) : Prop where
  grounded : s.Grounded
  opening : s.opening ≠ .polling → s.follower.stage = .readLog
  asking : s.opening = .asking → s.follower.rawFallback = false ∧ s.Dumped r
  priming : s.opening = .priming → s.follower.rawFallback = true
  capture : s.followsCapture → s.follower.stage ≠ .exited → s.CaptureInv r
  raw : s.followsRaw → s.follower.stage ≠ .exited → s.RawInv
  notSilent : s.NotSilent r

/-- What is owed between two places was delivered, when it was up to a third between them and from
there on. -/
theorem owedBetween_split (more : List UInt8) {lo mid hi : ℕ} {a b : List (List Char)}
    (hlo : lo ≤ mid) (hhi : mid ≤ hi) (ha : (s.owedBetween more lo mid).Subperm a)
    (hb : (s.owedBetween more mid hi).Subperm b) :
    (s.owedBetween more lo hi).Subperm (a ++ b) := by
  have hperm := owedTexts_perm s.since s.windows
    (Lines.between_perm newline (s.stream ++ more) hlo hhi)
  rw [owedTexts_append] at hperm
  exact hperm.subperm.trans (ha.append hb)

theorem owedBetween_self (s : Session α) (more : List UInt8) (place : ℕ) :
    s.owedBetween more place place = [] := by
  rw [owedBetween, Lines.between_of_le (Nat.le_refl _)]
  rfl

/-- The raw log behind a cursor, as a part of the stream. -/
theorem drop_read {cursor read : ℕ} (hplace : s.gone.length + cursor = read) :
    s.stream.drop read = s.files.raw.drop cursor := by
  rw [stream, ← hplace, List.drop_length_add_append]

/-- When the tailers have caught up, every line that has ended was recorded. -/
theorem CaptureInv.unrecorded (h : s.CaptureInv r) (hgrounded : s.Grounded)
    (hcaught : s.caughtUp) : Lines.complete newline (s.stream.drop s.recorded) = [] := by
  cases hhost : s.host with
  | capturing cursor =>
      rw [drop_read (hgrounded.cursor cursor hhost).2]
      exact hcaught cursor hhost
  | absent => exact h.vacant (by rw [hhost]; rfl)
  | adopted => exact h.vacant (by rw [hhost]; rfl)

/-! ### The agent -/

/-- Neither the clock nor the row of the instance says where anything stands. -/
theorem Inv.files (h : s.Inv r) {files : Files α} (hlog : files.log = s.files.log)
    (hraw : files.raw = s.files.raw) : Inv r { s with files := files } := by
  cases files with
  | mk log raw running now =>
      dsimp only at hlog hraw
      subst hlog hraw
      refine ⟨⟨h.grounded.cursor, h.grounded.recorded⟩, h.opening, h.asking, h.priming,
        fun hfollows hopen => ?_, fun hfollows hopen => ?_, h.notSilent⟩
      · have hc := h.capture hfollows hopen
        exact ⟨hc.sound, hc.placed, hc.heard, hc.vacant, hc.ordered⟩
      · have hr := h.raw hfollows hopen
        exact ⟨hr.placed, hr.heard⟩

theorem stream_wrote (s : Session α) (bytes : List UInt8) :
    (s.wrote bytes).stream = s.stream ++ bytes := (List.append_assoc _ _ _).symm

theorem owedBetween_wrote (s : Session α) (bytes more : List UInt8) (lo hi : ℕ) :
    (s.wrote bytes).owedBetween more lo hi = s.owedBetween (bytes ++ more) lo hi := by
  unfold owedBetween
  rw [stream_wrote, List.append_assoc]
  rfl

/-- The agent writes, under a live tailer. -/
theorem CaptureInv.wrote (h : s.CaptureInv r) (bytes : List UInt8)
    (hlive : s.host.liveCapture = true) : (s.wrote bytes).CaptureInv r where
  sound := h.sound
  placed hrotated := by
    obtain ⟨seen, unseen, hcurrent, hcursor, hunseen⟩ := h.placed hrotated
    refine ⟨seen, unseen, hcurrent, hcursor, fun more => ?_⟩
    rw [owedBetween_wrote]
    exact hunseen _
  heard more := by
    rw [owedBetween_wrote]
    exact h.heard _
  vacant hvacant := by
    rw [show s.host.liveCapture = false from hvacant] at hlive
    exact absurd hlive (by decide)
  ordered := h.ordered

theorem RawInv.wrote (h : s.RawInv) (bytes : List UInt8) : (s.wrote bytes).RawInv where
  placed hcut := by
    obtain ⟨hle, hplace⟩ := h.placed hcut
    refine ⟨Nat.le_trans hle ?_, hplace⟩
    rw [Session.wrote, List.length_append]
    exact Nat.le_add_right _ _
  heard more := by
    rw [owedBetween_wrote]
    exact h.heard _

theorem Grounded.wrote (h : s.Grounded) (bytes : List UInt8) : (s.wrote bytes).Grounded where
  cursor cursor hhost := by
    obtain ⟨hle, hplace⟩ := h.cursor cursor hhost
    refine ⟨Nat.le_trans hle ?_, hplace⟩
    rw [Session.wrote, List.length_append]
    exact Nat.le_add_right _ _
  recorded := by
    rw [stream_wrote, List.length_append]
    exact h.recorded.trans (Nat.le_add_right _ _)

theorem Inv.wrote (h : s.Inv r) (hopen : s.follower.stage ≠ .exited) (bytes : List UInt8)
    (hlive : s.followsCapture → s.host.liveCapture = true) : (s.wrote bytes).Inv r where
  grounded := h.grounded.wrote bytes
  opening := h.opening
  asking := h.asking
  priming := h.priming
  capture hfollows _ := (h.capture hfollows hopen).wrote bytes (hlive hfollows)
  raw hfollows _ := (h.raw hfollows hopen).wrote bytes
  notSilent hexited := absurd hexited hopen

/-! ### A cut of the raw log -/

/-- A cut of the raw log takes nothing from the stream. -/
theorem stream_cut (s : Session α) : s.cut.stream = s.stream := List.append_nil _

theorem owedBetween_cut (s : Session α) (more : List UInt8) (lo hi : ℕ) :
    s.cut.owedBetween more lo hi = s.owedBetween more lo hi := by
  unfold owedBetween
  rw [stream_cut]
  rfl

theorem liveCapture_cut (s : Session α) : s.cut.host.liveCapture = s.host.liveCapture := by
  cases hhost : s.host <;> simp [cut, hhost, Host.liveCapture]

/-- A tailer that has read the raw log has recorded the stream. -/
theorem recorded_cut (h : s.Grounded)
    (hread : ∀ cursor, s.host = .capturing cursor → cursor = s.files.raw.length) :
    s.cut.recorded = s.recorded := by
  cases hhost : s.host with
  | capturing cursor =>
      obtain ⟨-, hplace⟩ := h.cursor cursor hhost
      rw [hread cursor hhost] at hplace
      simp only [cut, hhost, Host.liveCapture, if_true]
      rw [stream, List.length_append, hplace]
  | absent => simp [cut, hhost, Host.liveCapture]
  | adopted => simp [cut, hhost, Host.liveCapture]

theorem Grounded.cut (h : s.Grounded) : s.cut.Grounded where
  cursor cursor hhost := by
    cases hold : s.host with
    | capturing c =>
        simp only [Session.cut, hold, Host.liveCapture, if_true] at hhost ⊢
        obtain rfl := Host.capturing.inj hhost
        exact ⟨Nat.le_refl _, rfl⟩
    | absent => simp [Session.cut, hold, Host.liveCapture] at hhost
    | adopted => simp [Session.cut, hold, Host.liveCapture] at hhost
  recorded := by
    rw [stream_cut]
    unfold Session.cut
    dsimp only
    split
    · exact Nat.le_refl _
    · exact h.recorded

theorem CaptureInv.cut (h : s.CaptureInv r) (hgrounded : s.Grounded)
    (hread : ∀ cursor, s.host = .capturing cursor → cursor = s.files.raw.length) :
    s.cut.CaptureInv r where
  sound := h.sound
  placed hrotated := by
    obtain ⟨seen, unseen, hcurrent, hcursor, hunseen⟩ := h.placed hrotated
    refine ⟨seen, unseen, hcurrent, hcursor, fun more => ?_⟩
    rw [owedBetween_cut, recorded_cut hgrounded hread]
    exact hunseen more
  heard more := by
    rw [owedBetween_cut]
    exact h.heard more
  vacant hvacant := by
    rw [liveCapture_cut] at hvacant
    rw [stream_cut, recorded_cut hgrounded hread]
    exact h.vacant hvacant
  ordered := by
    rw [recorded_cut hgrounded hread]
    exact h.ordered

theorem Inv.cut (h : s.Inv r) (hopen : s.follower.stage ≠ .exited)
    (hread : s.followsCapture → ∀ cursor, s.host = .capturing cursor →
      cursor = s.files.raw.length) : s.cut.Inv r where
  grounded := h.grounded.cut
  opening := h.opening
  asking := h.asking
  priming := h.priming
  capture hfollows _ := (h.capture hfollows hopen).cut h.grounded (hread hfollows)
  raw hfollows _ := by
    refine ⟨fun hcut => absurd hcut (by simp [Session.cut]), fun more => ?_⟩
    rw [owedBetween_cut]
    exact (h.raw hfollows hopen).heard more
  notSilent hexited := absurd hexited hopen

/-! ### The capture and its tailers -/

/-- Other lines are appended to the capture. -/
theorem Inv.append (h : s.Inv r) (hopen : s.follower.stage ≠ .exited) (lines : List α) :
    Inv r (s.appended r lines) := by
  have hcurrent' : (s.appended r lines).rotated = false → s.rotated = false ∧
      (s.appended r lines).files.log.current = s.files.log.current ++ lines := by
    intro hrotated
    obtain ⟨hold, hkeep⟩ := Bool.or_eq_false_iff.1 hrotated
    exact ⟨hold, Race.current_append hkeep⟩
  refine ⟨⟨h.grounded.cursor, h.grounded.recorded⟩, h.opening, fun hasking => ?_, h.priming,
    fun hfollows _ => ?_, fun hfollows _ => ?_, fun hexited => absurd hexited hopen⟩
  · obtain ⟨hfallback, hdumped⟩ := h.asking hasking
    refine ⟨hfallback, fun hrotated => ?_⟩
    obtain ⟨hold, hnew⟩ := hcurrent' hrotated
    obtain ⟨seen, unseen, hcurrent, hcursor⟩ := hdumped hold
    exact ⟨seen, unseen ++ lines, by rw [hnew, hcurrent, List.append_assoc], hcursor⟩
  · have hc := h.capture hfollows hopen
    refine ⟨hc.sound, fun hrotated => ?_, hc.heard, hc.vacant, hc.ordered⟩
    obtain ⟨hold, hnew⟩ := hcurrent' hrotated
    obtain ⟨seen, unseen, hcurrent, hcursor, hunseen⟩ := hc.placed hold
    refine ⟨seen, unseen ++ lines, by rw [hnew, hcurrent, List.append_assoc], hcursor,
      fun more => ?_⟩
    rw [List.filterMap_append]
    exact (hunseen more).trans (List.sublist_append_left _ _).subperm
  · exact ⟨(h.raw hfollows hopen).placed, (h.raw hfollows hopen).heard⟩

/-- What a pass does to a session: it takes whole lines from the raw log behind its cursor. -/
structure Passed (r : Records α) (s : Session α) (at_ : Timestamp) (cursor : ℕ)
    (taken left : List UInt8) : Prop where
  split : s.files.raw.drop cursor = taken ++ left
  closed : Lines.Closed newline taken
  pass : tailStdout r at_ s.files.raw cursor s.files.log = (cursor + taken.length,
    s.files.log.append (size r.toFormat) ((textLines taken).map (r.record at_)))
  recorded : (s.tail r at_ cursor).recorded = s.recorded + taken.length

theorem Grounded.passed (h : s.Grounded) (at_ : Timestamp) {cursor : ℕ}
    (hhost : s.host = .capturing cursor) :
    ∃ taken left, Passed r s at_ cursor taken left := by
  obtain ⟨hle, hplace⟩ := h.cursor cursor hhost
  obtain ⟨taken, left, hsplit, hclosed, hpass⟩ := tailStdout_spec r at_ hle s.files.log
  refine ⟨taken, left, hsplit, hclosed, hpass, ?_⟩
  change s.gone.length + (tailStdout r at_ s.files.raw cursor s.files.log).1 = _
  rw [hpass, ← hplace, Nat.add_assoc]

namespace Passed

variable {at_ : Timestamp} {cursor : ℕ} {taken left : List UInt8}

/-- A pass that does not rotate the capture leaves its records to read. -/
theorem current (p : Passed r s at_ cursor taken left)
    (hrotated : (s.tail r at_ cursor).rotated = false) :
    s.rotated = false ∧ (s.tail r at_ cursor).files.log.current =
      s.files.log.current ++ (textLines taken).map (r.record at_) := by
  obtain ⟨hold, hkeep⟩ := Bool.or_eq_false_iff.1 hrotated
  refine ⟨hold, ?_⟩
  have hrotates : s.files.rotates r.toFormat ((textLines taken).map (r.record at_)) = false := by
    rw [p.pass] at hkeep
    unfold Files.rotates
    cases taken with
    | nil => rfl
    | cons b bytes =>
        have hlonger : decide (cursor < cursor + (b :: bytes).length) = true :=
          decide_eq_true (by rw [List.length_cons]; omega)
        rw [hlonger, Bool.true_and] at hkeep
        rw [hkeep, Bool.and_false]
  unfold tail
  rw [p.pass]
  exact Race.current_append hrotates

/-- What a pass has recorded of the lines that are owed. -/
theorem owed (p : Passed r s at_ cursor taken left) (hgrounded : s.Grounded)
    (hhost : s.host = .capturing cursor) (more : List UInt8) :
    (s.owedBetween more s.recorded (s.recorded + taken.length)).Subperm
      (((textLines taken).map (r.record at_)).filterMap r.heard) := by
  obtain ⟨hle, hplace⟩ := hgrounded.cursor cursor hhost
  have hstream : s.stream ++ more =
      (s.gone ++ s.files.raw.take cursor) ++ (taken ++ (left ++ more)) := by
    rw [stream, ← List.append_assoc taken, ← p.split, List.append_assoc, List.append_assoc,
      ← List.append_assoc (s.files.raw.take cursor), List.take_append_drop]
  have hfront : s.recorded = (s.gone ++ s.files.raw.take cursor).length := by
    rw [List.length_append, List.length_take, Nat.min_eq_left hle, hplace]
  have hnew := owedTexts_between s.since s.windows (t := left ++ more) p.closed hfront
    (congrArg (· + taken.length) hfront)
  rw [← hstream] at hnew
  rw [lineText_of_complete p.closed]
  exact (hnew.trans List.filter_sublist).subperm

theorem grounded (p : Passed r s at_ cursor taken left) (hgrounded : s.Grounded)
    (hhost : s.host = .capturing cursor) : (s.tail r at_ cursor).Grounded := by
  obtain ⟨hle, hplace⟩ := hgrounded.cursor cursor hhost
  have hlen : s.files.raw.length = cursor + taken.length + left.length := by
    have hlength := congrArg List.length p.split
    rw [List.length_drop, List.length_append] at hlength
    omega
  refine ⟨fun c hc => ?_, ?_⟩
  · obtain rfl : (tailStdout r at_ s.files.raw cursor s.files.log).1 = c :=
      Host.capturing.inj hc
    rw [p.recorded, p.pass]
    change cursor + taken.length ≤ s.files.raw.length ∧
      s.gone.length + (cursor + taken.length) = s.recorded + taken.length
    omega
  · rw [p.recorded]
    change s.recorded + taken.length ≤ (s.gone ++ s.files.raw).length
    rw [List.length_append]
    omega

/-- A pass leaves to read what was left before, and what it has recorded. -/
theorem capture (p : Passed r s at_ cursor taken left) (h : s.CaptureInv r)
    (hgrounded : s.Grounded) (hhost : s.host = .capturing cursor) :
    (s.tail r at_ cursor).CaptureInv r where
  sound := h.sound
  placed hrotated := by
    obtain ⟨hold, hnew⟩ := p.current hrotated
    obtain ⟨seen, unseen, hcurrent, hcursor, hunseen⟩ := h.placed hold
    refine ⟨seen, unseen ++ (textLines taken).map (r.record at_), ?_, hcursor, fun more => ?_⟩
    · rw [hnew, hcurrent, List.append_assoc]
    · rw [p.recorded, List.filterMap_append]
      exact owedBetween_split (s := s) more h.ordered (Nat.le_add_right _ _) (hunseen more)
        (p.owed hgrounded hhost more)
  heard := h.heard
  vacant hvacant := absurd hvacant (by simp [Session.tail, Host.liveCapture])
  ordered := by
    rw [p.recorded]
    exact h.ordered.trans (Nat.le_add_right _ _)

end Passed

/-- A pass of the tailer. -/
theorem Inv.tail (h : s.Inv r) (hopen : s.follower.stage ≠ .exited) (at_ : Timestamp)
    {cursor : ℕ} (hhost : s.host = .capturing cursor) : Inv r (s.tail r at_ cursor) := by
  obtain ⟨taken, left, p⟩ := h.grounded.passed (r := r) at_ hhost
  refine ⟨p.grounded h.grounded hhost, h.opening, fun hasking => ?_, h.priming,
    fun hfollows _ => p.capture (h.capture hfollows hopen) h.grounded hhost,
    fun hfollows _ => ?_, fun hexited => absurd hexited hopen⟩
  · obtain ⟨hfallback, hdumped⟩ := h.asking hasking
    refine ⟨hfallback, fun hrotated => ?_⟩
    obtain ⟨hold, hnew⟩ := p.current hrotated
    obtain ⟨seen, unseen, hcurrent, hcursor⟩ := hdumped hold
    exact ⟨seen, unseen ++ _, by rw [hnew, hcurrent, List.append_assoc], hcursor⟩
  · exact ⟨(h.raw hfollows hopen).placed, (h.raw hfollows hopen).heard⟩

/-- A tailer that has caught up can leave. -/
theorem Inv.vacate (h : s.Inv r) (hopen : s.follower.stage ≠ .exited) (host : Host)
    (hhost : host.liveCapture = false) (hcaught : s.followsCapture → s.caughtUp) :
    Inv r { s with host := host } := by
  refine ⟨⟨fun cursor hcursor => ?_, h.grounded.recorded⟩, h.opening, h.asking, h.priming,
    fun hfollows _ => ?_, fun hfollows _ => ?_, fun hexited => absurd hexited hopen⟩
  · rw [show host = .capturing cursor from hcursor] at hhost
    exact absurd hhost (by simp [Host.liveCapture])
  · have hc := h.capture hfollows hopen
    exact ⟨hc.sound, hc.placed, hc.heard,
      fun _ => hc.unrecorded h.grounded (hcaught hfollows), hc.ordered⟩
  · exact ⟨(h.raw hfollows hopen).placed, (h.raw hfollows hopen).heard⟩

/-- A tailer that begins where the last one has left the raw log. -/
theorem Inv.spawn (h : s.Inv r) (hopen : s.follower.stage ≠ .exited)
    (hrecorded : s.followsCapture → s.recorded = s.stream.length) :
    Inv r { s with host := .capturing s.files.raw.length, recorded := s.stream.length } := by
  refine ⟨⟨fun cursor hcursor => ?_, Nat.le_refl _⟩, h.opening, h.asking, h.priming,
    fun hfollows _ => ?_, fun hfollows _ => ?_, fun hexited => absurd hexited hopen⟩
  · obtain rfl := Host.capturing.inj hcursor
    exact ⟨Nat.le_refl _, (List.length_append).symm⟩
  · have hc := h.capture hfollows hopen
    rw [← hrecorded hfollows]
    exact ⟨hc.sound, hc.placed, hc.heard, fun hvacant => absurd hvacant (by
      simp [Host.liveCapture]), hc.ordered⟩
  · exact ⟨(h.raw hfollows hopen).placed, (h.raw hfollows hopen).heard⟩

end Session

/-! ### Reads -/

namespace Follower

variable {w : Files α} {c : Follower α}

/-- A read of a raw log that is shorter than the cursor delivers nothing. -/
theorem readRaw_shrunk (hfallback : c.rawFallback = true) (h : w.raw.length < c.rawCursor)
    (next : Stage) : (c.readRaw w next).rawCursor = w.raw.length ∧
      (c.readRaw w next).rawDelivered = c.rawDelivered := by
  rw [readRaw, if_pos hfallback, readRawOutputSince_shrunk h]
  exact ⟨rfl, List.append_nil _⟩

/-- **What a read of the raw log delivers**: the whole lines behind the cursor. -/
theorem readRaw_whole (hfallback : c.rawFallback = true) (h : c.rawCursor ≤ w.raw.length)
    (next : Stage) :
    (c.readRaw w next).rawCursor =
        c.rawCursor + Lines.whole newline (w.raw.drop c.rawCursor) ∧
      (c.readRaw w next).rawDelivered = c.rawDelivered ++
        (textsOf (w.raw.drop c.rawCursor)).filter fun line => !isBlank line := by
  rw [readRaw, if_pos hfallback, readRawOutputSince_eq h]
  exact ⟨rfl, rfl⟩

end Follower

namespace Session

variable {s : Session α} {n : ℕ}

/-- A read of the raw log that announces the window it passes over. -/
theorem RawInv.readRaw_shrunk (h : s.RawInv) (hfallback : s.follower.rawFallback = true)
    (hreads : s.follower.stage.readsRaw = true)
    (hshort : s.files.raw.length < s.follower.rawCursor) : (s.pollFiles r).RawInv := by
  obtain ⟨next, hpoll⟩ := Follower.poll_readRaw r.toFormat s.files hreads
  obtain ⟨hnext, hsame⟩ := Follower.readRaw_shrunk hfallback hshort next
  unfold pollFiles
  rw [hpoll]
  simp only [hfallback, hreads, if_true]
  rw [if_pos (by rw [hnext]; exact hshort)]
  refine ⟨fun _ => ?_, fun more => ?_⟩
  · dsimp only
    rw [hnext]
    exact ⟨Nat.le_refl _, List.length_append.symm⟩
  · dsimp only
    rw [hsame]
    exact (owedTexts_announced _).subperm.trans (h.heard more)

/-- A read of the raw log that goes on from where the follow is through with it. -/
theorem RawInv.readRaw_whole (h : s.RawInv) (hfallback : s.follower.rawFallback = true)
    (hreads : s.follower.stage.readsRaw = true) (hback : s.cutBack = false) :
    (s.pollFiles r).RawInv := by
  obtain ⟨next, hpoll⟩ := Follower.poll_readRaw r.toFormat s.files hreads
  obtain ⟨hle, hplace⟩ := h.placed hback
  obtain ⟨hnext, hdelivered⟩ := Follower.readRaw_whole hfallback hle next
  have hwhole : Lines.whole newline (s.files.raw.drop s.follower.rawCursor) ≤
      s.files.raw.length - s.follower.rawCursor := by
    rw [Lines.whole_eq, ← List.length_drop]
    exact Lines.bounded_le _ _ _
  unfold pollFiles
  rw [hpoll]
  simp only [hfallback, hreads, if_true]
  rw [if_neg (by rw [hnext]; omega)]
  refine ⟨fun _ => ⟨?_, rfl⟩, fun more => ?_⟩
  · dsimp only
    rw [hnext]
    omega
  · change (s.owedBetween more 0
      (s.gone.length + (s.follower.readRaw s.files next).rawCursor)).Subperm
        (s.follower.readRaw s.files next).rawDelivered
    rw [hnext, hdelivered, ← Nat.add_assoc, hplace, ← drop_read hplace]
    have hin : s.read ≤ s.stream.length := by
      rw [stream, List.length_append]
      omega
    exact owedBetween_split more (Nat.zero_le _) (Nat.le_add_right _ _) (h.heard more)
      (owedTexts_whole hin more).subperm

/-- **A read of the capture**: it delivers what was recorded behind the cursor, or it announces what
it passes over. -/
theorem CaptureInv.readLog (h : s.CaptureInv r) (hfallback : s.follower.rawFallback = false)
    (hreads : s.follower.stage.readsLog = true)
    (hrotated : s.rotated = true →
      (text r.toFormat s.files.log.current).length < s.follower.cursor) :
    (s.pollFiles r).CaptureInv r := by
  obtain ⟨next, hgoes, hpoll⟩ := Follower.poll_readLog r.toFormat s.files hreads
  have hplaced : s.files.log.current = s.files.log.current ++ [] := (List.append_nil _).symm
  unfold pollFiles
  rw [hpoll]
  simp only [hfallback, hreads, if_true, Bool.false_eq_true, if_false]
  cases hback : s.rotated with
  | true =>
      have hshort := hrotated hback
      rw [Follower.readLog_shrunk hshort, if_pos hshort]
      refine ⟨hgoes.2, fun _ => ⟨_, [], hplaced, rfl, fun more => ?_⟩, fun more => ?_, h.vacant,
        Nat.le_refl _⟩
      · exact (List.Perm.of_eq (owedBetween_self _ more s.recorded)).subperm
      · exact (owedTexts_announced _).subperm.trans (h.heard more)
  | false =>
      obtain ⟨seen, unseen, hcurrent, hcursor, hunseen⟩ := h.placed hback
      have hlonger : ¬ (text r.toFormat s.files.log.current).length < s.follower.cursor := by
        rw [hcurrent, hcursor, Capture.Follow.text_append, List.length_append]
        omega
      rw [Follower.readLog_text hcurrent hcursor, if_neg hlonger]
      refine ⟨hgoes.2, fun _ => ⟨_, [], hplaced, rfl, fun more => ?_⟩, fun more => ?_, h.vacant,
        Nat.le_refl _⟩
      · exact (List.Perm.of_eq (owedBetween_self _ more s.recorded)).subperm
      · rw [List.filterMap_append]
        exact owedBetween_split more (Nat.zero_le _) h.ordered (h.heard more) (hunseen more)

/-! ### The end of a follow -/

/-- The rows of a capture are not empty. -/
theorem eq_nil_of_text {f : Format α} {seen unseen : List α}
    (h : (text f seen).length = (text f (seen ++ unseen)).length) : unseen = [] := by
  cases unseen with
  | nil => rfl
  | cons line lines =>
      rw [Capture.Follow.text_append, List.length_append] at h
      have hlen : 0 < (text f (line :: lines)).length := by
        simp [text, Lines.terminated]
      omega

/-- The end of a follow of the capture. -/
theorem CaptureInv.due_subperm (h : s.CaptureInv r) (hgrounded : s.Grounded) (hcaught : s.caughtUp)
    (hrotated : s.rotated = false)
    (hcursor : s.follower.cursor = (text r.toFormat s.files.log.current).length) :
    s.due.Subperm (s.follower.delivered.filterMap r.heard) := by
  have hall := owedTexts_perm s.since s.windows
    (Lines.between_all (h.unrecorded hgrounded hcaught) hgrounded.recorded)
  obtain ⟨seen, unseen, hcurrent, hseen, hunseen⟩ := h.placed hrotated
  rw [hcurrent, hseen] at hcursor
  have hread := hunseen []
  rw [eq_nil_of_text hcursor] at hread
  have hboth := owedBetween_split [] (Nat.zero_le _) h.ordered (h.heard []) hread
  unfold owedBetween at hboth
  rw [List.append_nil, List.filterMap_nil, List.append_nil] at hboth
  exact hall.subperm.trans hboth

/-- The end of a follow of the raw log. -/
theorem RawInv.due_subperm (h : s.RawInv) (hback : s.cutBack = false)
    (hnone : Lines.complete newline (s.files.raw.drop s.follower.rawCursor) = []) :
    s.due.Subperm s.follower.rawDelivered := by
  obtain ⟨hle, hplace⟩ := h.placed hback
  rw [← drop_read hplace] at hnone
  have hin : s.read ≤ s.stream.length := by
    rw [stream, List.length_append]
    omega
  have hall := owedTexts_perm s.since s.windows (Lines.between_all hnone hin)
  have hheard := h.heard []
  unfold owedBetween at hheard
  rw [List.append_nil] at hheard
  exact hall.subperm.trans hheard

/-! ### The polls -/

/-- A poll changes the follower only, and the account of what it is through with. -/
theorem pollFiles_frame (r : Records α) (s : Session α) :
    (s.pollFiles r).files = s.files ∧ (s.pollFiles r).host = s.host ∧
      (s.pollFiles r).gone = s.gone ∧ (s.pollFiles r).recorded = s.recorded ∧
        (s.pollFiles r).opening = s.opening ∧
          (s.pollFiles r).follower = s.follower.poll r.toFormat s.files := by
  unfold pollFiles
  dsimp only
  split_ifs <;> exact ⟨rfl, rfl, rfl, rfl, rfl, rfl⟩

/-- A poll that reads nothing of the log that is followed. -/
theorem pollFiles_idle (hraw : s.follower.rawFallback = true → s.follower.stage.readsRaw = false)
    (hcapture : s.follower.rawFallback = false → s.follower.stage.readsLog = false) :
    s.pollFiles r = { s with follower := s.follower.poll r.toFormat s.files } := by
  unfold pollFiles
  dsimp only
  split
  · rename_i hfallback
    rw [hraw hfallback]
    rfl
  · rename_i hfallback
    rw [hcapture (by simpa using hfallback)]
    rfl

theorem CaptureInv.pollFiles (h : s.CaptureInv r) (hfallback : s.follower.rawFallback = false)
    (hrotated : s.follower.stage.readsLog = true → s.rotated = true →
      (text r.toFormat s.files.log.current).length < s.follower.cursor) :
    (s.pollFiles r).CaptureInv r := by
  cases hreads : s.follower.stage.readsLog with
  | true => exact h.readLog hfallback hreads (hrotated hreads)
  | false =>
      obtain ⟨hcursor, hdelivered, hsound⟩ :=
        Follower.poll_capture r.toFormat s.files hreads h.sound
      rw [pollFiles_idle (by rw [hfallback]; exact fun hf => absurd hf (by simp)) fun _ => hreads]
      refine ⟨hsound, fun hrotated => ?_, fun more => ?_, h.vacant, h.ordered⟩
      · obtain ⟨seen, unseen, hcurrent, hseen, hunseen⟩ := h.placed hrotated
        exact ⟨seen, unseen, hcurrent, hcursor.trans hseen, hunseen⟩
      · dsimp only
        rw [hdelivered]
        exact h.heard more

theorem RawInv.pollFiles (h : s.RawInv) (hfallback : s.follower.rawFallback = true)
    (hcut : s.follower.stage.readsRaw = true → s.cutBack = true →
      s.files.raw.length < s.follower.rawCursor) : (s.pollFiles r).RawInv := by
  cases hreads : s.follower.stage.readsRaw with
  | true =>
      cases hback : s.cutBack with
      | true => exact h.readRaw_shrunk hfallback hreads (hcut hreads hback)
      | false => exact h.readRaw_whole hfallback hreads hback
  | false =>
      obtain ⟨hcursor, hdelivered⟩ := Follower.poll_raw r.toFormat s.files hreads
      rw [pollFiles_idle (fun _ => hreads) (by rw [hfallback]; exact fun hf => absurd hf (by simp))]
      refine ⟨fun hback => ?_, fun more => ?_⟩
      · dsimp only
        rw [hcursor]
        exact h.placed hback
      · dsimp only
        rw [hdelivered]
        exact h.heard more

/-- **The end of a follow**: the log it follows has nothing left to read. -/
theorem Inv.ended (h : s.Inv r) (hpolling : s.opening = .polling)
    (hopen : s.follower.stage ≠ .exited) (hattended : s.Attended r (.poll true)) :
    (s.pollFiles r).NotSilent r := by
  intro hexited
  rw [(pollFiles_frame r s).2.2.2.2.2] at hexited
  have hends : s.ends := Follower.ends_of_poll hopen hexited
  have hlog : s.follower.stage.readsLog = false := by rw [hends.1]; rfl
  have hraw : s.follower.stage.readsRaw = false := by rw [hends.1]; rfl
  have hsound : ∀ detail, s.follower.stage ≠ .failed detail := by
    rw [hends.1]
    exact fun _ => Stage.noConfusion
  rw [pollFiles_idle (fun _ => hraw) fun _ => hlog]
  change s.due.Subperm ((s.follower.poll r.toFormat s.files).delivered.filterMap r.heard ++
    (s.follower.poll r.toFormat s.files).rawDelivered)
  rw [(Follower.poll_capture r.toFormat s.files hlog hsound).2.1,
    (Follower.poll_raw r.toFormat s.files hraw).2]
  cases hfallback : s.follower.rawFallback with
  | false =>
      have hfollows : s.followsCapture := ⟨hpolling, hfallback⟩
      obtain ⟨hcaught, hrotated, hcursor⟩ := hattended.2.2.1 hfollows hends
      exact ((h.capture hfollows hopen).due_subperm h.grounded hcaught hrotated hcursor).trans
        (List.sublist_append_left _ _).subperm
  | true =>
      have hfollows : s.followsRaw := ⟨hpolling, hfallback⟩
      obtain ⟨hback, hnone⟩ := hattended.2.2.2 hfollows hends
      exact ((h.raw hfollows hopen).due_subperm hback hnone).trans
        (List.sublist_append_right _ _).subperm

theorem Inv.pollFiles (h : s.Inv r) (hpolling : s.opening = .polling)
    (hopen : s.follower.stage ≠ .exited) (hattended : s.Attended r (.poll true)) :
    Inv r (s.pollFiles r) := by
  obtain ⟨hfiles, hhost, hgone, hrecorded, hopening, hfollower⟩ := pollFiles_frame r s
  have hmode : (s.pollFiles r).follower.rawFallback = s.follower.rawFallback := by
    rw [hfollower, Follower.poll_rawFallback]
  refine ⟨⟨?_, ?_⟩, fun hother => ?_, fun hasking => ?_, fun hpriming => ?_,
    fun hfollows _ => ?_, fun hfollows _ => ?_, h.ended hpolling hopen hattended⟩
  · rw [hhost, hfiles, hgone, hrecorded]
    exact h.grounded.cursor
  · rw [stream, hfiles, hgone, hrecorded]
    exact h.grounded.recorded
  · rw [hopening] at hother
    exact absurd hpolling hother
  · rw [hopening, hpolling] at hasking
    exact Opening.noConfusion hasking
  · rw [hopening, hpolling] at hpriming
    exact Opening.noConfusion hpriming
  · have hfollows' : s.followsCapture := ⟨hpolling, hmode ▸ hfollows.2⟩
    exact (h.capture hfollows' hopen).pollFiles hfollows'.2 (hattended.1 hfollows')
  · have hfollows' : s.followsRaw := ⟨hpolling, hmode ▸ hfollows.2⟩
    exact (h.raw hfollows' hopen).pollFiles hfollows'.2 (hattended.2.1 hfollows')

/-! ### The beginning of a follow -/

/-- Before the polls have begun the follow has not ended. -/
theorem Inv.open (h : s.Inv r) (hopening : s.opening ≠ .polling) :
    s.follower.stage ≠ .exited := by
  rw [h.opening hopening]
  exact Stage.noConfusion

/-- The command dumps the capture. -/
theorem Inv.dump (h : s.Inv r) (answers : Bool) (hdumping : s.opening = .dumping) :
    Inv r (s.poll r n answers) := by
  unfold poll
  rw [hdumping]
  exact ⟨⟨h.grounded.cursor, h.grounded.recorded⟩, fun _ => rfl,
    fun _ => ⟨rfl, fun _ => ⟨s.files.log.current, [], (List.append_nil _).symm, rfl⟩⟩,
    fun hpriming => Opening.noConfusion hpriming, fun hfollows => Opening.noConfusion hfollows.1,
    fun hfollows => Opening.noConfusion hfollows.1, fun hexited => Stage.noConfusion hexited⟩

/-- The command asks the host, and follows the capture when one is live. -/
theorem Inv.ask (h : s.Inv r) (answers : Bool) (hasking : s.opening = .asking) :
    Inv r (s.poll r n answers) := by
  have hnot : s.opening ≠ .polling := by
    rw [hasking]
    exact Opening.noConfusion
  have hstage := h.opening hnot
  have hopen := h.open hnot
  obtain ⟨hfallback, hdumped⟩ := h.asking hasking
  unfold poll
  rw [hasking]
  dsimp only
  split
  · rename_i hlive
    rw [Bool.and_eq_true] at hlive
    -- nothing is owed yet, since the stream ends where the polls begin
    have hnone : ∀ more lo, owedTexts s.stream.length s.windows
        (Lines.between newline lo s.recorded (s.stream ++ more)) = [] :=
      fun more lo => owedTexts_between_of_le h.grounded.recorded _
    refine ⟨⟨h.grounded.cursor, h.grounded.recorded⟩, fun hother => absurd rfl hother,
      fun hasking => Opening.noConfusion hasking, fun hpriming => Opening.noConfusion hpriming,
      fun _ _ => ⟨?_, fun hrotated => ?_, fun more => ?_, fun hvacant => ?_, Nat.le_refl _⟩,
      fun hfollows => ?_, fun hexited => absurd hexited hopen⟩
    · dsimp only
      rw [hstage]
      exact fun _ => Stage.noConfusion
    · obtain ⟨seen, unseen, hcurrent, hcursor⟩ := hdumped hrotated
      exact ⟨seen, unseen, hcurrent, hcursor, fun more =>
        (List.Perm.of_eq (hnone more _)).subperm.trans List.nil_subperm⟩
    · exact (List.Perm.of_eq (hnone more _)).subperm.trans List.nil_subperm
    · rw [show s.host.liveCapture = false from hvacant] at hlive
      exact absurd hlive.2 (by simp)
    · rw [show s.follower.rawFallback = true from hfollows.2] at hfallback
      exact absurd hfallback (by simp)
  · exact ⟨⟨h.grounded.cursor, h.grounded.recorded⟩, fun _ => hstage,
      fun hasking => Opening.noConfusion hasking, fun _ => rfl,
      fun hfollows => Opening.noConfusion hfollows.1,
      fun hfollows => Opening.noConfusion hfollows.1, fun hexited => absurd hexited hopen⟩

/-- The command finds the window of the raw log, and follows from its beginning. -/
theorem Inv.prime (h : s.Inv r) (answers : Bool) (hpriming : s.opening = .priming) :
    Inv r (s.poll r n answers) := by
  have hopen := h.open (by rw [hpriming]; exact Opening.noConfusion)
  have hfallback := h.priming hpriming
  have hprime : (primeBacklogWindow s.files.raw n).1 ≤ s.files.raw.length := by
    rw [Capture.primeBacklogWindow_eq]
    exact Lines.bounded_le _ _ _
  unfold poll
  rw [hpriming]
  refine ⟨⟨h.grounded.cursor, h.grounded.recorded⟩, fun hother => absurd rfl hother,
    fun hasking => Opening.noConfusion hasking, fun hpriming => Opening.noConfusion hpriming,
    fun hfollows => ?_, fun _ _ => ⟨fun _ => ⟨hprime, rfl⟩, fun more => ?_⟩,
    fun hexited => absurd hexited hopen⟩
  · rw [show s.follower.rawFallback = false from hfollows.2] at hfallback
    exact absurd hfallback (by simp)
  · refine (List.Perm.of_eq ?_).subperm.trans List.nil_subperm
    refine owedTexts_between_of_le ?_ _
    change s.gone.length + _ ≤ (s.gone ++ s.files.raw).length
    rw [List.length_append]
    exact Nat.add_le_add_left hprime _

/-- The next step of the command. -/
theorem Inv.poll (h : s.Inv r) (hopen : s.follower.stage ≠ .exited) (answers : Bool)
    (hattended : s.Attended r (.poll answers)) : Inv r (s.poll r n answers) := by
  cases hopening : s.opening with
  | dumping => exact h.dump answers hopening
  | asking => exact h.ask answers hopening
  | priming => exact h.prime answers hopening
  | polling =>
      have hpoll : s.poll r n answers = s.pollFiles r := by simp [Session.poll, hopening]
      rw [hpoll]
      exact h.pollFiles hopening hopen hattended

/-- **An attended step keeps the invariant.** -/
theorem Inv.step (h : s.Inv r) {a : Action α} (hattended : s.Attended r a) :
    Inv r (s.step r n a) := by
  unfold Session.step
  split
  · exact h
  · rename_i hopen
    cases a with
    | tick millis => exact h.files rfl rfl
    | write bytes => exact h.wrote hopen bytes hattended
    | truncate => exact h.cut hopen hattended
    | append lines => exact h.append hopen lines
    | pass at_ =>
        dsimp only
        split
        · rename_i cursor hhost
          exact h.tail hopen at_ hhost
        · exact h
    | exitHost => exact h.vacate hopen .absent rfl hattended
    | adopt => exact h.vacate hopen .adopted rfl hattended
    | spawn => exact h.spawn hopen hattended
    | settle running => exact h.files rfl rfl
    | poll answers => exact h.poll hopen answers hattended

end Session

/-! ### Attended runs -/

theorem inv_fresh (r : Records α) : (Session.fresh r).Inv r where
  grounded := ⟨fun _ hhost => Host.noConfusion hhost, Nat.le_refl _⟩
  opening _ := rfl
  asking hasking := Opening.noConfusion hasking
  priming hpriming := Opening.noConfusion hpriming
  capture hfollows := Opening.noConfusion hfollows.1
  raw hfollows := Opening.noConfusion hfollows.1
  notSilent hexited := Stage.noConfusion hexited

/-- **A follow is not silent** in a run whose steps are attended: at its end every line that the
agent began since the polls have, and that is not blank, was delivered as often as it was written,
but for those of the windows that were announced. -/
theorem follow_notSilent (r : Records α) (n : ℕ) (as : List (Action α))
    (hmeets : Guarded.Meets (Session.step r n) (Session.Attended r) (Session.fresh r) as) :
    ∀ t ∈ Guarded.states (Session.step r n) (Session.fresh r) as, t.NotSilent r := by
  intro t ht
  have hinv : t.Inv r := Guarded.invariant (P := fun s : Session α => s.Inv r)
    (fun _ _ h hattended => h.step hattended) (inv_fresh r) hmeets ht
  exact hinv.notSilent

/-! ### A host that exits -/

instance (host : Host) (P : ℕ → Prop) [DecidablePred P] :
    Decidable (∀ cursor, host = .capturing cursor → P cursor) :=
  match host with
  | .capturing cursor =>
      decidable_of_iff (P cursor) ⟨fun h _ hc => Host.capturing.inj hc ▸ h, fun h => h cursor rfl⟩
  | .absent => .isTrue fun _ hc => Host.noConfusion hc
  | .adopted => .isTrue fun _ hc => Host.noConfusion hc

instance (s : Session α) : Decidable s.caughtUp := inferInstanceAs (Decidable (∀ _, _ → _))

instance (s : Session α) : Decidable s.followsCapture := inferInstanceAs (Decidable (_ ∧ _))

instance (s : Session α) : Decidable s.followsRaw := inferInstanceAs (Decidable (_ ∧ _))

instance (s : Session α) : Decidable s.ends := inferInstanceAs (Decidable (_ ∧ _))

instance (s : Session α) (a : Action α) : Decidable (s.Attended r a) :=
  match a with
  | .write _ | .truncate | .exitHost | .adopt | .spawn => inferInstanceAs (Decidable (_ → _))
  | .poll _ => inferInstanceAs (Decidable (_ ∧ _))
  | .tick _ | .append _ | .pass _ | .settle _ => .isTrue trivial

open Capture.Follow (ascii rowTail)

/-- The text of a line of the agent up to its own text. -/
def spokenHead : List UInt8 :=
  ascii ("\x7b\"schema_version\":1,\"instance\":\"a\",\"stream\":\"agent-out\",\"at\":\"1\"," ++
    "\"text\":\"")

/-- A line of the agent. -/
abbrev Spoken : Type := { line : List UInt8 // newline ∉ line }

/-- The bytes between the head and the tail of a row. -/
def spokenText (bytes : List UInt8) : List UInt8 :=
  (bytes.drop spokenHead.length).take (bytes.length - spokenHead.length - rowTail.length)

theorem spokenText_row (line : List UInt8) :
    spokenText (spokenHead ++ line ++ rowTail) = line := by
  unfold spokenText
  rw [List.append_assoc, List.drop_left, List.length_append, List.length_append,
    Nat.add_sub_cancel_left, Nat.add_sub_cancel, List.take_left]

theorem newline_not_mem_spoken (line : Spoken) : newline ∉ spokenHead ++ line.1 ++ rowTail := by
  have hhead : newline ∉ spokenHead := by decide +kernel
  have htail : newline ∉ rowTail := by decide +kernel
  simp only [List.mem_append, hhead, htail, line.2, or_self, not_false_eq_true]

theorem getLast?_spoken (line : Spoken) :
    (spokenHead ++ line.1 ++ rowTail).getLast? ≠ some 13 := by
  have htail : rowTail.getLast? = some 125 := by decide +kernel
  rw [List.getLast?_append, htail, Option.some_or]
  decide

theorem not_blank_spoken (line : Spoken) :
    ((spokenHead ++ line.1 ++ rowTail).all fun b => b = 32 || (9 ≤ b && b ≤ 13)) = false := by
  have hhead : (spokenHead.all fun b => b = 32 || (9 ≤ b && b ≤ 13)) = false := by
    decide +kernel
  rw [List.all_append, List.all_append, hhead]
  rfl

/-- Plain lines, and the rows of a capture that hold them. -/
def spoken : Records Spoken where
  encode line := spokenHead ++ line.1 ++ rowTail
  parse bytes :=
    if h : newline ∉ spokenText bytes then .ok ⟨spokenText bytes, h⟩ else .error "expected a line"
  blank bytes := bytes.all fun b => b = 32 || (9 ≤ b && b ≤ 13)
  record _ line := if h : newline ∉ line then ⟨line, h⟩ else ⟨[], List.not_mem_nil⟩
  heard line := some (fromUtf8Lossy line.1)
  parse_encode line := by
    have htext := spokenText_row line.1
    rw [dif_pos (by rw [htext]; exact line.2)]
    exact congrArg _ (Subtype.ext htext)
  newline_not_mem := newline_not_mem_spoken
  no_carriage_return := getLast?_spoken
  not_blank := not_blank_spoken
  heard_record _ line hline := by rw [dif_pos hline]

/-- The capture is followed under a live tailer until the instance has stopped. -/
def attendedRun : List (Action Spoken) :=
  [.settle true, .spawn, .poll true, .poll true, .write [0x68, 0x69, 0x0A], .pass "1", .poll true,
    .poll true, .poll true, .settle false, .poll true, .poll true, .poll true, .poll true,
    .poll true, .poll true]

theorem follow_notSilent_attended : Session.NotSilent spoken
    (attendedRun.foldl (Session.step spoken 10) (Session.fresh spoken)) :=
  follow_notSilent spoken 10 attendedRun (by decide +kernel) _ Guarded.last_mem_states

/-- The host that was asked exits, and the agent goes on writing. -/
def lostRun : List (Action Spoken) :=
  [.settle true, .spawn, .poll true, .poll true, .exitHost, .write [0x61, 0x0A], .poll true,
    .poll true, .poll true, .settle false, .poll true, .poll true, .poll true, .poll true,
    .poll true, .poll true]

/-- **A silent follow**: it was told of a live capture, and reads nothing but the capture after the
host has exited. -/
theorem hostExit_silent : ¬ Session.NotSilent spoken
    (lostRun.foldl (Session.step spoken 10) (Session.fresh spoken)) := by
  intro h
  have hexited : (lostRun.foldl (Session.step spoken 10)
      (Session.fresh spoken)).follower.stage = .exited := by decide +kernel
  have hdue : (lostRun.foldl (Session.step spoken 10) (Session.fresh spoken)).due = [['a']] := by
    decide +kernel
  have hheard : (lostRun.foldl (Session.step spoken 10)
      (Session.fresh spoken)).heardTexts spoken = [] := by decide +kernel
  have hsub := h hexited
  rw [hdue, hheard] at hsub
  exact absurd (List.subperm_nil.1 hsub) (by simp)

end Logs

end Hekma
