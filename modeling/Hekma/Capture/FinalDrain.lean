/-
**The final drain of a follow** (`cli/agent.rs`).

A process that stops an instance persists the new state and then appends the engine's line of the
transition to the capture, in two steps.  A follower in another process can see the state before the
line is there.  Its final drain is to wait for the line, for a bounded time.

The loop ends at the first round that finds nothing, so it does not wait.  It reads the line where
something else is found in every round before the bound.

Main definitions:

* `Race`, `Race.step` — the files, the follower and the engine's line;
* `Race.Waited` — the drain has waited for the line;
* `Race.Busy` — the conditions on a step.

Main results:

* `Race.Inv.step` — what a step keeps;
* `Race.waited_of_busy` — **the drain waits** in a run whose steps are busy.
-/

import Hekma.Capture.LogsFollow

set_option relaxedAutoImplicit false
set_option autoImplicit false

namespace Hekma

namespace Logs

open Capture (shouldRotate)
open Capture.Follow (Format size text)

/-! ### The race -/

/-- The files and the follower; when the engine's line was appended, and whether the final drain had
delivered nothing by then; whether the line waits for a read of the capture; the lines of the
capture delivered since; whether the drain has delivered anything; whether the capture was rotated
since the last read; and when the follower exited. -/
structure Race (α : Type) where
  files : Files α
  follower : Follower α
  engineLine : Option ℕ
  quiet : Bool
  unread : Bool
  since : List α
  heard : Bool
  rotated : Bool
  endedAt : ℕ

inductive RaceAction (α : Type) where
  /-- Time passes. -/
  | tick (millis : ℕ)
  /-- Other lines are appended to the capture. -/
  | append (lines : List α)
  /-- The agent writes to its raw log. -/
  | write (bytes : List UInt8)
  /-- The new state is persisted. -/
  | persist
  /-- The engine's line of the transition is appended. -/
  | engineLine
  /-- The next step of the follower. -/
  | poll

/-- The stages of the final drain that read. -/
def Stage.drains (stage : Stage) : Bool := stage = .drainLog || stage = .drainRaw

/-- The stages that read the capture. -/
def Stage.readsLog (stage : Stage) : Bool := stage = .readLog || stage = .drainLog

section

variable {α : Type} (f : Format α) (e : α)

/-- Appending lines rotates the capture first. -/
def Files.rotates (w : Files α) (lines : List α) : Bool :=
  !lines.isEmpty && shouldRotate (w.log.currentLen (size f))

def Files.append (w : Files α) (lines : List α) : Files α :=
  { w with log := w.log.append (size f) lines }

namespace Race

/-- One step.  The engine's line follows the state, and is appended once. -/
def step (s : Race α) : RaceAction α → Race α
  | .tick millis => { s with files := { s.files with now := s.files.now + millis } }
  | .append lines =>
      { s with
        files := s.files.append f lines
        rotated := s.rotated || s.files.rotates f lines }
  | .write bytes => { s with files := { s.files with raw := s.files.raw ++ bytes } }
  | .persist => { s with files := { s.files with running := false } }
  | .engineLine =>
      if !s.files.running ∧ s.engineLine = none then
        { s with
          files := s.files.append f [e]
          engineLine := some s.files.now
          quiet := !s.heard
          unread := true
          since := []
          rotated := s.rotated || s.files.rotates f [e] }
      else s
  | .poll =>
      let next := s.follower.poll f s.files
      { s with
        follower := next
        unread := s.unread && !s.follower.stage.readsLog
        since := s.since ++ next.delivered.drop s.follower.delivered.length
        heard := s.heard || (s.follower.stage.drains && next.found)
        rotated := s.rotated && !s.follower.stage.readsLog
        endedAt :=
          if s.follower.stage = .checkDeadline ∧ next.stage = .exited then s.files.now
          else s.endedAt }

/-- A follower of a running instance, after its first dump of the capture. -/
def start (w : Files α) (rawFallback : Bool) (rawCursor : ℕ) : Race α where
  files := w
  follower := .start f w rawFallback rawCursor
  engineLine := none
  quiet := false
  unread := false
  since := []
  heard := false
  rotated := false
  endedAt := 0

/-- The drain has not ended with an empty round before the bound, and an engine's line that was
appended before the bound, with nothing delivered before it, has been delivered. -/
structure Waited (s : Race α) : Prop where
  notEmpty : s.follower.stage = .exited → s.follower.found = false →
    s.follower.deadline ≤ s.endedAt
  delivered : s.follower.stage = .exited → s.quiet = true →
    ∀ at_, s.engineLine = some at_ → at_ < s.follower.deadline → e ∈ s.since

/-- The conditions on a step of the follower.  A round of the final drain that is over before the
bound has found a line; no engine's line was appended before the bound, but after the last read of
the round that is over at the bound; and a read of the capture finds it as it left it, or shorter
than the cursor and without an engine's line to read. -/
def Busy (s : Race α) : RaceAction α → Prop
  | .poll =>
      (s.follower.stage = .checkDeadline → s.files.now < s.follower.deadline →
        s.follower.found = true) ∧
      (s.follower.stage = .checkDeadline → s.follower.deadline ≤ s.files.now →
        s.unread = true → ∀ at_, s.engineLine = some at_ → s.follower.deadline ≤ at_) ∧
      (s.follower.stage.readsLog = true → s.rotated = true →
        (text f s.files.log.current).length < s.follower.cursor ∧ s.unread = false)
  | _ => True

/-- What holds in every state. -/
structure Inv (s : Race α) : Prop where
  sound : ∀ detail, s.follower.stage ≠ .failed detail
  placed : s.rotated = false → ∃ seen unseen, s.files.log.current = seen ++ unseen ∧
    s.follower.cursor = (text f seen).length ∧ (s.unread = true → e ∈ unseen)
  read : s.unread = false → ∀ at_, s.engineLine = some at_ → e ∈ s.since
  bound : s.follower.stage = .exited → s.follower.deadline ≤ s.endedAt ∧ s.endedAt ≤ s.files.now
  late : s.follower.stage = .exited → s.unread = true →
    ∀ at_, s.engineLine = some at_ → s.follower.deadline ≤ at_

end Race

end

namespace Race

variable {α : Type} {f : Format α} {e : α} {s : Race α}

theorem Inv.waited (h : Inv f e s) : Waited e s where
  notEmpty hexited _ := (h.bound hexited).1
  delivered hexited _ at_ hat hlt := by
    cases hunread : s.unread with
    | false => exact h.read hunread at_ hat
    | true => exact absurd (h.late hexited hunread at_ hat) (Nat.not_le.2 hlt)

/-- Lines that do not rotate the capture are left to read. -/
theorem current_append {w : Files α} {lines : List α} (h : w.rotates f lines = false) :
    (w.append f lines).log.current = w.log.current ++ lines := by
  unfold Files.rotates at h
  unfold Files.append Capture.AttributedLog.append
  split
  · rename_i hempty
    rw [List.isEmpty_iff.1 hempty, List.append_nil]
  · rename_i hne
    have hsmall : shouldRotate (w.log.currentLen (size f)) = false := by simpa [hne] using h
    dsimp only
    rw [Capture.AttributedLog.prepare, hsmall]
    rfl

theorem Inv.append (h : Inv f e s) (lines : List α) : Inv f e (step f e s (.append lines)) := by
  refine ⟨h.sound, fun hrotated => ?_, h.read, h.bound, h.late⟩
  obtain ⟨hold, hkeep⟩ := Bool.or_eq_false_iff.1 hrotated
  obtain ⟨seen, unseen, hcurrent, hcursor, hunread⟩ := h.placed hold
  refine ⟨seen, unseen ++ lines, ?_, hcursor, fun hu => List.mem_append_left _ (hunread hu)⟩
  exact (current_append hkeep).trans (by rw [hcurrent, List.append_assoc])

theorem Inv.engineLine (h : Inv f e s) : Inv f e (step f e s .engineLine) := by
  rw [step]
  split
  · refine ⟨h.sound, fun hrotated => ?_, fun hread => ?_, h.bound, fun hexited _ at_ hat => ?_⟩
    · obtain ⟨hold, hkeep⟩ := Bool.or_eq_false_iff.1 hrotated
      obtain ⟨seen, unseen, hcurrent, hcursor, -⟩ := h.placed hold
      refine ⟨seen, unseen ++ [e], ?_, hcursor, fun _ => ?_⟩
      · exact (current_append hkeep).trans (by rw [hcurrent, List.append_assoc])
      · exact List.mem_append_right _ List.mem_cons_self
    · cases hread
    · obtain rfl : s.files.now = at_ := Option.some.inj hat
      have hbound := h.bound hexited
      exact Nat.le_trans hbound.1 hbound.2
  · exact h

/-- A step of the follower that does not read the capture. -/
theorem Inv.other (h : Inv f e s) {next : Follower α} (hpoll : s.follower.poll f s.files = next)
    (hreads : s.follower.stage.readsLog = false) (hcursor : next.cursor = s.follower.cursor)
    (hdelivered : next.delivered = s.follower.delivered)
    (hsound : ∀ detail, next.stage ≠ .failed detail) (hexited : next.stage ≠ .exited) :
    Inv f e (step f e s .poll) := by
  refine ⟨fun detail => ?_, fun hrotated => ?_, fun hread at_ hat => ?_, fun hstage => ?_,
    fun hstage => ?_⟩
  · rw [step, hpoll]
    exact hsound detail
  · simp only [step, hpoll, hreads, Bool.not_false, Bool.and_true, hcursor] at hrotated ⊢
    exact h.placed hrotated
  · simp only [step, hpoll, hreads, Bool.not_false, Bool.and_true, hdelivered,
      List.drop_length, List.append_nil] at hread hat ⊢
    exact h.read hread at_ hat
  all_goals
    rw [step, hpoll] at hstage
    exact absurd hstage hexited

/-- A read of the capture finds every line that waits. -/
theorem Inv.readLog (h : Inv f e s) (hbusy : Busy f s .poll) {next : Stage}
    (hreads : s.follower.stage.readsLog = true)
    (hpoll : s.follower.poll f s.files = s.follower.readLog f s.files next)
    (hsound : ∀ detail, next ≠ .failed detail) (hexited : next ≠ .exited) :
    Inv f e (step f e s .poll) := by
  cases hrotated : s.rotated with
  | true =>
      obtain ⟨hshort, hunread⟩ := hbusy.2.2 hreads hrotated
      rw [Follower.readLog_shrunk hshort] at hpoll
      refine ⟨fun detail => ?_, fun _ => ?_, fun _ at_ hat => ?_, fun hstage => ?_,
        fun hstage => ?_⟩
      · rw [step, hpoll]
        exact hsound detail
      · refine ⟨s.files.log.current, [], (List.append_nil _).symm, ?_, fun hu => ?_⟩
        · rw [step, hpoll]
        · rw [step, hreads, Bool.not_true, Bool.and_false] at hu
          cases hu
      · exact List.mem_append_left _ (h.read hunread at_ hat)
      all_goals
        rw [step, hpoll] at hstage
        exact absurd hstage hexited
  | false =>
      obtain ⟨seen, unseen, hcurrent, hcursor, hwaits⟩ := h.placed hrotated
      rw [Follower.readLog_text hcurrent hcursor] at hpoll
      refine ⟨fun detail => ?_, fun _ => ?_, fun _ at_ hat => ?_, fun hstage => ?_,
        fun hstage => ?_⟩
      · rw [step, hpoll]
        exact hsound detail
      · refine ⟨s.files.log.current, [], (List.append_nil _).symm, ?_, fun hu => ?_⟩
        · rw [step, hpoll]
        · rw [step, hreads, Bool.not_true, Bool.and_false] at hu
          cases hu
      · have hsince : (step f e s .poll).since = s.since ++ unseen := by
          rw [step, hpoll, List.drop_left]
        rw [hsince]
        cases hunread : s.unread with
        | true => exact List.mem_append_right _ (hwaits hunread)
        | false => exact List.mem_append_left _ (h.read hunread at_ hat)
      all_goals
        rw [step, hpoll] at hstage
        exact absurd hstage hexited

/-- The check of a round: it ends the drain at the bound only. -/
theorem Inv.check (h : Inv f e s) (hbusy : Busy f s .poll)
    (hstage : s.follower.stage = .checkDeadline) : Inv f e (step f e s .poll) := by
  have hreads : s.follower.stage.readsLog = false := by rw [hstage]; rfl
  by_cases hbound : s.follower.deadline ≤ s.files.now
  · have hpoll : s.follower.poll f s.files = { s.follower with stage := .exited } := by
      simp [Follower.poll, hstage, hbound]
    refine ⟨fun detail => ?_, fun hrotated => ?_, fun hread at_ hat => ?_, fun _ => ?_,
      fun _ hunread at_ hat => ?_⟩
    · rw [step, hpoll]
      exact Stage.noConfusion
    · simp only [step, hpoll, hreads, Bool.not_false, Bool.and_true] at hrotated ⊢
      exact h.placed hrotated
    · simp only [step, hpoll, hreads, Bool.not_false, Bool.and_true, List.drop_length,
        List.append_nil] at hread hat ⊢
      exact h.read hread at_ hat
    · simp only [step, hpoll, hstage, true_and, if_true]
      exact ⟨hbound, Nat.le_refl _⟩
    · simp only [step, hpoll, hreads, Bool.not_false, Bool.and_true] at hunread hat ⊢
      exact hbusy.2.1 hstage hbound hunread at_ hat
  · have hfound := hbusy.1 hstage (Nat.lt_of_not_le hbound)
    have hpoll : s.follower.poll f s.files = { s.follower with stage := .drainLog } := by
      simp [Follower.poll, hstage, hfound, hbound]
    exact h.other hpoll hreads rfl rfl (fun _ => Stage.noConfusion) Stage.noConfusion

theorem Inv.poll (h : Inv f e s) (hbusy : Busy f s .poll) : Inv f e (step f e s .poll) := by
  -- the raw log is read without a word about the capture
  have hraw : ∀ next, (∀ detail, next ≠ Stage.failed detail) → next ≠ .exited →
      s.follower.poll f s.files = s.follower.readRaw s.files next →
      s.follower.stage.readsLog = false → Inv f e (Race.step f e s .poll) := by
    intro next hsound hexited hpoll hreads
    refine h.other hpoll hreads ?_ ?_ (fun detail => ?_) ?_
    all_goals
      unfold Follower.readRaw
      split
    all_goals
      first
        | rfl
        | exact hsound _
        | exact hexited
  cases hstage : s.follower.stage with
  | readLog =>
      have hpoll : s.follower.poll f s.files = s.follower.readLog f s.files .readRaw := by
        simp [Follower.poll, hstage]
      exact h.readLog hbusy (by rw [hstage]; rfl) hpoll (fun _ => Stage.noConfusion)
        Stage.noConfusion
  | readRaw =>
      refine hraw .readStatus (fun _ => Stage.noConfusion) Stage.noConfusion ?_ (by rw [hstage]; rfl)
      simp [Follower.poll, hstage]
  | readStatus =>
      have hreads : s.follower.stage.readsLog = false := by rw [hstage]; rfl
      cases hrunning : s.files.running with
      | true =>
          have hpoll : s.follower.poll f s.files = { s.follower with stage := .readLog } := by
            simp [Follower.poll, hstage, hrunning]
          exact h.other hpoll hreads rfl rfl (fun _ => Stage.noConfusion) Stage.noConfusion
      | false =>
          have hpoll : s.follower.poll f s.files = { s.follower with
              stage := .drainLog, deadline := s.files.now + followFinalDrainBound } := by
            simp [Follower.poll, hstage, hrunning]
          exact h.other hpoll hreads rfl rfl (fun _ => Stage.noConfusion) Stage.noConfusion
  | drainLog =>
      have hpoll : s.follower.poll f s.files = s.follower.readLog f s.files .drainRaw := by
        simp [Follower.poll, hstage]
      exact h.readLog hbusy (by rw [hstage]; rfl) hpoll (fun _ => Stage.noConfusion)
        Stage.noConfusion
  | drainRaw =>
      refine hraw .checkDeadline (fun _ => Stage.noConfusion) Stage.noConfusion ?_
        (by rw [hstage]; rfl)
      simp [Follower.poll, hstage]
  | checkDeadline => exact h.check hbusy hstage
  | exited =>
      have hpoll : s.follower.poll f s.files = s.follower := by simp [Follower.poll, hstage]
      have hstep : Race.step f e s .poll = s := by
        simp [Race.step, hpoll, hstage, Stage.readsLog, Stage.drains]
      rw [hstep]
      exact h
  | failed detail => exact absurd hstage (h.sound detail)

/-- **What a busy step keeps.** -/
theorem Inv.step {a : RaceAction α} (h : Inv f e s) (hbusy : Busy f s a) :
    Inv f e (step f e s a) := by
  cases a with
  | tick millis =>
      refine ⟨h.sound, h.placed, h.read, fun hexited => ?_, h.late⟩
      have hbound := h.bound hexited
      exact ⟨hbound.1, Nat.le_trans hbound.2 (Nat.le_add_right _ _)⟩
  | append lines => exact h.append lines
  | write bytes => exact ⟨h.sound, h.placed, h.read, h.bound, h.late⟩
  | persist => exact ⟨h.sound, h.placed, h.read, h.bound, h.late⟩
  | engineLine => exact h.engineLine
  | poll => exact h.poll hbusy

theorem Inv.start (w : Files α) (rawFallback : Bool) (rawCursor : ℕ) :
    Inv f e (start f w rawFallback rawCursor) where
  sound _ := Stage.noConfusion
  placed _ := ⟨w.log.current, [], (List.append_nil _).symm, rfl, fun hu => Bool.noConfusion hu⟩
  read _ _ hat := by cases hat
  bound hexited := by cases hexited
  late hexited := by cases hexited

open Capture.Follow (rows)

/-- An instance whose logs are empty. -/
def quietFiles : Files ℕ := ⟨.empty, [], true, 0⟩

/-- The engine's line comes in time, and the agent writes until the bound. -/
def busyRun : List (RaceAction ℕ) :=
  [.poll, .poll, .persist, .poll, .write [0x61, 0x0A], .poll, .poll, .engineLine, .poll, .tick 2000,
    .poll, .poll, .poll]

/-- The follower sees the new state before the engine's line is there. -/
def emptyRound : List (RaceAction ℕ) :=
  [.poll, .poll, .persist, .poll, .poll, .poll, .poll, .engineLine]

end Race

end Logs

end Hekma
