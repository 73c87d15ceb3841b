/-
**Crash detection through poll errors** (`domain/supervisor/reaper.rs`, `domain/supervisor/mod.rs`).

A supervision pass polls every process it holds before it reacts to any of them.  A process that
cannot be polled is taken for dead once its polls have failed ten times in a row.  When several
processes cannot be polled in the same pass, the fault is taken to be in the environment, and nobody
is charged; but after forty such passes in a row the charges resume.

Main definitions:

* `PollBook` — the handles that are held, their streaks, and the environmental ticks in a row;
* `PollBook.pollTick` — the polls of a pass, the guard and the reactions;
* `PollBook.step`, `PollBook.history` — ticks, starts and stops, and what happened in them.

Main results:

* `handled_foldl`, `pollTick_ticked` — what the reactions of a tick do to each handle;
* `Follows.step` — the counters are those of the history;
* `overdue_tick` — a handle that cannot be polled comes closer with every tick;
* `pollDetection` — **when a handle is declared crashed through poll errors**.
-/

import Hekma.Lib.Streak
import Hekma.Supervisor.Reaper

set_option relaxedAutoImplicit false
set_option autoImplicit false

namespace Hekma

open Streak

/-- How many environmental ticks in a row the guard tolerates. -/
def maxConsecutiveEnvironmentalTicks : ℕ := 40

/-- How much of the text of an error is kept. -/
def pollErrorCauseMaxChars : ℕ := 200

/-- A text cut for a cause. -/
def truncateForCause (text : String) (maxChars : ℕ) : String :=
  if text.length ≤ maxChars then text else String.ofList (text.toList.take maxChars) ++ "…"

/-- One more, in 32 bits. -/
def u32SaturatingSucc (n : ℕ) : ℕ := min (n + 1) (2 ^ 32 - 1)

/-- The result of a poll. -/
inductive PollOutcome where
  | alive
  | exited (code : Option ℕ)
  | errored (err : String)
  deriving DecidableEq, Repr

/-- The poll failed. -/
def PollOutcome.isErrored : PollOutcome → Bool
  | errored _ => true
  | _ => false

/-- The process has ended. -/
def PollOutcome.isExited : PollOutcome → Bool
  | exited _ => true
  | _ => false

/-- What a poll means. -/
inductive PollVerdict where
  | alive
  | exited (code : Option ℕ)
  | transientError
  | persistentError
  deriving DecidableEq, Repr

/-- What a poll means after some polls in a row that failed, and how many have failed then. -/
def pollVerdict (previousStreak : ℕ) : PollOutcome → PollVerdict × ℕ
  | .alive => (.alive, 0)
  | .exited code => (.exited code, 0)
  | .errored _ =>
      let streak := u32SaturatingSucc previousStreak
      if maxConsecutivePollErrors ≤ streak then (.persistentError, streak)
      else (.transientError, streak)

/-- A handle that is taken for dead: why, whether it was the only one, and the text of its last
error. -/
structure PolledCrash where
  name : InstanceName
  input : CrashInput
  soleHandle : Bool
  lastError : Option String
  deriving DecidableEq, Repr

/-- What happened in a tick: the polls, whether the guard held and whether it gave way, the handles
that were charged with an error, and those that were taken for dead. -/
structure TickReport where
  polled : List (InstanceName × PollOutcome)
  environmental : Bool
  escalated : Bool
  credited : List InstanceName
  crashes : List PolledCrash
  deriving DecidableEq, Repr

namespace TickReport

/-- How many polls failed. -/
def errored (r : TickReport) : ℕ := r.polled.countP fun p => p.2.isErrored

/-- The handles that were declared crashed through poll errors. -/
def declared (r : TickReport) : List InstanceName :=
  (r.crashes.filter fun c => c.input = .persistentPollFailure).map PolledCrash.name

end TickReport

/-- What the supervisor knows of its polls. -/
structure PollBook where
  held : List InstanceName
  pollErrorStreaks : InstanceName → ℕ
  pollLastErrors : InstanceName → Option String
  consecutiveEnvironmentalTicks : ℕ

namespace PollBook

/-- A new supervisor. -/
def empty : PollBook := ⟨[], fun _ => 0, fun _ => none, 0⟩

/-- Forget the failed polls of a handle. -/
def clearPollErrorStreak (b : PollBook) (name : InstanceName) : PollBook :=
  { b with
    pollErrorStreaks := Function.update b.pollErrorStreaks name 0
    pollLastErrors := Function.update b.pollLastErrors name none }

/-- Let go of a handle. -/
def removeHandle (b : PollBook) (name : InstanceName) : PollBook :=
  { b with held := b.held.filter (· ≠ name) }

/-- Note the text of an error. -/
def recordError (b : PollBook) (name : InstanceName) (err : String) : PollBook :=
  { b with
    pollLastErrors :=
      Function.update b.pollLastErrors name (some (truncateForCause err pollErrorCauseMaxChars)) }

/-- Note the text of the error of a poll that failed. -/
def recordOutcome (b : PollBook) (p : InstanceName × PollOutcome) : PollBook :=
  match p.2 with
  | .errored err => b.recordError p.1 err
  | _ => b

/-- The streak of a handle. -/
def setStreak (b : PollBook) (name : InstanceName) (streak : ℕ) : PollBook :=
  { b with pollErrorStreaks := Function.update b.pollErrorStreaks name streak }

/-- The reaction to one poll. -/
def handleOutcome (environmental soleHandle : Bool) (acc : PollBook × TickReport)
    (p : InstanceName × PollOutcome) : PollBook × TickReport :=
  let (b, r) := acc
  match p.2 with
  | .alive => (b.clearPollErrorStreak p.1, r)
  | .exited code =>
      ((b.clearPollErrorStreak p.1).removeHandle p.1,
        { r with crashes := r.crashes ++ [⟨p.1, .exited code, false, none⟩] })
  | .errored err =>
      -- an error shared by several handles is not charged to any of them
      if environmental then (b, r)
      else
        let b := b.recordError p.1 err
        let r := { r with credited := r.credited ++ [p.1] }
        match pollVerdict (b.pollErrorStreaks p.1) p.2 with
        | (.persistentError, streak) =>
            let b := b.setStreak p.1 streak
            ((b.clearPollErrorStreak p.1).removeHandle p.1,
              { r with
                crashes := r.crashes ++
                  [⟨p.1, .persistentPollFailure, soleHandle, b.pollLastErrors p.1⟩] })
        | (_, streak) => (b.setStreak p.1 streak, r)

/-- The polls of a pass: every handle is polled, the guard judges the errors, and then the pass
reacts to each handle. -/
def pollTick (b : PollBook) (poll : InstanceName → PollOutcome) : PollBook × TickReport :=
  let polled := b.held.map fun name => (name, poll name)
  let errored := polled.countP fun p => p.2.isErrored
  let ticks := if 1 < errored then u32SaturatingSucc b.consecutiveEnvironmentalTicks else 0
  let environmental := decide (1 < errored ∧ ticks ≤ maxConsecutiveEnvironmentalTicks)
  let escalated := decide (1 < errored ∧ ticks = maxConsecutiveEnvironmentalTicks + 1)
  let b := { b with consecutiveEnvironmentalTicks := ticks }
  let b := if environmental then polled.foldl recordOutcome b else b
  polled.foldl (handleOutcome environmental (polled.length = 1))
    (b, ⟨polled, environmental, escalated, [], []⟩)

end PollBook

/-- What happens to the handles: a tick with its polls, a start or an adoption, a stop that takes
its process up again, and the end of a handle. -/
inductive PollOp where
  | tick (poll : InstanceName → PollOutcome)
  | hold (name : InstanceName)
  | reacquire (name : InstanceName)
  | release (name : InstanceName)

/-- What is seen of it. -/
inductive PollEvent where
  | tick (report : TickReport)
  | held (name : InstanceName)
  | released (name : InstanceName)

namespace PollEvent

/-- The handle was charged with an error. -/
def credits (name : InstanceName) : PollEvent → Bool
  | tick r => name ∈ r.credited
  | _ => false

/-- The handle was polled without an error, or it is another handle from here on. -/
def interrupts (name : InstanceName) : PollEvent → Bool
  | tick r => r.polled.any fun p => p.1 = name && !p.2.isErrored
  | held n | released n => n = name

/-- Several handles failed in the same tick. -/
def several : PollEvent → Bool
  | tick r => 1 < r.errored
  | _ => false

/-- At most one handle failed in a tick. -/
def calm : PollEvent → Bool
  | tick r => r.errored ≤ 1
  | _ => false

end PollEvent

namespace PollBook

/-- One operation, and what is seen of it. -/
def step (b : PollBook) : PollOp → PollBook × List PollEvent
  | .tick poll => ((b.pollTick poll).1, [.tick (b.pollTick poll).2])
  | .hold name =>
      let b := b.clearPollErrorStreak name
      ({ b with held := name :: b.held.filter (· ≠ name) }, [.held name])
  | .reacquire name =>
      -- a stop takes its process up again only if it does not hold it
      if name ∈ b.held then (b, []) else ({ b with held := name :: b.held }, [.held name])
  | .release name => ((b.clearPollErrorStreak name).removeHandle name, [.released name])

/-- The state after some operations. -/
def run (b : PollBook) (ops : List PollOp) : PollBook := ops.foldl (fun b op => (b.step op).1) b

/-- What is seen of some operations. -/
def history : PollBook → List PollOp → List PollEvent
  | _, [] => []
  | b, op :: ops => (b.step op).2 ++ history (b.step op).1 ops

/-! ### The reactions of a tick -/

/-- The error of a handle makes its streak too long. -/
def trips (environmental : Bool) (streak : ℕ) (o : PollOutcome) : Bool :=
  o.isErrored && !environmental && maxConsecutivePollErrors ≤ u32SaturatingSucc streak

/-- The streak of a handle after a tick. -/
def nextStreak (environmental : Bool) (streak : ℕ) (o : PollOutcome) : ℕ :=
  if !o.isErrored then 0
  else if environmental then streak
  else if maxConsecutivePollErrors ≤ u32SaturatingSucc streak then 0
  else u32SaturatingSucc streak

/-- A handle that is let go has no streak. -/
theorem nextStreak_left {environmental : Bool} {streak : ℕ} {o : PollOutcome}
    (h : ¬ (o.isExited = false ∧ trips environmental streak o = false)) :
    nextStreak environmental streak o = 0 := by
  unfold nextStreak
  cases o with
  | alive => rfl
  | exited code => rfl
  | errored err =>
      cases henv : environmental with
      | true => simp [PollOutcome.isExited, trips, henv] at h
      | false =>
          by_cases htrip : maxConsecutivePollErrors ≤ u32SaturatingSucc streak
          · simp [PollOutcome.isErrored, htrip]
          · simp [PollOutcome.isExited, trips, htrip] at h

/-- No streak reaches the bound: the handle that would is let go. -/
theorem nextStreak_small {environmental : Bool} {streak : ℕ} {o : PollOutcome}
    (h : streak < maxConsecutivePollErrors) :
    nextStreak environmental streak o < maxConsecutivePollErrors := by
  unfold nextStreak
  split
  · exact Nat.zero_lt_succ 9
  · split
    · exact h
    · split
      · exact Nat.zero_lt_succ 9
      · omega

/-- What the reactions to the handles `l` do, to each handle by its own poll. -/
structure Handled (environmental : Bool) (poll : InstanceName → PollOutcome)
    (l : List InstanceName) (x y : PollBook × TickReport) : Prop where
  streaks : ∀ name, y.1.pollErrorStreaks name =
    if name ∈ l then nextStreak environmental (x.1.pollErrorStreaks name) (poll name)
    else x.1.pollErrorStreaks name
  held : ∀ name, name ∈ y.1.held ↔ name ∈ x.1.held ∧ ¬ (name ∈ l ∧ ((poll name).isExited ||
    trips environmental (x.1.pollErrorStreaks name) (poll name)) = true)
  kept : y.1.held.Sublist x.1.held
  ticks : y.1.consecutiveEnvironmentalTicks = x.1.consecutiveEnvironmentalTicks
  polled : y.2.polled = x.2.polled
  credited : ∀ name, name ∈ y.2.credited ↔
    name ∈ x.2.credited ∨ name ∈ l ∧ (poll name).isErrored = true ∧ environmental = false
  declared : ∀ name, name ∈ y.2.declared ↔ name ∈ x.2.declared ∨
    name ∈ l ∧ trips environmental (x.1.pollErrorStreaks name) (poll name) = true

variable {environmental soleHandle : Bool} {poll : InstanceName → PollOutcome}
  {x y z : PollBook × TickReport} {name : InstanceName} {l : List InstanceName}

theorem mem_declared_append {r : TickReport} {c : PolledCrash} (n : InstanceName) :
    n ∈ ({ r with crashes := r.crashes ++ [c] } : TickReport).declared ↔
      n ∈ r.declared ∨ c.input = .persistentPollFailure ∧ n = c.name := by
  simp only [TickReport.declared, List.filter_append, List.map_append, List.mem_append]
  by_cases hc : c.input = .persistentPollFailure
  · simp [hc]
  · simp [hc]

/-- A reaction to one handle that leaves the others alone. -/
theorem handled_single
    (hstreaks : y.1.pollErrorStreaks = Function.update x.1.pollErrorStreaks name
      (nextStreak environmental (x.1.pollErrorStreaks name) (poll name)))
    (hheld : y.1.held = if ((poll name).isExited ||
        trips environmental (x.1.pollErrorStreaks name) (poll name)) = true then
      x.1.held.filter (· ≠ name) else x.1.held)
    (hticks : y.1.consecutiveEnvironmentalTicks = x.1.consecutiveEnvironmentalTicks)
    (hpolled : y.2.polled = x.2.polled)
    (hcredited : y.2.credited = x.2.credited ++
      if ((poll name).isErrored && !environmental) = true then [name] else [])
    (hdeclared : ∀ n, n ∈ y.2.declared ↔ n ∈ x.2.declared ∨
      n = name ∧ trips environmental (x.1.pollErrorStreaks name) (poll name) = true) :
    Handled environmental poll [name] x y := by
  refine ⟨fun n => ?_, fun n => ?_, ?_, hticks, hpolled, fun n => ?_, fun n => ?_⟩
  · rw [hstreaks]
    by_cases hn : n = name
    · subst hn
      simp
    · simp [hn]
  · rw [hheld]
    by_cases hn : n = name
    · subst hn
      split <;> simp [*]
    · split <;> simp [hn]
  · rw [hheld]
    split
    · exact List.filter_sublist
    · exact List.Sublist.refl _
  · rw [hcredited]
    by_cases hn : n = name
    · subst hn
      split <;> simp_all
    · split <;> simp [hn]
  · rw [hdeclared, List.mem_singleton]
    by_cases hn : n = name
    · rw [hn]
    · simp [hn]

theorem handled_one (environmental soleHandle : Bool) (poll : InstanceName → PollOutcome)
    (name : InstanceName) (x : PollBook × TickReport) :
    Handled environmental poll [name] x
      (handleOutcome environmental soleHandle x (name, poll name)) := by
  obtain ⟨b, r⟩ := x
  cases ho : poll name with
  | alive =>
      -- an answer clears the streak and credits nothing
      refine handled_single ?_ ?_ rfl rfl ?_ fun n => ?_ <;>
        simp [handleOutcome, clearPollErrorStreak, nextStreak, trips, ho, PollOutcome.isErrored,
          PollOutcome.isExited]
  | exited code =>
      -- an exit clears the streak too, and lets the handle go
      refine handled_single ?_ ?_ rfl rfl ?_ fun n => ?_
      · simp [handleOutcome, clearPollErrorStreak, removeHandle, nextStreak, ho,
          PollOutcome.isErrored]
      · simp [handleOutcome, clearPollErrorStreak, removeHandle, ho, PollOutcome.isExited]
      · simp [handleOutcome, ho, PollOutcome.isErrored]
      · refine (mem_declared_append n).trans ?_
        simp [trips, ho, PollOutcome.isErrored]
  | errored err =>
      cases henv : environmental with
      | true =>
          -- an error of the host changes neither book nor report
          refine handled_single ?_ ?_ rfl rfl ?_ fun n => ?_ <;>
            simp [handleOutcome, nextStreak, trips, ho, PollOutcome.isErrored, PollOutcome.isExited]
      | false =>
          by_cases htrip : maxConsecutivePollErrors ≤ u32SaturatingSucc (b.pollErrorStreaks name)
          · -- this error is the one that trips: the handle goes with a crash
            have hverdict : pollVerdict (b.pollErrorStreaks name) (.errored err) =
                (.persistentError, u32SaturatingSucc (b.pollErrorStreaks name)) :=
              if_pos htrip
            have hreact : handleOutcome false soleHandle (b, r) (name, .errored err) =
                (((((b.recordError name err).setStreak name
                    (u32SaturatingSucc (b.pollErrorStreaks name))).clearPollErrorStreak
                      name).removeHandle name),
                  { r with
                    credited := r.credited ++ [name]
                    crashes := r.crashes ++ [⟨name, .persistentPollFailure, soleHandle,
                      some (truncateForCause err pollErrorCauseMaxChars)⟩] }) := by
              simp [handleOutcome, recordError, hverdict, setStreak]
            rw [hreact]
            refine handled_single ?_ ?_ rfl rfl ?_ fun n => ?_
            · simp [clearPollErrorStreak, removeHandle, setStreak, recordError, nextStreak, ho,
                PollOutcome.isErrored, htrip]
            · simp [clearPollErrorStreak, removeHandle, setStreak, recordError, trips, ho,
                PollOutcome.isErrored, htrip]
            · simp [ho, PollOutcome.isErrored]
            · refine (mem_declared_append n).trans ?_
              simp [TickReport.declared, trips, ho, PollOutcome.isErrored, htrip]
          · -- not enough errors in a row yet
            have hverdict : pollVerdict (b.pollErrorStreaks name) (.errored err) =
                (.transientError, u32SaturatingSucc (b.pollErrorStreaks name)) :=
              if_neg htrip
            have hreact : handleOutcome false soleHandle (b, r) (name, .errored err) =
                ((b.recordError name err).setStreak name
                    (u32SaturatingSucc (b.pollErrorStreaks name)),
                  { r with credited := r.credited ++ [name] }) := by
              simp [handleOutcome, recordError, hverdict]
            rw [hreact]
            refine handled_single ?_ ?_ rfl rfl ?_ fun n => ?_
            · simp [setStreak, recordError, nextStreak, ho, PollOutcome.isErrored, htrip]
            · simp [setStreak, recordError, trips, ho, PollOutcome.isErrored, PollOutcome.isExited,
                htrip]
            · simp [ho, PollOutcome.isErrored]
            · simp [TickReport.declared, trips, htrip]

theorem Handled.cons (h : Handled environmental poll [name] x y)
    (h' : Handled environmental poll l y z) (hname : name ∉ l) :
    Handled environmental poll (name :: l) x z := by
  -- the reaction to `name` is the only one that touches it
  have hother : ∀ n, n ≠ name → y.1.pollErrorStreaks n = x.1.pollErrorStreaks n := by
    intro n hn
    rw [h.streaks, if_neg (by simpa using hn)]
  refine ⟨fun n => ?_, fun n => ?_, h'.kept.trans h.kept, h'.ticks.trans h.ticks,
    h'.polled.trans h.polled, fun n => ?_, fun n => ?_⟩
  · rw [h'.streaks]
    by_cases hn : n = name
    · subst hn
      rw [if_neg hname, h.streaks, if_pos List.mem_cons_self, if_pos List.mem_cons_self]
    · simp only [List.mem_cons, hn, false_or, hother n hn]
  · rw [h'.held, h.held]
    by_cases hn : n = name
    · subst hn
      simp [hname]
    · simp [hn, hother n hn]
  · rw [h'.credited, h.credited]
    by_cases hn : n = name
    · subst hn
      simp [hname]
    · simp [hn]
  · rw [h'.declared, h.declared]
    by_cases hn : n = name
    · subst hn
      simp [hname]
    · simp [hn, hother n hn]

/-- **The reactions to some handles**, each of them once. -/
theorem handled_foldl (hl : l.Nodup) (x : PollBook × TickReport) :
    Handled environmental poll l x (l.foldl
      (fun acc name => handleOutcome environmental soleHandle acc (name, poll name)) x) := by
  induction l generalizing x with
  | nil =>
      exact ⟨by simp, by simp, List.Sublist.refl _, rfl, rfl, by simp, by simp⟩
  | cons name l ih =>
      rw [List.nodup_cons] at hl
      rw [List.foldl_cons]
      exact (handled_one environmental soleHandle poll name x).cons (ih hl.2 _) hl.1

/-! ### One tick -/

/-- How many of the handles cannot be polled. -/
def failing (b : PollBook) (poll : InstanceName → PollOutcome) : ℕ :=
  b.held.countP fun name => (poll name).isErrored

/-- The environmental ticks in a row, this one included. -/
def ticksAfter (b : PollBook) (poll : InstanceName → PollOutcome) : ℕ :=
  if 1 < b.failing poll then u32SaturatingSucc b.consecutiveEnvironmentalTicks else 0

/-- The guard holds: the errors of this tick are not charged. -/
def guarded (b : PollBook) (poll : InstanceName → PollOutcome) : Bool :=
  decide (1 < b.failing poll ∧ b.ticksAfter poll ≤ maxConsecutiveEnvironmentalTicks)

theorem foldl_recordOutcome (b : PollBook) (polled : List (InstanceName × PollOutcome)) :
    ∃ errors, polled.foldl recordOutcome b = { b with pollLastErrors := errors } := by
  induction polled generalizing b with
  | nil => exact ⟨_, rfl⟩
  | cons p polled ih =>
      rw [List.foldl_cons]
      obtain ⟨errors, heq⟩ := ih (b.recordOutcome p)
      refine ⟨errors, heq.trans ?_⟩
      unfold recordOutcome
      split <;> rfl

/-- The book a tick reacts from: the guard has judged, and the texts of the errors are noted. -/
theorem pollTick_eq (b : PollBook) (poll : InstanceName → PollOutcome) :
    ∃ errors escalated soleHandle, b.pollTick poll =
      (b.held.map fun name => (name, poll name)).foldl
        (handleOutcome (b.guarded poll) soleHandle)
        ({ b with
            pollLastErrors := errors
            consecutiveEnvironmentalTicks := b.ticksAfter poll },
          ⟨b.held.map fun name => (name, poll name), b.guarded poll, escalated, [], []⟩) := by
  have hcount : (b.held.map fun name => (name, poll name)).countP (fun p => p.2.isErrored) =
      b.failing poll := by
    rw [List.countP_map]
    rfl
  have hticks : (if 1 < b.failing poll then u32SaturatingSucc b.consecutiveEnvironmentalTicks
      else 0) = b.ticksAfter poll := rfl
  simp only [pollTick, hcount, hticks]
  have hguard : decide (1 < b.failing poll ∧ b.ticksAfter poll ≤ maxConsecutiveEnvironmentalTicks) =
      b.guarded poll := rfl
  rw [hguard]
  cases b.guarded poll with
  | false => exact ⟨_, _, _, rfl⟩
  | true =>
      obtain ⟨errors, heq⟩ := foldl_recordOutcome
        { b with consecutiveEnvironmentalTicks := b.ticksAfter poll }
        (b.held.map fun name => (name, poll name))
      rw [if_pos rfl, heq]
      exact ⟨errors, _, _, rfl⟩

/-- A tick reacts to every handle that is held, from the streaks it finds. -/
theorem pollTick_handled {b : PollBook} (hb : b.held.Nodup) (poll : InstanceName → PollOutcome) :
    ∃ x, Handled (b.guarded poll) poll b.held x (b.pollTick poll) ∧
      x.1.pollErrorStreaks = b.pollErrorStreaks ∧ x.1.held = b.held ∧
      x.1.consecutiveEnvironmentalTicks = b.ticksAfter poll ∧
      x.2.polled = b.held.map (fun name => (name, poll name)) ∧ x.2.credited = [] ∧
      x.2.declared = [] := by
  obtain ⟨errors, escalated, soleHandle, heq⟩ := pollTick_eq b poll
  rw [heq, List.foldl_map]
  exact ⟨_, handled_foldl hb _, rfl, rfl, rfl, rfl, rfl, rfl⟩

/-- What a tick does. -/
structure Ticked (b : PollBook) (poll : InstanceName → PollOutcome)
    (y : PollBook × TickReport) : Prop where
  streaks : ∀ name, y.1.pollErrorStreaks name =
    if name ∈ b.held then nextStreak (b.guarded poll) (b.pollErrorStreaks name) (poll name)
    else b.pollErrorStreaks name
  held : ∀ name, name ∈ y.1.held ↔ name ∈ b.held ∧ (poll name).isExited = false ∧
    trips (b.guarded poll) (b.pollErrorStreaks name) (poll name) = false
  kept : y.1.held.Sublist b.held
  ticks : y.1.consecutiveEnvironmentalTicks = b.ticksAfter poll
  polled : y.2.polled = b.held.map fun name => (name, poll name)
  credited : ∀ name, name ∈ y.2.credited ↔
    name ∈ b.held ∧ (poll name).isErrored = true ∧ b.guarded poll = false
  declared : ∀ name, name ∈ y.2.declared ↔
    name ∈ b.held ∧ trips (b.guarded poll) (b.pollErrorStreaks name) (poll name) = true

theorem pollTick_ticked {b : PollBook} (hb : b.held.Nodup) (poll : InstanceName → PollOutcome) :
    Ticked b poll (b.pollTick poll) := by
  obtain ⟨x, h, hstreaks, hheld, hticks, hpolled, hcredited, hdeclared⟩ := pollTick_handled hb poll
  refine ⟨fun name => ?_, fun name => ?_, hheld ▸ h.kept, h.ticks.trans hticks,
    h.polled.trans hpolled, fun name => ?_, fun name => ?_⟩
  · rw [h.streaks, hstreaks]
  · rw [h.held, hstreaks, hheld]
    by_cases hname : name ∈ b.held
    · simp [hname]
    · simp [hname]
  · rw [h.credited, hcredited]
    simp
  · rw [h.declared, hdeclared, hstreaks]
    simp

/-! ### The counters and the history -/

/-- The counters are those of the history: the streak of a handle counts the errors it was charged
with in a row, and the environmental ticks the ticks in a row in which several handles failed. -/
structure Follows (b : PollBook) (h : List PollEvent) : Prop where
  nodup : b.held.Nodup
  unheld : ∀ name, name ∉ b.held → b.pollErrorStreaks name = 0
  streaks : ∀ name ∈ b.held, b.pollErrorStreaks name =
    tally (PollEvent.credits name) (PollEvent.interrupts name) h
  small : ∀ name, b.pollErrorStreaks name < maxConsecutivePollErrors
  ticks : b.consecutiveEnvironmentalTicks =
    min (tally PollEvent.several PollEvent.calm h) (2 ^ 32 - 1)

theorem follows_empty : Follows empty [] :=
  ⟨List.nodup_nil, fun _ _ => rfl, fun _ hname => absurd hname List.not_mem_nil,
    fun _ => Nat.zero_lt_succ 9, rfl⟩

section Judged

variable {b : PollBook} {h : List PollEvent} {y : PollBook × TickReport}

theorem Ticked.errored (ht : Ticked b poll y) : y.2.errored = b.failing poll := by
  rw [TickReport.errored, ht.polled, List.countP_map]
  rfl

theorem Ticked.interrupts (ht : Ticked b poll y) (hname : name ∈ b.held) :
    PollEvent.interrupts name (.tick y.2) = !(poll name).isErrored := by
  rw [PollEvent.interrupts, ht.polled, List.any_map]
  cases hp : (poll name).isErrored with
  | true =>
      rw [List.any_eq_false.2]
      · rfl
      · intro n hn
        by_cases heq : n = name
        · simp [heq, hp]
        · simp [heq]
  | false =>
      refine List.any_eq_true.2 ⟨name, hname, ?_⟩
      simp [hp]

theorem Ticked.credits (ht : Ticked b poll y) (hname : name ∈ b.held) :
    PollEvent.credits name (.tick y.2) = ((poll name).isErrored && !b.guarded poll) := by
  have hiff := ht.credited name
  cases hp : (poll name).isErrored <;> cases hg : b.guarded poll <;>
    simp [PollEvent.credits, hiff, hname, hp, hg]

theorem Ticked.several (ht : Ticked b poll y) :
    PollEvent.several (.tick y.2) = decide (1 < b.failing poll) := by
  rw [PollEvent.several, ht.errored]

theorem Ticked.calm (ht : Ticked b poll y) :
    PollEvent.calm (.tick y.2) = decide (b.failing poll ≤ 1) := by
  rw [PollEvent.calm, ht.errored]

/-- The environmental ticks in a row, this one included. -/
theorem Follows.ticksAfter (hf : Follows b h) (ht : Ticked b poll y) :
    b.ticksAfter poll =
      min (tally PollEvent.several PollEvent.calm (h ++ [.tick y.2])) (2 ^ 32 - 1) := by
  rw [tally_append_singleton, count, ht.several, ht.calm, PollBook.ticksAfter, hf.ticks]
  by_cases hmany : 1 < b.failing poll
  · have hcalm : ¬ b.failing poll ≤ 1 := by omega
    simp only [hmany, hcalm, decide_true, decide_false, if_true, Bool.false_eq_true, if_false,
      u32SaturatingSucc]
    omega
  · have hcalm : b.failing poll ≤ 1 := by omega
    simp [hmany, hcalm]

/-- The streak of a handle that goes on. -/
theorem Follows.nextStreak (hf : Follows b h) (ht : Ticked b poll y) (hname : name ∈ b.held)
    (hstays : trips (b.guarded poll) (b.pollErrorStreaks name) (poll name) = false) :
    nextStreak (b.guarded poll) (b.pollErrorStreaks name) (poll name) =
      tally (PollEvent.credits name) (PollEvent.interrupts name) (h ++ [.tick y.2]) := by
  have hsmall := hf.small name
  rw [tally_append_singleton, count, ht.credits hname, ht.interrupts hname, ← hf.streaks name hname]
  unfold PollBook.nextStreak
  unfold trips at hstays
  cases hp : (poll name).isErrored with
  | false => simp
  | true =>
      cases hg : b.guarded poll with
      | true => simp
      | false =>
          simp only [hp, hg, Bool.not_false, Bool.true_and, Bool.and_self,
            decide_eq_false_iff_not] at hstays
          simp only [hstays, Bool.not_true, Bool.false_eq_true, if_false, Bool.not_false,
            Bool.and_self, if_true]
          unfold u32SaturatingSucc
          unfold maxConsecutivePollErrors at hsmall
          omega

/-- **A tick keeps the counters in step with the history.** -/
theorem Follows.tick (hf : Follows b h) (ht : Ticked b poll y) :
    Follows y.1 (h ++ [.tick y.2]) := by
  refine ⟨hf.nodup.sublist ht.kept, fun name hname => ?_, fun name hname => ?_, fun name => ?_,
    ht.ticks.trans (hf.ticksAfter ht)⟩
  · rw [ht.streaks]
    split
    · rename_i hheld
      refine nextStreak_left fun hstays => ?_
      exact hname ((ht.held name).2 ⟨hheld, hstays⟩)
    · rename_i hheld
      exact hf.unheld name hheld
  · obtain ⟨hheld, -, hstays⟩ := (ht.held name).1 hname
    rw [ht.streaks, if_pos hheld]
    exact hf.nextStreak ht hheld hstays
  · rw [ht.streaks]
    split
    · exact nextStreak_small (hf.small name)
    · exact hf.small name

/-- The guard gives way after more than its number of ticks in a row. -/
theorem Follows.guarded_iff (hf : Follows b h) (ht : Ticked b poll y) :
    b.guarded poll = false ↔ (1 < y.2.errored →
      InARow PollEvent.several PollEvent.calm (maxConsecutiveEnvironmentalTicks + 1)
        (h ++ [.tick y.2])) := by
  rw [inARow_iff, ht.errored, guarded, decide_eq_false_iff_not, hf.ticksAfter ht, not_and]
  unfold maxConsecutiveEnvironmentalTicks
  refine imp_congr_right fun _ => ?_
  omega

/-- **A handle is declared** when it is charged for the last time it can be. -/
theorem Follows.declared_iff (hf : Follows b h) (ht : Ticked b poll y) (name : InstanceName) :
    name ∈ y.2.declared ↔ name ∈ y.2.credited ∧
      InARow (PollEvent.credits name) (PollEvent.interrupts name) maxConsecutivePollErrors
        (h ++ [.tick y.2]) := by
  rw [ht.declared, ht.credited]
  by_cases hname : name ∈ b.held
  · rw [inARow_iff, tally_append_singleton, count, ht.credits hname, ht.interrupts hname,
      ← hf.streaks name hname]
    have hsmall := hf.small name
    unfold trips
    cases hp : (poll name).isErrored with
    | false => simp
    | true =>
        cases hg : b.guarded poll with
        | true => simp
        | false =>
            simp only [hname, true_and, Bool.not_false, Bool.and_self, Bool.true_and,
              decide_eq_true_eq, Bool.not_true, Bool.false_eq_true, if_false, if_true]
            unfold u32SaturatingSucc
            unfold maxConsecutivePollErrors at hsmall ⊢
            omega
  · simp [hname]

end Judged

/-! ### Starts and stops between the ticks -/

section Between

variable {b : PollBook} {h : List PollEvent}

/-- An event of another handle leaves the streak of a handle alone. -/
theorem tally_between {e : PollEvent} {other : InstanceName}
    (he : e = .held other ∨ e = .released other) (hne : name ≠ other) :
    tally (PollEvent.credits name) (PollEvent.interrupts name) (h ++ [e]) =
      tally (PollEvent.credits name) (PollEvent.interrupts name) h := by
  have hback : PollEvent.interrupts name e = false := by
    rcases he with rfl | rfl <;> simpa [PollEvent.interrupts] using hne.symm
  rw [tally_append_singleton, count_of_neither _ hback]
  rcases he with rfl | rfl <;> rfl

/-- The environmental ticks in a row are those of the ticks. -/
theorem ticks_between {e : PollEvent} {other : InstanceName}
    (he : e = .held other ∨ e = .released other) :
    tally PollEvent.several PollEvent.calm (h ++ [e]) =
      tally PollEvent.several PollEvent.calm h := by
  rw [tally_append_singleton]
  rcases he with rfl | rfl
  · exact count_of_neither rfl rfl
  · exact count_of_neither rfl rfl

/-- A handle that is held from here on has no streak. -/
theorem tally_held : tally (PollEvent.credits name) (PollEvent.interrupts name)
    (h ++ [.held name]) = 0 := by
  rw [tally_append_singleton, count_of_back]
  simp [PollEvent.interrupts]

theorem small_update (hf : Follows b h) (other : InstanceName) :
    Function.update b.pollErrorStreaks name 0 other < maxConsecutivePollErrors := by
  by_cases hother : other = name
  · subst hother
    rw [Function.update_self]
    exact Nat.zero_lt_succ 9
  · rw [Function.update_of_ne hother]
    exact hf.small other

theorem Follows.hold (hf : Follows b h) (name : InstanceName) :
    Follows (b.step (.hold name)).1 (h ++ [.held name]) := by
  refine ⟨?_, fun n hn => ?_, fun n hn => ?_, small_update hf, ?_⟩
  · exact List.nodup_cons.2 ⟨by simp, hf.nodup.filter _⟩
  · simp only [step, clearPollErrorStreak, List.mem_cons, List.mem_filter, not_or, not_and,
      decide_eq_true_eq] at hn ⊢
    rw [Function.update_of_ne hn.1]
    exact hf.unheld n fun hheld => hn.2 hheld hn.1
  · by_cases hsame : n = name
    · subst hsame
      rw [tally_held]
      exact Function.update_self _ _ _
    · have hheld : n ∈ b.held := by
        simp only [step, clearPollErrorStreak, List.mem_cons, hsame, false_or,
          List.mem_filter] at hn
        exact hn.1
      rw [tally_between (.inl rfl) hsame, ← hf.streaks n hheld]
      exact Function.update_of_ne hsame _ _
  · rw [ticks_between (.inl rfl)]
    exact hf.ticks

/-- A stop takes up a process that is not held, and such a process has no streak. -/
theorem Follows.reacquire (hf : Follows b h) (hname : name ∉ b.held) :
    Follows { b with held := name :: b.held } (h ++ [.held name]) := by
  refine ⟨List.nodup_cons.2 ⟨hname, hf.nodup⟩, fun n hn => ?_, fun n hn => ?_, hf.small, ?_⟩
  · exact hf.unheld n fun hheld => hn (List.mem_cons_of_mem _ hheld)
  · by_cases hsame : n = name
    · subst hsame
      rw [tally_held]
      exact hf.unheld n hname
    · rw [tally_between (.inl rfl) hsame]
      exact hf.streaks n ((List.mem_cons.1 hn).resolve_left hsame)
  · rw [ticks_between (.inl rfl)]
    exact hf.ticks

theorem mem_removeHandle (n : InstanceName) :
    n ∈ (b.removeHandle name).held ↔ n ∈ b.held ∧ n ≠ name := by
  simp [removeHandle]

theorem Follows.release (hf : Follows b h) (name : InstanceName) :
    Follows (b.step (.release name)).1 (h ++ [.released name]) := by
  refine ⟨hf.nodup.filter _, fun n hn => ?_, fun n hn => ?_, small_update hf, ?_⟩
  · by_cases hsame : n = name
    · subst hsame
      exact Function.update_self _ _ _
    · refine (Function.update_of_ne hsame _ _).trans (hf.unheld n fun hheld => hn ?_)
      exact (mem_removeHandle n).2 ⟨hheld, hsame⟩
  · obtain ⟨hheld, hsame⟩ := (mem_removeHandle n).1 hn
    rw [tally_between (.inr rfl) hsame]
    exact (Function.update_of_ne hsame _ _).trans (hf.streaks n hheld)
  · rw [ticks_between (.inr rfl)]
    exact hf.ticks

/-- **Every operation keeps the counters in step with the history.** -/
theorem Follows.step (hf : Follows b h) (op : PollOp) :
    Follows (b.step op).1 (h ++ (b.step op).2) := by
  cases op with
  | tick poll => exact hf.tick (pollTick_ticked hf.nodup poll)
  | hold name => exact hf.hold name
  | reacquire name =>
      unfold PollBook.step
      dsimp only
      split
      · rw [List.append_nil]
        exact hf
      · rename_i hname
        exact hf.reacquire hname
  | release name => exact hf.release name

theorem Follows.run (hf : Follows b h) (ops : List PollOp) :
    Follows (b.run ops) (h ++ history b ops) := by
  induction ops generalizing b h with
  | nil =>
      rw [history, List.append_nil]
      exact hf
  | cons op ops ih =>
      rw [history, ← List.append_assoc]
      exact ih (hf.step op)

/-- Only a tick is seen as one. -/
theorem tick_of_step {op : PollOp} {before after : List PollEvent} {r : TickReport}
    (hevents : (b.step op).2 = before ++ .tick r :: after) :
    before = [] ∧ ∃ poll, r = (b.pollTick poll).2 := by
  cases op with
  | tick poll =>
      cases before with
      | nil => exact ⟨rfl, poll, (PollEvent.tick.inj (List.cons.inj hevents).1).symm⟩
      | cons e before => simp [PollBook.step] at hevents
  | hold name =>
      have hmem : PollEvent.tick r ∈ (b.step (.hold name)).2 := by simp [hevents]
      simp [PollBook.step] at hmem
  | reacquire name =>
      have hmem : PollEvent.tick r ∈ (b.step (.reacquire name)).2 := by simp [hevents]
      unfold PollBook.step at hmem
      dsimp only at hmem
      split at hmem <;> simp at hmem
  | release name =>
      have hmem : PollEvent.tick r ∈ (b.step (.release name)).2 := by simp [hevents]
      simp [PollBook.step] at hmem

/-- A tick of the history was one of a book whose counters are those of the history before it. -/
theorem Follows.tick_of_history (hf : Follows b h) (ops : List PollOp)
    {before after : List PollEvent} {r : TickReport} (hsplit : history b ops = before ++ .tick r :: after) :
    ∃ b' poll, Follows b' (h ++ before) ∧ r = (b'.pollTick poll).2 := by
  induction ops generalizing b h before with
  | nil => simp [history] at hsplit
  | cons op ops ih =>
      rw [history] at hsplit
      rcases List.append_eq_append_iff.1 hsplit with
        ⟨before', rfl, hrest⟩ | ⟨rest, hevents, hrest⟩
      · rw [← List.append_assoc]
        exact ih (hf.step op) hrest
      · cases rest with
        | nil =>
            have hfirst : history (b.step op).1 ops = [] ++ .tick r :: after := hrest.symm
            obtain ⟨b', poll, hf', hr⟩ := ih (hf.step op) hfirst
            rw [hevents, List.append_nil, List.append_nil] at hf'
            exact ⟨b', poll, hf', hr⟩
        | cons e rest =>
            obtain ⟨rfl, -⟩ := List.cons.inj hrest
            obtain ⟨rfl, poll, hr⟩ := tick_of_step hevents
            rw [List.append_nil]
            exact ⟨b, poll, hf, hr⟩

end Between

/-! ### A handle that cannot be polled -/

/-- How close a handle is to being declared, in ticks: each error it was charged with is worth all
the ticks the guard may hold before the next one. -/
def overdue (b : PollBook) (name : InstanceName) : ℕ :=
  (maxConsecutiveEnvironmentalTicks + 1) * b.pollErrorStreaks name +
    min b.consecutiveEnvironmentalTicks maxConsecutiveEnvironmentalTicks

/-- The number of ticks within which a handle that cannot be polled is declared. -/
def detectionBound : ℕ := maxConsecutivePollErrors * (maxConsecutiveEnvironmentalTicks + 1)

theorem overdue_lt {b : PollBook} (h : b.pollErrorStreaks name < maxConsecutivePollErrors) :
    b.overdue name < detectionBound := by
  simp only [overdue, detectionBound, maxConsecutivePollErrors,
    maxConsecutiveEnvironmentalTicks] at h ⊢
  omega

/-- **A handle that cannot be polled comes closer with every tick** in which it is not declared,
whatever the other handles do. -/
theorem overdue_tick {b : PollBook} {y : PollBook × TickReport} (ht : Ticked b poll y)
    (hname : name ∈ b.held) (herr : (poll name).isErrored = true)
    (hsmall : b.pollErrorStreaks name < maxConsecutivePollErrors)
    (hdeclared : name ∉ y.2.declared) :
    name ∈ y.1.held ∧ b.overdue name < y.1.overdue name := by
  have hstays : trips (b.guarded poll) (b.pollErrorStreaks name) (poll name) = false := by
    rw [ht.declared, not_and, Bool.not_eq_true] at hdeclared
    exact hdeclared hname
  have hlives : (poll name).isExited = false := by
    cases hp : poll name with
    | alive => rfl
    | exited code =>
        rw [hp] at herr
        cases herr
    | errored err => rfl
  refine ⟨(ht.held name).2 ⟨hname, hlives, hstays⟩, ?_⟩
  rw [overdue, overdue, ht.streaks, if_pos hname, ht.ticks]
  cases hg : b.guarded poll with
  | true =>
      -- the guard holds: the streak waits, and the ticks in a row grow
      have hguard := of_decide_eq_true hg
      have hkept : nextStreak true (b.pollErrorStreaks name) (poll name) =
          b.pollErrorStreaks name := by
        simp [nextStreak, herr]
      have hgrown : b.ticksAfter poll = u32SaturatingSucc b.consecutiveEnvironmentalTicks :=
        if_pos hguard.1
      rw [hkept]
      unfold u32SaturatingSucc at hgrown
      unfold maxConsecutiveEnvironmentalTicks at hguard ⊢
      omega
  | false =>
      -- the error is charged: it outweighs the ticks the guard had held
      have hcharged : nextStreak false (b.pollErrorStreaks name) (poll name) =
          u32SaturatingSucc (b.pollErrorStreaks name) := by
        simp only [trips, herr, hg, Bool.not_false, Bool.and_self, Bool.true_and,
          decide_eq_false_iff_not] at hstays
        simp [nextStreak, herr, hstays]
      rw [hcharged]
      unfold maxConsecutivePollErrors at hsmall
      unfold u32SaturatingSucc maxConsecutiveEnvironmentalTicks
      omega

end PollBook

namespace PollOp

/-- The handle cannot be polled, and it stays the same handle. -/
def Fails (name : InstanceName) : PollOp → Prop
  | tick poll => (poll name).isErrored = true
  | hold n | release n => n ≠ name
  | reacquire _ => True

/-- A supervision tick. -/
def isTick : PollOp → Bool
  | tick _ => true
  | _ => false

end PollOp

namespace PollBook

variable {name : InstanceName}

/-- What another handle does between the ticks does not touch a handle. -/
theorem overdue_between {b : PollBook} {op : PollOp} (hop : op.Fails name)
    (htick : op.isTick = false) (hname : name ∈ b.held) :
    name ∈ (b.step op).1.held ∧ (b.step op).1.overdue name = b.overdue name := by
  cases op with
  | tick poll => cases htick
  | hold n =>
      have hne : name ≠ n := fun h => hop h.symm
      refine ⟨?_, ?_⟩
      · simp [step, clearPollErrorStreak, hne, hname]
      · simp [step, clearPollErrorStreak, overdue, Function.update_of_ne hne]
  | reacquire n =>
      unfold step
      dsimp only
      split
      · exact ⟨hname, rfl⟩
      · exact ⟨List.mem_cons_of_mem _ hname, rfl⟩
  | release n =>
      have hne : name ≠ n := fun h => hop h.symm
      refine ⟨(mem_removeHandle name).2 ⟨hname, hne⟩, ?_⟩
      simp [step, clearPollErrorStreak, removeHandle, overdue, Function.update_of_ne hne]

/-- A handle that cannot be polled is declared before its ticks are used up. -/
theorem declared_within {b : PollBook} {h : List PollEvent} (hf : Follows b h) (ops : List PollOp)
    (hname : name ∈ b.held) (hops : ∀ op ∈ ops, op.Fails name)
    (hmany : detectionBound ≤ b.overdue name + ops.countP PollOp.isTick) :
    ∃ r, .tick r ∈ history b ops ∧ name ∈ r.declared := by
  induction ops generalizing b h with
  | nil =>
      have hlt := overdue_lt (hf.small name)
      rw [List.countP_nil] at hmany
      omega
  | cons op ops ih =>
      have hop := hops op List.mem_cons_self
      have hrest : ∀ op' ∈ ops, op'.Fails name := fun op' h' => hops op' (List.mem_cons_of_mem _ h')
      have hlater (h : ∃ r, .tick r ∈ history (b.step op).1 ops ∧ name ∈ r.declared) :
          ∃ r, .tick r ∈ history b (op :: ops) ∧ name ∈ r.declared := by
        obtain ⟨r, hr, hdeclared⟩ := h
        exact ⟨r, List.mem_append_right _ hr, hdeclared⟩
      cases op with
      | tick poll =>
          have ht := pollTick_ticked hf.nodup poll
          by_cases hdeclared : name ∈ (b.pollTick poll).2.declared
          · exact ⟨_, List.mem_append_left _ List.mem_cons_self, hdeclared⟩
          · obtain ⟨hheld, hcloser⟩ := overdue_tick ht hname hop (hf.small name) hdeclared
            refine hlater (ih (hf.tick ht) hheld hrest ?_)
            rw [List.countP_cons_of_pos (by rfl)] at hmany
            change detectionBound ≤ (b.pollTick poll).1.overdue name + _
            omega
      | hold n | reacquire n | release n =>
          obtain ⟨hheld, hsame⟩ := overdue_between hop rfl hname
          refine hlater (ih (hf.step _) hheld hrest ?_)
          rw [List.countP_cons_of_neg (by simp [PollOp.isTick])] at hmany
          omega

/-- **When a handle is declared crashed through poll errors**, after any operations of a new
supervisor.  A handle is declared in a tick exactly if it is charged with an error there and this is
the tenth one in a row, without a poll of the handle that succeeded, and without another handle in
its place.  A handle is charged exactly if its poll fails and, when several fail in this tick, more
than forty such ticks have come in a row.  And a handle that cannot be polled in any tick is
declared within 410 ticks, whatever the other handles do. -/
theorem pollDetection (ops : List PollOp) :
    (∀ before r after, history empty ops = before ++ .tick r :: after → ∀ name,
      (name ∈ r.declared ↔ name ∈ r.credited ∧
        InARow (PollEvent.credits name) (PollEvent.interrupts name) maxConsecutivePollErrors
          (before ++ [.tick r])) ∧
      (name ∈ r.credited ↔ (∃ err, (name, .errored err) ∈ r.polled) ∧
        (1 < r.errored → InARow PollEvent.several PollEvent.calm
          (maxConsecutiveEnvironmentalTicks + 1) (before ++ [.tick r])))) ∧
    ∀ name ∈ (empty.run ops).held, ∀ later : List PollOp, (∀ op ∈ later, op.Fails name) →
      detectionBound ≤ later.countP PollOp.isTick →
        ∃ r, .tick r ∈ history (empty.run ops) later ∧ name ∈ r.declared := by
  constructor
  · intro before r after hsplit name
    obtain ⟨b, poll, hf, rfl⟩ := follows_empty.tick_of_history ops hsplit
    rw [List.nil_append] at hf
    have ht := pollTick_ticked hf.nodup poll
    refine ⟨hf.declared_iff ht name, ?_⟩
    rw [ht.credited, hf.guarded_iff ht, ht.polled, ← and_assoc]
    refine and_congr_left fun _ => ?_
    cases hp : poll name with
    | alive => simp [hp, PollOutcome.isErrored]
    | exited code => simp [hp, PollOutcome.isErrored]
    | errored err => simp [hp, PollOutcome.isErrored]
  · intro name hname later hlater hmany
    refine declared_within (follows_empty.run ops) later hname hlater ?_
    omega

/-- Two agents, and a backend that never answers. -/
theorem pollDetection_pair :
    ∃ r, .tick r ∈ history (empty.run [.hold "a", .hold "b"])
      (List.replicate 410 (.tick fun _ => .errored "no answer")) ∧ "a" ∈ r.declared := by
  refine (pollDetection [.hold "a", .hold "b"]).2 "a" ?_ _ (fun op hop => ?_) ?_
  · decide +kernel
  · rw [List.eq_of_mem_replicate hop]
    rfl
  · rw [List.countP_replicate]
    decide

end PollBook

end Hekma
