/-
**The class of an exit** (`domain/supervisor/reaper.rs`).

An adapter may declare what the exit codes of a running agent mean: a clean end, or the wish to be
launched again; any other exit is charged to the restart policy.  Before an exit is classified the
last usage is drained, and what that usage fires is executed: a breach may pause or stop the
instance whose process has just ended.  The row that is classified is then not the row the process
ended in.

Main definitions:

* `Wrote` — an operation that is one store job, at the moment it is asked for;
* `lastDrained`, `conclude` — the last drains of an exit, and what the exit does after them;
* `failurePlan` — the relaunch a failure is charged with;
* `ExitKept` — what is promised of the exit of a running process;
* `DrainsSpare` — the last drains leave a row that the exit ends as it would end the running one.

Main results:

* `Enforced.uncharged`, `codes_conduct` — Breach Actions charge nothing, and keep the declared codes
  while the row is active;
* `finishCrash_charged`, `conclude_passed` — what an exit writes, by the row it finds;
* `exitKept_iff` — an exit is classified as promised exactly when its last drains spare it.
-/

import Hekma.Supervisor.Removal

set_option relaxedAutoImplicit false
set_option autoImplicit false

namespace Hekma

open Governance

/-! ### What the control state tells of a crash -/

/-- How often the history says that the process has crashed. -/
def crashCount (events : List TransitionEvent) : ℕ :=
  events.countP fun e => e.newState = .failed && e.cause = .crashed

theorem crashCount_append (events : List TransitionEvent) (e : TransitionEvent) :
    crashCount (events ++ [e]) =
      crashCount events + if e.newState = .failed && e.cause = .crashed then 1 else 0 := by
  rw [crashCount, List.countP_append, ← crashCount, List.countP_singleton]

/-- The failures a record counts. -/
def failureCount (record : Option SpawnRecord) : ℕ := record.elim 0 SpawnRecord.restartCount

theorem failureCount_settledRecord (record : Option SpawnRecord) :
    failureCount (Supervisor.settledRecord record) ≤ failureCount record := by
  cases record with
  | none => exact le_rfl
  | some r =>
      rw [Supervisor.settledRecord]
      split
      · exact le_rfl
      · exact Nat.zero_le _

namespace Control

variable {f : Faults} {b c c' e : Control}

/-- The row has a process that can be paused or stopped. -/
def Active (c : Control) : Prop := c.state = some .running ∨ c.state = some .paused

/-- What a Breach Action leaves of the charges of an instance: no crash is added, the count of its
failures does not grow, and while the row is active the record stays. -/
structure Uncharged (c c' : Control) : Prop where
  crashes : crashCount c'.events = crashCount c.events
  failures : failureCount c'.record ≤ failureCount c.record
  record : c'.Active → c.Active ∧ c'.record = c.record

theorem Uncharged.refl (c : Control) : c.Uncharged c := ⟨rfl, le_rfl, fun h => ⟨h, rfl⟩⟩

theorem Uncharged.trans {c'' : Control} (h : c.Uncharged c') (h' : c'.Uncharged c'') :
    c.Uncharged c'' where
  crashes := h'.crashes.trans h.crashes
  failures := h'.failures.trans h.failures
  record := by
    intro hactive
    obtain ⟨hactive', hrecord'⟩ := h'.record hactive
    obtain ⟨hactive'', hrecord⟩ := h.record hactive'
    exact ⟨hactive'', hrecord'.trans hrecord⟩

theorem StopEnd.state (h : StopEnd f b c') : c'.state = b.state ∨ c'.state = some .stopped := by
  cases h with
  | unconfirmed _ _ => exact .inl rfl
  | failed _ _ => exact .inl rfl
  | unsettled _ => exact .inl rfl
  | unrecorded _ => exact .inl rfl
  | ended _ => exact .inr rfl

/-- A stop that has moved the row does not bring it back. -/
theorem StopEnd.not_active (h : StopEnd f b c') (hrow : b.state = some .stopping) :
    ¬ c'.Active := by
  rcases h.state with hstate | hstate
  · rw [Active, hstate, hrow]
    simp
  · rw [Active, hstate]
    simp

theorem StopEnd.crashes (h : StopEnd f b c') : crashCount c'.events = crashCount b.events := by
  cases h with
  | unconfirmed _ _ => rfl
  | failed _ _ => rfl
  | unsettled _ => rfl
  | unrecorded _ => rfl
  | ended cause =>
      rw [events_moved, crashCount_append]
      rfl

theorem StopEnd.failures (h : StopEnd f b c') : failureCount c'.record ≤ failureCount b.record := by
  cases h with
  | unconfirmed _ _ => exact le_rfl
  | failed _ _ => exact le_rfl
  | unsettled _ => exact le_rfl
  | unrecorded _ => exact failureCount_settledRecord b.record
  | ended cause => exact failureCount_settledRecord b.record

theorem StopEnd.uncharged (h : StopEnd f b c') (hrow : b.state = some .stopping) :
    b.Uncharged c' :=
  ⟨h.crashes, h.failures, fun hactive => absurd hactive (h.not_active hrow)⟩

theorem Entered.uncharged (h : c.Entered f e) : c.Uncharged e := by
  cases h with
  | same => exact .refl c
  | reacquired runId generation _ _ _ => exact ⟨rfl, le_rfl, fun hactive => ⟨hactive, rfl⟩⟩

theorem StopMove.uncharged (h : StopMove f c c') : c.Uncharged c' := by
  cases h with
  | kept => exact .refl c
  | refused _ _ _ _ he => exact he.uncharged
  | stopped e prior cause _ hrow hprior he hend =>
      refine he.uncharged.trans (.trans ?_ (hend.uncharged rfl))
      refine ⟨?_, le_rfl, fun hactive => ?_⟩
      · rw [events_moved, crashCount_append]
        rfl
      · rw [Active, state_moved] at hactive
        simp at hactive
  | healed _ _ hrow _ _ hend => exact hend.uncharged hrow

theorem uncharged_suspend {verb : Bool} (h : SuspendMove .pause verb c c') : c.Uncharged c' := by
  have hmoved : ∀ cause, crashCount (c.moved .running .paused cause).events =
      crashCount c.events := by
    intro cause
    rw [events_moved, crashCount_append]
    rfl
  cases h with
  | kept => exact .refl c
  | suspended cause _ hrow _ => exact ⟨hmoved cause, le_rfl, fun _ => ⟨.inl hrow, rfl⟩⟩
  | cooperated _ _ hrow => exact ⟨hmoved _, le_rfl, fun _ => ⟨.inl hrow, rfl⟩⟩
  | resumed cause hcmd _ => cases hcmd

end Control

/-- **No Breach Action charges a failure.** -/
theorem Enforced.uncharged {f : Faults} {c c' : Control} (h : Enforced f c c') :
    c.Uncharged c' := by
  induction h with
  | refl => exact .refl c
  | tail _ hstep ih =>
      cases hstep with
      | pause hm => exact ih.trans (Control.uncharged_suspend hm)
      | stop hm => exact ih.trans hm.uncharged

/-! ### The declared codes -/

namespace Supervisor

variable {s : Supervisor} {env : Env} {inner : StopWith}

/-- The codes the held process declares. -/
def heldCodes (s : Supervisor) : Option (List (ℕ × ExitClass)) := s.running.map Supervised.exitCodes

theorem heldCodes_onHandle {f : Supervised → Supervised} (h : ∀ x, (f x).exitCodes = x.exitCodes) :
    (s.onHandle f).heldCodes = s.heldCodes := by
  rw [heldCodes, onHandle, heldCodes, Option.map_map]
  congr 1
  exact funext h

theorem heldCodes_job (disk : Disk) : (s.job env disk).2.heldCodes = s.heldCodes := by
  rcases job_cases s env disk with h | ⟨-, err, h⟩ <;> rw [h] <;> rfl

theorem heldCodes_andThen {codes : Option (List (ℕ × ExitClass))} {r : Outcome}
    {f : Supervisor → Outcome} (hr : r.2.heldCodes = codes)
    (hf : ∀ s', s'.heldCodes = codes → (f s').2.heldCodes = codes) :
    (andThen r f).2.heldCodes = codes := by
  obtain ⟨_ | err, s'⟩ := r
  · exact hf s' hr
  · exact hr

theorem heldCodes_transitionWith (fate : Runs.RunFate) (prior new : LifecycleState)
    (cause : TransitionCause) :
    (s.transitionWith env fate prior new cause).2.heldCodes = s.heldCodes := by
  unfold transitionWith
  split
  · rfl
  · exact heldCodes_andThen (heldCodes_job _) fun s' h => h

theorem heldCodes_ensureLogDir : (s.ensureLogDir env).2.heldCodes = s.heldCodes := by
  rcases ensureLogDir_cases s env with h | h <;> rw [h] <;> rfl

theorem heldCodes_noteResume (command : LifecycleCommand) :
    (s.noteResume command).heldCodes = s.heldCodes := by
  unfold noteResume
  split
  · exact heldCodes_onHandle fun _ => rfl
  · rfl

theorem heldCodes_signalBackend : (s.signalBackend env).2.heldCodes = s.heldCodes := by
  unfold signalBackend
  split
  · rfl
  · split <;> rfl

/-- A pause keeps the declared codes. -/
theorem heldCodes_pauseWithCause (cause : TransitionCause) :
    (s.pauseWithCause env cause).2.heldCodes = s.heldCodes := by
  unfold pauseWithCause suspendOrResume
  split
  · rfl
  split
  · rfl
  split
  · rfl
  split
  · rename_i hcommand
    simp at hcommand
  split
  · rfl
  · refine heldCodes_andThen heldCodes_ensureLogDir fun s₁ h₁ => ?_
    refine heldCodes_andThen ((heldCodes_transitionWith _ _ _ _).trans h₁) fun s₂ h₂ => ?_
    exact heldCodes_signalBackend.trans ((heldCodes_noteResume _).trans h₂)
  · refine heldCodes_andThen heldCodes_ensureLogDir fun s₁ h₁ => ?_
    refine heldCodes_andThen ((heldCodes_transitionWith _ _ _ _).trans h₁) fun s₂ h₂ => ?_
    exact (heldCodes_noteResume _).trans h₂

/-- While the row is active after a step, the process that was held is held still, and its codes are
the same. -/
def KeepsCodes (s s' : Supervisor) : Prop :=
  s'.control.Active → s.running.isSome → s'.heldCodes = s.heldCodes

theorem isSome_of_heldCodes {s' : Supervisor} (h : s'.heldCodes = s.heldCodes)
    (hheld : s.running.isSome) : s'.running.isSome := by
  rw [← Option.isSome_map (f := Supervised.exitCodes), ← heldCodes, h, heldCodes,
    Option.isSome_map]
  exact hheld

theorem reacquire_of_held (hheld : s.running.isSome) : s.reacquire env = s := by
  obtain ⟨h, hrun⟩ := Option.isSome_iff_exists.1 hheld
  unfold reacquire
  rw [hrun]

/-- A stop that leaves its row active has not touched the handle. -/
theorem keepsCodes_stopStep (hinner : Stops env.faults inner) (hwf : s.control.Wf)
    (override : Option TransitionCause) (terminalDrain : Option Bool) :
    KeepsCodes s (stopStep env inner s override terminalDrain).2 := by
  intro hactive hheld
  revert hactive
  unfold stopStep
  rw [reacquire_of_held hheld]
  cases hrow : s.disk.state with
  | none => exact fun _ => rfl
  | some state =>
      dsimp only
      split
      · rename_i hstuck
        obtain ⟨rfl, -⟩ := hstuck
        unfold retryStop
        cases (s.now env).poll with
        | errored => exact fun _ => rfl
        | alive => exact fun _ => rfl
        | exited code =>
            intro hactive
            have hend := settle_end (f := env.faults) env (s := s.tick) .stopForced id
              (by rw [disk_tick, hrow]; simp)
            exact absurd hactive (hend.not_active hrow)
      · cases hnext : nextState state .stop with
        | none => exact fun _ => rfl
        | some new =>
            obtain ⟨hprior, rfl⟩ := nextState_stop_eq hnext
            dsimp only
            rcases ensureLogDir_cases s env with hlog | hlog
            · rw [hlog, andThen_none]
              have hreg : s.tick.disk.state ≠ none := by rw [disk_tick, hrow]; simp
              rcases transition_cases hreg env state .stopping (override.getD (.command "stop"))
                with ⟨s', h, hc⟩ | ⟨-, err, s', h, -⟩
              · rw [h, andThen_none]
                intro hactive
                -- a stop past its transition leaves no active row
                have hq : s'.control.Quiet := by
                  rw [hc]
                  exact Control.Wf.quiet (c := s.tick.control) hwf hrow hprior _
                exact absurd hactive ((stopping_end hinner hq state).not_active hq.1)
              · have hcodes : (s.tick.transitionWith env .terminal state .stopping
                    (override.getD (.command "stop"))).2.heldCodes = s.tick.heldCodes :=
                  heldCodes_transitionWith _ _ _ _
                rw [← transition, h] at hcodes
                rw [h, andThen_some]
                exact fun _ => hcodes
            · rw [hlog, andThen_some]
              exact fun _ => rfl

theorem keepsCodes_stopInner (depth : ℕ) (hwf : s.control.Wf) (override : Option TransitionCause)
    (terminalDrain : Option Bool) :
    KeepsCodes s (stopInner env depth s override terminalDrain).2 := by
  cases depth with
  | zero => exact fun _ _ => rfl
  | succ depth =>
      exact keepsCodes_stopStep (fun cause s hwf => stopInner_move env depth s _ _ hwf) hwf _ _

/-- Breach Actions keep the declared codes while the row is active. -/
theorem codes_conduct (env : Env) : MeterConduct env (stopWithCause env) fun s s' =>
    s.control.Wf → Enforced env.faults s.control s'.control ∧ KeepsCodes s s' where
  refl := fun _ _ => ⟨.refl, fun _ _ => rfl⟩
  trans := by
    intro a b c hab hbc hwf
    obtain ⟨hmove, hcodes⟩ := hab hwf
    obtain ⟨hmove', hcodes'⟩ := hbc (hmove.wf hwf)
    refine ⟨hmove.trans hmove', fun hactive hheld => ?_⟩
    have hb := hcodes (hmove'.uncharged.record hactive).1 hheld
    exact (hcodes' hactive (isSome_of_heldCodes hb hheld)).trans hb
  tick := fun _ _ => ⟨.refl, fun _ _ => rfl⟩
  handle := by
    intro s f hf _
    rw [control_onHandle_of_keep fun h => (hf h).1]
    exact ⟨.refl, fun _ _ => heldCodes_onHandle fun h => (hf h).2⟩
  logs := fun _ _ _ => ⟨.refl, fun _ _ => rfl⟩
  charge := fun _ _ _ _ => ⟨.refl, fun _ _ => rfl⟩
  pause := fun s d hwf =>
    ⟨(governed_conduct env (stopWithCause_stops env)).pause s d hwf,
      fun _ _ => heldCodes_pauseWithCause _⟩
  stop := fun s cause hwf =>
    ⟨.single (.stop (stopWithCause_stops env cause s hwf)),
      keepsCodes_stopInner stopDepth hwf (some cause) none⟩

end Supervisor

/-! ### Writes at their moments -/

/-- A store job that is asked for at moment `n` commits. -/
def Env.commits (env : Env) (n : ℕ) : Bool := (env n).write = .committed

namespace Supervisor

/-- An operation is one store job: it reaches a control state, or leaves it as it was. -/
structure Wrote (env : Env) (s : Supervisor) (c : Control) (r : Outcome) : Prop where
  answer : r.1 = none ↔ env.commits s.clock
  control : r.2.control = if env.commits s.clock then c else s.control
  clock : r.2.clock = s.clock + 1

variable {s : Supervisor} {env : Env} {c : Control} {r : Outcome}

theorem wrote_job (env : Env) (disk : Disk) :
    Wrote env s (s.commit disk).control (s.job env disk) := by
  unfold job now
  cases h : (env s.clock).write with
  | committed => exact ⟨by simp [Env.commits, h], by simp [Env.commits, h]; rfl, rfl⟩
  | busy => exact ⟨by simp [Env.commits, h], by simp [Env.commits, h], rfl⟩
  | refused => exact ⟨by simp [Env.commits, h], by simp [Env.commits, h], rfl⟩

theorem wrote_settleSpawnRecord (env : Env) :
    Wrote env s s.control.settled (s.settleSpawnRecord env) := by
  have h := wrote_job (s := s) env (s.settledDisk (s.now env).time)
  have hc : (s.commit (s.settledDisk (s.now env).time)).control = s.control.settled := by
    unfold settledDisk
    cases hr : s.disk.record <;>
      simp [Supervisor.control, commit, Control.settled, settledRecord, hr]
  rw [hc] at h
  exact h

theorem wrote_transitionWith (env : Env) (hrow : s.disk.state ≠ none) (fate : Runs.RunFate)
    (prior new : LifecycleState) (cause : TransitionCause) :
    Wrote env s (s.control.moved prior new cause) (s.transitionWith env fate prior new cause) := by
  obtain ⟨state, hstate⟩ := Option.ne_none_iff_exists'.1 hrow
  unfold transitionWith now job now
  rw [hstate]
  cases h : (env s.clock).write with
  | committed => exact ⟨by simp [Env.commits, h], by simp [Env.commits, h]; rfl, rfl⟩
  | busy => exact ⟨by simp [Env.commits, h], by simp [Env.commits, h], rfl⟩
  | refused => exact ⟨by simp [Env.commits, h], by simp [Env.commits, h], rfl⟩

/-- A store job commits, or it fails and leaves the control state alone. -/
theorem Wrote.cases (h : Wrote env s c r) :
    (env.commits s.clock = true ∧ r = (none, r.2) ∧ r.2.control = c) ∨
      (env.commits s.clock = false ∧ ∃ err, r = (some err, r.2) ∧ r.2.control = s.control) := by
  have hcontrol := h.control
  have hanswer := h.answer
  obtain ⟨_ | err, out⟩ := r
  · have hcommit := hanswer.1 rfl
    rw [if_pos hcommit] at hcontrol
    exact .inl ⟨hcommit, rfl, hcontrol⟩
  · have hlost : ¬ env.commits s.clock = true := fun hcommit => by simpa using hanswer.2 hcommit
    rw [if_neg hlost] at hcontrol
    exact .inr ⟨by simpa using hlost, err, rfl, hcontrol⟩

theorem clock_ensureLogDir : (s.ensureLogDir env).2.clock = s.clock + 1 := by
  rcases ensureLogDir_cases s env with h | h <;> rw [h] <;> rfl

/-! ### What a failure is charged with -/

/-- The relaunch a failure is charged with, as the record says. -/
def failurePlan (record : Option SpawnRecord) (stableRun : Bool) : Option ℕ :=
  let next := nextConsecutiveFailures (record.elim 0 SpawnRecord.restartCount) stableRun
  if record.elim .onFailure SpawnRecord.restartPolicy = .never then none
  else if isCrashLoop next then none
  else some next

/-- The record counts failures. -/
def counted (record : Option SpawnRecord) (count : ℕ) : Option SpawnRecord :=
  record.map fun r => { r with restartCount := count }

/-- The moment at which a failure is recorded, from the moment it is planned at. -/
def failureMoment (start : ℕ) (plan : Option ℕ) : ℕ := if plan.isSome then start + 2 else start + 3

theorem planRestart_fst (env : Env) (stableRun : Bool) :
    (s.planRestart env stableRun).1 = failurePlan s.disk.record stableRun := by
  unfold planRestart failurePlan
  dsimp only
  split
  · rfl
  split <;> rfl

theorem wrote_writeRecord (record : Option SpawnRecord) :
    Wrote env s (s.control.withRecord record) (s.writeRecord env record) :=
  wrote_job env { s.disk with record := record }

theorem wrote_setRestartPolicy (env : Env) (hrow : s.disk.state ≠ none) (policy : RestartPolicy) :
    ∃ record, failureCount record = failureCount s.disk.record ∧
      Wrote env s (s.control.withRecord record) (s.setRestartPolicy env policy) := by
  obtain ⟨state, hstate⟩ := Option.ne_none_iff_exists'.1 hrow
  unfold setRestartPolicy
  rw [hstate]
  refine ⟨_, ?_, wrote_writeRecord _⟩
  cases s.disk.record <;> rfl

/-- What is left of the control state is its record. -/
theorem Wrote.withRecord {record : Option SpawnRecord}
    (h : Wrote env s (s.control.withRecord record) r) :
    ∃ r', r.2.control = s.control.withRecord r' ∧ (r' = record ∨ r' = s.disk.record) := by
  rw [h.control]
  split
  · exact ⟨record, rfl, .inl rfl⟩
  · exact ⟨s.disk.record, rfl, .inr rfl⟩

/-- A failure that is not followed by a relaunch settles the record and leaves its policy. -/
theorem settleTerminalRecord_exact (env : Env) (hrow : s.disk.state ≠ none)
    (policy : RestartPolicy) :
    ∃ record, (s.settleTerminalRecord env policy).control = s.control.withRecord record ∧
      failureCount record ≤ failureCount s.disk.record ∧
      (s.settleTerminalRecord env policy).clock = s.clock + 2 := by
  have hsettle : Wrote env s (s.control.withRecord (settledRecord s.disk.record))
    (s.settleSpawnRecord env) := wrote_settleSpawnRecord env
  obtain ⟨settled, hcontrol, hsettled⟩ := hsettle.withRecord
  have hclock := hsettle.clock
  unfold settleTerminalRecord
  generalize (s.settleSpawnRecord env).2 = b at *
  have hstate : b.disk.state ≠ none := by
    rw [← state_control, hcontrol]
    exact hrow
  have hrecord : b.disk.record = settled := congrArg Control.record hcontrol
  obtain ⟨record, hcount, hpolicy⟩ := wrote_setRestartPolicy env hstate policy
  obtain ⟨final, hfinal, hwritten⟩ := hpolicy.withRecord
  refine ⟨final, ?_, ?_, ?_⟩
  · rw [hfinal, hcontrol]
    rfl
  · have hle : failureCount settled ≤ failureCount s.disk.record := by
      rcases hsettled with h | h <;> rw [h]
      exact failureCount_settledRecord _
    rcases hwritten with h | h <;> rw [h]
    · rw [hcount, hrecord]
      exact hle
    · rw [hrecord]
      exact hle
  · rw [hpolicy.clock, hclock]

/-- What the plan of a failure writes. -/
theorem planRestart_exact (env : Env) (hrow : s.disk.state ≠ none) (stableRun : Bool) :
    ∃ record, (s.planRestart env stableRun).2.control = s.control.withRecord record ∧
      (failurePlan s.disk.record stableRun = none →
        failureCount record ≤ failureCount s.disk.record) ∧
      (∀ n, failurePlan s.disk.record stableRun = some n → record =
        if env.commits s.clock then counted s.disk.record n else s.disk.record) ∧
      (s.planRestart env stableRun).2.clock + 1 =
        failureMoment s.clock (failurePlan s.disk.record stableRun) := by
  have hsettled := settleTerminalRecord_exact env hrow
    (s.disk.record.elim .onFailure SpawnRecord.restartPolicy)
  unfold planRestart failurePlan
  dsimp only
  split
  · obtain ⟨record, hcontrol, hcount, hclock⟩ := hsettled
    exact ⟨record, hcontrol, fun _ => hcount, fun n hn => by simp at hn,
      by simp [hclock, failureMoment]⟩
  split
  · obtain ⟨record, hcontrol, hcount, hclock⟩ := hsettled
    exact ⟨record, hcontrol, fun _ => hcount, fun n hn => by simp at hn,
      by simp [hclock, failureMoment]⟩
  · generalize nextConsecutiveFailures (s.disk.record.elim 0 SpawnRecord.restartCount) stableRun = n
    have hwrote : Wrote env s (s.control.withRecord (counted s.disk.record n))
      (s.setRestartCount env n) := wrote_writeRecord _
    refine ⟨if env.commits s.clock then counted s.disk.record n else s.disk.record, ?_,
      fun h => by simp at h, fun m hm => ?_, ?_⟩
    · rw [hwrote.control]
      split <;> rfl
    · rw [Option.some.inj hm]
    · simp [hwrote.clock, failureMoment]

/-! ### The ends of an exit -/

/-- What the last drains of an exit leave. -/
def lastDrained (s : Supervisor) (env : Env) : Supervisor :=
  drainTerminal env (stopWithCause env) { s.tick with pollErrorStreak := 0 }

/-- What an exit does once its last drains are done. -/
def conclude (d : Supervisor) (env : Env) (crash : CrashInput) : Supervisor :=
  match d.disk.state with
  | none => d.dropHandle
  | some state =>
      if state = .running ∨ state = .paused then
        match classifyExit (d.running.elim [] Supervised.exitCodes) crash state with
        | some (.clean, code) => d.finishCleanExit env code
        | classified => d.finishCrash env state classified
      else if state = .stopping ∧ d.running.any Supervised.stopUnconfirmed then
        d.finishUnconfirmedStop env
      else d.dropHandle

theorem pollExits_exited {h : Supervised} {code : Option ℕ} (hheld : s.running = some h)
    (hpoll : (s.now env).poll = .exited code) :
    s.pollExits env = (s.lastDrained env).conclude env (.exited code) := by
  unfold pollExits
  rw [hheld]
  dsimp only
  rw [hpoll]
  rfl

theorem finishCleanExit_exact (env : Env) (hrow : s.disk.state = some .running) (code : ℕ) :
    (s.finishCleanExit env code).disk.state =
        (if env.commits (s.clock + 2) then some .stopped else some .running) ∧
      (s.finishCleanExit env code).plans = s.plans := by
  have hsettle : Wrote env s.dropHandle (s.dropHandle.control.withRecord
      (settledRecord s.disk.record)) (s.dropHandle.settleSpawnRecord env) :=
    wrote_settleSpawnRecord env
  obtain ⟨record, hcontrol, -⟩ := hsettle.withRecord
  have hclock := hsettle.clock
  unfold finishCleanExit
  dsimp only
  generalize (s.dropHandle.settleSpawnRecord env).2 = b at *
  have hlog : (b.ensureLogDir env).2.control = s.control.dropped.withRecord record := by
    rw [ensureLogDir_control, hcontrol, control_dropHandle]
  have hlogClock : (b.ensureLogDir env).2.clock = s.clock + 2 := by
    rw [clock_ensureLogDir, hclock]
    rfl
  generalize (b.ensureLogDir env).2 = e at *
  have hreg : e.disk.state ≠ none := by
    rw [← state_control, hlog]
    change s.disk.state ≠ none
    rw [hrow]
    simp
  have hmoved := (wrote_transitionWith env hreg .terminal .running .stopped
    (.cleanExit code)).control
  rw [hlogClock, hlog] at hmoved
  rw [transition]
  generalize (e.transitionWith env .terminal .running .stopped (.cleanExit code)).2 = out at *
  refine ⟨?_, ?_⟩
  · rw [← state_control, hmoved]
    split
    · rfl
    · exact hrow
  · change out.control.plans = s.control.plans
    rw [hmoved]
    split <;> rfl

theorem finishUnconfirmedStop_exact (hrow : s.disk.state = some .stopping) :
    (s.finishUnconfirmedStop env).disk.state =
        (if env.commits s.clock && env.commits (s.clock + 1) then some .stopped
          else some .stopping) := by
  have hsettle := wrote_settleSpawnRecord (s := s.dropHandle) env
  have hclock : _ = s.clock + 1 := hsettle.clock
  unfold finishUnconfirmedStop
  rcases hsettle.cases with ⟨hcommit, hr, hcontrol⟩ | ⟨hlost, err, hr, hcontrol⟩
  · rw [hr]
    dsimp only
    generalize (s.dropHandle.settleSpawnRecord env).2 = b at *
    have hstate : b.disk.state = some .stopping := by
      rw [← state_control, hcontrol]
      exact hrow
    have hmoved := (wrote_transitionWith (s := b) env (by rw [hstate]; simp) .terminal
      .stopping .stopped .stopForced).control
    rw [transition, ← state_control, hmoved, hclock]
    change env.commits s.clock = true at hcommit
    rw [hcommit, Bool.true_and]
    split
    · rfl
    · exact hstate
  · rw [hr]
    dsimp only
    change env.commits s.clock = false at hlost
    rw [hlost, Bool.false_and, ← state_control, hcontrol]
    exact hrow

/-- What a failure writes: nothing is charged unless its transition commits. -/
structure Charged (env : Env) (s : Supervisor) (plan : Option ℕ) (out : Supervisor) : Prop where
  row : out.disk.state = some .failed ∨ out.disk.state = s.disk.state
  crashes : crashCount out.disk.events =
    crashCount s.disk.events + (env.commits (failureMoment s.clock plan)).toNat
  attempts : out.plans.map RestartPlan.attempt = s.plans.map RestartPlan.attempt ++
    if env.commits (failureMoment s.clock plan) then plan.toList else []
  settled : plan = none → failureCount out.disk.record ≤ failureCount s.disk.record
  recounted : ∀ n, plan = some n → out.disk.record =
    if env.commits s.clock then counted s.disk.record n else s.disk.record

theorem finishCrash_charged (env : Env) {state : LifecycleState} (hrow : s.disk.state = some state)
    (classified : Option (ExitClass × ℕ))
    (hclass : ∀ code, classified ≠ some (.restartRequested, code)) :
    Charged env s (failurePlan s.disk.record (state = .running && (s.now env).stableRun))
      (s.finishCrash env state classified) := by
  have hplan : s.dropHandle.planFailure env (state = .running && (s.now env).stableRun) classified =
      (.crashed, s.dropHandle.planRestart env (state = .running && (s.now env).stableRun)) := by
    unfold planFailure
    split
    · exact absurd rfl (hclass _)
    · rfl
  unfold finishCrash
  dsimp only
  rw [hplan]
  dsimp only
  generalize (decide (state = .running) && (s.now env).stableRun) = stable
  have hdropped : s.dropHandle.disk.state ≠ none := by
    change s.disk.state ≠ none
    rw [hrow]
    simp
  have hfst := planRestart_fst (s := s.dropHandle) env stable
  obtain ⟨record, hcontrol, hsettled, hcounted, hclock⟩ :=
    planRestart_exact (s := s.dropHandle) env hdropped stable
  change _ = failurePlan s.disk.record stable at hfst
  change failurePlan s.disk.record stable = none → _ at hsettled
  change ∀ n, failurePlan s.disk.record stable = some n → _ at hcounted
  change _ = failureMoment s.clock (failurePlan s.disk.record stable) at hclock
  rw [hfst]
  generalize (s.dropHandle.planRestart env stable).2 = b at *
  generalize failurePlan s.disk.record stable = plan at *
  have hlog : (b.ensureLogDir env).2.control = s.control.dropped.withRecord record := by
    rw [ensureLogDir_control, hcontrol, control_dropHandle]
  have hlogClock : (b.ensureLogDir env).2.clock = failureMoment s.clock plan := by
    rw [clock_ensureLogDir, hclock]
  generalize (b.ensureLogDir env).2 = e at *
  have hreg : e.disk.state ≠ none := by
    rw [← state_control, hlog]
    exact hdropped
  have hwrote := wrote_transitionWith env hreg (fateOf plan) state .failed .crashed
  rw [hlog] at hwrote
  -- The record is the one of the plan, whether or not the transition commits.
  have hcharged : ∀ out : Supervisor, out.disk.record = record →
      (out.disk.state = some .failed ∨ out.disk.state = s.disk.state) →
      crashCount out.disk.events =
        crashCount s.disk.events + (env.commits (failureMoment s.clock plan)).toNat →
      out.plans.map RestartPlan.attempt = s.plans.map RestartPlan.attempt ++
        (if env.commits (failureMoment s.clock plan) then plan.toList else []) →
      Charged env s plan out := by
    intro out hrecord hstate hcrashes hattempts
    subst hrecord
    exact ⟨hstate, hcrashes, hattempts, hsettled, hcounted⟩
  rcases hwrote.cases with ⟨hcommit, hr, hcontrol⟩ | ⟨hlost, err, hr, hcontrol⟩
  · rw [hr]
    dsimp only
    generalize (e.transitionWith env (fateOf plan) state .failed .crashed).2 = out at *
    rw [hlogClock] at hcommit
    have hevents : out.disk.events = s.disk.events ++ [⟨state, .failed, .crashed⟩] :=
      congrArg Control.events hcontrol
    have hplans : out.plans = s.plans := congrArg Control.plans hcontrol
    refine hcharged (out.pushPlan plan) (congrArg Control.record hcontrol :)
      (.inl (congrArg Control.state hcontrol :)) ?_ ?_
    · change crashCount out.disk.events = _
      rw [hevents, crashCount_append, hcommit]
      rfl
    · rw [if_pos hcommit, pushPlan, List.map_append, hplans, List.map_map]
      congr 1
      exact List.map_id _
  · rw [hr]
    dsimp only
    generalize (e.transitionWith env (fateOf plan) state .failed .crashed).2 = out at *
    rw [hlogClock] at hlost
    rw [hlog] at hcontrol
    have hevents : out.disk.events = s.disk.events := congrArg Control.events hcontrol
    have hplans : out.plans = s.plans := congrArg Control.plans hcontrol
    refine hcharged out (congrArg Control.record hcontrol :)
      (.inr (congrArg Control.state hcontrol :)) ?_ ?_
    · rw [hevents, hlost]
      rfl
    · rw [hplans, hlost]
      simp

theorem planRequestedRestart_record (env : Env) (hrow : s.disk.state ≠ none) :
    ∃ record, (s.planRequestedRestart env).2.control = s.control.withRecord record ∧
      failureCount record ≤ failureCount s.disk.record := by
  unfold planRequestedRestart
  dsimp only
  split
  · obtain ⟨record, hcontrol, hcount, -⟩ := settleTerminalRecord_exact env hrow _
    exact ⟨record, hcontrol, hcount⟩
  · exact ⟨s.disk.record, rfl, le_rfl⟩

/-- A relaunch that is asked for is no crash and counts no failure. -/
theorem finishCrash_requested (env : Env) (hrow : s.disk.state = some .running) (code : ℕ) :
    crashCount (s.finishCrash env .running (some (.restartRequested, code))).disk.events =
        crashCount s.disk.events ∧
      failureCount (s.finishCrash env .running (some (.restartRequested, code))).disk.record ≤
        failureCount s.disk.record := by
  have hdropped : s.dropHandle.disk.state ≠ none := by
    change s.disk.state ≠ none
    rw [hrow]
    simp
  obtain ⟨record, hcontrol, hcount⟩ := planRequestedRestart_record env hdropped
  unfold finishCrash planFailure
  dsimp only
  generalize s.dropHandle.planRequestedRestart env = r at *
  have hlog : (r.2.ensureLogDir env).2.control = s.control.dropped.withRecord record := by
    rw [ensureLogDir_control, hcontrol, control_dropHandle]
  generalize (r.2.ensureLogDir env).2 = e at *
  have hreg : e.disk.state ≠ none := by
    rw [← state_control, hlog]
    exact hdropped
  have hwrote := wrote_transitionWith env hreg (fateOf r.1) .running .failed
    (.restartRequested code)
  rw [hlog] at hwrote
  have hended : ∀ out : Supervisor, out.disk.record = record →
      crashCount out.disk.events = crashCount s.disk.events →
      crashCount out.disk.events = crashCount s.disk.events ∧
        failureCount out.disk.record ≤ failureCount s.disk.record := by
    intro out hrecord hcrashes
    exact ⟨hcrashes, by rw [hrecord]; exact hcount⟩
  rcases hwrote.cases with ⟨-, hr, hmoved⟩ | ⟨-, err, hr, hkept⟩
  · rw [hr]
    dsimp only
    generalize (e.transitionWith env (fateOf r.1) .running .failed (.restartRequested code)).2
      = out at *
    have hevents : out.disk.events =
        s.disk.events ++ [⟨.running, .failed, .restartRequested code⟩] :=
      congrArg Control.events hmoved
    refine hended (out.pushPlan r.1) (congrArg Control.record hmoved :) ?_
    change crashCount out.disk.events = _
    rw [hevents, crashCount_append]
    rfl
  · rw [hr]
    dsimp only
    generalize (e.transitionWith env (fateOf r.1) .running .failed (.restartRequested code)).2
      = out at *
    rw [hlog] at hkept
    have hevents : out.disk.events = s.disk.events := congrArg Control.events hkept
    exact hended out (congrArg Control.record hkept :) (by rw [hevents])

/-! ### The promise -/

/-- What is promised of the exit of a running process.  `stableRun` says whether its run was long
enough to start the count of failures again. -/
def ExitKept (s out : Supervisor) (codes : List (ℕ × ExitClass)) (code : Option ℕ)
    (stableRun : Bool) : Prop :=
  match classifyExit codes (.exited code) .running with
  | some (.clean, _) => out.disk.state = some .stopped ∧ out.plans = s.plans
  | some (.restartRequested, _) =>
      crashCount out.disk.events = crashCount s.disk.events ∧
        failureCount out.disk.record ≤ failureCount s.disk.record
  | none =>
      crashCount out.disk.events = crashCount s.disk.events + 1 ∧
        out.plans.map RestartPlan.attempt = s.plans.map RestartPlan.attempt ++
          (failurePlan s.disk.record stableRun).toList ∧
        ∀ n, failurePlan s.disk.record stableRun = some n →
          out.disk.record = counted s.disk.record n

/-- The writes that charge a failure with a plan commit. -/
def ChargeCommits (d : Supervisor) (env : Env) (plan : Option ℕ) : Prop :=
  env.commits (failureMoment d.clock plan) ∧
    ∀ n, plan = some n → env.commits d.clock ∨ counted d.disk.record n = d.disk.record

/-- The writes that charge a failure with a plan are all lost. -/
def ChargeLost (d : Supervisor) (env : Env) (plan : Option ℕ) : Prop :=
  env.commits (failureMoment d.clock plan) = false ∧
    ∀ n, plan = some n → env.commits d.clock = false ∨ d.disk.record = none

/-- The last drains spare the exit: what they leave, `d`, is a row that the exit ends as it would
have ended the running one, and the writes this takes commit. -/
def DrainsSpare (d : Supervisor) (env : Env) (codes : List (ℕ × ExitClass)) (code : Option ℕ) :
    Prop :=
  match classifyExit codes (.exited code) .running with
  | some (.clean, _) =>
      d.disk.state = some .stopped ∨
        d.disk.state = some .running ∧ env.commits (d.clock + 2) ∨
        d.disk.state = some .stopping ∧ d.running.any Supervised.stopUnconfirmed ∧
          env.commits d.clock ∧ env.commits (d.clock + 1)
  | some (.restartRequested, _) =>
      d.disk.state = some .paused → ChargeLost d env (failurePlan d.disk.record false)
  | none =>
      (d.disk.state = some .running ∨ d.disk.state = some .paused ∧
        failurePlan d.disk.record false = failurePlan d.disk.record (d.now env).stableRun) ∧
      ChargeCommits d env (failurePlan d.disk.record (d.now env).stableRun)

/-! ### The exit by the row its drains leave -/

variable {d : Supervisor} {codes : List (ℕ × ExitClass)} {code : Option ℕ}

theorem conclude_running (hrow : d.disk.state = some .running) (hcodes : d.heldCodes = some codes) :
    d.conclude env (.exited code) =
      match classifyExit codes (.exited code) .running with
      | some (.clean, n) => d.finishCleanExit env n
      | classified => d.finishCrash env .running classified := by
  have helim : d.running.elim [] Supervised.exitCodes = codes := by
    rw [heldCodes, Option.map_eq_some_iff] at hcodes
    obtain ⟨h, hrun, rfl⟩ := hcodes
    rw [hrun]
    rfl
  unfold conclude
  rw [hrow, helim]
  rfl

/-- The declared codes do not speak for a paused row. -/
theorem conclude_paused (hrow : d.disk.state = some .paused) :
    d.conclude env (.exited code) = d.finishCrash env .paused none := by
  unfold conclude
  rw [hrow]
  rfl

/-- What an exit does to a row that is neither running nor paused. -/
structure Passed (env : Env) (d out : Supervisor) : Prop where
  crashes : crashCount out.disk.events = crashCount d.disk.events
  failures : failureCount out.disk.record ≤ failureCount d.disk.record
  plans : out.plans = d.plans
  row : out.disk.state = some .stopped ↔ d.disk.state = some .stopped ∨
    d.disk.state = some .stopping ∧ d.running.any Supervised.stopUnconfirmed ∧
      env.commits d.clock ∧ env.commits (d.clock + 1)

theorem conclude_passed (env : Env) (hrow : ¬ d.control.Active) (crash : CrashInput) :
    Passed env d (d.conclude env crash) := by
  unfold conclude
  cases hstate : d.disk.state with
  | none => exact ⟨rfl, le_rfl, rfl, by simp [dropHandle, hstate]⟩
  | some state =>
      dsimp only
      rw [if_neg (by simpa [Control.Active, state_control, hstate] using hrow)]
      split
      · rename_i hstuck
        obtain ⟨rfl, hflag⟩ := hstuck
        have hend : Control.StopEnd env.faults.settling d.control
            (d.finishUnconfirmedStop env).control := finishUnconfirmedStop_end hstate
        refine ⟨hend.crashes, hend.failures, hend.frame.plans, ?_⟩
        rw [finishUnconfirmedStop_exact hstate, hstate, hflag]
        cases env.commits d.clock <;> cases env.commits (d.clock + 1) <;> simp
      · rename_i hfree
        refine ⟨rfl, le_rfl, rfl, ?_⟩
        change d.disk.state = _ ↔ _
        rw [hstate]
        constructor
        · exact .inl
        · rintro (h | ⟨h, hflag, -⟩)
          · exact h
          · exact absurd ⟨Option.some.inj h, hflag⟩ hfree

/-- What the last drains keep of the state in which the exit was polled. -/
structure Drained (s d : Supervisor) (codes : List (ℕ × ExitClass)) : Prop where
  crashes : crashCount d.disk.events = crashCount s.disk.events
  failures : failureCount d.disk.record ≤ failureCount s.disk.record
  plans : d.plans = s.plans
  active : d.control.Active → d.disk.record = s.disk.record ∧ d.heldCodes = some codes

theorem drained_lastDrained (env : Env) (hwf : s.control.Wf) {h : Supervised}
    (hheld : s.running = some h) : Drained s (s.lastDrained env) h.exitCodes := by
  obtain ⟨henforced, hcodes⟩ :=
    (codes_conduct env).drainTerminal { s.tick with pollErrorStreak := 0 } hwf
  refine ⟨henforced.uncharged.crashes, henforced.uncharged.failures, henforced.frame.plans, ?_⟩
  intro hactive
  refine ⟨(henforced.uncharged.record hactive).2, ?_⟩
  rw [lastDrained, hcodes hactive (by rw [running_tick, hheld]; rfl), heldCodes]
  change s.running.map _ = _
  rw [hheld]
  rfl

theorem failurePlan_unstable {record : Option SpawnRecord} {n : ℕ}
    (h : failurePlan record false = some n) : n = failureCount record + 1 := by
  unfold failurePlan at h
  dsimp only at h
  split at h
  · simp at h
  split at h
  · simp at h
  · exact (Option.some.inj h).symm

/-- A failure is charged with the plan that was promised just when it is charged with that plan at
all, and its writes commit. -/
theorem Charged.once_iff {plan promised : Option ℕ} {out : Supervisor}
    (h : Charged env d plan out) :
    (crashCount out.disk.events = crashCount d.disk.events + 1 ∧
        out.plans.map RestartPlan.attempt = d.plans.map RestartPlan.attempt ++ promised.toList ∧
        ∀ n, promised = some n → out.disk.record = counted d.disk.record n) ↔
      plan = promised ∧ ChargeCommits d env promised := by
  rw [h.crashes, h.attempts]
  constructor
  · rintro ⟨hcrashes, hattempts, hrecord⟩
    have hcommit : env.commits (failureMoment d.clock plan) = true := by
      cases hc : env.commits (failureMoment d.clock plan) with
      | true => rfl
      | false => simp [hc] at hcrashes
    rw [if_pos hcommit, List.append_cancel_left_eq] at hattempts
    have hplan : plan = promised := by
      cases plan <;> cases promised <;> simp_all
    subst hplan
    refine ⟨rfl, hcommit, fun n hn => ?_⟩
    have hcounted := hrecord n hn
    rw [h.recounted n hn] at hcounted
    split at hcounted
    · rename_i hfirst
      exact .inl hfirst
    · exact .inr hcounted.symm
  · rintro ⟨rfl, hcommit, hrecord⟩
    rw [hcommit]
    refine ⟨rfl, rfl, fun n hn => ?_⟩
    rw [h.recounted n hn]
    rcases hrecord n hn with hfirst | hsame
    · rw [if_pos hfirst]
    · rw [hsame, ite_self]

/-- A failure of a run that was not stable goes uncharged just when all its writes are lost. -/
theorem Charged.lost_iff {out : Supervisor}
    (h : Charged env d (failurePlan d.disk.record false) out) :
    (crashCount out.disk.events = crashCount d.disk.events ∧
        failureCount out.disk.record ≤ failureCount d.disk.record) ↔
      ChargeLost d env (failurePlan d.disk.record false) := by
  rw [h.crashes, ChargeLost]
  have hcrashes : crashCount d.disk.events +
      (env.commits (failureMoment d.clock (failurePlan d.disk.record false))).toNat =
        crashCount d.disk.events ↔
      env.commits (failureMoment d.clock (failurePlan d.disk.record false)) = false := by
    cases env.commits (failureMoment d.clock (failurePlan d.disk.record false)) <;> simp
  rw [hcrashes]
  refine and_congr_right fun _ => ?_
  cases hplan : failurePlan d.disk.record false with
  | none => simp [h.settled hplan]
  | some n =>
      have hnext := failurePlan_unstable hplan
      rw [h.recounted n hplan]
      cases hfirst : env.commits d.clock with
      | false => simp
      | true =>
          cases hrecord : d.disk.record with
          | none => simp [counted]
          | some r =>
              rw [hrecord] at hnext
              simp [counted, failureCount, hnext]

theorem charged_of_paused (env : Env) (code : Option ℕ) (hrow : d.disk.state = some .paused) :
    Charged env d (failurePlan d.disk.record false) (d.conclude env (.exited code)) := by
  have hcharged := finishCrash_charged env hrow none fun _ => by simp
  rw [conclude_paused hrow]
  exact hcharged

/-- A clean exit ends with the row stopped unless the drains have left another row behind. -/
theorem Drained.clean (hd : Drained s d codes) {n : ℕ}
    (hclass : classifyExit codes (.exited code) .running = some (.clean, n)) :
    ((d.conclude env (.exited code)).disk.state = some .stopped ∧
        (d.conclude env (.exited code)).plans = s.plans) ↔
      d.disk.state = some .stopped ∨
        d.disk.state = some .running ∧ env.commits (d.clock + 2) ∨
        d.disk.state = some .stopping ∧ d.running.any Supervised.stopUnconfirmed ∧
          env.commits d.clock ∧ env.commits (d.clock + 1) := by
  by_cases hactive : d.control.Active
  · rcases hactive with hrow | hrow
    · obtain ⟨hstate, hplans⟩ := finishCleanExit_exact env hrow n
      change d.disk.state = some .running at hrow
      rw [conclude_running hrow (hd.active (.inl hrow)).2, hclass]
      dsimp only
      rw [hstate, hplans, hd.plans, hrow]
      cases env.commits (d.clock + 2) <;> simp
    · change d.disk.state = some .paused at hrow
      have hfailed : (d.conclude env (.exited code)).disk.state ≠ some .stopped := by
        rcases (charged_of_paused env code hrow).row with h | h
        · rw [h]
          simp
        · rw [h, hrow]
          simp
      simp [hfailed, hrow]
  · have hpassed := conclude_passed env hactive (.exited code)
    have hrunning : d.disk.state ≠ some .running := fun h => hactive (.inl h)
    rw [hpassed.row, hpassed.plans, hd.plans]
    simp [hrunning]

/-- A relaunch that is asked for charges nothing unless the drains have paused the row. -/
theorem Drained.requested (hd : Drained s d codes) {n : ℕ}
    (hclass : classifyExit codes (.exited code) .running = some (.restartRequested, n)) :
    (crashCount (d.conclude env (.exited code)).disk.events = crashCount s.disk.events ∧
        failureCount (d.conclude env (.exited code)).disk.record ≤ failureCount s.disk.record) ↔
      (d.disk.state = some .paused → ChargeLost d env (failurePlan d.disk.record false)) := by
  by_cases hactive : d.control.Active
  · rcases hactive with hrow | hrow
    · change d.disk.state = some .running at hrow
      obtain ⟨hcrashes, hfailures⟩ := finishCrash_requested env hrow n
      rw [conclude_running hrow (hd.active (.inl hrow)).2, hclass]
      dsimp only
      rw [hcrashes, hd.crashes]
      simp [hfailures.trans hd.failures, hrow]
    · change d.disk.state = some .paused at hrow
      have hcharged := charged_of_paused env code hrow
      obtain ⟨hrecord, -⟩ := hd.active (.inr hrow)
      rw [← hd.crashes, ← hrecord, hcharged.lost_iff]
      simp [hrow]
  · have hpassed := conclude_passed env hactive (.exited code)
    have hpaused : d.disk.state ≠ some .paused := fun h => hactive (.inr h)
    rw [hpassed.crashes, hd.crashes]
    simp [hpassed.failures.trans hd.failures, hpaused]

/-- An undeclared exit is charged once unless the drains have left another row behind. -/
theorem Drained.undeclared (hd : Drained s d codes)
    (hclass : classifyExit codes (.exited code) .running = none) :
    (crashCount (d.conclude env (.exited code)).disk.events = crashCount s.disk.events + 1 ∧
        (d.conclude env (.exited code)).plans.map RestartPlan.attempt =
          s.plans.map RestartPlan.attempt ++
            (failurePlan s.disk.record (d.now env).stableRun).toList ∧
        ∀ n, failurePlan s.disk.record (d.now env).stableRun = some n →
          (d.conclude env (.exited code)).disk.record = counted s.disk.record n) ↔
      (d.disk.state = some .running ∨ d.disk.state = some .paused ∧
          failurePlan d.disk.record false = failurePlan d.disk.record (d.now env).stableRun) ∧
        ChargeCommits d env (failurePlan d.disk.record (d.now env).stableRun) := by
  by_cases hactive : d.control.Active
  · obtain ⟨hrecord, hcodes⟩ := hd.active hactive
    rw [← hd.crashes, ← hd.plans, ← hrecord]
    rcases hactive with hrow | hrow
    · change d.disk.state = some .running at hrow
      have hcharged := finishCrash_charged env hrow none fun _ => by simp
      rw [conclude_running hrow hcodes, hclass]
      dsimp only
      rw [hcharged.once_iff]
      simp [hrow]
    · change d.disk.state = some .paused at hrow
      have hcharged := charged_of_paused env code hrow
      rw [hcharged.once_iff]
      simp [hrow]
  · have hpassed := conclude_passed env hactive (.exited code)
    rw [hpassed.crashes, hd.crashes]
    have hrow : ¬ (d.disk.state = some .running ∨ d.disk.state = some .paused) := hactive
    rw [not_or] at hrow
    simp [hrow]

/-- The state in which a pass polls the process: the drains it begins with are done. -/
def polled (m : Supervisor) (env : Env) : Supervisor :=
  ({ m with clock := 0 }.drainMidRun env).collectPending

/-- An instance with a token ceiling whose breach pauses, running an agent whose exit code 0 is a
clean end. -/
def cappedSteps : List Step :=
  [(.register { plainConfig with
      tokenBudget := ⟨some 10, none⟩
      exitCodes := [(0, .clean)] }, fun _ => {}),
    (.start false, fun _ => {})]

/-- The process has exited with code 0, and its last line reports some tokens. -/
def lastLine (tokens : ℕ) : Env := fun n =>
  { poll := .exited (some 0)
    appended := fun channel =>
      if n = 0 ∨ channel = .stderr then [] else [some ⟨tokens, 0, 0, 0⟩] }

end Supervisor

end Hekma
