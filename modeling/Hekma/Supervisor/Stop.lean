/-
**Stop and drain** (`domain/supervisor/lifecycle.rs`, `domain/supervisor/drain.rs`).

A stop moves the row to `stopping`, resumes a suspended process, drains the last usage, ends the
process, drains once more, and settles the record and the row.  A stop whose end could not be
confirmed keeps the handle; the next stop only polls.

The drains of a stop may fire a stop again.  The row is stopping by then, so the gate refuses it:
one level of nesting is all there is.

Main definitions:

* `Supervisor.stopStep`, `Supervisor.stopInner` — a stop over the stop its drains execute;
* `Supervisor.stop`, `Supervisor.stopWithCause`, `Supervisor.drain` — the verbs.

Main results:

* `stopStep_move`, `stopWithCause_stops` — a stop does what a stop may do;
* `stopInner_depth` — a deeper nesting gives the same stop.
-/

import Hekma.Supervisor.Metering

set_option relaxedAutoImplicit false
set_option autoImplicit false

namespace Hekma

open Governance

namespace Supervisor

/-- The handle of a process that is found again for its stop: no listener, no checks, and cursors
at the end of the logs. -/
def stopOnlyHandle (s : Supervisor) (env : Env) : Supervised where
  runId := (s.disk.books.ledger.runs.spawnRunId s.name).getD (s.now env).mintedRun
  meteringSource := s.disk.config.meteringSource
  usageCursor := fun channel => (s.logs channel).size
  usagePark := fun _ => none
  isAcp := s.disk.config.isAcp
  observedPark := none
  launchGeneration := s.disk.generation
  observedListener := none
  observedSource := none
  stopUnconfirmed := false
  adopted := true
  livenessCheck := false
  exitCodes := []
  cooperativelyPaused := classifyPauseKind s.disk.events = .cooperative

/-- Find the process of the spawn record again, if none is held. -/
def reacquire (s : Supervisor) (env : Env) : Supervisor :=
  match s.running, s.liveRecord with
  | none, some _ =>
      match (s.now env).adopt with
      | .held => { s.tick with running := some (s.stopOnlyHandle env) }
      | _ => s.tick
  | _, _ => s

/-- The process is resumed before it is stopped: the row was paused, and the mark does not say
that the adapter's own command holds it. -/
def resumesBeforeStop (s : Supervisor) (prior : LifecycleState) : Bool :=
  prior = .paused && s.running.any fun h => !h.cooperativelyPaused

/-- Resume a suspended process before the stop.  A failure is only reported. -/
def resumeBeforeStop (s : Supervisor) (prior : LifecycleState) : Supervisor :=
  if s.resumesBeforeStop prior then s.tick else s

/-- An earlier stop could not be confirmed: only poll. -/
def retryStop (s : Supervisor) (env : Env) : Outcome :=
  match (s.now env).poll with
  | .errored => (some .backend, s.tick)
  | .alive => (some .stopUnconfirmed, s.tick)
  | .exited _ =>
      andThen (s.tick.dropHandle.settleSpawnRecord env) fun s =>
        s.transition env .stopping .stopped .stopForced

/-- The cause a stop ends with.  A forced end outranks the outcome of a drain. -/
def stopCause (forced : Bool) (terminalDrain : Option Bool) : TransitionCause :=
  if forced then .stopForced
  else
    match terminalDrain with
    | some completed => .drainStopped completed
    | none => .stopGraceful

/-- The process has ended: the last drain, the handle, the record and the row. -/
def finishStop (env : Env) (inner : StopWith) (s : Supervisor) (forced : Bool)
    (terminalDrain : Option Bool) : Outcome :=
  andThen ((drainSelfReportedFor env inner s .terminal).dropHandle.settleSpawnRecord env) fun s =>
    s.transition env .stopping .stopped (stopCause forced terminalDrain)

/-- End the process.  Without a handle there is none. -/
def stopLadder (env : Env) (inner : StopWith) (s : Supervisor) (terminalDrain : Option Bool) :
    Outcome :=
  match s.running with
  | none => finishStop env inner s false terminalDrain
  | some _ =>
      match (s.now env).stop with
      | .unconfirmed =>
          (some .stopUnconfirmed, s.tick.onHandle fun h => { h with stopUnconfirmed := true })
      | .failed => (some .backend, s.tick)
      | .stopped forced => finishStop env inner s.tick forced terminalDrain

/-- A stop, over the stop that its drains execute. -/
def stopStep (env : Env) (inner : StopWith) (s : Supervisor) (override : Option TransitionCause)
    (terminalDrain : Option Bool) : Outcome :=
  match s.disk.state with
  | none => (some .notFound, s)
  | some state =>
      if state = .stopping ∧ s.running.any Supervised.stopUnconfirmed then s.retryStop env
      else
        match nextState state .stop with
        | none => (some .invalidTransition, s)
        | some new =>
            andThen ((s.reacquire env).ensureLogDir env) fun s =>
              andThen (s.transition env state new (override.getD (.command "stop"))) fun s =>
                stopLadder env inner (drainTerminal env inner (s.resumeBeforeStop state))
                  terminalDrain

/-- A stop with a bound on how deep stops may nest.  At the bound it is refused, as the gate
refuses it. -/
def stopInner (env : Env) : ℕ → Supervisor → Option TransitionCause → Option Bool → Outcome
  | 0, s, _, _ => (some .invalidTransition, s)
  | depth + 1, s, override, terminalDrain =>
      stopStep env (fun cause s => stopInner env depth s (some cause) none) s override terminalDrain

/-- How deep stops nest: a stop, and the one its drains may fire. -/
def stopDepth : ℕ := 2

/-- The operator's stop. -/
def stop (s : Supervisor) (env : Env) : Outcome := stopInner env stopDepth s none none

/-- A stop that something else than the operator asked for. -/
def stopWithCause (env : Env) : StopWith := fun cause s => stopInner env stopDepth s (some cause) none

/-- Pause by the adapter's command, wait for it to be idle, and stop. -/
def drain (s : Supervisor) (env : Env) : Outcome :=
  match s.disk.state with
  | none => (some .notFound, s)
  | some state =>
      if state ≠ .running then (some .drainRefused, s)
      else if !(s.now env).preflight then (some .adapterUnresolved, s.tick)
      else if !s.disk.config.pauseCommand && !s.disk.config.idleFile then
        stopInner env stopDepth s.tick (some (.command "drain")) (some true)
      else if s.disk.config.pauseCommand then
        match (s.now env).command with
        | .failed => (some .pauseCommandFailed, s.tick)
        | .overran => stopInner env stopDepth s.tick (some (.command "drain")) (some false)
        | .exited0 =>
            andThen (s.tick.ensureLogDir env) fun s =>
              andThen (s.transition env .running .paused .pauseCooperative) fun s =>
                let s := s.onHandle fun h => { h with cooperativelyPaused := true }
                stopInner env stopDepth s.tick (some (.command "drain"))
                  (some (!s.disk.config.idleFile || (s.now env).drainCompleted))
      else
        stopInner env stopDepth s.tick (some (.command "drain")) (some (s.now env).drainCompleted)

/-! ### What a stop does -/

variable {s : Supervisor} {env : Env} {inner : StopWith} {override : Option TransitionCause}
  {terminalDrain : Option Bool}

/-- A stop finds the process again only when none is held and the record names one. -/
theorem reacquire_entered (s : Supervisor) (env : Env) :
    s.control.Entered env.faults (s.reacquire env).control := by
  unfold reacquire
  split
  · rename_i r hrun hrec
    split
    · rename_i hfound
      refine .reacquired _ _ (by simp [control, hrun]) ?_ ⟨s.clock, hfound⟩
      simp only [liveRecord, Option.filter_eq_some_iff, decide_eq_true_eq] at hrec
      simp [control, hrec.1, hrec.2]
    · exact .same
  · exact .same

theorem control_resumeBeforeStop (prior : LifecycleState) :
    (s.resumeBeforeStop prior).control = s.control := by
  unfold resumeBeforeStop
  split <;> rfl

theorem held_of_running {h : Supervised} (hrun : s.running = some h) : s.control.held ≠ none := by
  simp [control, hrun]

/-- The record and the row are settled after the handle is dropped. -/
theorem settle_end (env : Env) {f : Faults} (cause : TransitionCause)
    (hf : env.faults.write → f.write) (hrow : s.disk.state ≠ none) :
    Control.StopEnd f s.control
      (andThen (s.dropHandle.settleSpawnRecord env) fun s =>
        s.transition env .stopping .stopped cause).2.control := by
  rcases settleSpawnRecord_cases s.dropHandle env with ⟨s₁, h, hc⟩ | ⟨hw, err, s₁, h, hc⟩
  · rw [h, andThen_none]
    rw [control_dropHandle] at hc
    have hrow₁ : s₁.disk.state ≠ none := by
      rw [← state_control, hc]
      exact hrow
    rcases transition_cases hrow₁ env .stopping .stopped cause with
      ⟨s₂, h₂, hc₂⟩ | ⟨hw, err, s₂, h₂, hc₂⟩
    · rw [h₂, hc₂, hc]
      exact .ended cause
    · rw [h₂, hc₂, hc]
      exact .unrecorded (hf hw)
  · rw [h, andThen_some, hc, control_dropHandle]
    exact .unsettled (hf hw)

theorem finishStop_end (hinner : Stops env.faults inner) (hq : s.control.Quiet) (forced : Bool) :
    Control.StopEnd env.faults s.control
      (finishStop env inner s forced terminalDrain).2.control := by
  have hwf : s.control.Wf := hq.wf
  have hdrain : (drainSelfReportedFor env inner s .terminal).control = s.control :=
    (drainSelfReportedFor_governed env hinner .terminal s hwf).quiet hq
  have hrow : (drainSelfReportedFor env inner s .terminal).disk.state ≠ none := by
    have hst : (drainSelfReportedFor env inner s .terminal).control.state = some .stopping := by
      rw [hdrain, hq.1]
    rw [show (drainSelfReportedFor env inner s .terminal).disk.state = some .stopping from hst]
    simp
  have h := settle_end env (f := env.faults) (stopCause forced terminalDrain) id hrow
  rwa [hdrain] at h

theorem stopLadder_end (hinner : Stops env.faults inner) (hq : s.control.Quiet) :
    Control.StopEnd env.faults s.control (stopLadder env inner s terminalDrain).2.control := by
  unfold stopLadder
  cases hrun : s.running with
  | none => exact finishStop_end hinner hq false
  | some h =>
      dsimp only
      cases hstop : (s.now env).stop with
      | unconfirmed =>
          have hc : (s.tick.onHandle fun h => { h with stopUnconfirmed := true }).control =
              s.control.stuck := control_onHandle (s := s.tick) fun _ => rfl
          dsimp only
          rw [hc]
          exact .unconfirmed ⟨s.clock, hstop⟩ (held_of_running hrun)
      | failed => exact .failed ⟨s.clock, hstop⟩ (held_of_running hrun)
      | stopped forced => exact finishStop_end (s := s.tick) hinner hq forced

/-- Once the row is stopping a stop drains, which does nothing more, and ends. -/
theorem stopping_end (hinner : Stops env.faults inner) (hq : s.control.Quiet)
    (state : LifecycleState) :
    Control.StopEnd env.faults s.control
      (stopLadder env inner (drainTerminal env inner (s.resumeBeforeStop state))
        terminalDrain).2.control := by
  have hdrain : (drainTerminal env inner (s.resumeBeforeStop state)).control = s.control := by
    rw [← control_resumeBeforeStop (s := s) state] at hq ⊢
    exact (drainTerminal_governed env hinner _ hq.wf).quiet hq
  rw [← hdrain]
  exact stopLadder_end hinner (hdrain ▸ hq)

/-- **All a stop can do**, if the stop its drains execute is one. -/
theorem stopStep_move (hinner : Stops env.faults inner) (hwf : s.control.Wf) :
    Control.StopMove env.faults s.control
      (stopStep env inner s override terminalDrain).2.control := by
  unfold stopStep
  cases hrow : s.disk.state with
  | none => exact .kept
  | some state =>
      dsimp only
      split
      · rename_i hstuck
        obtain ⟨rfl, hflag⟩ := hstuck
        obtain ⟨h, hrun, hset⟩ := (Option.any_eq_true _ _).1 hflag
        unfold retryStop
        cases (s.now env).poll with
        | errored => exact .kept
        | alive => exact .kept
        | exited code =>
            have hreg : s.tick.disk.state ≠ none := by
              rw [disk_tick, hrow]
              simp
            exact .healed h.held _ hrow (by simp [control, hrun]) hset
              (settle_end env (s := s.tick) (f := env.faults.settling) _ id hreg)
      · cases hnext : nextState state .stop with
        | none => exact .kept
        | some new =>
            obtain ⟨hprior, rfl⟩ := nextState_stop_eq hnext
            have hentered := reacquire_entered s env
            have hrow' : (s.reacquire env).disk.state = some state := by
              rw [← state_control, hentered.state, state_control, hrow]
            refine control_recorded (P := Control.StopMove env.faults s.control) hrow' ?_ ?_
            · exact .refused _ state hrow hprior hentered
            · intro s' hc
              have hq : s'.control.Quiet := by
                rw [hc]
                exact (hwf.entered hentered).quiet (hentered.state.trans hrow) hprior _
              refine .stopped _ state (override.getD (.command "stop")) _ hrow hprior hentered ?_
              rw [← hc]
              exact stopping_end hinner hq state

theorem stopInner_move (env : Env) (depth : ℕ) :
    ∀ (s : Supervisor) override terminalDrain, s.control.Wf → Control.StopMove env.faults s.control
      (stopInner env depth s override terminalDrain).2.control := by
  induction depth with
  | zero => exact fun _ _ _ _ => .kept
  | succ depth ih => exact fun s _ _ hwf => stopStep_move (fun cause s hwf => ih s _ _ hwf) hwf

/-- The stop a breach executes does what a stop may do. -/
theorem stopWithCause_stops (env : Env) : Stops env.faults (stopWithCause env) :=
  fun _ s hwf => stopInner_move env stopDepth s _ _ hwf

theorem stop_move (env : Env) (hwf : s.control.Wf) :
    Control.StopMove env.faults s.control (s.stop env).2.control :=
  stopInner_move env stopDepth s _ _ hwf

/-- A drain stops a running instance without pausing it first. -/
def drainsDirectly (s : Supervisor) (env : Env) : Bool :=
  (s.now env).preflight && (!s.disk.config.pauseCommand || (s.now env).command = .overran)

/-- A drain pauses a running instance by the adapter's command first. -/
def drainsByCommand (s : Supervisor) (env : Env) : Bool :=
  (s.now env).preflight && s.disk.config.pauseCommand && (s.now env).command = .exited0

/-- All a drain can do: nothing, a stop, or a stop after a cooperative pause. -/
inductive DrainMove (f : Faults) (direct command : Bool) (c c' : Control) : Prop where
  | kept (h : c' = c)
  | direct (hdirect : direct = true) (hrow : c.state = some .running)
      (h : Control.StopMove f c c')
  | cooperated (hcommand : command = true) (hrow : c.state = some .running)
      (h : Control.StopMove f ((c.moved .running .paused .pauseCooperative).marked true) c')

theorem drain_move (env : Env) (hwf : s.control.Wf) :
    DrainMove env.faults (s.drainsDirectly env) (s.drainsByCommand env) s.control
      (s.drain env).2.control := by
  unfold drain
  cases hrow : s.disk.state with
  | none => exact .kept rfl
  | some state =>
      dsimp only
      split
      · exact .kept rfl
      rename_i hrunning
      obtain rfl : state = .running := not_not.1 hrunning
      split
      · exact .kept rfl
      rename_i hpre
      rw [Bool.not_eq_true, Bool.not_eq_false'] at hpre
      have hstop : ∀ override terminalDrain, s.drainsDirectly env = true →
          DrainMove env.faults (s.drainsDirectly env) (s.drainsByCommand env) s.control
            (stopInner env stopDepth s.tick override terminalDrain).2.control :=
        fun _ _ hdirect => .direct hdirect hrow (stopInner_move env stopDepth s.tick _ _ hwf)
      split
      · rename_i hnone
        refine hstop _ _ ?_
        simp only [Bool.and_eq_true, Bool.not_eq_true'] at hnone
        simp [drainsDirectly, hpre, hnone.1]
      split
      · rename_i hdeclared
        cases hcommand : (s.now env).command with
        | failed => exact .kept rfl
        | overran => exact hstop _ _ (by simp [drainsDirectly, hpre, hcommand])
        | exited0 =>
            -- a command that exits 0 has paused the instance before it is stopped
            have hby : s.drainsByCommand env = true := by
              simp [drainsByCommand, hpre, hcommand, hdeclared]
            refine control_recorded (s := s.tick)
              (P := DrainMove env.faults (s.drainsDirectly env) (s.drainsByCommand env) s.control)
              hrow (.kept rfl) ?_
            intro s' hc
            have hmark : (s'.onHandle fun h => { h with cooperativelyPaused := true }).control =
                (s.control.moved .running .paused .pauseCooperative).marked true := by
              rw [control_onHandle (g := fun h => { h with cooperativelyPaused := true })
                fun _ => rfl, hc]
              rfl
            have hwf' : (s'.onHandle fun h => { h with cooperativelyPaused := true }).control.Wf := by
              rw [hmark]
              exact hwf.suspend (.cooperated rfl rfl hrow)
            have h := stopInner_move env stopDepth
              (s'.onHandle fun h => { h with cooperativelyPaused := true }).tick
              (some (.command "drain"))
              (some (!s'.disk.config.idleFile ||
                ((s'.onHandle fun h => { h with cooperativelyPaused := true }).now env
                  ).drainCompleted)) hwf'
            rw [control_tick, hmark] at h
            exact .cooperated hby hrow h
      · rename_i hnone
        exact hstop _ _ (by simp [drainsDirectly, hpre, hnone])

/-! ### A stop that succeeds -/

@[simp] theorem running_commit (disk : Disk) : (s.commit disk).running = s.running := rfl

theorem running_job (s : Supervisor) (env : Env) (disk : Disk) :
    (s.job env disk).2.running = s.running := by
  unfold job
  cases (s.now env).write <;> rfl

theorem running_settleSpawnRecord (s : Supervisor) (env : Env) :
    (s.settleSpawnRecord env).2.running = s.running := running_job s env _

theorem running_transition (prior new : LifecycleState) (cause : TransitionCause) :
    (s.transition env prior new cause).2.running = s.running := by
  unfold transition transitionWith
  cases s.disk.state with
  | none => rfl
  | some _ =>
      dsimp only
      generalize hdisk : ({ s.disk with
          state := some new
          events := s.disk.events ++ [⟨prior, new, cause⟩]
          books := s.projected (s.now env).time new .terminal cause } : Disk) = disk
      have h := running_job s env disk
      rcases hj : s.job env disk with ⟨_ | err, s'⟩
      · rw [hj] at h
        exact h
      · rw [hj] at h
        exact h

/-- What follows a dropped handle does not hold it again. -/
theorem running_settle (cause : TransitionCause) :
    (andThen (s.dropHandle.settleSpawnRecord env) fun s =>
      s.transition env .stopping .stopped cause).2.running = none := by
  have h := running_settleSpawnRecord s.dropHandle env
  rcases hs : s.dropHandle.settleSpawnRecord env with ⟨_ | err, s'⟩
  · rw [hs] at h
    rw [andThen_none, running_transition, h]
    rfl
  · rw [hs] at h
    rw [andThen_some, h]
    rfl

theorem running_finishStop (forced : Bool) :
    (finishStop env inner s forced terminalDrain).2.running = none := running_settle _

theorem running_of_stopLadder {s' : Supervisor}
    (h : stopLadder env inner s terminalDrain = (none, s')) : s'.running = none := by
  unfold stopLadder at h
  cases hrun : s.running with
  | none =>
      simp only [hrun] at h
      rw [← running_finishStop (s := s) false, h]
  | some x =>
      simp only [hrun] at h
      cases hstop : (s.now env).stop with
      | unconfirmed => simp [hstop] at h
      | failed => simp [hstop] at h
      | stopped forced =>
          simp only [hstop] at h
          rw [← running_finishStop (s := s.tick) forced, h]

theorem of_andThen_none {r : Outcome} {f : Supervisor → Outcome} {s' : Supervisor}
    (h : andThen r f = (none, s')) : ∃ m, r = (none, m) ∧ f m = (none, s') := by
  obtain ⟨_ | err, m⟩ := r
  · exact ⟨m, rfl, h⟩
  · simp at h

/-- A stop that succeeds has dropped the handle. -/
theorem running_of_stopInner (env : Env) (depth : ℕ) (s s' : Supervisor)
    (override : Option TransitionCause) (terminalDrain : Option Bool)
    (h : stopInner env depth s override terminalDrain = (none, s')) : s'.running = none := by
  cases depth with
  | zero => simp [stopInner] at h
  | succ depth =>
      unfold stopInner stopStep at h
      cases hrow : s.disk.state with
      | none => simp [hrow] at h
      | some state =>
          simp only [hrow] at h
          split at h
          · unfold retryStop at h
            cases hpoll : (s.now env).poll with
            | errored => simp [hpoll] at h
            | alive => simp [hpoll] at h
            | exited code =>
                simp only [hpoll] at h
                rw [← running_settle (s := s.tick) .stopForced, h]
          · split at h
            · simp at h
            · obtain ⟨s₁, -, h⟩ := of_andThen_none h
              obtain ⟨s₂, -, h⟩ := of_andThen_none h
              exact running_of_stopLadder h

/-! ### The nesting of stops -/

section Depth

variable {inner' : StopWith}

/-- Two stops that act alike while a stop is under way. -/
def Alike (inner inner' : StopWith) : Prop :=
  ∀ cause s, s.control.Quiet → inner cause s = inner' cause s

theorem applyEvaluation_alike {f : Faults} (hstop : Stops f inner) (h : Alike inner inner')
    (hq : s.control.Quiet) (evaluation : Evaluation) :
    applyEvaluation env inner s evaluation = applyEvaluation env inner' s evaluation := by
  unfold applyEvaluation
  generalize evaluation.breaches = breaches
  induction breaches generalizing s with
  | nil => rfl
  | cons breach breaches ih =>
      have hone : applyBreach env inner s breach = applyBreach env inner' s breach := by
        unfold applyBreach enforce
        split
        · cases breach.decision.action with
          | stop => exact congrArg Prod.snd (h _ s hq)
          | pause => rfl
          | warn => rfl
          | block => rfl
        · rfl
      have hkeep : (applyBreach env inner s breach).control = s.control := by
        refine Enforced.quiet (f := f) ?_ hq
        unfold applyBreach
        split
        · exact enforce_governed env hstop _ s hq.wf
        · exact .refl
      rw [List.foldl_cons, List.foldl_cons, ← hone]
      exact ih (hkeep ▸ hq)

theorem ingestUsage_alike {f : Faults} (hstop : Stops f inner) (h : Alike inner inner')
    (hq : s.control.Quiet) (runId : RunId) (source : String) (parsed : ParsedUsage) :
    ingestUsage env inner s runId source parsed = ingestUsage env inner' s runId source parsed := by
  unfold ingestUsage
  split
  · split
    · rfl
    · rfl
    · rw [applyEvaluation_alike hstop h]
      rw [control_raiseFence]
      exact hq
  · rfl

theorem ingestAll_alike {f : Faults} (hstop : Stops f inner) (h : Alike inner inner')
    (hq : s.control.Quiet) (runId : RunId) (source : String) (batch : List ParsedUsage) :
    ingestAll env inner runId source batch s = ingestAll env inner' runId source batch s := by
  induction batch generalizing s with
  | nil => rfl
  | cons parsed rest ih =>
      have hkeep := (ingestUsage_governed env hstop runId source parsed s
        hq.wf).quiet hq
      dsimp only at hkeep
      rw [ingestAll, ingestAll, ← ingestUsage_alike hstop h hq]
      rcases hr : ingestUsage env inner s runId source parsed with ⟨_ | err, s'⟩
      · rw [hr] at hkeep
        exact ih (hkeep ▸ hq)
      · rfl

theorem drainChannelUsageFor_alike {f : Faults} (hstop : Stops f inner) (h : Alike inner inner')
    (hq : s.control.Quiet) (mode : DrainMode) (channel : UsageChannel) :
    drainChannelUsageFor env inner s mode channel =
      drainChannelUsageFor env inner' s mode channel := by
  unfold drainChannelUsageFor
  cases s.running with
  | none => rfl
  | some x =>
      dsimp only
      rw [ingestAll_alike (s := (s.growLog env channel).tick) hstop h hq]

theorem drainSelfReportedFor_alike {f : Faults} (hstop : Stops f inner) (h : Alike inner inner')
    (hq : s.control.Quiet) (mode : DrainMode) :
    drainSelfReportedFor env inner s mode = drainSelfReportedFor env inner' s mode := by
  have hkeep := (drainChannelUsageFor_governed env hstop mode .stdout s
    hq.wf).quiet hq
  unfold drainSelfReportedFor
  dsimp only
  rw [← drainChannelUsageFor_alike hstop h hq,
    ← drainChannelUsageFor_alike (s := drainChannelUsageFor env inner s mode .stdout) hstop h
      (hkeep ▸ hq)]

theorem drainTerminal_alike {f : Faults} (hstop : Stops f inner) (h : Alike inner inner')
    (hq : s.control.Quiet) : drainTerminal env inner s = drainTerminal env inner' s := by
  have hkeep := (drainSelfReportedFor_governed env hstop .terminal s
    hq.wf).quiet hq
  unfold drainTerminal
  rw [← drainSelfReportedFor_alike hstop h hq]
  unfold drainObservedFor
  split
  · rfl
  split
  · dsimp only
    rw [ingestAll_alike hstop h]
    rw [control_tick, control_takeQueue, hkeep]
    exact hq
  · rfl

theorem stopLadder_alike {f : Faults} (hstop : Stops f inner) (h : Alike inner inner')
    (hq : s.control.Quiet) :
    stopLadder env inner s terminalDrain = stopLadder env inner' s terminalDrain := by
  unfold stopLadder finishStop
  rw [drainSelfReportedFor_alike hstop h hq,
    drainSelfReportedFor_alike (s := s.tick) hstop h hq]

/-- The stop that the drains of a stop execute matters only while the stop is under way. -/
theorem stopStep_alike {f : Faults} (hstop : Stops f inner) (h : Alike inner inner')
    (hwf : s.control.Wf) :
    stopStep env inner s override terminalDrain = stopStep env inner' s override terminalDrain := by
  unfold stopStep
  cases hrow : s.disk.state with
  | none => rfl
  | some state =>
      dsimp only
      split
      · rfl
      cases hnext : nextState state .stop with
      | none => rfl
      | some new =>
          obtain ⟨hprior, rfl⟩ := nextState_stop_eq hnext
          have hentered := reacquire_entered s env
          refine andThen_congr fun s₁ h₁ => andThen_congr fun s₂ h₂ => ?_
          have hc₁ : s₁.control = (s.reacquire env).control := by
            have hl := ensureLogDir_control (s.reacquire env) env
            rwa [h₁] at hl
          have hrow₁ : s₁.disk.state = some state := by
            rw [← state_control, hc₁, hentered.state, state_control, hrow]
          have hq : s₂.control.Quiet := by
            rcases transition_cases (s := s₁) (by rw [hrow₁]; simp) env state .stopping
                (override.getD (.command "stop")) with ⟨s', h', hc'⟩ | ⟨-, err, s', h', -⟩
            · rw [h'] at h₂
              rw [← (Prod.mk.inj h₂).2, hc', hc₁]
              exact (hwf.entered hentered).quiet (hentered.state.trans hrow) hprior _
            · rw [h'] at h₂
              exact absurd (Prod.mk.inj h₂).1 (by simp)
          rw [← control_resumeBeforeStop (s := s₂) state] at hq
          have hdrain := (drainTerminal_governed env hstop _ hq.wf).quiet hq
          rw [← drainTerminal_alike hstop h hq]
          exact stopLadder_alike hstop h (hdrain ▸ hq)

/-- **A deeper nesting gives the same stop**: the stop of a drain within a stop is refused. -/
theorem stopInner_depth (hwf : s.control.Wf) (depth : ℕ) :
    stopInner env (depth + 1) s override terminalDrain =
      stopInner env 1 s override terminalDrain := by
  refine stopStep_alike (f := env.faults) (fun cause s hwf => stopInner_move env depth s _ _ hwf)
    (fun cause s hq => ?_) hwf
  cases depth with
  | zero => rfl
  | succ depth =>
      obtain ⟨hrow, hflag⟩ := hq
      have hrow' : s.disk.state = some .stopping := hrow
      have hunflagged : s.running.any Supervised.stopUnconfirmed = false := by
        rw [Option.any_eq_false]
        intro x hx
        simpa [Supervised.held] using hflag x.held (by simp [control, hx])
      rw [stopInner, stopInner, stopStep, hrow']
      simp [hunflagged, nextState]

end Depth

end Supervisor

end Hekma
