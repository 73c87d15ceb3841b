/-
**The control state** of the supervisor.

What the lifecycle of an instance depends on, without its books, its logs and the moments of its
environment: the row and its history, the spawn record, the flags of the held handle and the
planned restarts.  Operations are described by what they do to it.

Main definitions:

* `Held`, `Control`, `Supervisor.control` — the projection;
* `Control.moved`, `Control.settled`, `Control.dropped` — what the writes of the code do;
* `Faults`, `Env.faults` — what may go wrong around an operation;
* `Control.StopMove` — all a stop may do.

Main results:

* `Control.Quiet.stop` — a stop that is under way is not stopped again;
* `transitionWith_cases`, `settleSpawnRecord_cases` — a write happens whole or not at all.
-/

import Hekma.Supervisor.State

set_option relaxedAutoImplicit false
set_option autoImplicit false

namespace Hekma

/-- What the lifecycle reads off a held handle. -/
structure Held where
  runId : RunId
  launchGeneration : ℕ
  stopUnconfirmed : Bool
  adopted : Bool
  cooperativelyPaused : Bool
  deriving DecidableEq, Repr

/-- The control state of an instance. -/
structure Control where
  state : Option LifecycleState
  events : List TransitionEvent
  record : Option SpawnRecord
  held : Option Held
  pendingRestarts : List RestartPlan
  plans : List RestartPlan
  episode : ℕ
  deriving DecidableEq, Repr

/-- The flags of a handle. -/
def Supervised.held (h : Supervised) : Held :=
  ⟨h.runId, h.launchGeneration, h.stopUnconfirmed, h.adopted, h.cooperativelyPaused⟩

/-- The control state of the supervisor. -/
def Supervisor.control (s : Supervisor) : Control where
  state := s.disk.state
  events := s.disk.events
  record := s.disk.record
  held := s.running.map Supervised.held
  pendingRestarts := s.pendingRestarts
  plans := s.plans
  episode := s.episode

namespace Control

/-- The row has moved. -/
def moved (c : Control) (prior new : LifecycleState) (cause : TransitionCause) : Control :=
  { c with
    state := some new
    events := c.events ++ [⟨prior, new, cause⟩]
    episode := c.episode + 1 }

/-- The spawn record is settled. -/
def settled (c : Control) : Control := { c with record := Supervisor.settledRecord c.record }

/-- The handle is dropped. -/
def dropped (c : Control) : Control := { c with held := none }

/-- The flags of the handle have changed. -/
def onHeld (c : Control) (f : Held → Held) : Control := { c with held := c.held.map f }

/-- The mark of a cooperative pause is set or cleared. -/
def marked (c : Control) (mark : Bool) : Control :=
  c.onHeld fun h => { h with cooperativelyPaused := mark }

/-- A stop could not be confirmed. -/
def stuck (c : Control) : Control := c.onHeld fun h => { h with stopUnconfirmed := true }

/-- The spawn record was written. -/
def withRecord (c : Control) (record : Option SpawnRecord) : Control := { c with record := record }

/-- A restart is queued for the next supervision pass. -/
def queued (c : Control) (plan : Option ℕ) : Control :=
  { c with
    pendingRestarts := c.pendingRestarts ++ plan.toList.map fun attempt => ⟨attempt, c.episode⟩ }

/-- A restart is planned. -/
def planned (c : Control) (plan : Option ℕ) : Control :=
  { c with plans := c.plans ++ plan.toList.map fun attempt => ⟨attempt, c.episode⟩ }

/-- The queued restarts are planned. -/
def collected (c : Control) : Control :=
  { c with
    plans := c.plans ++ c.pendingRestarts
    pendingRestarts := [] }

/-- The engine is gone. -/
def ended (c : Control) : Control := { c with held := none, pendingRestarts := [], plans := [] }

/-- A handle is held. -/
def holding (c : Control) (h : Held) : Control := { c with held := some h }

variable {c : Control} {prior new : LifecycleState} {cause : TransitionCause} {mark : Bool}

@[simp] theorem state_moved : (c.moved prior new cause).state = some new := rfl
@[simp] theorem events_moved :
    (c.moved prior new cause).events = c.events ++ [⟨prior, new, cause⟩] := rfl
@[simp] theorem record_moved : (c.moved prior new cause).record = c.record := rfl
@[simp] theorem held_moved : (c.moved prior new cause).held = c.held := rfl
@[simp] theorem pendingRestarts_moved :
    (c.moved prior new cause).pendingRestarts = c.pendingRestarts := rfl
@[simp] theorem plans_moved : (c.moved prior new cause).plans = c.plans := rfl
@[simp] theorem episode_moved : (c.moved prior new cause).episode = c.episode + 1 := rfl

@[simp] theorem state_settled : c.settled.state = c.state := rfl
@[simp] theorem events_settled : c.settled.events = c.events := rfl
@[simp] theorem held_settled : c.settled.held = c.held := rfl
@[simp] theorem pendingRestarts_settled : c.settled.pendingRestarts = c.pendingRestarts := rfl
@[simp] theorem plans_settled : c.settled.plans = c.plans := rfl
@[simp] theorem episode_settled : c.settled.episode = c.episode := rfl

@[simp] theorem state_dropped : c.dropped.state = c.state := rfl
@[simp] theorem events_dropped : c.dropped.events = c.events := rfl
@[simp] theorem record_dropped : c.dropped.record = c.record := rfl
@[simp] theorem held_dropped : c.dropped.held = none := rfl
@[simp] theorem pendingRestarts_dropped : c.dropped.pendingRestarts = c.pendingRestarts := rfl
@[simp] theorem plans_dropped : c.dropped.plans = c.plans := rfl
@[simp] theorem episode_dropped : c.dropped.episode = c.episode := rfl

@[simp] theorem state_onHeld (f : Held → Held) : (c.onHeld f).state = c.state := rfl
@[simp] theorem events_onHeld (f : Held → Held) : (c.onHeld f).events = c.events := rfl
@[simp] theorem record_onHeld (f : Held → Held) : (c.onHeld f).record = c.record := rfl
@[simp] theorem held_onHeld (f : Held → Held) : (c.onHeld f).held = c.held.map f := rfl
@[simp] theorem pendingRestarts_onHeld (f : Held → Held) :
    (c.onHeld f).pendingRestarts = c.pendingRestarts := rfl
@[simp] theorem plans_onHeld (f : Held → Held) : (c.onHeld f).plans = c.plans := rfl
@[simp] theorem episode_onHeld (f : Held → Held) : (c.onHeld f).episode = c.episode := rfl

end Control

/-! ### Faults -/

/-- What may go wrong around an operation, and whether a process that is not held may be found. -/
structure Faults where
  write : Prop
  stopUnconfirmed : Prop
  stopFailed : Prop
  found : Prop

/-- The faults an environment shows. -/
def Env.faults (env : Env) : Faults where
  write := ∃ n, (env n).write ≠ .committed
  stopUnconfirmed := ∃ n, (env n).stop = .unconfirmed
  stopFailed := ∃ n, (env n).stop = .failed
  found := ∃ n, (env n).adopt = .held

/-- The faults that are left when the process has ended. -/
def Faults.settling (f : Faults) : Faults := ⟨f.write, False, False, False⟩

/-! ### What a stop does -/

namespace Control

/-- The handle of a process that was found again for a stop.  Its mark is derived from the
history. -/
def reacquired (c : Control) (runId : RunId) (generation : ℕ) : Control :=
  { c with
    held := some ⟨runId, generation, false, true, classifyPauseKind c.events = .cooperative⟩ }

@[simp] theorem state_reacquired (c : Control) (runId : RunId) (generation : ℕ) :
    (c.reacquired runId generation).state = c.state := rfl
@[simp] theorem events_reacquired (c : Control) (runId : RunId) (generation : ℕ) :
    (c.reacquired runId generation).events = c.events := rfl
@[simp] theorem record_reacquired (c : Control) (runId : RunId) (generation : ℕ) :
    (c.reacquired runId generation).record = c.record := rfl
@[simp] theorem pendingRestarts_reacquired (c : Control) (runId : RunId) (generation : ℕ) :
    (c.reacquired runId generation).pendingRestarts = c.pendingRestarts := rfl
@[simp] theorem plans_reacquired (c : Control) (runId : RunId) (generation : ℕ) :
    (c.reacquired runId generation).plans = c.plans := rfl
@[simp] theorem episode_reacquired (c : Control) (runId : RunId) (generation : ℕ) :
    (c.reacquired runId generation).episode = c.episode := rfl

/-- A stop enters with the handle as it is, or with one it has found again. -/
inductive Entered (f : Faults) (c : Control) : Control → Prop where
  | same : Entered f c c
  | reacquired (runId : RunId) (generation : ℕ) (hheld : c.held = none)
      (hrecord : c.record.any fun r => r.pid ≠ 0) (hf : f.found) :
      Entered f c (c.reacquired runId generation)

/-- How a stop ends once its row is stopping. -/
inductive StopEnd (f : Faults) (b : Control) : Control → Prop where
  | unconfirmed (hf : f.stopUnconfirmed) (hheld : b.held ≠ none) : StopEnd f b b.stuck
  | failed (hf : f.stopFailed) (hheld : b.held ≠ none) : StopEnd f b b
  | unsettled (hf : f.write) : StopEnd f b b.dropped
  | unrecorded (hf : f.write) : StopEnd f b b.dropped.settled
  | ended (cause : TransitionCause) :
      StopEnd f b (b.dropped.settled.moved .stopping .stopped cause)

/-- All a stop can do: nothing, or a stop of a running or paused row, or the end of an earlier
stop whose process has meanwhile died. -/
inductive StopMove (f : Faults) (c : Control) : Control → Prop where
  | kept : StopMove f c c
  | refused (e : Control) (prior : LifecycleState) (hrow : c.state = some prior)
      (hprior : prior = .running ∨ prior = .paused) (he : c.Entered f e) : StopMove f c e
  | stopped (e : Control) (prior : LifecycleState) (cause : TransitionCause) (c' : Control)
      (hrow : c.state = some prior) (hprior : prior = .running ∨ prior = .paused)
      (he : c.Entered f e) (hend : StopEnd f (e.moved prior .stopping cause) c') : StopMove f c c'
  | healed (h : Held) (c' : Control) (hrow : c.state = some .stopping) (hheld : c.held = some h)
      (hflag : h.stopUnconfirmed = true) (hend : StopEnd f.settling c c') :
      StopMove f c c'

/-- The row of a stop that could not be confirmed is neither running nor paused. -/
def Wf (c : Control) : Prop :=
  ∀ h, c.held = some h → h.stopUnconfirmed = true →
    c.state ≠ some .running ∧ c.state ≠ some .paused

/-- A stop is under way: the gate refuses every verb. -/
def Quiet (c : Control) : Prop :=
  c.state = some .stopping ∧ ∀ h, c.held = some h → h.stopUnconfirmed = false

variable {f : Faults} {c c' e b : Control} {prior : LifecycleState}

theorem Entered.state (h : c.Entered f e) : e.state = c.state := by
  cases h <;> rfl

theorem Entered.events (h : c.Entered f e) : e.events = c.events := by
  cases h <;> rfl

theorem wf_of_free (hheld : c.held = none) : c.Wf := by
  intro x hx
  rw [hheld] at hx
  exact absurd hx (by simp)

theorem wf_of_row (hrow : c.state ≠ some .running ∧ c.state ≠ some .paused) : c.Wf :=
  fun _ _ _ => hrow

theorem wf_of_unflagged (h : ∀ x, c.held = some x → x.stopUnconfirmed = false) : c.Wf := by
  intro x hx hflag
  rw [h x hx] at hflag
  exact absurd hflag (by simp)

theorem Quiet.wf (h : c.Quiet) : c.Wf := wf_of_unflagged h.2

/-- A row that is running or paused has no unconfirmed stop. -/
theorem Wf.unflagged (h : c.Wf) (hrow : c.state = some .running ∨ c.state = some .paused)
    (x : Held) (hx : c.held = some x) : x.stopUnconfirmed = false := by
  cases hflag : x.stopUnconfirmed with
  | false => rfl
  | true =>
      obtain ⟨hr, hp⟩ := h x hx hflag
      rcases hrow with hrow | hrow
      · exact absurd hrow hr
      · exact absurd hrow hp

theorem Wf.entered (h : c.Wf) (he : c.Entered f e) : e.Wf := by
  cases he with
  | same => exact h
  | reacquired runId generation hheld hrecord _ =>
      refine wf_of_unflagged fun x hx => ?_
      obtain rfl := Option.some.inj hx
      rfl

theorem Wf.quiet (h : c.Wf) (hrow : c.state = some prior)
    (hprior : prior = .running ∨ prior = .paused) (cause : TransitionCause) :
    (c.moved prior .stopping cause).Quiet := by
  refine ⟨rfl, fun x hx => h.unflagged ?_ x hx⟩
  rw [hrow]
  rcases hprior with rfl | rfl <;> simp

theorem Quiet.stop (h : c.Quiet) (hm : StopMove f c c') : c' = c := by
  obtain ⟨hrow, hflag⟩ := h
  cases hm with
  | kept => rfl
  | refused _ prior hrow' hprior he =>
      rw [hrow] at hrow'
      rcases hprior with rfl | rfl <;> simp at hrow'
  | stopped _ prior cause _ hrow' hprior he hend =>
      rw [hrow] at hrow'
      rcases hprior with rfl | rfl <;> simp at hrow'
  | healed x _ _ hheld hx hend =>
      rw [hflag x hheld] at hx
      exact absurd hx (by simp)

/-- What every Breach Action leaves alone: the history so far, and the planned restarts. -/
structure Frame (c c' : Control) : Prop where
  events : c.events <+: c'.events
  plans : c'.plans = c.plans
  pendingRestarts : c'.pendingRestarts = c.pendingRestarts

theorem Frame.refl (c : Control) : c.Frame c := ⟨List.prefix_rfl, rfl, rfl⟩

theorem Frame.trans {c c' c'' : Control} (h : c.Frame c') (h' : c'.Frame c'') : c.Frame c'' where
  events := h.events.trans h'.events
  plans := h'.plans.trans h.plans
  pendingRestarts := h'.pendingRestarts.trans h.pendingRestarts

theorem frame_moved (c : Control) (prior new : LifecycleState) (cause : TransitionCause) :
    c.Frame (c.moved prior new cause) := ⟨List.prefix_append _ _, rfl, rfl⟩

theorem Entered.frame (h : c.Entered f e) : c.Frame e := by
  cases h <;> exact ⟨List.prefix_rfl, rfl, rfl⟩

theorem StopEnd.frame (h : StopEnd f b c') : b.Frame c' := by
  cases h with
  | unconfirmed _ _ => exact ⟨List.prefix_rfl, rfl, rfl⟩
  | failed _ _ => exact .refl _
  | unsettled _ => exact ⟨List.prefix_rfl, rfl, rfl⟩
  | unrecorded _ => exact ⟨List.prefix_rfl, rfl, rfl⟩
  | ended cause => exact ⟨List.prefix_append _ _, rfl, rfl⟩

theorem StopMove.frame (hm : StopMove f c c') : c.Frame c' := by
  cases hm with
  | kept => exact .refl c
  | refused _ _ _ _ he => exact he.frame
  | stopped e prior cause _ _ _ he hend =>
      exact he.frame.trans ((frame_moved e prior .stopping cause).trans hend.frame)
  | healed _ _ _ _ _ hend => exact hend.frame

/-- A row without a process that could be stopped. -/
def Idle (c : Control) : Prop :=
  c.state ≠ some .running ∧ c.state ≠ some .paused ∧ c.state ≠ some .stopping

theorem Idle.stop (h : c.Idle) (hm : StopMove f c c') : c' = c := by
  obtain ⟨hrunning, hpaused, hstopping⟩ := h
  cases hm with
  | kept => rfl
  | refused _ prior hrow hprior _ => rcases hprior with rfl | rfl <;> contradiction
  | stopped _ prior _ _ hrow hprior _ _ => rcases hprior with rfl | rfl <;> contradiction
  | healed _ _ hrow _ _ _ => contradiction

theorem Wf.stopEnd (hrow : b.state = some .stopping) (h : StopEnd f b c') : c'.Wf := by
  have hrow' : b.state ≠ some .running ∧ b.state ≠ some .paused := by
    rw [hrow]
    simp
  cases h with
  | unconfirmed _ _ => exact wf_of_row hrow'
  | failed _ _ => exact wf_of_row hrow'
  | unsettled _ => exact wf_of_free rfl
  | unrecorded _ => exact wf_of_free rfl
  | ended _ => exact wf_of_free rfl

theorem Wf.stop (h : c.Wf) (hm : StopMove f c c') : c'.Wf := by
  cases hm with
  | kept => exact h
  | refused _ _ _ _ he => exact h.entered he
  | stopped e prior cause _ _ _ _ hend => exact Wf.stopEnd rfl hend
  | healed _ _ hrow _ _ hend => exact Wf.stopEnd hrow hend

end Control

/-! ### What the primitives do -/

namespace Supervisor

variable {s : Supervisor} {env : Env}

@[simp] theorem control_tick : s.tick.control = s.control := rfl

@[simp] theorem control_dropHandle : s.dropHandle.control = s.control.dropped := rfl

/-- A change of the handle that keeps its flags keeps the control state. -/
theorem control_onHandle {f : Supervised → Supervised} {g : Held → Held}
    (h : ∀ x, (f x).held = g x.held) : (s.onHandle f).control = s.control.onHeld g := by
  unfold control onHandle Control.onHeld
  cases s.running with
  | none => rfl
  | some x => simp [h]

theorem control_onHandle_of_keep {f : Supervised → Supervised} (h : ∀ x, (f x).held = x.held) :
    (s.onHandle f).control = s.control := by
  rw [control_onHandle (g := fun x => x) h]
  unfold Control.onHeld
  simp

@[simp] theorem control_now_books (books : Books) :
    ({ s with disk := { s.disk with books := books } } : Supervisor).control = s.control := rfl

@[simp] theorem running_tick : s.tick.running = s.running := rfl
@[simp] theorem disk_tick : s.tick.disk = s.disk := rfl
@[simp] theorem name_tick : s.tick.name = s.name := rfl

/-- A store job commits its write, or leaves everything as it was. -/
theorem job_cases (s : Supervisor) (env : Env) (disk : Disk) :
    (s.job env disk = (none, s.tick.commit disk)) ∨
      env.faults.write ∧ ∃ err, s.job env disk = (some err, s.tick) := by
  have hfault : (env s.clock).write ≠ .committed → env.faults.write := fun h => ⟨s.clock, h⟩
  unfold job now
  cases h : (env s.clock).write with
  | committed => exact .inl rfl
  | busy => exact .inr ⟨hfault (by simp [h]), _, rfl⟩
  | refused => exact .inr ⟨hfault (by simp [h]), _, rfl⟩

/-- A transition of a registered instance is recorded, or nothing is. -/
theorem transitionWith_cases (hrow : s.disk.state ≠ none) (env : Env) (fate : Runs.RunFate)
    (prior new : LifecycleState) (cause : TransitionCause) :
    (∃ s', s.transitionWith env fate prior new cause = (none, s') ∧
        s'.control = s.control.moved prior new cause) ∨
      env.faults.write ∧ ∃ err s', s.transitionWith env fate prior new cause = (some err, s') ∧
        s'.control = s.control := by
  obtain ⟨state, hstate⟩ := Option.ne_none_iff_exists'.1 hrow
  unfold transitionWith
  simp only [hstate]
  rcases job_cases s env { s.disk with
      state := some new
      events := s.disk.events ++ [⟨prior, new, cause⟩]
      books := s.projected (s.now env).time new fate cause } with h | ⟨hw, err, h⟩
  · rw [h]
    exact .inl ⟨_, rfl, rfl⟩
  · rw [h]
    exact .inr ⟨hw, _, _, rfl, rfl⟩

theorem transition_cases (hrow : s.disk.state ≠ none) (env : Env) (prior new : LifecycleState)
    (cause : TransitionCause) :
    (∃ s', s.transition env prior new cause = (none, s') ∧
        s'.control = s.control.moved prior new cause) ∨
      env.faults.write ∧ ∃ err s', s.transition env prior new cause = (some err, s') ∧
        s'.control = s.control :=
  transitionWith_cases hrow env .terminal prior new cause

/-- The spawn record is settled, or nothing is. -/
theorem settleSpawnRecord_cases (s : Supervisor) (env : Env) :
    (∃ s', s.settleSpawnRecord env = (none, s') ∧ s'.control = s.control.settled) ∨
      env.faults.write ∧ ∃ err s', s.settleSpawnRecord env = (some err, s') ∧
        s'.control = s.control := by
  unfold settleSpawnRecord
  rcases job_cases s env (s.settledDisk (s.now env).time) with h | ⟨hw, err, h⟩
  · rw [h]
    refine .inl ⟨_, rfl, ?_⟩
    unfold settledDisk
    cases hr : s.disk.record <;>
      simp [control, commit, tick, Control.settled, settledRecord, hr]
  · rw [h]
    exact .inr ⟨hw, _, _, rfl, rfl⟩

/-- A write of the record touches the record only. -/
theorem writeRecord_control (s : Supervisor) (env : Env) (record : Option SpawnRecord) :
    ∃ r, (s.writeRecord env record).2.control = s.control.withRecord r := by
  unfold writeRecord
  rcases job_cases s env { s.disk with record := record } with h | ⟨-, err, h⟩
  · rw [h]
    exact ⟨record, rfl⟩
  · rw [h]
    exact ⟨s.disk.record, rfl⟩

theorem setRestartPolicy_control (s : Supervisor) (env : Env) (policy : RestartPolicy) :
    ∃ r, (s.setRestartPolicy env policy).2.control = s.control.withRecord r := by
  unfold setRestartPolicy
  split
  · exact ⟨s.disk.record, rfl⟩
  · exact writeRecord_control s env _

/-- Settling writes the record only. -/
theorem settleSpawnRecord_control (s : Supervisor) (env : Env) :
    ∃ r, (s.settleSpawnRecord env).2.control = s.control.withRecord r := by
  rcases settleSpawnRecord_cases s env with ⟨s', h, hc⟩ | ⟨-, err, s', h, hc⟩
  · rw [h]
    exact ⟨_, hc⟩
  · rw [h]
    exact ⟨s.disk.record, hc⟩

/-- The directory of the logs is there, or the operation ends where it is. -/
theorem ensureLogDir_cases (s : Supervisor) (env : Env) :
    s.ensureLogDir env = (none, s.tick) ∨ s.ensureLogDir env = (some .log, s.tick) := by
  unfold ensureLogDir
  split <;> simp

theorem ensureLogDir_control (s : Supervisor) (env : Env) :
    (s.ensureLogDir env).2.control = s.control := by
  rcases ensureLogDir_cases s env with h | h <;> rw [h, control_tick]

end Supervisor

end Hekma
