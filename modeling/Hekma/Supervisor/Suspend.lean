/-
**Pause and resume** (`domain/supervisor/lifecycle.rs`).

A pause is taken by the adapter's own command, if it declares one, or by suspending the process.
A breach always suspends.  A resume runs the adapter's command only when the pause in force was
taken by it, as the history tells.  The row is written first and the process is signalled after.

Main definitions:

* `Supervisor.suspendOrResume` — the code of both verbs;
* `Supervisor.pause`, `Supervisor.resume`, `Supervisor.pauseWithCause` — its callers.

Main results:

* `SuspendMove`, `suspendOrResume_move` — all an operation can do to the control state.
-/

import Hekma.Supervisor.Control

set_option relaxedAutoImplicit false
set_option autoImplicit false

namespace Hekma

namespace Supervisor

/-- The command of the adapter for a verb is declared. -/
def declaredCommand (s : Supervisor) : LifecycleCommand → Bool
  | .pause => s.disk.config.pauseCommand
  | .resume => s.disk.config.resumeCommand
  | _ => false

/-- The command of the adapter may be used: always for a pause, and for a resume when the pause
was taken by it. -/
def cooperativeDirection (s : Supervisor) : LifecycleCommand → Bool
  | .pause => true
  | .resume => classifyPauseKind s.disk.events = .cooperative
  | _ => false

/-- The row is running again.  The mark of a cooperative pause is cleared. -/
def noteCommittedResumeEdge (s : Supervisor) : Supervisor :=
  s.onHandle fun h => { h with cooperativelyPaused := false }

/-- After the transition: a pause leaves the handle alone, a resume clears its mark. -/
def noteResume (s : Supervisor) (command : LifecycleCommand) : Supervisor :=
  if command = .resume then s.noteCommittedResumeEdge else s

/-- Signal the held process.  Nothing is held, nothing is signalled. -/
def signalBackend (s : Supervisor) (env : Env) : Outcome :=
  match s.running with
  | none => (none, s)
  | some _ => if (s.now env).signal then (none, s.tick) else (some .backend, s.tick)

/-- Run the declared command of the adapter, and record what it did.  A command that fails or
overruns changes nothing. -/
def runCooperativeLifecycleCommand (s : Supervisor) (env : Env) (command : LifecycleCommand)
    (prior new : LifecycleState) : Outcome :=
  match (s.now env).command with
  | .exited0 =>
      andThen (s.tick.ensureLogDir env) fun s =>
        andThen (s.transition env prior new
            (if command = .pause then .pauseCooperative else .resumeCooperative)) fun s =>
          if command = .pause then
            (none, s.onHandle fun h => { h with cooperativelyPaused := true })
          else (none, s.noteCommittedResumeEdge)
  | _ => (some .pauseCommandFailed, s.tick)

/-- The cause of a guaranteed pause or resume.  Without a handle nothing was signalled, and the
cause says so, whatever was asked for. -/
def guaranteedCause (s : Supervisor) (command : LifecycleCommand)
    (override : Option TransitionCause) : TransitionCause :=
  match s.running, override with
  | some _, some cause => cause
  | some _, none => .command (if command = .pause then "pause" else "resume")
  | none, _ => if command = .pause then .pauseBestEffort else .resumeBestEffort

/-- Pause or resume.  A cause that overrides the verb's own takes the process itself. -/
def suspendOrResume (s : Supervisor) (env : Env) (command : LifecycleCommand)
    (override : Option TransitionCause) : Outcome :=
  match s.disk.state with
  | none => (some .notFound, s)
  | some state =>
      match nextState state command with
      | none => (some .invalidTransition, s)
      | some new =>
          if override.isNone && s.cooperativeDirection command && !(s.now env).preflight then
            (some .adapterUnresolved, s.tick)
          else if override.isNone && s.cooperativeDirection command &&
              s.declaredCommand command then
            s.tick.runCooperativeLifecycleCommand env command state new
          else
            match s.disk.config.pauseLevel with
            | .unsupported =>
                (some (if command = .resume then .resumeUnsupported else .capabilityUnsupported), s)
            | .guaranteed =>
                andThen (s.ensureLogDir env) fun s =>
                  andThen (s.transition env state new (s.guaranteedCause command override))
                    fun s => (s.noteResume command).signalBackend env
            | .bestEffort =>
                andThen (s.ensureLogDir env) fun s =>
                  andThen (s.transition env state new (override.getD
                      (if command = .pause then .pauseBestEffort else .resumeBestEffort)))
                    fun s => (none, s.noteResume command)

/-- The operator's pause. -/
def pause (s : Supervisor) (env : Env) : Outcome := s.suspendOrResume env .pause none

/-- A pause that something else than the operator asked for. -/
def pauseWithCause (s : Supervisor) (env : Env) (cause : TransitionCause) : Outcome :=
  s.suspendOrResume env .pause (some cause)

/-- The operator's resume. -/
def resume (s : Supervisor) (env : Env) : Outcome := s.suspendOrResume env .resume none

end Supervisor

/-! ### What a pause or a resume does -/

/-- All a pause or a resume can do to the control state: nothing; a pause of a running instance,
by suspending it or, if nothing overrides the verb, by its command; a resume of a paused one. -/
inductive SuspendMove (command : LifecycleCommand) (verb : Bool) (c : Control) : Control → Prop where
  | kept : SuspendMove command verb c c
  | suspended (cause : TransitionCause) (hcmd : command = .pause) (hrow : c.state = some .running)
      (hcause : cause ≠ .pauseCooperative) :
      SuspendMove command verb c (c.moved .running .paused cause)
  | cooperated (hcmd : command = .pause) (hverb : verb = true) (hrow : c.state = some .running) :
      SuspendMove command verb c ((c.moved .running .paused .pauseCooperative).marked true)
  | resumed (cause : TransitionCause) (hcmd : command = .resume) (hrow : c.state = some .paused) :
      SuspendMove command verb c ((c.moved .paused .running cause).marked false)

namespace Control

variable {c c' : Control} {command : LifecycleCommand} {verb : Bool}

theorem Wf.suspend (h : c.Wf) (hm : SuspendMove command verb c c') : c'.Wf := by
  cases hm with
  | kept => exact h
  | suspended cause _ hrow _ => exact wf_of_unflagged (h.unflagged (.inl hrow))
  | cooperated _ _ hrow =>
      refine wf_of_unflagged fun x hx => ?_
      obtain ⟨y, hy, rfl⟩ := Option.map_eq_some_iff.1 hx
      exact h.unflagged (.inl hrow) y hy
  | resumed cause _ hrow =>
      refine wf_of_unflagged fun x hx => ?_
      obtain ⟨y, hy, rfl⟩ := Option.map_eq_some_iff.1 hx
      exact h.unflagged (.inr hrow) y hy

theorem frame_suspend (hm : SuspendMove command verb c c') : c.Frame c' := by
  cases hm with
  | kept => exact .refl c
  | suspended cause _ _ _ => exact frame_moved c .running .paused cause
  | cooperated _ _ _ => exact ⟨List.prefix_append _ _, rfl, rfl⟩
  | resumed cause _ _ => exact ⟨List.prefix_append _ _, rfl, rfl⟩

theorem Idle.suspend (h : c.Idle) (hm : SuspendMove command verb c c') : c' = c := by
  obtain ⟨hrunning, hpaused, -⟩ := h
  cases hm with
  | kept => rfl
  | suspended _ _ _ _ => contradiction
  | cooperated _ _ _ => contradiction
  | resumed _ _ _ => contradiction

/-- A stop that is under way is not paused. -/
theorem Quiet.pause (h : c.Quiet) (hm : SuspendMove .pause verb c c') : c' = c := by
  have hrow := h.1
  cases hm with
  | kept => rfl
  | suspended _ _ hrow' _ => rw [hrow] at hrow'; simp at hrow'
  | cooperated _ _ hrow' => rw [hrow] at hrow'; simp at hrow'
  | resumed _ hcmd _ => exact absurd hcmd (by simp)

end Control

namespace Supervisor

variable {s : Supervisor} {env : Env} {state new : LifecycleState} {command : LifecycleCommand}
  {override : Option TransitionCause}

theorem control_noteCommittedResumeEdge :
    s.noteCommittedResumeEdge.control = s.control.marked false :=
  control_onHandle fun _ => rfl

theorem control_signalBackend : (s.signalBackend env).2.control = s.control := by
  unfold signalBackend
  cases s.running with
  | none => rfl
  | some h => dsimp only; split <;> rfl

/-- The verbs the gate lets through here: a pause of a running row or a resume of a paused one. -/
theorem nextState_suspend (hcmd : command = .pause ∨ command = .resume)
    (h : nextState state command = some new) :
    (command = .pause ∧ state = .running ∧ new = .paused) ∨
      (command = .resume ∧ state = .paused ∧ new = .running) := by
  rcases hcmd with rfl | rfl <;> cases state <;> simp_all [nextState]

theorem state_control : s.control.state = s.disk.state := rfl

/-- A move recorded in the log directory that the check of it found. -/
theorem control_recorded {f : Supervisor → Outcome} {cause : Supervisor → TransitionCause}
    {P : Control → Prop} (hrow : s.disk.state = some state) (hkept : P s.control)
    (hmoved : ∀ s' : Supervisor, s'.control = s.control.moved state new (cause s.tick) →
      P (f s').2.control) :
    P (andThen (s.ensureLogDir env) fun s => andThen (s.transition env state new (cause s)) f
      ).2.control := by
  rcases ensureLogDir_cases s env with h | h
  · rw [h, andThen_none]
    have hreg : s.tick.disk.state ≠ none := by
      rw [disk_tick, hrow]
      exact Option.some_ne_none _
    rcases transition_cases hreg env state new (cause s.tick) with
      ⟨s', h', hc⟩ | ⟨-, err, s', h', hc⟩
    · rw [h', andThen_none]
      exact hmoved s' hc
    · rw [h', andThen_some]
      exact hc ▸ hkept
  · rw [h, andThen_some]
    exact hkept

theorem runCooperative_move (hcmd : command = .pause ∨ command = .resume)
    (hrow : s.disk.state = some state) (hnext : nextState state command = some new) :
    SuspendMove command true s.control
      (s.runCooperativeLifecycleCommand env command state new).2.control := by
  unfold runCooperativeLifecycleCommand
  cases (s.now env).command with
  | failed => exact .kept
  | overran => exact .kept
  | exited0 =>
      refine control_recorded (s := s.tick) (P := SuspendMove command _ s.control) hrow .kept ?_
      intro s' hc
      rcases nextState_suspend hcmd hnext with ⟨rfl, rfl, rfl⟩ | ⟨rfl, rfl, rfl⟩
      · rw [if_pos rfl]
        have hmark : (s'.onHandle fun h => { h with cooperativelyPaused := true }).control =
            s'.control.marked true := control_onHandle fun _ => rfl
        rw [hmark, hc]
        exact .cooperated rfl rfl hrow
      · rw [if_neg (by decide), control_noteCommittedResumeEdge, hc]
        exact .resumed _ rfl hrow

/-- After the transition, a pause that suspends and a resume that signals. -/
theorem noteResume_move {s' : Supervisor} {cause : TransitionCause} {verb : Bool}
    (hcmd : command = .pause ∨ command = .resume) (hrow : s.disk.state = some state)
    (hnext : nextState state command = some new) (hcause : command = .pause →
      cause ≠ .pauseCooperative) (hc : s'.control = s.control.moved state new cause) :
    SuspendMove command verb s.control (s'.noteResume command).control := by
  unfold noteResume
  rcases nextState_suspend hcmd hnext with ⟨rfl, rfl, rfl⟩ | ⟨rfl, rfl, rfl⟩
  · rw [if_neg (by decide), hc]
    exact .suspended _ rfl hrow (hcause rfl)
  · rw [if_pos rfl, control_noteCommittedResumeEdge, hc]
    exact .resumed _ rfl hrow

/-- **All a pause or a resume can do.** -/
theorem suspendOrResume_move (hcmd : command = .pause ∨ command = .resume)
    (hover : override ≠ some .pauseCooperative) :
    SuspendMove command override.isNone s.control
      (s.suspendOrResume env command override).2.control := by
  unfold suspendOrResume
  cases hrow : s.disk.state with
  | none => exact .kept
  | some state =>
      dsimp only
      cases hnext : nextState state command with
      | none => exact .kept
      | some new =>
          dsimp only
          split
          · exact .kept
          split
          · rename_i hverb
            simp only [Bool.and_eq_true] at hverb
            rw [hverb.1.1]
            exact runCooperative_move (s := s.tick) hcmd hrow hnext
          cases s.disk.config.pauseLevel with
          | unsupported => exact .kept
          | guaranteed =>
              refine control_recorded (P := SuspendMove command _ s.control) hrow .kept ?_
              intro s' hc
              rw [control_signalBackend]
              refine noteResume_move hcmd hrow hnext ?_ hc
              rintro rfl
              unfold guaranteedCause
              cases s.tick.running <;> cases override <;> simp_all
          | bestEffort =>
              refine control_recorded (P := SuspendMove command _ s.control) hrow .kept ?_
              intro s' hc
              refine noteResume_move hcmd hrow hnext ?_ hc
              rintro rfl
              cases override <;> simp_all

/-- All the operator's pause can do. -/
theorem pause_move (env : Env) :
    SuspendMove .pause true s.control (s.pause env).2.control := by
  have hverb : (none : Option TransitionCause) ≠ some .pauseCooperative := by simp
  exact suspendOrResume_move (.inl rfl) hverb

/-- All the operator's resume can do. -/
theorem resume_move (env : Env) :
    SuspendMove .resume true s.control (s.resume env).2.control := by
  have hverb : (none : Option TransitionCause) ≠ some .pauseCooperative := by simp
  exact suspendOrResume_move (.inr rfl) hverb

end Supervisor

end Hekma
