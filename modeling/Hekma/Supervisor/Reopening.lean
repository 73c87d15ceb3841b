/-
**Rows after a crash** (`domain/supervisor/reaper.rs`, `domain/supervisor/lifecycle.rs`,
`domain/transition.rs`).

An engine may die after any of its writes.  The next one adopts the process of the record, or
reconciles a running or paused row whose process is gone.  It does nothing for the two transient
rows: what the dead engine left `starting` or `stopping` stays so, and the gate refuses a start and
a stop from both.  A running row whose record was settled before the row was written is passed over
as well, though it can still be stopped.

Main definitions:

* `Supervisor.acceptsStart`, `Supervisor.acceptsStop` — the gates of the two verbs;
* `Supervisor.Served` — a live row has a handle, and a stop is accepted;
* `Supervisor.Recoverable` — what a crash must leave for the next engine to serve it;
* `Control.Wedged` — a transient row whose stop is not known to be unconfirmed.

Main results:

* `start_refused_iff`, `stop_refused_iff` — the gates are what refuses the verbs;
* `reopened_iff` — the next engine serves the row, and accepts a verb, exactly after these crashes;
* `wedged_states` — a wedged row stays as it is until it is removed.
-/

import Hekma.Supervisor.FleetView

set_option relaxedAutoImplicit false
set_option autoImplicit false

namespace Hekma

open Governance

/-! ### The gates -/

/-- An operation that the gate did not refuse. -/
structure Ungated (r : Outcome) : Prop where
  ne : r.1 ≠ some .invalidTransition

theorem Ungated.andThen {r : Outcome} {g : Supervisor → Outcome} (h : Ungated r)
    (h' : ∀ s, Ungated (g s)) : Ungated (andThen r g) := by
  obtain ⟨_ | err, s⟩ := r
  · exact h' s
  · exact h

namespace Supervisor

variable {s t : Supervisor} {env : Env}

/-- The gate of a start. -/
def acceptsStart (s : Supervisor) : Bool :=
  s.disk.state.any fun state => (nextState state .start).isSome

/-- The gate of a stop.  A stop that could not be confirmed may be asked for again. -/
def acceptsStop (s : Supervisor) : Bool :=
  (s.disk.state.any fun state => (nextState state .stop).isSome) ||
    s.disk.state = some .stopping && s.running.any Supervised.stopUnconfirmed

theorem ungated_job (disk : Disk) : Ungated (s.job env disk) := by
  unfold job
  split <;> exact ⟨by simp⟩

theorem ungated_ensureLogDir : Ungated (s.ensureLogDir env) := by
  unfold ensureLogDir
  split <;> exact ⟨by simp⟩

theorem ungated_transition (prior new : LifecycleState) (cause : TransitionCause) :
    Ungated (s.transition env prior new cause) := by
  unfold transition transitionWith
  split
  · exact ⟨by simp⟩
  · exact (ungated_job _).andThen fun s => ⟨by simp⟩

theorem ungated_failLaunch (cause : TransitionCause) : Ungated (s.failLaunch env cause) :=
  (ungated_transition ..).andThen fun s => ⟨by simp⟩

theorem ungated_becomeRunning (restart : Option ℕ) (kept : Option RunId) (runId : RunId)
    (fence : List LatchKey) (cursor : UsageChannel → ℕ) :
    Ungated (s.becomeRunning env restart kept runId fence cursor) :=
  (ungated_transition ..).andThen fun s => ⟨by simp⟩

theorem ungated_launch (restart : Option ℕ) (detach : Bool) (kept : Option RunId)
    (fence : List LatchKey) : Ungated (s.launch env restart detach kept fence) := by
  unfold launch
  dsimp only
  split
  · exact ungated_failLaunch _
  split
  · exact ungated_failLaunch _
  rename_i m _
  split
  · exact ungated_failLaunch _
  generalize (if m.disk.config.isAcp = true then m.setAcpSession env else m) = ready
  split
  · split
    · exact ungated_failLaunch _
    · exact ⟨by simp [exitDuringProbe]⟩
    · exact ungated_becomeRunning ..
  · exact ungated_becomeRunning ..

/-- **A start is refused by the gate exactly when the gate does not accept it.** -/
theorem start_refused_iff (env : Env) (detach : Bool) (hrow : s.disk.state ≠ none) :
    (s.start env detach).1 = some .invalidTransition ↔ s.acceptsStart = false := by
  obtain ⟨state, hstate⟩ := Option.ne_none_iff_exists'.1 hrow
  unfold start startInner acceptsStart
  cases hnext : nextState state .start with
  | none => simp [hstate, hnext]
  | some new =>
      simp only [hstate, hnext, Option.any_some, Option.isSome_some, Bool.true_eq_false, iff_false]
      split
      · simp
      split
      · simp
      split
      · simp
      · exact (ungated_ensureLogDir.andThen fun s =>
          (ungated_transition ..).andThen fun s => ungated_launch ..).ne

theorem ungated_finishStop (inner : StopWith) (forced : Bool) (terminalDrain : Option Bool) :
    Ungated (finishStop env inner s forced terminalDrain) :=
  (ungated_job _).andThen fun _ => ungated_transition ..

theorem ungated_stopLadder (inner : StopWith) (terminalDrain : Option Bool) :
    Ungated (stopLadder env inner s terminalDrain) := by
  unfold stopLadder
  split
  · exact ungated_finishStop ..
  split
  · exact ⟨by simp⟩
  · exact ⟨by simp⟩
  · exact ungated_finishStop ..

theorem ungated_retryStop : Ungated (s.retryStop env) := by
  unfold retryStop
  split
  · exact ⟨by simp⟩
  · exact ⟨by simp⟩
  · exact (ungated_job _).andThen fun _ => ungated_transition ..

/-- **A stop is refused by the gate exactly when the gate does not accept it.** -/
theorem stop_refused_iff (env : Env) (hrow : s.disk.state ≠ none) :
    (s.stop env).1 = some .invalidTransition ↔ s.acceptsStop = false := by
  obtain ⟨state, hstate⟩ := Option.ne_none_iff_exists'.1 hrow
  unfold stop stopDepth stopInner stopStep acceptsStop
  simp only [hstate, Option.any_some, Option.some.injEq]
  split
  · rename_i hstuck
    have hungated : Ungated (s.retryStop env) := ungated_retryStop
    simpa [hstuck] using hungated.ne
  · rename_i hstuck
    have hretry : (decide (state = .stopping) && s.running.any Supervised.stopUnconfirmed) =
        false := by simpa using hstuck
    cases hnext : nextState state .stop with
    | none => simp [hretry]
    | some new =>
        simp only [Option.isSome_some, Bool.true_or, Bool.true_eq_false, iff_false]
        exact (ungated_ensureLogDir.andThen fun s =>
          (ungated_transition ..).andThen fun s => ungated_stopLadder ..).ne

end Supervisor

/-! ### Wedged rows -/

namespace Control

/-- The row of a launch or of a stop that nobody will end.  A stop may only be asked for again where
it could not be confirmed. -/
def Wedged (c : Control) : Prop :=
  (c.state = some .starting ∨ c.state = some .stopping) ∧
    ∀ h, c.held = some h → h.stopUnconfirmed = false

variable {f : Faults} {c c' m : Control}

theorem Wedged.settled (h : c.Wedged) : c.state ≠ some .running ∧ c.state ≠ some .paused := by
  rcases h.1 with hrow | hrow <;> simp [hrow]

/-- A Breach Action leaves a row alone that is neither running nor paused. -/
theorem enforced_of_settled (hrow : c.state ≠ some .running ∧ c.state ≠ some .paused)
    (hflag : ∀ h, c.held = some h → h.stopUnconfirmed = false) (he : Enforced f c c') : c' = c := by
  by_cases hstopping : c.state = some .stopping
  · exact he.quiet ⟨hstopping, hflag⟩
  · exact he.idle ⟨hrow.1, hrow.2, hstopping⟩

theorem Wedged.enforced (h : c.Wedged) (he : Enforced f c c') : c' = c :=
  enforced_of_settled h.settled h.2 he

theorem Wedged.stop (h : c.Wedged) (hm : StopMove f c c') : c' = c :=
  h.enforced (.single (.stop hm))

theorem Wedged.suspend {command : LifecycleCommand} {verb : Bool} (h : c.Wedged)
    (hm : SuspendMove command verb c c') : c' = c := by
  obtain ⟨hrunning, hpaused⟩ := h.settled
  cases hm with
  | kept => rfl
  | suspended _ _ hrow _ => exact absurd hrow hrunning
  | cooperated _ _ hrow => exact absurd hrow hrunning
  | resumed _ _ hrow => exact absurd hrow hpaused

theorem Wedged.start (h : c.Wedged) (hm : StartMove f c c') : c' = c := by
  cases hm with
  | kept => rfl
  | started prior cause _ hrow hprior _ =>
      have hfree := (nextState_start prior).1 hprior
      obtain ⟨hstate | hstate, -⟩ := h <;> rw [hstate] at hrow <;>
        obtain rfl := Option.some.inj hrow <;> simp at hfree

theorem Wedged.dropped (h : c.Wedged) : c.dropped.Wedged :=
  ⟨h.1, fun x hx => absurd hx (by simp)⟩

theorem Wedged.process (h : c.Wedged) (hm : ProcessMove f c c') : c'.Wedged := by
  cases hm with
  | alive m he => exact h.enforced he ▸ h
  | ended m m' _ he _ he' hend =>
      obtain rfl := h.enforced he
      have hlast : m'.Wedged := Wedged.enforced (c := m.collected) h he' ▸ h
      cases hend with
      | gone _ _ => exact hlast.dropped
      | healed x _ _ hheld hflag _ =>
          rw [hlast.2 x hheld] at hflag
          exact absurd hflag (by simp)
      | clean r cause hrow => exact absurd hrow hlast.settled.1
      | failed prior r cause plan hrow hprior =>
          rcases hprior with rfl | rfl
          · exact absurd hrow hlast.settled.1
          · exact absurd hrow hlast.settled.2
      | unrecorded _ r => exact hlast.dropped

theorem Wedged.liveness (h : c.Wedged) (hm : LivenessMove f c c') : c'.Wedged := by
  cases hm with
  | kept => exact h
  | expired m _ _ hrow _ _ => exact absurd hrow h.settled.1

/-- What an adoption does to a row that is neither running nor paused. -/
theorem adopt_of_settled (hheld : c.held = none)
    (hrow : c.state ≠ some .running ∧ c.state ≠ some .paused) (hm : AdoptMove f c c') :
    c'.state = c.state ∧ ∀ h, c'.held = some h → h.stopUnconfirmed = false := by
  have hfree : ∀ x, c.held = some x → x.stopUnconfirmed = false := by
    intro x hx
    rw [hheld] at hx
    exact absurd hx (by simp)
  cases hm with
  | kept => exact ⟨rfl, hfree⟩
  | adopted runId generation _ _ _ he =>
      have hflag : ∀ x, (c.holding ⟨runId, generation, false, true,
          classifyPauseKind c.events = .cooperative⟩).held = some x →
          x.stopUnconfirmed = false := by
        intro x hx
        obtain rfl := Option.some.inj hx
        rfl
      obtain rfl := enforced_of_settled (c := c.holding _) hrow hflag he
      exact ⟨rfl, hflag⟩
  | failed prior r hstate hprior =>
      rcases hprior with rfl | rfl
      · exact absurd hstate hrow.1
      · exact absurd hstate hrow.2
  | recorded r _ => exact ⟨rfl, hfree⟩

theorem Wedged.release (h : c.Wedged) (hm : ReleaseMove c c') : c'.Wedged := by
  cases hm with
  | kept => exact h
  | recorded r => exact h
  | failed r hrow => exact absurd hrow h.settled.2
  | resumed hrow => exact absurd hrow h.settled.2

/-- **Nothing but its removal moves a wedged row.** -/
theorem Wedged.step {op : EngineOp} (h : c.Wedged) (hop : op.removes = false)
    (hm : StepMove f c op c') : c'.Wedged := by
  cases hm with
  | register config _ hm =>
      cases hm with
      | kept => exact h
      | registered hrow =>
          rcases h.1 with hstate | hstate <;> rw [hrow] at hstate <;> simp at hstate
  | remove force _ hm => exact absurd hop (by simp [EngineOp.removes])
  | configure config => exact h
  | others books => exact h
  | start detach _ hm => exact h.start hm ▸ h
  | stop _ hm => exact h.stop hm ▸ h
  | pause _ hm => exact h.suspend hm ▸ h
  | resume _ hm => exact h.suspend hm ▸ h
  | drain _ _ _ hm =>
      cases hm with
      | kept hkept => exact hkept ▸ h
      | direct _ hrow _ => exact absurd hrow h.settled.1
      | cooperated _ hrow _ => exact absurd hrow h.settled.1
  | poll m _ hm hm' => exact (h.process hm).liveness hm'
  | unplanned i hplan => exact h
  | fire i plan _ hplan hm =>
      have hkept : c' = { c with plans := c.plans.eraseIdx i } :=
        Wedged.start (c := { c with plans := c.plans.eraseIdx i }) h hm
      exact hkept ▸ h
  | close m hm =>
      have hm' := h.release hm
      exact ⟨hm'.1, fun x hx => absurd hx (by simp [Control.ended])⟩
  | openEngine _ hm =>
      obtain ⟨hstate, hflag⟩ := adopt_of_settled (c := c.ended) rfl h.settled hm
      refine ⟨?_, hflag⟩
      rw [hstate]
      exact h.1

end Control

/-! ### What the next engine does -/

namespace Supervisor

variable {s t : Supervisor} {env : Env}

/-- A row that says there is a process has a handle, and a stop is accepted. -/
def Served (s : Supervisor) : Prop := s.control.Live → s.running.isSome ∧ s.acceptsStop

/-- A start or a stop of a registered instance is accepted. -/
def Usable (s : Supervisor) : Prop := s.disk.state ≠ none → s.acceptsStart ∨ s.acceptsStop

/-- A launch or a stop was cut short. -/
def CutShort (s : Supervisor) : Prop :=
  s.disk.state = some .starting ∨ s.disk.state = some .stopping

/-- What a crash must leave behind: no launch and no stop that was cut short, and for a running or a
paused row the record of its process, which no other engine owns. -/
def Recoverable (s : Supervisor) (opening : Env) : Prop :=
  s.control.Live →
    ¬ s.CutShort ∧ s.liveRecord.isSome ∧ (opening 0).ownedElsewhere = false

/-- An opening whose own writes commit, and that enforces no stop that ends in an error. -/
structure Calm (opening : Env) : Prop where
  committed : ∀ n, (opening n).write = .committed
  stops : ∀ n, (opening n).stop ≠ .failed

theorem Calm.write (h : Calm env) : ¬ env.faults.write := fun ⟨n, hn⟩ => hn (h.committed n)

theorem Calm.stopFailed (h : Calm env) : ¬ env.faults.stopFailed := fun ⟨n, hn⟩ => h.stops n hn

/-- The gate of a stop, on the control state. -/
theorem acceptsStop_iff : s.acceptsStop ↔
    (s.control.state = some .running ∨ s.control.state = some .paused) ∨
      s.control.state = some .stopping ∧ s.control.held.any Held.stopUnconfirmed := by
  have hflag : s.control.held.any Held.stopUnconfirmed =
      s.running.any Supervised.stopUnconfirmed := by
    cases hrun : s.running <;> simp [control, hrun, Supervised.held]
  rw [hflag, state_control]
  cases hrow : s.disk.state with
  | none => simp [acceptsStop, hrow]
  | some state => cases state <;> simp [acceptsStop, hrow, nextState]

/-- The gate of a start, on the control state. -/
theorem acceptsStart_iff : s.acceptsStart ↔ s.control.state = some .registered ∨
    s.control.state = some .stopped ∨ s.control.state = some .failed := by
  rw [state_control]
  cases hrow : s.disk.state with
  | none => simp [acceptsStart, hrow]
  | some state => simpa [acceptsStart, hrow] using nextState_start state

/-- A row without a process is served, and a start of it is accepted. -/
theorem served_of_dead (h : ¬ s.control.Live) : s.Served ∧ s.Usable := by
  refine ⟨fun hlive => absurd hlive h, fun hrow => .inl (acceptsStart_iff.2 ?_)⟩
  simp only [Control.Live, not_or] at h
  obtain ⟨state, hstate⟩ := Option.ne_none_iff_exists'.1 hrow
  rw [state_control, hstate] at h ⊢
  cases state <;> simp_all

/-- A handle that agrees with its row is served, and a stop is accepted. -/
theorem served_of_agrees (h : s.control.Agrees) (hheld : s.control.held ≠ none) :
    s.Served ∧ s.Usable := by
  have hrun : s.running.isSome := by simpa [control, Option.isSome_iff_ne_none] using hheld
  have hstop : s.acceptsStop := by
    obtain ⟨x, hx⟩ := Option.ne_none_iff_exists'.1 hheld
    rw [acceptsStop_iff, hx]
    rcases h x hx with hrow | hrow | ⟨hrow, hflag⟩
    · exact .inl (.inl hrow)
    · exact .inl (.inr hrow)
    · exact .inr ⟨hrow, by simpa using hflag⟩
  exact ⟨fun _ => ⟨hrun, hstop⟩, fun _ => .inr hstop⟩

/-- A running or a paused row without a handle is not served, though a stop is accepted. -/
theorem unserved_of_free (hfree : s.running = none)
    (hrow : s.control.state = some .running ∨ s.control.state = some .paused) :
    ¬ s.Served ∧ s.Usable := by
  refine ⟨fun hserved => ?_, fun _ => .inr (acceptsStop_iff.2 (.inl hrow))⟩
  have hlive : s.control.Live := by rcases hrow with hrow | hrow <;> simp [Control.Live, hrow]
  have hheld := (hserved hlive).1
  rw [hfree] at hheld
  exact absurd hheld (by simp)

/-- A wedged row accepts neither a start nor a stop. -/
theorem refused_of_wedged (h : s.control.Wedged) :
    s.acceptsStart = false ∧ s.acceptsStop = false := by
  have hflag : s.control.held.any Held.stopUnconfirmed = false := by
    cases hheld : s.control.held with
    | none => rfl
    | some x => exact h.2 x hheld
  constructor
  · rw [← Bool.not_eq_true, acceptsStart_iff]
    rcases h.1 with hrow | hrow <;> simp [hrow]
  · rw [← Bool.not_eq_true, acceptsStop_iff]
    rcases h.1 with hrow | hrow <;> simp [hrow, hflag]

theorem unserved_of_wedged (h : s.control.Wedged) : ¬ s.Served ∧ ¬ s.Usable := by
  obtain ⟨hstart, hstop⟩ := refused_of_wedged h
  have hlive : s.control.Live := by rcases h.1 with hrow | hrow <;> simp [Control.Live, hrow]
  have hreg : s.disk.state ≠ none := by
    rw [← state_control]
    rcases h.1 with hrow | hrow <;> simp [hrow]
  refine ⟨fun hserved => ?_, fun husable => ?_⟩
  · rw [(hserved hlive).2] at hstop
    exact absurd hstop (by simp)
  · simpa [hstart, hstop] using husable hreg

/-- The next engine passes over a row whose record names no process, or one that another engine
owns. -/
theorem control_adoptOrphans_of_passed (hpassed : s.liveRecord = none ∨ s.foreign env = true) :
    (s.adoptOrphans env).control = s.control := by
  unfold adoptOrphans adoptOrphan
  rw [control_endRunsWithoutAProcess]
  rcases hpassed with hrecord | hforeign
  · rw [hrecord]
  · split
    · rfl
    · rw [if_pos hforeign, control_tick]

/-- The row of a process that is gone has failed, if that can be written. -/
theorem control_reconcileOrphanFailed (hw : ¬ env.faults.write)
    (hrow : s.disk.state = some .running ∨ s.disk.state = some .paused) :
    ∃ prior r, (s.reconcileOrphanFailed env).control =
      (s.control.moved prior .failed .crashed).withRecord r := by
  obtain ⟨state, hstate, hprior⟩ : ∃ state, s.disk.state = some state ∧
      (state = .running ∨ state = .paused) := by
    rcases hrow with hrow | hrow
    · exact ⟨_, hrow, .inl rfl⟩
    · exact ⟨_, hrow, .inr rfl⟩
  have hreg : (s.ensureLogDir env).2.disk.state ≠ none := by
    rw [← state_control, ensureLogDir_control, state_control, hstate]
    simp
  unfold reconcileOrphanFailed
  simp only [hstate, if_pos hprior]
  rcases transition_cases hreg env state .failed .crashed with ⟨s', h, hs⟩ | ⟨hw', -⟩
  · obtain ⟨r, hr⟩ := settleSpawnRecord_control s' env
    refine ⟨state, r, ?_⟩
    rw [h, hr, hs, ensureLogDir_control]
  · exact absurd hw' hw

/-- **A running or a paused row whose process this engine may take is served**: its process is
adopted, or the row has failed. -/
theorem served_adoptOrphans (hcalm : Calm env)
    (hrow : s.disk.state = some .running ∨ s.disk.state = some .paused)
    (hrecord : s.liveRecord.isSome) (hown : s.foreign env = false) :
    (s.adoptOrphans env).Served ∧ (s.adoptOrphans env).Usable := by
  obtain ⟨r, hr⟩ := Option.isSome_iff_exists.1 hrecord
  have hctrl : (s.adoptOrphans env).control = (s.adoptOrphan env).control :=
    control_endRunsWithoutAProcess
  by_cases hheld : (s.now env).adopt = .held
  · have hadopt : s.adoptOrphan env = s.tick.adopt env := by
      unfold adoptOrphan
      simp [hr, hown, hheld]
    obtain ⟨runId, generation, he⟩ := adopt_enforced s.tick env
    have hrunning : Control.Agrees (s.tick.control.holding ⟨runId, generation, false, true,
        classifyPauseKind s.tick.control.events = .cooperative⟩) := Control.agrees_of_running hrow
    have htidy := Control.Tidy.enforced hcalm.write hcalm.stopFailed hrunning he
    rw [← hadopt, ← hctrl] at htidy
    by_cases hfree' : (s.adoptOrphans env).control.held = none
    · -- its Breach Actions have stopped it
      refine served_of_dead ?_
      rcases htidy.terminal hrunning (by simp [Control.holding]) hfree' with hend | hend <;>
        simp [Control.Live, hend]
    · exact served_of_agrees htidy.agrees hfree'
  · have hgone : s.adoptOrphan env = s.tick.reconcileOrphanFailed env := by
      unfold adoptOrphan
      simp only [hr, hown, Bool.false_eq_true, if_false]
    obtain ⟨prior, r', hfailed⟩ := control_reconcileOrphanFailed (s := s.tick) hcalm.write hrow
    rw [← hgone, ← hctrl] at hfailed
    have hrow' : (s.adoptOrphans env).control.state = some .failed := by rw [hfailed]; rfl
    exact served_of_dead (by simp [Control.Live, hrow'])

/-- What opening the engine does to a row, whatever has left it. -/
theorem openEngine_iff (hcalm : Calm env) :
    ((s.step (.openEngine, env)).Served ↔ s.Recoverable env) ∧
      ((s.step (.openEngine, env)).Usable ↔ ¬ s.CutShort) := by
  generalize hb : ({ s with clock := 0 } : Supervisor).ended = b
  have hnext : s.step (.openEngine, env) = b.adoptOrphans env := by rw [← hb]; rfl
  have hrow : b.control.state = s.control.state := by rw [← hb]; rfl
  have hfree : b.running = none := by rw [← hb]; rfl
  have hrecord : b.liveRecord = s.liveRecord := by rw [← hb]; rfl
  have hown : b.foreign env = (env 0).ownedElsewhere := by
    have hnow : b.now env = env 0 := by rw [← hb]; rfl
    simp [foreign, hnow, hcalm.committed 0]
  rw [hnext]
  by_cases hprior : b.control.state = some .running ∨ b.control.state = some .paused
  · have hlive : s.control.Live := by
      rcases hprior with h | h <;> simp [Control.Live, ← hrow, h]
    have hcut : ¬ s.CutShort := by
      rcases hprior with h | h <;> simp [CutShort, ← state_control, ← hrow, h]
    by_cases htaken : s.liveRecord.isSome ∧ (env 0).ownedElsewhere = false
    · obtain ⟨hserved, husable⟩ := served_adoptOrphans hcalm hprior (hrecord ▸ htaken.1)
        (hown.trans htaken.2)
      exact ⟨iff_of_true hserved fun _ => ⟨hcut, htaken⟩, iff_of_true husable hcut⟩
    · have hpassed : b.liveRecord = none ∨ b.foreign env = true := by
        rw [hrecord, hown]
        by_contra hcon
        rw [not_or, Bool.not_eq_true] at hcon
        exact htaken ⟨Option.isSome_iff_ne_none.2 hcon.1, hcon.2⟩
      have hkept := control_adoptOrphans_of_passed hpassed
      have hfree' : (b.adoptOrphans env).running = none := by
        have hheld : (b.adoptOrphans env).control.held = none := by
          rw [hkept]
          simp [control, hfree]
        simpa [control] using hheld
      obtain ⟨hserved, husable⟩ := unserved_of_free hfree' (by rwa [hkept])
      exact ⟨iff_of_false hserved fun hrec => htaken (hrec hlive).2, iff_of_true husable hcut⟩
  · rw [not_or] at hprior
    have hheld : b.control.held = none := by simp [control, hfree]
    obtain ⟨hstate, hflag⟩ := Control.adopt_of_settled hheld hprior
      (@adoptOrphans_move b env)
    rw [hrow] at hstate hprior
    by_cases hcut : s.CutShort
    · -- the row is what it was, and the gate refuses both verbs
      obtain ⟨hserved, husable⟩ := unserved_of_wedged (s := b.adoptOrphans env)
        ⟨by rw [hstate]; exact hcut, hflag⟩
      have hlive : s.control.Live := by
        rcases hcut with h | h <;> simp [Control.Live, state_control, h]
      exact ⟨iff_of_false hserved fun hrec => (hrec hlive).1 hcut,
        iff_of_false husable (not_not.2 hcut)⟩
    · have hdead : ¬ s.control.Live := by
        rw [CutShort, not_or] at hcut
        simp only [Control.Live, not_or]
        exact ⟨hcut.1, hprior.1, hprior.2, hcut.2⟩
      obtain ⟨hserved, husable⟩ := served_of_dead (s := b.adoptOrphans env)
        (by simpa only [Control.Live, hstate] using hdead)
      exact ⟨iff_of_true hserved fun hlive => absurd hlive hdead, iff_of_true husable hcut⟩

/-- **After a crash the next engine serves the row, and a start or a stop of it is accepted**, for
every history, whatever its writes did, cut after any write: the row is served if and only if no
launch and no stop was cut short and a live row has its record, and a verb is accepted if and only
if no launch and no stop was cut short. -/
theorem reopened_iff (name : InstanceName) (history : List HistoryStep) (x : Step) (write : ℕ)
    (opening : Env) (hcalm : Calm opening) :
    (((history.foldl historyStep (fresh name)).historyStep (.crash x write opening)).Served ↔
        ((history.foldl historyStep (fresh name)).diedIn x write).Recoverable opening) ∧
      (((history.foldl historyStep (fresh name)).historyStep (.crash x write opening)).Usable ↔
        ¬ ((history.foldl historyStep (fresh name)).diedIn x write).CutShort) :=
  openEngine_iff hcalm

/-- The registration of an instance whose exit code 0 is a clean end. -/
def declaredHistory : List HistoryStep :=
  [.reopen none fun _ => { adopt := .gone },
    .operation (.register { plainConfig with exitCodes := [(0, .clean)] }, fun _ => {})]

/-- Its launch has succeeded. -/
def launchedHistory : List HistoryStep :=
  declaredHistory ++ [.operation (.start false, fun _ => ({} : Moment))]

/-- The engine dies after the row of a pause was written, and the process is adopted. -/
theorem reopened_iff_paused :
    ((launchedHistory.foldl historyStep (fresh "a")).historyStep
        (.crash (.pause, fun _ => {}) 0 fun _ => {})).Served ∧
      ((launchedHistory.foldl historyStep (fresh "a")).historyStep
        (.crash (.pause, fun _ => {}) 0 fun _ => {})).Usable := by
  have hcut : ((launchedHistory.foldl historyStep (fresh "a")).diedIn
      (.pause, fun _ => {}) 0).disk.state = some .paused := by decide +kernel
  have hrecord : ((launchedHistory.foldl historyStep (fresh "a")).diedIn
      (.pause, fun _ => {}) 0).liveRecord.isSome := by decide +kernel
  have hwhole : ¬ ((launchedHistory.foldl historyStep (fresh "a")).diedIn
      (.pause, fun _ => {}) 0).CutShort := by simp [CutShort, hcut]
  obtain ⟨hserved, husable⟩ := reopened_iff "a" launchedHistory (.pause, fun _ => {}) 0
    (fun _ => {}) ⟨fun _ => rfl, fun _ => by simp⟩
  exact ⟨hserved.2 fun _ => ⟨hwhole, hrecord, rfl⟩, husable.2 hwhole⟩

/-- The engine has died after it had written `starting`. -/
def cutLaunch : Supervisor :=
  (declaredHistory.foldl historyStep (fresh "a")).historyStep
    (.crash (.start false, fun _ => {}) 0 fun _ => { adopt := .gone })

/-- The engine has died after it had written `stopping`, and the process is adopted. -/
def cutStop : Supervisor :=
  (launchedHistory.foldl historyStep (fresh "a")).historyStep
    (.crash (.stop, fun _ => {}) 0 fun _ => {})

/-- The engine has died after a clean exit had settled the record. -/
def cutExit : Supervisor :=
  (launchedHistory.foldl historyStep (fresh "a")).historyStep
    (.crash (.poll, fun _ => { poll := .exited (some 0) }) 0 fun _ => { adopt := .gone })

/-- **Three crashes after which the row has no handle that accepts a stop**: the rows of a launch
and of a stop that were cut short refuse both verbs, and the row of the clean exit runs without a
process. -/
theorem reopened_unserved :
    (cutLaunch.disk.state = some .starting ∧ cutLaunch.running.isNone ∧
      cutLaunch.acceptsStart = false ∧ cutLaunch.acceptsStop = false) ∧
    (cutStop.disk.state = some .stopping ∧ cutStop.running.isSome ∧
      cutStop.acceptsStart = false ∧ cutStop.acceptsStop = false) ∧
    (cutExit.disk.state = some .running ∧ cutExit.running.isNone) := by
  decide +kernel

/-- **A wedged row stays wedged in every run that does not remove it**, whatever verbs are tried,
whatever becomes of its process, and however often the engine is closed and opened: neither a start
nor a stop is ever accepted again. -/
theorem wedged_states {steps : List Step} (hwf : s.control.Wf) (h : s.control.Wedged)
    (hkeep : Guarded.Meets step (fun _ x => x.1.removes = false) s steps)
    (ht : t ∈ Guarded.states step s steps) :
    t.control.Wedged ∧ t.acceptsStart = false ∧ t.acceptsStop = false := by
  obtain ⟨-, hwedged⟩ := Guarded.invariant (P := fun s => s.control.Wf ∧ s.control.Wedged)
    (fun s x h hx => ⟨h.1.step (step_move h.1 x), h.2.step hx (step_move h.1 x)⟩) ⟨hwf, h⟩ hkeep ht
  exact ⟨hwedged, refused_of_wedged hwedged⟩

/-- The launch that was cut short, when another start is tried. -/
theorem wedged_cutLaunch :
    (cutLaunch.step (.start false, fun _ => {})).control.Wedged ∧
      (cutLaunch.step (.start false, fun _ => {})).acceptsStart = false ∧
      (cutLaunch.step (.start false, fun _ => {})).acceptsStop = false := by
  have hrow : cutLaunch.control.state = some .starting := by decide +kernel
  have hheld : cutLaunch.control.held = none := by decide +kernel
  exact @wedged_states cutLaunch _ [(.start false, fun _ => {})] (Control.wf_of_free hheld)
    ⟨.inl hrow, by simp [hheld]⟩ ⟨rfl, trivial⟩ (List.mem_cons_of_mem _ List.mem_cons_self)

end Supervisor

end Hekma
