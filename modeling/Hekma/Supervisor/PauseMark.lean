/-
**The mark of a cooperative pause** (`domain/supervisor/lifecycle.rs`,
`domain/supervisor/reaper.rs`).

A handle is marked when its process was paused by the adapter's own command, and a stop resumes a
paused process first unless it is marked.  The verbs set and clear the mark with the row.  A handle
that is built again reads it off the history, and the latest pause of the history may have been
resumed long ago.

Main definitions:

* `Control.PausedCooperatively` — the pause in force was taken by the adapter's command;
* `Control.MarkTracks` — the handle is marked exactly if that is so;
* `Supervisor.StaleMark` — a step reads the mark off an earlier pause;
* `Supervisor.UnendedStop` — a stop of a marked process may leave its handle.

Main results:

* `Control.InStep` — the last event of the history tells the row;
* `marked_step`, `pauseMark_tracks` — the mark tracks the pause in force.
-/

import Hekma.Supervisor.Engine

set_option relaxedAutoImplicit false
set_option autoImplicit false

namespace Hekma

/-- The kind of the latest pause is told by a last event that pauses. -/
theorem classifyPauseKind_append (events : List TransitionEvent) (event : TransitionEvent)
    (hpaused : event.newState = .paused) :
    classifyPauseKind (events ++ [event]) = .cooperative ↔ event.cause = .pauseCooperative := by
  unfold classifyPauseKind
  rw [List.reverse_append, List.reverse_singleton, List.singleton_append,
    List.find?_cons_of_pos (by simpa using hpaused)]
  dsimp only
  cases event.cause <;> simp

namespace Control

/-! ### The pause in force -/

/-- The row is paused, and the transition that paused it was the adapter's command. -/
def PausedCooperatively (c : Control) : Prop :=
  c.state = some .paused ∧ c.events.getLast?.map TransitionEvent.cause = some .pauseCooperative

instance (c : Control) : Decidable c.PausedCooperatively := inferInstanceAs (Decidable (_ ∧ _))

/-- The handle is marked exactly if the pause in force was taken by the adapter's command. -/
def MarkTracks (c : Control) : Prop :=
  ∀ h, c.held = some h → (h.cooperativelyPaused = true ↔ c.PausedCooperatively)

/-- The last event of the history tells the row.  Without an event the instance is registered at
most. -/
def InStep (c : Control) : Prop :=
  match c.events.getLast? with
  | none => c.state = none ∨ c.state = some .registered
  | some event => c.state = some event.newState

/-- The history is in step with the row, and the mark with the history. -/
structure Marked (c : Control) : Prop where
  inStep : c.InStep
  tracks : c.MarkTracks

variable {f : Faults} {b c c' e m : Control} {prior new : LifecycleState}
  {cause : TransitionCause}

theorem inStep_moved : (c.moved prior new cause).InStep := by
  simp [InStep]

@[simp] theorem pausedCooperatively_moved :
    (c.moved prior new cause).PausedCooperatively ↔ new = .paused ∧ cause = .pauseCooperative := by
  simp [PausedCooperatively]

theorem PausedCooperatively.congr (hstate : c'.state = c.state) (hevents : c'.events = c.events) :
    c'.PausedCooperatively ↔ c.PausedCooperatively := by
  unfold PausedCooperatively
  rw [hstate, hevents]

theorem InStep.congr (h : c.InStep) (hstate : c'.state = c.state)
    (hevents : c'.events = c.events) : c'.InStep := by
  unfold InStep at h ⊢
  rw [hstate, hevents]
  exact h

/-- While the row is paused, the kind of the latest pause is the kind of the one in force. -/
theorem InStep.classify (h : c.InStep) (hrow : c.state = some .paused) :
    classifyPauseKind c.events = .cooperative ↔ c.PausedCooperatively := by
  unfold InStep at h
  rcases List.eq_nil_or_concat c.events with hnil | ⟨events, event, hevents⟩
  · simp [hnil, hrow] at h
  · rw [List.concat_eq_append] at hevents
    rw [hevents, List.getLast?_concat, hrow] at h
    have hpaused : event.newState = .paused := (Option.some.inj h).symm
    rw [hevents, classifyPauseKind_append events event hpaused, PausedCooperatively, hrow, hevents,
      List.getLast?_concat]
    simp

/-- A row that is not paused has an unmarked handle. -/
theorem Marked.unmarked (h : c.Marked) (hrow : c.state ≠ some .paused) (x : Held)
    (hx : c.held = some x) : x.cooperativelyPaused = false := by
  rw [← Bool.not_eq_true, h.tracks x hx]
  exact fun hpaused => hrow hpaused.1

/-! ### What keeps the mark -/

theorem marked_of_free (hstep : c.InStep) (hheld : c.held = none) : c.Marked := by
  refine ⟨hstep, fun x hx => ?_⟩
  rw [hheld] at hx
  exact absurd hx (by simp)

/-- A handle that is not marked fits every row that is not paused by the command. -/
theorem marked_of_unmarked (hstep : c.InStep)
    (hheld : ∀ x, c.held = some x → x.cooperativelyPaused = false)
    (hrow : ¬ c.PausedCooperatively) : c.Marked := by
  refine ⟨hstep, fun x hx => ?_⟩
  rw [hheld x hx]
  simpa using hrow

/-- The mark does not change with the record or the plans. -/
theorem Marked.congr (h : c.Marked) (hstate : c'.state = c.state) (hevents : c'.events = c.events)
    (hheld : c'.held = c.held) : c'.Marked := by
  refine ⟨h.inStep.congr hstate hevents, fun x hx => ?_⟩
  rw [hheld] at hx
  rw [PausedCooperatively.congr hstate hevents]
  exact h.tracks x hx

theorem Marked.dropped (h : c.Marked) : c.dropped.Marked :=
  marked_of_free (h.inStep.congr rfl rfl) rfl

/-- The mark of a handle that is built from the history fits the row, unless the latest pause has
been resumed. -/
theorem InStep.derived (h : c.InStep)
    (hfresh : c.state ≠ some .paused → classifyPauseKind c.events ≠ .cooperative) :
    classifyPauseKind c.events = .cooperative ↔ c.PausedCooperatively := by
  by_cases hrow : c.state = some .paused
  · exact h.classify hrow
  · exact ⟨fun hcoop => absurd hcoop (hfresh hrow), fun hpaused => absurd hpaused.1 hrow⟩

/-- A handle that is found again for a stop of a running row does not get its mark from an earlier
pause. -/
def FreshMark (f : Faults) (c : Control) : Prop :=
  c.held = none → (c.record.any fun r => r.pid ≠ 0) → f.found → c.state = some .running →
    classifyPauseKind c.events ≠ .cooperative

/-- A stop of a process that is held by the adapter's command ends it. -/
def Confirmed (f : Faults) (c : Control) : Prop :=
  c.PausedCooperatively → ¬ f.stopUnconfirmed ∧ ¬ f.stopFailed

theorem Marked.entered (h : c.Marked) (hfresh : c.FreshMark f) (hrow : c.state = some prior)
    (hprior : prior = .running ∨ prior = .paused) (he : c.Entered f e) : e.Marked := by
  cases he with
  | same => exact h
  | reacquired runId generation hheld hrecord hf =>
      refine ⟨h.inStep.congr rfl rfl, fun x hx => ?_⟩
      obtain rfl := Option.some.inj hx
      change decide (classifyPauseKind c.events = .cooperative) = true ↔ c.PausedCooperatively
      rw [decide_eq_true_iff]
      refine h.inStep.derived fun hpaused => hfresh hheld hrecord hf ?_
      rcases hprior with rfl | rfl
      · exact hrow
      · exact absurd hrow hpaused

/-- A stop that has its row keeps the mark if its handle is unmarked or the process ends. -/
theorem marked_of_stopEnd (hstep : b.InStep) (hrow : b.state = some .stopping)
    (hend : StopEnd f b c')
    (hmark : (∀ x, b.held = some x → x.cooperativelyPaused = false) ∨
      ¬ f.stopUnconfirmed ∧ ¬ f.stopFailed) : c'.Marked := by
  have hpaused : ¬ b.PausedCooperatively := by simp [PausedCooperatively, hrow]
  cases hend with
  | unconfirmed hf _ =>
      rcases hmark with hmark | hmark
      · refine marked_of_unmarked (hstep.congr rfl rfl) (fun x hx => ?_) hpaused
        obtain ⟨y, hy, rfl⟩ := Option.map_eq_some_iff.1 hx
        exact hmark y hy
      · exact absurd hf hmark.1
  | failed hf _ =>
      rcases hmark with hmark | hmark
      · exact marked_of_unmarked hstep hmark hpaused
      · exact absurd hf hmark.2
  | unsettled _ => exact marked_of_free (hstep.congr rfl rfl) rfl
  | unrecorded _ => exact marked_of_free (hstep.congr rfl rfl) rfl
  | ended cause => exact marked_of_free inStep_moved rfl

theorem Marked.stop (h : c.Marked) (hfresh : c.FreshMark f) (hconf : c.Confirmed f)
    (hm : StopMove f c c') : c'.Marked := by
  cases hm with
  | kept => exact h
  | refused _ prior hrow hprior he => exact h.entered hfresh hrow hprior he
  | stopped e prior cause _ hrow hprior he hend =>
      have hmarked := h.entered hfresh hrow hprior he
      refine marked_of_stopEnd inStep_moved rfl hend ?_
      by_cases hpaused : c.PausedCooperatively
      · exact .inr (hconf hpaused)
      · refine .inl fun x hx => ?_
        rw [← Bool.not_eq_true, hmarked.tracks x hx,
          PausedCooperatively.congr he.state he.events]
        exact hpaused
  | healed _ _ hrow _ _ hend =>
      exact marked_of_stopEnd h.inStep hrow hend (.inr ⟨id, id⟩)

theorem Marked.suspend {command : LifecycleCommand} {verb : Bool} (h : c.Marked)
    (hm : SuspendMove command verb c c') : c'.Marked := by
  cases hm with
  | kept => exact h
  | suspended cause _ hrow hcause =>
      have hnot : c.state ≠ some .paused := by simp [hrow]
      exact marked_of_unmarked inStep_moved (h.unmarked hnot) (by simp [hcause])
  | cooperated _ _ _ =>
      refine ⟨InStep.congr (c := c.moved .running .paused .pauseCooperative) inStep_moved rfl rfl,
        fun x hx => ?_⟩
      obtain ⟨y, -, rfl⟩ := Option.map_eq_some_iff.1 hx
      change true = true ↔ (c.moved .running .paused .pauseCooperative).PausedCooperatively
      simp
  | resumed cause _ _ =>
      refine marked_of_unmarked
        (InStep.congr (c := c.moved .paused .running cause) inStep_moved rfl rfl) (fun x hx => ?_) ?_
      · obtain ⟨y, -, rfl⟩ := Option.map_eq_some_iff.1 hx
        rfl
      · change ¬ (c.moved .paused .running cause).PausedCooperatively
        simp

/-! ### Breach Actions -/

/-- What Breach Actions keep: the mark, and that a handle is held as long as the row is live. -/
structure Enforceable (f : Faults) (c : Control) : Prop where
  marked : c.Marked
  confirmed : c.Confirmed f
  live : c.held = none → c.state ≠ some .running ∧ c.state ≠ some .paused

theorem StopEnd.row (hend : StopEnd f b c') (hrow : b.state = some .stopping) :
    c'.state = some .stopping ∨ c'.state = some .stopped := by
  cases hend with
  | unconfirmed _ _ => exact .inl hrow
  | failed _ _ => exact .inl hrow
  | unsettled _ => exact .inl hrow
  | unrecorded _ => exact .inl hrow
  | ended cause => exact .inr rfl

theorem enforceable_of_stopEnd {g : Faults} (hmarked : c'.Marked)
    (hrow : b.state = some .stopping) (hend : StopEnd g b c') : c'.Enforceable f := by
  have hnot : c'.state ≠ some .running ∧ c'.state ≠ some .paused := by
    rcases hend.row hrow with h | h <;> simp [h]
  exact ⟨hmarked, fun hpaused => absurd hpaused.1 hnot.2, fun _ => hnot⟩

theorem Enforceable.step (h : c.Enforceable f) (hm : BreachMove f c c') : c'.Enforceable f := by
  have hfresh : c.FreshMark f := fun hheld _ _ hrow => absurd hrow (h.live hheld).1
  cases hm with
  | pause hm =>
      have hmarked := h.marked.suspend hm
      cases hm with
      | kept => exact h
      | suspended cause _ hrow hcause =>
          refine ⟨hmarked, fun hpaused => ?_, fun hheld => absurd hrow (h.live hheld).1⟩
          exact absurd (pausedCooperatively_moved.1 hpaused).2 hcause
      | cooperated _ hverb _ => exact absurd hverb (by simp)
      | resumed _ hcmd _ => exact absurd hcmd (by simp)
  | stop hm =>
      have hmarked := h.marked.stop hfresh h.confirmed hm
      cases hm with
      | kept => exact h
      | refused _ prior hrow hprior he =>
          cases he with
          | same => exact h
          | reacquired runId generation hheld _ _ =>
              obtain ⟨hrunning, hpaused⟩ := h.live hheld
              rcases hprior with rfl | rfl <;> contradiction
      | stopped e prior cause _ _ _ _ hend => exact enforceable_of_stopEnd hmarked rfl hend
      | healed _ _ hrow _ _ hend => exact enforceable_of_stopEnd hmarked hrow hend

theorem Enforceable.enforced (h : c.Enforceable f) (he : Enforced f c c') : c'.Enforceable f := by
  induction he with
  | refl => exact h
  | tail _ hm ih => exact ih.step hm

theorem Enforceable.collected (h : c.Enforceable f) : c.collected.Enforceable f :=
  ⟨h.marked.congr rfl rfl rfl, h.confirmed, h.live⟩

/-- A running row with an unmarked handle. -/
theorem enforceable_of_running {x : Held} (hstep : c.InStep) (hrow : c.state = some .running)
    (hx : x.cooperativelyPaused = false) : (c.holding x).Enforceable f := by
  have hnot : ¬ (c.holding x).PausedCooperatively := by simp [PausedCooperatively, holding, hrow]
  refine ⟨marked_of_unmarked (hstep.congr rfl rfl) (fun y hy => ?_) hnot,
    fun hpaused => absurd hpaused hnot, fun hheld => absurd hheld (by simp [holding])⟩
  obtain rfl := Option.some.inj hy
  exact hx

/-! ### Launches, exits and adoptions -/

theorem Marked.launch (h : b.Marked) (hrow : b.state = some .starting) (hend : LaunchEnd f b c') :
    c'.Marked := by
  have hunmarked := h.unmarked (by simp [hrow])
  cases hend with
  | failed r cause => exact marked_of_unmarked inStep_moved hunmarked (by simp)
  | stranded _ r => exact h.congr rfl rfl rfl
  | crashed r plan =>
      exact (marked_of_unmarked (c := (b.withRecord r).moved .starting .failed .crashed)
        inStep_moved hunmarked (by simp)).congr rfl rfl rfl
  | crashedStranded _ r plan => exact h.congr rfl rfl rfl
  | launched r cause runId generation _ he =>
      exact (Enforceable.enforced (enforceable_of_running inStep_moved rfl rfl) he).marked

theorem Marked.start (h : c.Marked) (hm : StartMove f c c') : c'.Marked := by
  cases hm with
  | kept => exact h
  | started prior cause _ hrow hprior hend =>
      have hnot : c.state ≠ some .paused := by
        rw [hrow]
        rcases (nextState_start prior).1 hprior with rfl | rfl | rfl <;> simp
      exact (marked_of_unmarked inStep_moved (h.unmarked hnot) (by simp)).launch rfl hend

theorem Marked.exitEnd (h : m.Marked) (hend : ExitEnd f m c') : c'.Marked := by
  cases hend with
  | gone _ _ => exact h.dropped
  | healed _ _ hrow _ _ hend => exact marked_of_stopEnd h.inStep hrow hend (.inr ⟨id, id⟩)
  | clean r cause _ => exact marked_of_free inStep_moved rfl
  | failed prior r cause plan _ _ =>
      exact marked_of_free (InStep.congr (c := (m.dropped.withRecord r).moved prior .failed cause)
        inStep_moved rfl rfl) rfl
  | unrecorded _ r => exact marked_of_free (h.inStep.congr rfl rfl) rfl

theorem Marked.expireEnd (h : m.Marked) (hend : ExpireEnd f m c') : c'.Marked := by
  cases hend with
  | failed r plan _ =>
      exact marked_of_free
        (InStep.congr (c := (m.dropped.withRecord r).moved .running .failed .unresponsive)
          inStep_moved rfl rfl) rfl
  | unrecorded _ r => exact marked_of_free (h.inStep.congr rfl rfl) rfl

theorem Marked.process (h : c.Marked) (hheld : c.held ≠ none) (hconf : c.Confirmed f)
    (hm : ProcessMove f c c') : c'.Marked := by
  have henf : c.Enforceable f := ⟨h, hconf, fun hfree => absurd hfree hheld⟩
  cases hm with
  | alive m he => exact (henf.enforced he).collected.marked
  | ended m m' _ he _ he' hend =>
      exact ((henf.enforced he).collected.enforced he').marked.exitEnd hend

theorem Marked.liveness (h : c.Marked) (hm : LivenessMove f c c') : c'.Marked := by
  cases hm with
  | kept => exact h
  | expired m _ hheld hrow he hend =>
      have hconf : c.Confirmed f := fun hpaused => absurd hpaused.1 (by simp [hrow])
      have henf : c.Enforceable f := ⟨h, hconf, fun hfree => absurd hfree hheld⟩
      exact (henf.enforced he).marked.expireEnd hend

/-- An adopted handle gets its mark from a pause in force. -/
def FreshAdoption (f : Faults) (c : Control) : Prop :=
  (c.record.any fun r => r.pid ≠ 0) → f.found → c.state ≠ some .paused →
    classifyPauseKind c.events ≠ .cooperative

theorem Marked.adopt (h : c.InStep) (hheld : c.held = none) (hfresh : c.FreshAdoption f)
    (hconf : c.Confirmed f) (hm : AdoptMove f c c') : c'.Marked := by
  cases hm with
  | kept => exact marked_of_free h hheld
  | adopted runId generation _ hrecord hf he =>
      have hmarked : (c.holding ⟨runId, generation, false, true,
          classifyPauseKind c.events = .cooperative⟩).Marked := by
        refine ⟨h.congr rfl rfl, fun x hx => ?_⟩
        obtain rfl := Option.some.inj hx
        change decide (classifyPauseKind c.events = .cooperative) = true ↔ c.PausedCooperatively
        rw [decide_eq_true_iff]
        exact h.derived (hfresh hrecord hf)
      have henf : (c.holding ⟨runId, generation, false, true,
          classifyPauseKind c.events = .cooperative⟩).Enforceable f :=
        ⟨hmarked, hconf, fun hfree => absurd hfree (by simp [holding])⟩
      exact (henf.enforced he).marked
  | failed prior r _ _ =>
      exact marked_of_free (InStep.congr (c := c.moved prior .failed .crashed) inStep_moved rfl rfl)
        hheld
  | recorded r _ => exact marked_of_free (h.congr rfl rfl) hheld

theorem InStep.release (h : c.InStep) (hm : ReleaseMove c c') : c'.InStep := by
  cases hm with
  | kept => exact h
  | recorded r => exact h.congr rfl rfl
  | failed r _ => exact InStep.congr (c := c.moved .paused .failed .crashed) inStep_moved rfl rfl
  | resumed _ =>
      exact InStep.congr (c := c.moved .paused .running .detachedResumed) inStep_moved rfl rfl

theorem Marked.delete (h : c.Marked) (hrow : c.state ≠ some .paused ∨ c.held = none)
    (hm : DeleteMove c c') : c'.Marked := by
  cases hm with
  | kept => exact h
  | deleted prior _ =>
      have hstep : InStep { c with
          state := none, events := [], record := none, episode := c.episode + 1 } := .inl rfl
      rcases hrow with hrow | hheld
      · exact marked_of_unmarked hstep (h.unmarked hrow) (by simp [PausedCooperatively])
      · exact marked_of_free hstep hheld

theorem Marked.remove {force : Bool} (h : c.Marked)
    (hfresh : force = true ∨ c.state = some .paused → c.FreshMark f) (hconf : c.Confirmed f) (hm : RemoveMove f force c c') : c'.Marked := by
  cases hm with
  | kept => exact h
  | deleted _ hrow hm => exact h.delete (.inl hrow.2) hm
  | refused _ hforce hm => exact h.stop (hfresh hforce) hconf hm
  | stopped m _ hforce hm hheld hm' =>
      exact (h.stop (hfresh hforce) hconf hm).delete (.inr hheld) hm'

theorem Marked.register (h : c.Marked) (hm : RegisterMove c c') : c'.Marked := by
  cases hm with
  | kept => exact h
  | registered hrow =>
      exact marked_of_unmarked (.inr rfl) (h.unmarked (by simp [hrow]))
        (by simp [PausedCooperatively])

end Control

/-! ### Runs -/

namespace Supervisor

variable {s t : Supervisor} {env : Env}

/-- The step holds a handle whose mark it reads off the history, while the row is not paused: an
adoption, and a stop of a running instance that nothing is held of. -/
def rederives (s : Supervisor) (x : Step) : Prop :=
  match x.1 with
  | .openEngine => s.disk.state ≠ some .paused
  | .stop => s.running = none ∧ s.disk.state = some .running
  | .remove force => force = true ∧ s.running = none ∧ s.disk.state = some .running
  | .drain =>
      s.running = none ∧ s.disk.state = some .running ∧
        ({ s with clock := 0 } : Supervisor).drainsDirectly x.2 = true
  | _ => False

/-- A step reads the mark off a pause that is no longer in force: it finds the process of the
record, the row is not paused, and the latest pause was cooperative. -/
def StaleMark (s : Supervisor) (x : Step) : Prop :=
  s.rederives x ∧ s.liveRecord ≠ none ∧ (∃ n, (x.2 n).adopt = .held) ∧
    classifyPauseKind s.disk.events = .cooperative

/-- A stop of a process that is paused by the adapter's command is not told that it has ended. -/
def UnendedStop (s : Supervisor) (x : Step) : Prop :=
  (s.control.PausedCooperatively ∨
      x.1 = .drain ∧ s.disk.state = some .running ∧
        ({ s with clock := 0 } : Supervisor).drainsByCommand x.2 = true) ∧
    ∃ n, (x.2 n).stop = .unconfirmed ∨ (x.2 n).stop = .failed

theorem liveRecord_of_any (h : s.control.record.any fun r => r.pid ≠ 0) : s.liveRecord ≠ none := by
  obtain ⟨r, hr, hpid⟩ := (Option.any_eq_true _ _).1 h
  have hr' : s.disk.record = some r := hr
  simp only [decide_eq_true_eq] at hpid
  simp [liveRecord, hr', hpid]

/-- Without a handle a supervision pass only collects the plans. -/
theorem control_poll_of_free (hfree : s.running = none) :
    (s.step (.poll, env)).control = s.control.collected := by
  have hdrain : ({ s with clock := 0 } : Supervisor).drainMidRun env = { s with clock := 0 } := by
    simp [drainMidRun, drainSelfReportedFor, drainChannelUsageFor, drainObservedFor, hfree]
  change (pollOnce { s with clock := 0 } env).control = s.control.collected
  unfold pollOnce pollProcess
  rw [hdrain]
  simp [pollExits, collectPending, hfree, checkLiveness, expiring, control, Control.collected, tick]

theorem held_of_free (hfree : s.control.held = none) : s.running = none :=
  Option.map_eq_none_iff.1 hfree

/-- **A guarded step keeps the mark.** -/
theorem marked_step (hwf : s.control.Wf) (h : s.control.Marked) {x : Step}
    (hstale : ¬ s.StaleMark x) (hended : ¬ s.UnendedStop x) : (s.step x).control.Marked := by
  obtain ⟨op, env⟩ := x
  -- the guard: no stop of a cooperative pause fails or goes unconfirmed
  have hconf : s.control.Confirmed env.faults := by
    refine fun hpaused => ⟨?_, ?_⟩
    · rintro ⟨n, hn⟩
      exact hended ⟨.inl hpaused, n, .inl hn⟩
    · rintro ⟨n, hn⟩
      exact hended ⟨.inl hpaused, n, .inr hn⟩
  -- and none takes the process up again with a mark that is stale
  have hfresh : (s.control.held = none → s.control.state = some .running → s.rederives (op, env)) →
      s.control.FreshMark env.faults := by
    intro hre hheld hrecord hfound hrow hcoop
    exact hstale ⟨hre hheld hrow, liveRecord_of_any hrecord, hfound, hcoop⟩
  have hmove := step_move hwf (op, env)
  generalize hc : (s.step (op, env)).control = c' at hmove ⊢
  cases hmove with
  | register config _ hm => exact h.register hm
  | remove force _ hm =>
      refine h.remove (fun hforce => hfresh fun hheld hrow => ?_) hconf hm
      have hforce : force = true := hforce.resolve_right (by simp [hrow])
      exact ⟨hforce, held_of_free hheld, hrow⟩
  | configure config => exact h
  | others books => exact h
  | start detach _ hm => exact h.start hm
  | stop _ hm =>
      exact h.stop (hfresh fun hheld hrow => ⟨held_of_free hheld, hrow⟩) hconf hm
  | pause _ hm => exact h.suspend hm
  | resume _ hm => exact h.suspend hm
  | drain _ _ _ _ =>
      -- the inversion of a drain says which of its two stops was taken
      have hm := drain_move (s := { s with clock := 0 }) env hwf
      change Supervisor.DrainMove _ _ _ s.control (s.step (.drain, env)).control at hm
      rw [hc] at hm
      cases hm with
      | kept hkept => exact hkept ▸ h
      | direct hdirect hrow hm =>
          exact h.stop (hfresh fun hheld hrow => ⟨held_of_free hheld, hrow, hdirect⟩) hconf hm
      | cooperated hcommand hrow hm =>
          -- a cooperative drain is a pause first, so the stop starts from a marked row
          have hpause : SuspendMove .pause true s.control _ := .cooperated rfl rfl hrow
          have hrow' : ((s.control.moved .running .paused .pauseCooperative).marked true).state ≠
              some .running := by simp [Control.marked]
          refine (h.suspend hpause).stop (fun _ _ _ hrunning => absurd hrunning hrow') ?_ hm
          refine fun _ => ⟨?_, ?_⟩
          · rintro ⟨n, hn⟩
            exact hended ⟨.inr ⟨rfl, hrow, hcommand⟩, n, .inl hn⟩
          · rintro ⟨n, hn⟩
            exact hended ⟨.inr ⟨rfl, hrow, hcommand⟩, n, .inr hn⟩
  | poll m _ hm hm' =>
      by_cases hheld : s.control.held = none
      · rw [← hc, control_poll_of_free (held_of_free hheld)]
        exact h.congr rfl rfl rfl
      · exact (h.process hheld hconf hm).liveness hm'
  | unplanned i _ => exact h
  | fire i plan _ _ hm =>
      have herased : Control.Marked { s.control with plans := s.control.plans.eraseIdx i } :=
        h.congr rfl rfl rfl
      exact herased.start hm
  | close m hm => exact Control.marked_of_free ((h.inStep.release hm).congr rfl rfl) rfl
  | openEngine _ hm =>
      refine Control.Marked.adopt (c := s.control.ended) (h.inStep.congr rfl rfl) rfl ?_ hconf hm
      intro hrecord hfound hrow hcoop
      exact hstale ⟨hrow, liveRecord_of_any hrecord, hfound, hcoop⟩

theorem marked_fresh (name : InstanceName) : (fresh name).control.Marked :=
  Control.marked_of_free (.inl rfl) rfl

/-- A stop resumes a paused process first, unless the adapter's command holds it. -/
theorem resumesBeforeStop_of_marked (h : s.control.Marked) (hrow : s.disk.state = some .paused)
    (hpaused : ¬ s.control.PausedCooperatively) {x : Supervised}
    (hx : (s.reacquire env).running = some x) :
    (s.reacquire env).resumesBeforeStop .paused = true := by
  have hfresh : s.control.FreshMark env.faults := by
    intro _ _ _ hrunning
    rw [state_control, hrow] at hrunning
    exact absurd hrunning (by simp)
  have hentered := reacquire_entered s env
  have hmarked := h.entered hfresh hrow (.inr rfl) hentered
  have hheld : (s.reacquire env).control.held = some x.held := by simp [control, hx]
  have hflag : x.cooperativelyPaused = false := by
    rw [← Bool.not_eq_true]
    change ¬ x.held.cooperativelyPaused = true
    rw [hmarked.tracks _ hheld,
      Control.PausedCooperatively.congr hentered.state hentered.events]
    exact hpaused
  simp [resumesBeforeStop, hx, hflag]

/-- **The mark tracks the pause in force** in every run that neither reads it off an earlier pause
nor leaves the handle of a stopped process behind, and a stop resumes a suspended process first. -/
theorem pauseMark_tracks (name : InstanceName) (steps : List Step)
    (hguard : Guarded.Meets step (fun s x => ¬ s.StaleMark x ∧ ¬ s.UnendedStop x) (fresh name)
      steps)
    (t : Supervisor) (ht : t ∈ Guarded.states step (fresh name) steps) :
    t.control.MarkTracks ∧
      ∀ env x, (t.reacquire env).running = some x → t.disk.state = some .paused →
        ¬ t.control.PausedCooperatively → (t.reacquire env).resumesBeforeStop .paused = true := by
  have hinv : t.control.Wf ∧ t.control.Marked := by
    refine Guarded.invariant (P := fun s => s.control.Wf ∧ s.control.Marked)
      (fun s x h hx => ?_) ⟨wf_fresh name, marked_fresh name⟩ hguard ht
    exact ⟨h.1.step (step_move h.1 x), marked_step h.1 h.2 hx.1 hx.2⟩
  refine ⟨hinv.2.tracks, fun env x hx hrow hpaused => ?_⟩
  exact resumesBeforeStop_of_marked hinv.2 hrow hpaused hx

/-- An adapter that declares a pause and a resume command, of an instance with a ceiling. -/
def commandConfig : Config :=
  { plainConfig with
    tokenBudget := ⟨some 10, none⟩
    pauseCommand := true
    resumeCommand := true }

/-- A cooperative pause of a running instance, and its resume. -/
def resumedRun : List Step :=
  [(.register commandConfig, fun _ => {}), (.start false, fun _ => {}), (.pause, fun _ => {}),
    (.resume, fun _ => {})]

theorem pauseMark_tracks_resumed :
    ((fresh "a").runSteps resumedRun).control.MarkTracks ∧
      ∀ env x, (((fresh "a").runSteps resumedRun).reacquire env).running = some x →
        ((fresh "a").runSteps resumedRun).disk.state = some .paused →
        ¬ ((fresh "a").runSteps resumedRun).control.PausedCooperatively →
        (((fresh "a").runSteps resumedRun).reacquire env).resumesBeforeStop .paused = true := by
  have hstop : ∀ s op, ¬ UnendedStop s (op, fun _ => {}) := by
    rintro s op ⟨-, n, hn | hn⟩ <;> exact absurd hn (by simp)
  refine pauseMark_tracks "a" resumedRun
    ⟨⟨?_, hstop _ _⟩, ⟨?_, hstop _ _⟩, ⟨?_, hstop _ _⟩, ⟨?_, hstop _ _⟩, trivial⟩ _
    Guarded.last_mem_states <;> exact fun h => h.1

/-- The engine is opened again, and the usage of the adopted process crosses its ceiling. -/
def readoptedRun : List Step :=
  resumedRun ++ [(.openEngine, fun _ => ({} : Moment)),
    (.poll, fun _ => { appended := fun _ => [some ⟨20, 0, 0, 1⟩] })]

/-- **The mark of a pause that was resumed is in force again**: a breach has suspended the process,
the handle is marked, and the stop does not resume it. -/
theorem pauseMark_readopted :
    ¬ ((fresh "a").runSteps readoptedRun).control.MarkTracks ∧
      ((fresh "a").runSteps readoptedRun).disk.state = some .paused ∧
      ¬ ((fresh "a").runSteps readoptedRun).control.PausedCooperatively ∧
      (((fresh "a").runSteps readoptedRun).reacquire fun _ => {}).resumesBeforeStop .paused =
        false := by
  have hheld : ((fresh "a").runSteps readoptedRun).control.held = some ⟨0, 2, false, true, true⟩ := by
    decide +kernel
  have hpaused : ¬ ((fresh "a").runSteps readoptedRun).control.PausedCooperatively := by
    decide +kernel
  refine ⟨fun h => hpaused ((h _ hheld).1 rfl), ?_, hpaused, ?_⟩ <;> decide +kernel

end Supervisor

end Hekma
