/-
**The shutdown drain** (`shutdown.rs`).

Before an engine goes, it stops its agents: it reads the fleet and stops every running or paused
instance, one after the other, reads the fleet again and stops the newcomers, and reads it a last
time to name what is still running or paused.  Each stop is classified by what is read after it.
Between any two of these calls the other operations of the engine go on: starts, stops, supervision
passes, restarts that come due.

Main definitions:

* `Shutdown.drainPlan`, `Shutdown.Drain`, `Shutdown.Drain.turn` — the drain, one call at a time;
* `Shutdown.Drain.step` — a call of the drain, or an operation on an instance meanwhile;
* `Shutdown.Drain.Accounts` — what a drain that returns owes;
* `Shutdown.Drain.Plain` — the steps that hold no process behind a row the drain does not read.

Main results:

* `Supervisor.ended_of_stop` — a stop that succeeds ends its history with its own end;
* `Shutdown.issued_nodup` — no instance is stopped twice;
* `Shutdown.returned_of_turns` — a drain returns;
* `Shutdown.drain_accounts` — a drain whose steps are plain accounts for every process.
-/

import Hekma.Supervisor.Engine

set_option relaxedAutoImplicit false
set_option autoImplicit false

namespace Hekma

/-! ### The end a stop records -/

namespace Supervisor

variable {s s' : Supervisor} {env : Env} {inner : StopWith}

/-- A transition that succeeds has moved the row. -/
theorem moved_of_transition {prior new : LifecycleState} {cause : TransitionCause}
    (hrow : s.disk.state ≠ none) (h : s.transition env prior new cause = (none, s')) :
    s'.control = s.control.moved prior new cause := by
  rcases transition_cases hrow env prior new cause with ⟨m, hm, hc⟩ | ⟨-, err, m, hm, -⟩
  · rw [hm] at h
    obtain rfl := congrArg Prod.snd h
    exact hc
  · rw [hm] at h
    simp at h

/-- A settlement that succeeds has recorded its transition. -/
theorem events_of_settle {cause : TransitionCause}
    (h : (andThen (s.dropHandle.settleSpawnRecord env) fun s =>
      s.transition env .stopping .stopped cause) = (none, s')) :
    s'.disk.events = s.disk.events ++ [⟨.stopping, .stopped, cause⟩] := by
  obtain ⟨m, hm, h⟩ := of_andThen_none h
  have hevents : m.disk.events = s.disk.events := by
    obtain ⟨r, hr⟩ := settleSpawnRecord_control s.dropHandle env
    rw [hm] at hr
    exact congrArg Control.events hr
  have hrow : m.disk.state ≠ none := by
    intro hrow
    simp [transition, transitionWith, hrow] at h
  rw [← hevents]
  exact congrArg Control.events (moved_of_transition hrow h)

/-- A ladder that succeeds ends gracefully or by force. -/
theorem events_of_stopLadder (hinner : Stops env.faults inner) (hq : s.control.Quiet)
    (h : stopLadder env inner s none = (none, s')) :
    ∃ forced, s'.disk.events = s.disk.events ++ [⟨.stopping, .stopped, stopCause forced none⟩] := by
  have hfinish : ∀ (t : Supervisor) (forced : Bool), t.control = s.control →
      finishStop env inner t forced none = (none, s') →
      s'.disk.events = s.disk.events ++ [⟨.stopping, .stopped, stopCause forced none⟩] := by
    intro t forced ht h
    rw [events_of_settle h]
    -- the last drain of a stop that is under way moves nothing
    have hquiet : t.control.Quiet := ht ▸ hq
    have hdrain := (drainSelfReportedFor_governed env hinner .terminal t hquiet.wf).quiet hquiet
    rw [show (drainSelfReportedFor env inner t .terminal).disk.events = s.disk.events from
      congrArg Control.events (hdrain.trans ht)]
  unfold stopLadder at h
  cases hrun : s.running with
  | none =>
      simp only [hrun] at h
      exact ⟨false, hfinish s false rfl h⟩
  | some x =>
      simp only [hrun] at h
      cases hstop : (s.now env).stop with
      | unconfirmed => simp [hstop] at h
      | failed => simp [hstop] at h
      | stopped forced =>
          simp only [hstop] at h
          exact ⟨forced, hfinish s.tick forced rfl h⟩

/-- The history after a stop that succeeds: whatever came before, then the end of the stop. -/
def EndsBy (s s' : Supervisor) : Prop :=
  ∃ events cause, (cause = .stopGraceful ∨ cause = .stopForced) ∧
    s'.disk.events = s.disk.events ++ events ++ [⟨.stopping, .stopped, cause⟩]

/-- A stop that could not be confirmed before, and whose process has meanwhile ended. -/
theorem endsBy_of_retryStop (h : s.retryStop env = (none, s')) : EndsBy s s' := by
  unfold retryStop at h
  cases hpoll : (s.now env).poll with
  | errored => simp [hpoll] at h
  | alive => simp [hpoll] at h
  | exited code =>
      simp only [hpoll] at h
      exact ⟨[], .stopForced, .inr rfl, by simpa using events_of_settle h⟩

/-- A stop that enters its row and goes through its ladder. -/
theorem endsBy_of_entered {state : LifecycleState} (hinner : Stops env.faults inner)
    (hwf : s.control.Wf) (hrow : s.disk.state = some state)
    (hprior : state = .running ∨ state = .paused) {s₁ s₂ : Supervisor}
    (hlog : (s.reacquire env).ensureLogDir env = (none, s₁))
    (hmoved : s₁.transition env state .stopping (.command "stop") = (none, s₂))
    (h : stopLadder env inner (drainTerminal env inner (s₂.resumeBeforeStop state)) none =
      (none, s')) : EndsBy s s' := by
  have hentered := reacquire_entered s env
  have hc₁ : s₁.control = (s.reacquire env).control := by
    have hkept := ensureLogDir_control (s.reacquire env) env
    rwa [hlog] at hkept
  have hrow₁ : s₁.control.state = some state := by
    rw [hc₁, hentered.state, state_control, hrow]
  have hc₂ : s₂.control = s₁.control.moved state .stopping (.command "stop") :=
    moved_of_transition (by rw [← state_control, hrow₁]; simp) hmoved
  have hq : s₂.control.Quiet := by
    rw [hc₂, hc₁]
    exact (hwf.entered hentered).quiet (hc₁ ▸ hrow₁) hprior _
  -- once the row is stopping, the drains move nothing
  have hdrain : (drainTerminal env inner (s₂.resumeBeforeStop state)).control = s₂.control := by
    rw [← control_resumeBeforeStop (s := s₂) state] at hq ⊢
    exact (drainTerminal_governed env hinner _ hq.wf).quiet hq
  obtain ⟨forced, hend⟩ := events_of_stopLadder hinner (hdrain ▸ hq) h
  refine ⟨[⟨state, .stopping, .command "stop"⟩], stopCause forced none, ?_, ?_⟩
  · cases forced
    · exact .inl rfl
    · exact .inr rfl
  · have hevents := congrArg Control.events (hdrain.trans hc₂)
    rw [hc₁, Control.events_moved, hentered.events] at hevents
    rw [hend]
    exact congrArg (· ++ _) hevents

/-- **A stop that succeeds ends its history with its own end.** -/
theorem ended_of_stop (hwf : s.control.Wf) (h : s.stop env = (none, s')) : EndsBy s s' := by
  have hinner : Stops env.faults fun cause s => stopInner env 1 s (some cause) none :=
    fun cause s hwf => stopInner_move env 1 s _ _ hwf
  unfold stop stopDepth stopInner stopStep at h
  cases hrow : s.disk.state with
  | none => simp [hrow] at h
  | some state =>
      simp only [hrow] at h
      split at h
      · exact endsBy_of_retryStop h
      · cases hnext : nextState state .stop with
        | none => simp [hnext] at h
        | some new =>
            obtain ⟨hprior, rfl⟩ := nextState_stop_eq hnext
            simp only [hnext] at h
            obtain ⟨s₁, hlog, h⟩ := of_andThen_none h
            obtain ⟨s₂, hmoved, h⟩ := of_andThen_none h
            exact endsBy_of_entered hinner hwf hrow hprior hlog hmoved h

end Supervisor

namespace Shutdown

/-! ### The drain -/

/-- Why a completed stop could not be classified. -/
inductive UnverifiedReason where
  | neitherGracefulNorForced
  | noStopTransition
  | unreadable
  deriving DecidableEq, Repr

/-- How the stop of an instance ended. -/
inductive StopResult where
  | graceful
  | forced
  | unverified (reason : UnverifiedReason)
  | exitedOnItsOwn (state : LifecycleState)
  | failed (error : EngineError)
  deriving DecidableEq, Repr

/-- An instance, and how its stop ended. -/
structure DrainOutcome where
  name : InstanceName
  result : StopResult
  deriving DecidableEq, Repr

/-- A notice of the drain.  The texts are left out. -/
inductive Note where
  | notEnumerated
  | stopping (name : InstanceName)
  | outcome (o : DrainOutcome)
  | nothingToStop
  | stillAlive (names : List InstanceName)
  | unconfirmed
  deriving DecidableEq, Repr

/-- What the drain reads of the fleet: each registered instance with its row, by name. -/
abbrev Rows : Type := List (InstanceName × LifecycleState)

/-- The instances a drain stops, in the order of the fleet. -/
def drainPlan (entries : Rows) : List InstanceName :=
  (entries.filter fun entry => entry.2 = .running ∨ entry.2 = .paused).map Prod.fst

/-- The names that were not attempted before, each of them attempted now. -/
def claim : List InstanceName → List InstanceName → List InstanceName × List InstanceName
  | attempted, [] => (attempted, [])
  | attempted, name :: names =>
      if name ∈ attempted then claim attempted names
      else
        let rest := claim (attempted ++ [name]) names
        (rest.1, name :: rest.2)

/-- The event is the end of a stop. -/
def stopEnd (event : TransitionEvent) : Bool :=
  event.cause = .stopGraceful ∨ event.cause = .stopForced

/-- The newest end of a stop in a history, oldest event first. -/
def newestStop (events : List TransitionEvent) : Option TransitionEvent :=
  events.reverse.find? stopEnd

/-- The result of a completed stop, by the history that is read after it. -/
def classify (events : List TransitionEvent) : StopResult :=
  match newestStop events with
  | some event =>
      match event.cause with
      | .stopGraceful => .graceful
      | .stopForced => .forced
      | _ => .unverified .neitherGracefulNorForced
  | none => .unverified .noStopTransition

/-- How far a drain has come.  `second` is the pass over the newcomers, `found` whether a pass has
found anything, and `todo` the rest of the plan. -/
inductive Stage where
  | enumerating (second found : Bool)
  | stopping (second : Bool) (todo : List InstanceName)
  | classifying (second : Bool) (name : InstanceName) (todo : List InstanceName)
  | rereading (second : Bool) (name : InstanceName) (error : EngineError)
      (todo : List InstanceName)
  | confirming
  | confirmed
  | returned
  deriving DecidableEq, Repr

/-- A stop the drain has issued, with the state of the instance before and after it. -/
structure Issued where
  name : InstanceName
  error : Option EngineError
  before : Supervisor
  after : Supervisor

/-- The engine during a drain.  `issued` is not in the source. -/
structure Drain where
  fleet : InstanceName → Supervisor
  attempted : List InstanceName
  outcomes : List DrainOutcome
  notes : List Note
  stage : Stage
  issued : List Issued

/-- What a call of the drain meets: the environment of a stop, and whether a read succeeds. -/
structure Answer where
  env : Env := fun _ => {}
  readable : Bool := true

namespace Drain

/-- A drain begins. -/
def begin (fleet : InstanceName → Supervisor) : Drain :=
  ⟨fleet, [], [], [], .enumerating false false, []⟩

/-- The fleet, for the names of all instances in the order of the store. -/
def rows (names : List InstanceName) (d : Drain) : Rows :=
  names.filterMap fun name => (d.fleet name).disk.state.map fun state => (name, state)

/-- A notice. -/
def note (d : Drain) (n : Note) : Drain := { d with notes := d.notes ++ [n] }

/-- A pass is over. -/
def endPass (d : Drain) (second found : Bool) : Drain :=
  if second then
    { (if found then d else d.note .nothingToStop) with stage := .confirming }
  else { d with stage := .enumerating true found }

/-- A pass reads the fleet and plans its stops. -/
def enumerate (names : List InstanceName) (d : Drain) (second found readable : Bool) : Drain :=
  if readable then
    let plan := claim d.attempted (drainPlan (d.rows names))
    if plan.2 = [] then { d with attempted := plan.1 }.endPass second found
    else { d with attempted := plan.1, stage := .stopping second plan.2 }
  else if d.attempted = [] ∧ d.outcomes = [] then
    (d.note .notEnumerated).endPass second found
  else d.endPass second found

/-- The next stop of a pass is issued. -/
def issue (d : Drain) (second : Bool) (name : InstanceName) (todo : List InstanceName)
    (env : Env) : Drain :=
  let before : Supervisor := { d.fleet name with clock := 0 }
  let stopped := before.stop env
  { d.note (.stopping name) with
    fleet := Function.update d.fleet name stopped.2
    stage := match stopped.1 with
      | none => .classifying second name todo
      | some error => .rereading second name error todo
    issued := d.issued ++ [⟨name, stopped.1, before, stopped.2⟩] }

/-- A stop has its outcome. -/
def settle (d : Drain) (second : Bool) (todo : List InstanceName) (o : DrainOutcome) : Drain :=
  { d.note (.outcome o) with
    outcomes := d.outcomes ++ [o]
    stage := .stopping second todo }

/-- The outcome of a stop that has failed, by the row that is read after it. -/
def failure (names : List InstanceName) (d : Drain) (name : InstanceName) (error : EngineError)
    (readable : Bool) : StopResult :=
  let stateNow :=
    if readable then ((d.rows names).find? fun entry => entry.1 = name).map Prod.snd else none
  match stateNow with
  | some .stopped => .exitedOnItsOwn .stopped
  | some .failed => .exitedOnItsOwn .failed
  | _ => .failed error

/-- The closing notice. -/
def confirm (names : List InstanceName) (d : Drain) (readable : Bool) : Drain :=
  let stillAlive := drainPlan (d.rows names)
  { (if !readable then d.note .unconfirmed
      else if stillAlive = [] then d
      else d.note (.stillAlive stillAlive)) with
    stage := .confirmed }

/-- One call of the drain. -/
def turn (names : List InstanceName) (d : Drain) (a : Answer) : Drain :=
  match d.stage with
  | .enumerating second found => d.enumerate names second found a.readable
  | .stopping second [] => d.endPass second true
  | .stopping second (name :: todo) => d.issue second name todo a.env
  | .classifying second name todo =>
      d.settle second todo
        ⟨name, if a.readable then classify (d.fleet name).disk.events else .unverified .unreadable⟩
  | .rereading second name error todo =>
      d.settle second todo ⟨name, d.failure names name error a.readable⟩
  | .confirming => d.confirm names a.readable
  | .confirmed => { d with stage := .returned }
  | .returned => d

end Drain

/-- A call of the drain, or an operation of the engine on an instance meanwhile. -/
inductive Act where
  | drain (a : Answer)
  | meanwhile (name : InstanceName) (x : Supervisor.Step)

/-- An act.  Nothing follows the return of the drain. -/
def Drain.step (names : List InstanceName) (d : Drain) : Act → Drain
  | .drain a => d.turn names a
  | .meanwhile name x =>
      if d.stage = .returned then d
      else { d with fleet := Function.update d.fleet name ((d.fleet name).step x) }

/-! ### What a drain owes -/

/-- The stop succeeded, and its end is the last event of its history. -/
def Issued.Ended (i : Issued) (cause : TransitionCause) : Prop :=
  i.error = none ∧ ∃ events,
    i.after.disk.events = i.before.disk.events ++ events ++ [⟨.stopping, .stopped, cause⟩]

/-- The end a result claims of its stop. -/
def StopResult.ending : StopResult → Option TransitionCause
  | .graceful => some .stopGraceful
  | .forced => some .stopForced
  | _ => none

namespace Drain

/-- The instance appears in the outcomes as failed. -/
def Failed (d : Drain) (name : InstanceName) : Prop := ∃ error, ⟨name, .failed error⟩ ∈ d.outcomes

/-- The instance appears in the closing notice. -/
def Noticed (d : Drain) (name : InstanceName) : Prop :=
  ∃ names, Note.stillAlive names ∈ d.notes ∧ name ∈ names

/-- What a drain that returns owes: one stop an instance, an account of every process that is
still held, and outcomes that are those of its own stops. -/
structure Accounts (names : List InstanceName) (d : Drain) : Prop where
  once : (d.issued.map Issued.name).Nodup
  alive : ∀ name ∈ names, (d.fleet name).running.isSome → d.Failed name ∨ d.Noticed name
  own : ∀ o ∈ d.outcomes, ∀ cause, o.result.ending = some cause →
    ∃ i ∈ d.issued, i.name = o.name ∧ i.Ended cause

end Drain

/-! ### No instance is stopped twice -/

/-- The rest of the plan. -/
def Stage.todo : Stage → List InstanceName
  | .stopping _ todo | .classifying _ _ todo | .rereading _ _ _ todo => todo
  | _ => []

theorem claim_fst (attempted names : List InstanceName) :
    (claim attempted names).1 = attempted ++ (claim attempted names).2 := by
  induction names generalizing attempted with
  | nil => simp [claim]
  | cons name names ih =>
      unfold claim
      split
      · exact ih attempted
      · simp [ih (attempted ++ [name])]

theorem nodup_claim {attempted : List InstanceName} (names : List InstanceName)
    (h : attempted.Nodup) : (claim attempted names).1.Nodup := by
  induction names generalizing attempted with
  | nil => exact h
  | cons name names ih =>
      unfold claim
      split
      · exact ih h
      · rename_i hnew
        exact ih (h.append (List.nodup_singleton name) (by simpa using hnew))

namespace Drain

/-- What has been attempted are the stops that were issued and those that are still planned. -/
structure Once (d : Drain) : Prop where
  attempted : d.attempted = d.issued.map Issued.name ++ d.stage.todo
  nodup : d.attempted.Nodup

variable {names : List InstanceName} {d : Drain}

theorem Once.endPass (h : d.Once) (htodo : d.stage.todo = []) (second found : Bool) :
    (d.endPass second found).Once := by
  have hattempted := h.attempted
  rw [htodo] at hattempted
  unfold Drain.endPass
  cases second <;> cases found <;> exact ⟨hattempted, h.nodup⟩

theorem Once.enumerate (h : d.Once) (htodo : d.stage.todo = []) (second found readable : Bool) :
    (d.enumerate names second found readable).Once := by
  unfold Drain.enumerate
  split
  · have hnodup := nodup_claim (drainPlan (d.rows names)) h.nodup
    have hclaim := claim_fst d.attempted (drainPlan (d.rows names))
    have hattempted := h.attempted
    rw [htodo, List.append_nil] at hattempted
    dsimp only
    split
    · rename_i hempty
      refine Once.endPass (d := { d with attempted := (claim d.attempted _).1 }) ⟨?_, hnodup⟩ htodo
        second found
      change (claim d.attempted _).1 = _ ++ d.stage.todo
      rw [hclaim, hempty, htodo, hattempted]
    · refine ⟨?_, hnodup⟩
      change (claim d.attempted _).1 = d.issued.map Issued.name ++ (claim d.attempted _).2
      rw [← hattempted]
      exact hclaim
  · split
    · exact Once.endPass (d := d.note .notEnumerated) ⟨h.attempted, h.nodup⟩ htodo second found
    · exact h.endPass htodo second found

theorem Once.issue {second : Bool} {name : InstanceName} {todo : List InstanceName} (h : d.Once)
    (htodo : d.stage.todo = name :: todo) (env : Env) : (d.issue second name todo env).Once := by
  refine ⟨?_, h.nodup⟩
  have hstage : (d.issue second name todo env).stage.todo = todo := by
    unfold Drain.issue
    dsimp only
    split <;> rfl
  have hissued : (d.issue second name todo env).issued.map Issued.name =
      d.issued.map Issued.name ++ [name] := by
    simp [Drain.issue]
  rw [hstage, hissued]
  change d.attempted = _
  rw [h.attempted, htodo]
  simp

theorem Once.step (h : d.Once) (act : Act) : (d.step names act).Once := by
  cases act with
  | meanwhile name x =>
      unfold Drain.step
      dsimp only
      split
      · exact h
      · exact ⟨h.attempted, h.nodup⟩
  | drain a =>
      unfold Drain.step turn
      dsimp only
      have hattempted := h.attempted
      split
      · rename_i hstage
        exact h.enumerate (by rw [hstage]; rfl) _ _ _
      · rename_i hstage
        exact h.endPass (by rw [hstage]; rfl) _ _
      · rename_i hstage
        exact h.issue (by rw [hstage]; rfl) _
      · rename_i hstage
        rw [hstage] at hattempted
        exact ⟨hattempted, h.nodup⟩
      · rename_i hstage
        rw [hstage] at hattempted
        exact ⟨hattempted, h.nodup⟩
      · rename_i hstage
        rw [hstage] at hattempted
        unfold Drain.confirm
        dsimp only
        split
        · exact ⟨hattempted, h.nodup⟩
        · split <;> exact ⟨hattempted, h.nodup⟩
      · rename_i hstage
        rw [hstage] at hattempted
        exact ⟨hattempted, h.nodup⟩
      · exact h

theorem once_begin (fleet : InstanceName → Supervisor) : (begin fleet).Once :=
  ⟨rfl, List.nodup_nil⟩

/-- **No instance is stopped twice**, whatever happens meanwhile. -/
theorem Once.issued_nodup (h : d.Once) : (d.issued.map Issued.name).Nodup := by
  have hnodup := h.nodup
  rw [h.attempted] at hnodup
  exact hnodup.of_append_left

end Drain

/-! ### What is held behind which row -/

/-- The drain plans a stop for this row. -/
def Planned (s : Supervisor) : Prop := s.disk.state = some .running ∨ s.disk.state = some .paused

/-- A process is held behind a row the drain reads as live only. -/
def Shown (s : Supervisor) : Prop := s.running.isSome → Planned s

/-- A process is held behind such a row, or behind that of a stop under way. -/
def Entered (s : Supervisor) : Prop :=
  s.running.isSome → Planned s ∨ s.disk.state = some .stopping

theorem held_control (s : Supervisor) : s.control.held.isSome = s.running.isSome := by
  simp [Supervisor.control]

/-- A stop over a row that the drain reads leaves a row it may have entered. -/
theorem entered_stop {s : Supervisor} (env : Env) (hwf : s.control.Wf) (h : Shown s) :
    Entered (s.stop env).2 := by
  intro hheld
  have hmove := Supervisor.stop_move env hwf
  rw [← held_control] at hheld
  have hrow : (s.stop env).2.control.state = (s.stop env).2.disk.state := rfl
  unfold Planned
  rw [← hrow]
  generalize (s.stop env).2.control = c at hmove hheld ⊢
  have hdropped : ∀ b : Control, b.held = none → c = b → False := by
    rintro b hb rfl
    rw [hb] at hheld
    simp at hheld
  cases hmove with
  | kept => exact .inl (h (by rwa [held_control] at hheld))
  | refused e prior hprior hlive he =>
      rw [he.state, hprior]
      rcases hlive with rfl | rfl <;> simp
  | stopped e prior cause _ _ _ _ hend =>
      cases hend with
      | unconfirmed _ _ => exact .inr rfl
      | failed _ _ => exact .inr rfl
      | unsettled _ => exact absurd rfl (hdropped _ rfl)
      | unrecorded _ => exact absurd rfl (hdropped _ rfl)
      | ended _ => exact absurd rfl (hdropped _ rfl)
  | healed x _ hstopping hheld' _ _ =>
      have hlive := h (by rw [← held_control, hheld']; rfl)
      unfold Planned at hlive
      rw [Supervisor.state_control] at hstopping
      rw [hstopping] at hlive
      simp at hlive

namespace Drain

variable {names : List InstanceName} {d : Drain}

theorem mem_drainPlan {name : InstanceName} (hname : name ∈ names)
    (h : Planned (d.fleet name)) : name ∈ drainPlan (d.rows names) := by
  have hmem : ∀ state, (d.fleet name).disk.state = some state → state = .running ∨ state = .paused →
      name ∈ drainPlan (d.rows names) := by
    intro state hrow hstate
    refine List.mem_map.2 ⟨(name, state), List.mem_filter.2 ⟨?_, by simpa using hstate⟩, rfl⟩
    exact List.mem_filterMap.2 ⟨name, hname, by simp [hrow]⟩
  rcases h with h | h
  · exact hmem _ h (.inl rfl)
  · exact hmem _ h (.inr rfl)

/-- The row a second read finds. -/
theorem state_of_find {name : InstanceName} {state : LifecycleState}
    (h : ((d.rows names).find? fun entry => entry.1 = name).map Prod.snd = some state) :
    (d.fleet name).disk.state = some state := by
  obtain ⟨entry, hfind, rfl⟩ := Option.map_eq_some_iff.1 h
  obtain ⟨n, -, hn⟩ := List.mem_filterMap.1 (List.mem_of_find?_eq_some hfind)
  obtain ⟨state, hstate, rfl⟩ := Option.map_eq_some_iff.1 hn
  have hname : n = name := by simpa using List.find?_some hfind
  rw [← hname]
  exact hstate

/-- A failed stop is reported as failed, or its row has ended. -/
theorem failure_cases (d : Drain) (names : List InstanceName) (name : InstanceName)
    (error : EngineError) (readable : Bool) :
    d.failure names name error readable = .failed error ∨
      (d.failure names name error readable).ending = none ∧
        ((d.fleet name).disk.state = some .stopped ∨ (d.fleet name).disk.state = some .failed) := by
  unfold failure
  cases readable with
  | false => exact .inl rfl
  | true =>
      simp only [if_true]
      split
      · rename_i h
        exact .inr ⟨rfl, .inl (state_of_find h)⟩
      · rename_i h
        exact .inr ⟨rfl, .inr (state_of_find h)⟩
      · exact .inl rfl

end Drain

/-! ### The invariant of plain steps -/

/-- The instance whose failed stop is looked into. -/
def Stage.doubted : Stage → Option InstanceName
  | .rereading _ name _ _ => some name
  | _ => none

/-- The instance whose completed stop is classified next. -/
def Stage.classified : Stage → Option InstanceName
  | .classifying _ name _ => some name
  | _ => none

/-- The closing notice has been given. -/
def Stage.over : Stage → Bool
  | .confirmed | .returned => true
  | _ => false

/-- No stop is being accounted for, and the closing notice is to come. -/
def Stage.Calm (stage : Stage) : Prop :=
  stage.doubted = none ∧ stage.classified = none ∧ stage.over = false

namespace Drain

/-- A step that holds no process behind a row the drain does not read: an operation leaves none
there that was not there, ends no stop of its own between a stop of the drain and the reading of
its history, and takes hold of nothing once the closing notice is given; and the last read of the
fleet succeeds. -/
def Plain (d : Drain) : Act → Prop
  | .drain a => d.stage = .confirming → a.readable = true
  | .meanwhile name x =>
      let s := d.fleet name
      let s' := s.step x
      (s'.running.isSome → Planned s' ∨ s.running.isSome ∧ s'.disk.state = s.disk.state) ∧
        (d.stage.classified = some name → newestStop s'.disk.events = newestStop s.disk.events) ∧
        (d.stage = .confirmed → s'.running.isSome → s.running.isSome)

/-- What plain steps keep. -/
structure Kept (names : List InstanceName) (d : Drain) : Prop where
  wf : ∀ name, (d.fleet name).control.Wf
  shown : d.stage.over = false → ∀ name ∈ names, d.stage.doubted ≠ some name →
    Shown (d.fleet name) ∨ d.Failed name
  doubted : ∀ name ∈ names, d.stage.doubted = some name →
    Entered (d.fleet name) ∨ d.Failed name
  alive : d.stage.over = true → ∀ name ∈ names, (d.fleet name).running.isSome →
    d.Failed name ∨ d.Noticed name
  own : ∀ o ∈ d.outcomes, ∀ cause, o.result.ending = some cause →
    ∃ i ∈ d.issued, i.name = o.name ∧ i.Ended cause
  classified : ∀ name, d.stage.classified = some name → ∃ i ∈ d.issued, i.name = name ∧
    ∃ cause, (cause = .stopGraceful ∨ cause = .stopForced) ∧ i.Ended cause ∧
      newestStop (d.fleet name).disk.events = some ⟨.stopping, .stopped, cause⟩

variable {names : List InstanceName} {d d' : Drain}

theorem Kept.shown_of_calm (h : d.Kept names) (hcalm : d.stage.Calm) :
    ∀ name ∈ names, Shown (d.fleet name) ∨ d.Failed name :=
  fun name hname => h.shown hcalm.2.2 name hname (by rw [hcalm.1]; simp)

/-- Bookkeeping between two stops keeps the invariant. -/
theorem Kept.calm (h : d.Kept names) (hcalm : d.stage.Calm) (hfleet : d'.fleet = d.fleet)
    (houtcomes : d'.outcomes = d.outcomes) (hissued : d'.issued = d.issued)
    (hcalm' : d'.stage.Calm) : d'.Kept names where
  wf := hfleet ▸ h.wf
  shown _ name hname _ := by
    unfold Failed
    rw [hfleet, houtcomes]
    exact h.shown_of_calm hcalm name hname
  doubted name _ hdoubted := by
    rw [hcalm'.1] at hdoubted
    simp at hdoubted
  alive hover := by
    rw [hcalm'.2.2] at hover
    simp at hover
  own := by
    rw [houtcomes, hissued]
    exact h.own
  classified name hclassified := by
    rw [hcalm'.2.1] at hclassified
    simp at hclassified

theorem Kept.endPass (h : d.Kept names) (hcalm : d.stage.Calm) (second found : Bool) :
    (d.endPass second found).Kept names := by
  unfold Drain.endPass
  cases second <;> cases found <;> exact h.calm hcalm rfl rfl rfl ⟨rfl, rfl, rfl⟩

theorem Kept.enumerate (h : d.Kept names) (hcalm : d.stage.Calm) (second found readable : Bool) :
    (d.enumerate names second found readable).Kept names := by
  unfold Drain.enumerate
  split
  · dsimp only
    split
    · have hclaimed : Kept names
          { d with attempted := (claim d.attempted (drainPlan (d.rows names))).1 } :=
        h.calm hcalm rfl rfl rfl hcalm
      exact hclaimed.endPass hcalm _ _
    · exact h.calm hcalm rfl rfl rfl ⟨rfl, rfl, rfl⟩
  · split
    · have hnoted : (d.note .notEnumerated).Kept names := h.calm hcalm rfl rfl rfl hcalm
      exact hnoted.endPass hcalm _ _
    · exact h.endPass hcalm _ _

theorem newestStop_append (events : List TransitionEvent) {event : TransitionEvent}
    (h : stopEnd event = true) : newestStop (events ++ [event]) = some event := by
  simp [newestStop, h]

theorem fleet_issue_self (second : Bool) (name : InstanceName) (todo : List InstanceName)
    (env : Env) : (d.issue second name todo env).fleet name =
      (({ d.fleet name with clock := 0 } : Supervisor).stop env).2 :=
  Function.update_self _ _ _

theorem fleet_issue_of_ne {n name : InstanceName} (hne : n ≠ name) (second : Bool)
    (todo : List InstanceName) (env : Env) :
    (d.issue second name todo env).fleet n = d.fleet n :=
  Function.update_of_ne hne _ _

theorem Kept.issue_wf (h : d.Kept names) (second : Bool) (name : InstanceName)
    (todo : List InstanceName) (env : Env) (n : InstanceName) :
    ((d.issue second name todo env).fleet n).control.Wf := by
  by_cases hn : n = name
  · subst hn
    rw [fleet_issue_self]
    exact Control.Wf.stop (h.wf n)
      (Supervisor.stop_move (s := { d.fleet n with clock := 0 }) env (h.wf n))
  · rw [fleet_issue_of_ne hn]
    exact h.wf n

/-- A stop leaves the other instances alone. -/
theorem Kept.issue_shown (h : d.Kept names) (hcalm : d.stage.Calm) (second : Bool)
    (name : InstanceName) (todo : List InstanceName) (env : Env) {n : InstanceName}
    (hn : n ∈ names) (hne : n ≠ name) : Shown ((d.issue second name todo env).fleet n) ∨
      (d.issue second name todo env).Failed n := by
  rw [fleet_issue_of_ne hne]
  exact h.shown_of_calm hcalm n hn

theorem Kept.issue_own (h : d.Kept names) (second : Bool) (name : InstanceName)
    (todo : List InstanceName) (env : Env) :
    ∀ o ∈ (d.issue second name todo env).outcomes, ∀ cause, o.result.ending = some cause →
      ∃ i ∈ (d.issue second name todo env).issued, i.name = o.name ∧ i.Ended cause := by
  intro o ho cause hcause
  obtain ⟨i, hi, hended⟩ := h.own o ho cause hcause
  exact ⟨i, List.mem_append_left _ hi, hended⟩

/-- A stop that succeeds has let go of the process, and has recorded its end. -/
theorem Kept.issue_ok (h : d.Kept names) (hcalm : d.stage.Calm) (second : Bool)
    {name : InstanceName} (todo : List InstanceName) {env : Env}
    (hstop : (({ d.fleet name with clock := 0 } : Supervisor).stop env).1 = none) :
    (d.issue second name todo env).Kept names := by
  have heq : ({ d.fleet name with clock := 0 } : Supervisor).stop env =
      (none, (({ d.fleet name with clock := 0 } : Supervisor).stop env).2) :=
    Prod.ext hstop rfl
  have hstage : (d.issue second name todo env).stage = .classifying second name todo := by
    simp [Drain.issue, hstop]
  refine ⟨h.issue_wf second name todo env, fun _ n hn _ => ?_, fun n _ hdoubted => ?_,
    fun hover => ?_, h.issue_own second name todo env, fun n hclassified => ?_⟩
  · by_cases hne : n = name
    · subst hne
      left
      intro hheld
      rw [fleet_issue_self, Supervisor.running_of_stopInner env _ _ _ none none heq] at hheld
      simp at hheld
    · exact h.issue_shown hcalm second name todo env hn hne
  · rw [hstage] at hdoubted
    simp [Stage.doubted] at hdoubted
  · rw [hstage] at hover
    simp [Stage.over] at hover
  · rw [hstage] at hclassified
    obtain rfl : name = n := by simpa [Stage.classified] using hclassified
    have hwf : ({ d.fleet name with clock := 0 } : Supervisor).control.Wf := h.wf name
    obtain ⟨events, cause, hcause, hevents⟩ := Supervisor.ended_of_stop hwf heq
    refine ⟨_, List.mem_append_right _ (List.mem_singleton_self _), rfl, cause, hcause,
      ⟨hstop, events, hevents⟩, ?_⟩
    rw [fleet_issue_self, hevents]
    refine newestStop_append _ ?_
    rcases hcause with rfl | rfl <;> rfl

/-- What a stop that fails leaves is looked into next. -/
theorem Kept.issue_failed (h : d.Kept names) (hcalm : d.stage.Calm) (second : Bool)
    {name : InstanceName} (todo : List InstanceName) {env : Env} {error : EngineError}
    (hstop : (({ d.fleet name with clock := 0 } : Supervisor).stop env).1 = some error) :
    (d.issue second name todo env).Kept names := by
  have hstage : (d.issue second name todo env).stage = .rereading second name error todo := by
    simp [Drain.issue, hstop]
  refine ⟨h.issue_wf second name todo env, fun _ n hn hdoubted => ?_, fun n hn hdoubted => ?_,
    fun hover => ?_, h.issue_own second name todo env, fun n hclassified => ?_⟩
  · rw [hstage] at hdoubted
    exact h.issue_shown hcalm second name todo env hn fun hne => hdoubted (by rw [hne]; rfl)
  · rw [hstage] at hdoubted
    obtain rfl : name = n := by simpa [Stage.doubted] using hdoubted
    rw [fleet_issue_self]
    refine (h.shown_of_calm hcalm name hn).imp_left fun hs => ?_
    exact entered_stop (s := { d.fleet name with clock := 0 }) env (h.wf name) hs
  · rw [hstage] at hover
    simp [Stage.over] at hover
  · rw [hstage] at hclassified
    simp [Stage.classified] at hclassified

theorem Kept.issue (h : d.Kept names) (hcalm : d.stage.Calm) (second : Bool)
    (name : InstanceName) (todo : List InstanceName) (env : Env) :
    (d.issue second name todo env).Kept names := by
  cases hstop : (({ d.fleet name with clock := 0 } : Supervisor).stop env).1 with
  | none => exact h.issue_ok hcalm second todo hstop
  | some error => exact h.issue_failed hcalm second todo hstop

theorem ending_classify {events : List TransitionEvent} {cause : TransitionCause}
    (hcause : cause = .stopGraceful ∨ cause = .stopForced)
    (h : newestStop events = some ⟨.stopping, .stopped, cause⟩) :
    (classify events).ending = some cause := by
  unfold classify
  rw [h]
  rcases hcause with rfl | rfl <;> rfl

theorem Failed.settle {name : InstanceName} (h : d.Failed name) (second : Bool)
    (todo : List InstanceName) (o : DrainOutcome) : (d.settle second todo o).Failed name :=
  h.imp fun _ => List.mem_append_left _

/-- A stop gets its outcome: nothing is owed for its instance, and the outcome is its own. -/
theorem Kept.settle (h : d.Kept names) (hover : d.stage.over = false) (second : Bool)
    (todo : List InstanceName) (o : DrainOutcome)
    (hdoubted : ∀ name ∈ names, d.stage.doubted = some name →
      Shown (d.fleet name) ∨ (d.settle second todo o).Failed name)
    (hown : ∀ cause, o.result.ending = some cause →
      ∃ i ∈ d.issued, i.name = o.name ∧ i.Ended cause) :
    (d.settle second todo o).Kept names where
  wf := h.wf
  shown _ name hname _ := by
    by_cases hdoubt : d.stage.doubted = some name
    · exact hdoubted name hname hdoubt
    · exact (h.shown hover name hname hdoubt).imp_right fun hfailed => hfailed.settle _ _ _
  doubted name _ hdoubt := by simp [Drain.settle, Stage.doubted] at hdoubt
  alive hover' := by simp [Drain.settle, Stage.over] at hover'
  own o' ho' := by
    rcases List.mem_append.1 ho' with ho' | ho'
    · exact h.own o' ho'
    · obtain rfl := List.mem_singleton.1 ho'
      exact hown
  classified name hclassified := by simp [Drain.settle, Stage.classified] at hclassified

/-- A failed stop is reported as failed, unless its row has ended, and then nothing is held. -/
theorem Kept.failure (h : d.Kept names) {second : Bool} {name : InstanceName} {error : EngineError}
    {todo : List InstanceName} (hstage : d.stage = .rereading second name error todo)
    (readable : Bool) :
    (d.settle second todo ⟨name, d.failure names name error readable⟩).Kept names := by
  have hcases := failure_cases d names name error readable
  refine h.settle (by rw [hstage]; rfl) _ _ _ (fun n hn hdoubted => ?_) fun cause hcause => ?_
  · obtain rfl : name = n := by simpa [hstage, Stage.doubted] using hdoubted
    rcases hcases with hfailed | ⟨-, hrow⟩
    · refine .inr ⟨error, List.mem_append_right _ (List.mem_singleton.2 ?_)⟩
      rw [hfailed]
    · refine (h.doubted name hn hdoubted).imp (fun hentered hheld => ?_)
        fun hfailed => hfailed.settle _ _ _
      have hlive := hentered hheld
      unfold Planned at hlive
      rcases hrow with hrow | hrow <;> simp [hrow] at hlive
  · rcases hcases with hfailed | ⟨hnone, -⟩
    · simp [hfailed, StopResult.ending] at hcause
    · simp [hnone] at hcause

/-- The closing notice changes nothing but the notices. -/
theorem frame_confirm (d : Drain) (names : List InstanceName) (readable : Bool) :
    (d.confirm names readable).fleet = d.fleet ∧
      (d.confirm names readable).outcomes = d.outcomes ∧
        (d.confirm names readable).issued = d.issued := by
  unfold Drain.confirm
  dsimp only
  split
  · exact ⟨rfl, rfl, rfl⟩
  · split <;> exact ⟨rfl, rfl, rfl⟩

/-- The closing notice names what is held and has not been reported as failed. -/
theorem Kept.confirm (h : d.Kept names) (hstage : d.stage = .confirming) :
    (d.confirm names true).Kept names := by
  have hcalm : d.stage.Calm := by
    rw [hstage]
    exact ⟨rfl, rfl, rfl⟩
  obtain ⟨hfleet, houtcomes, hissued⟩ := frame_confirm d names true
  refine ⟨hfleet ▸ h.wf, fun hover => ?_, fun name _ hdoubted => ?_, fun _ name hname hheld => ?_,
    ?_, fun name hclassified => ?_⟩
  · simp [Drain.confirm, Stage.over] at hover
  · simp [Drain.confirm, Stage.doubted] at hdoubted
  · rw [hfleet] at hheld
    rcases h.shown_of_calm hcalm name hname with hshown | hfailed
    · -- a row behind which a process is held is one the last read finds
      have hmem := mem_drainPlan hname (hshown hheld)
      have hne : drainPlan (d.rows names) ≠ [] := List.ne_nil_of_mem hmem
      exact .inr ⟨_, by simp [Drain.confirm, hne, note], hmem⟩
    · left
      unfold Failed
      rw [houtcomes]
      exact hfailed
  · rw [houtcomes, hissued]
    exact h.own
  · simp [Drain.confirm, Stage.classified] at hclassified

/-- What an operation keeps of the instance it is on holds of each instance after it. -/
theorem update_imp {P : Supervisor → Prop} {name : InstanceName} {s' : Supervisor}
    (n : InstanceName) (hself : n = name → P (d.fleet name) → P s') (hn : P (d.fleet n)) :
    P (Function.update d.fleet name s' n) := by
  by_cases hne : n = name
  · subst hne
    rw [Function.update_self]
    exact hself rfl hn
  · rwa [Function.update_of_ne hne]

/-- An operation of the engine on an instance. -/
theorem Kept.meanwhile (h : d.Kept names) {name : InstanceName} {x : Supervisor.Step}
    (hplain : d.Plain (.meanwhile name x)) (hopen : d.stage ≠ .returned) :
    Kept names { d with fleet := Function.update d.fleet name ((d.fleet name).step x) } := by
  obtain ⟨hbehind, hnewest, hlast⟩ := hplain
  have hover : d.stage.over = true → d.stage = .confirmed := by
    cases hstage : d.stage <;> simp_all [Stage.over]
  refine ⟨fun n => ?_, fun hover n hn hdoubted => ?_, fun n hn hdoubted => ?_,
    fun hgiven n hn => ?_, h.own, fun n hclassified => ?_⟩
  · exact update_imp (P := fun s => s.control.Wf) n
      (fun _ hwf => hwf.step (Supervisor.step_move hwf x)) (h.wf n)
  · refine (h.shown hover n hn hdoubted).imp_left (update_imp n fun _ hshown hheld => ?_)
    rcases hbehind hheld with hplanned | ⟨hheld, hrow⟩
    · exact hplanned
    · unfold Planned
      rw [hrow]
      exact hshown hheld
  · refine (h.doubted n hn hdoubted).imp_left (update_imp n fun _ hentered hheld => ?_)
    rcases hbehind hheld with hplanned | ⟨hheld, hrow⟩
    · exact .inl hplanned
    · unfold Planned
      rw [hrow]
      exact hentered hheld
  · exact update_imp (P := fun s => s.running.isSome → d.Failed n ∨ d.Noticed n) n
      (fun _ halive hheld => halive (hlast (hover hgiven) hheld)) (h.alive hgiven n hn)
  · obtain ⟨i, hi, hname, cause, hcause, hended, hevents⟩ := h.classified n hclassified
    refine ⟨i, hi, hname, cause, hcause, hended, ?_⟩
    refine update_imp (P := fun s => newestStop s.disk.events = some ⟨.stopping, .stopped, cause⟩) n
      (fun hn hs => ?_) hevents
    subst hn
    rw [hnewest hclassified]
    exact hs

/-- A completed stop is classified by its own end. -/
theorem Kept.classify (h : d.Kept names) {second : Bool} {name : InstanceName}
    {todo : List InstanceName} (hstage : d.stage = .classifying second name todo)
    (readable : Bool) : (d.settle second todo ⟨name, if readable then
      Shutdown.classify (d.fleet name).disk.events else .unverified .unreadable⟩).Kept names := by
  refine h.settle (by rw [hstage]; rfl) _ _ _ (fun n _ hdoubted => ?_) fun cause hcause => ?_
  · simp [hstage, Stage.doubted] at hdoubted
  · obtain ⟨i, hi, hname, cause', hcause', hended, hevents⟩ :=
      h.classified name (by rw [hstage]; rfl)
    dsimp only at hcause
    split at hcause
    · rw [ending_classify hcause' hevents] at hcause
      obtain rfl := Option.some.inj hcause
      exact ⟨i, hi, hname, hended⟩
    · simp [StopResult.ending] at hcause

/-- The drain returns after its closing notice. -/
theorem Kept.finish (h : d.Kept names) (hstage : d.stage = .confirmed) :
    Kept names { d with stage := .returned } := by
  refine ⟨h.wf, fun hover => ?_, fun n _ hdoubted => ?_,
    fun _ => h.alive (by rw [hstage]; rfl), h.own, fun n hclassified => ?_⟩
  · simp [Stage.over] at hover
  · simp [Stage.doubted] at hdoubted
  · simp [Stage.classified] at hclassified

/-- **A plain step keeps the invariant.** -/
theorem Kept.step (h : d.Kept names) {act : Act} (hplain : d.Plain act) :
    (d.step names act).Kept names := by
  cases act with
  | meanwhile name x =>
      unfold Drain.step
      dsimp only
      split
      · exact h
      · rename_i hopen
        exact h.meanwhile hplain hopen
  | drain a =>
      unfold Drain.step turn
      dsimp only
      split
      · rename_i hstage
        exact h.enumerate (by rw [hstage]; exact ⟨rfl, rfl, rfl⟩) _ _ _
      · rename_i hstage
        exact h.endPass (by rw [hstage]; exact ⟨rfl, rfl, rfl⟩) _ _
      · rename_i hstage
        exact h.issue (by rw [hstage]; exact ⟨rfl, rfl, rfl⟩) _ _ _ _
      · rename_i hstage
        exact h.classify hstage _
      · rename_i hstage
        exact h.failure hstage _
      · rename_i hstage
        rw [show a.readable = true from hplain hstage]
        exact h.confirm hstage
      · rename_i hstage
        exact h.finish hstage
      · exact h

end Drain

/-! ### A drain returns -/

/-- How many calls a drain of so many instances has before it at most. -/
def Stage.left (size : ℕ) : Stage → ℕ
  | .enumerating second _ => (if second then 0 else 2 * size + 2) + (2 * size + 4)
  | .stopping second todo => (if second then 0 else 2 * size + 2) + (2 * todo.length + 3)
  | .classifying second _ todo | .rereading second _ _ todo =>
      (if second then 0 else 2 * size + 2) + (2 * todo.length + 4)
  | .confirming => 2
  | .confirmed => 1
  | .returned => 0

/-- The act is a call of the drain. -/
def Act.isTurn : Act → Bool
  | .drain _ => true
  | .meanwhile _ _ => false

theorem length_claim_le (attempted names : List InstanceName) :
    (claim attempted names).2.length ≤ names.length := by
  induction names generalizing attempted with
  | nil => simp [claim]
  | cons name names ih =>
      unfold claim
      split
      · exact (ih attempted).trans (Nat.le_succ _)
      · exact Nat.succ_le_succ (ih _)

namespace Drain

variable {names : List InstanceName} {d : Drain}

theorem length_drainPlan_le : (drainPlan (d.rows names)).length ≤ names.length := by
  rw [drainPlan, List.length_map]
  exact (List.length_filter_le _ _).trans (List.length_filterMap_le _ _)

theorem left_endPass (d : Drain) (second found : Bool) (size : ℕ) :
    (d.endPass second found).stage.left size ≤ (if second then 0 else 2 * size + 2) + 2 := by
  unfold Drain.endPass
  cases second
  · simp only [Bool.false_eq_true, if_false, Stage.left]
    simp only [if_true]
    omega
  · exact le_rfl

/-- A pass that reads the fleet ends, or has no more stops to issue than the fleet has names. -/
theorem left_enumerate (names : List InstanceName) {second found : Bool}
    (hstage : d.stage = .enumerating second found) (readable : Bool) :
    (d.enumerate names second found readable).stage.left names.length <
      d.stage.left names.length := by
  have hplan := (length_claim_le d.attempted (drainPlan (d.rows names))).trans length_drainPlan_le
  have hpass : ∀ d' : Drain, (d'.endPass second found).stage.left names.length <
      d.stage.left names.length := by
    intro d'
    have hend := left_endPass d' second found names.length
    rw [hstage, Stage.left]
    omega
  unfold Drain.enumerate
  split
  · dsimp only
    split
    · exact hpass _
    · rw [hstage]
      simp only [Stage.left]
      omega
  · split
    · exact hpass _
    · exact hpass _

/-- Every call of the drain brings it nearer to its end. -/
theorem left_turn (names : List InstanceName) (a : Answer) (hopen : d.stage ≠ .returned) :
    (d.turn names a).stage.left names.length < d.stage.left names.length := by
  unfold turn
  split
  · rename_i hstage
    exact left_enumerate names hstage a.readable
  · rename_i second hstage
    refine (left_endPass d second true names.length).trans_lt ?_
    rw [hstage]
    simp only [Stage.left, List.length_nil]
    omega
  · rename_i second name todo hstage
    rw [hstage]
    unfold Drain.issue
    dsimp only
    split <;> simp only [Stage.left, List.length_cons] <;> omega
  · rename_i hstage
    rw [hstage]
    simp only [Drain.settle, Stage.left]
    omega
  · rename_i hstage
    rw [hstage]
    simp only [Drain.settle, Stage.left]
    omega
  · rename_i hstage
    rw [hstage]
    simp [Drain.confirm, Stage.left]
  · rename_i hstage
    rw [hstage]
    simp [Stage.left]
  · rename_i hstage
    exact absurd hstage hopen

/-- **A drain returns**: with so many calls it has, whatever happens between them. -/
theorem returned_of_turns {acts : List Act}
    (h : d.stage.left names.length ≤ acts.countP Act.isTurn) :
    (acts.foldl (step names) d).stage = .returned := by
  induction acts generalizing d with
  | nil =>
      have hzero : d.stage.left names.length = 0 := by simpa using h
      cases hstage : d.stage <;> simp [hstage, Stage.left] at hzero
      exact hstage
  | cons act acts ih =>
      refine ih ?_
      by_cases hreturned : d.stage = .returned
      · have hkept : d.step names act = d := by
          cases act <;> simp [Drain.step, turn, hreturned]
        rw [hkept, hreturned]
        exact Nat.zero_le _
      · cases act with
        | drain a =>
            have hleft := left_turn names a hreturned
            rw [List.countP_cons_of_pos rfl] at h
            change (d.turn names a).stage.left _ ≤ _
            omega
        | meanwhile name x =>
            rw [List.countP_cons_of_neg (by simp [Act.isTurn])] at h
            simpa [Drain.step, hreturned] using h

/-- A drain of one instance, whose fleet can never be read, returns. -/
theorem returned_of_ten_turns :
    ((List.replicate 10 (Act.drain { readable := false })).foldl (step ["a"])
      (begin fun name => Supervisor.fresh name)).stage = .returned :=
  returned_of_turns (by decide)

end Drain

/-! ### The account -/

open Supervisor (fresh runSteps plainConfig)

/-- The fleet after the histories of its instances. -/
def fleetOf (history : InstanceName → List Supervisor.Step) (name : InstanceName) : Supervisor :=
  (fresh name).runSteps (history name)

theorem kept_begin {names : List InstanceName} {history : InstanceName → List Supervisor.Step}
    (hshown : ∀ name ∈ names, Shown (fleetOf history name)) :
    (Drain.begin (fleetOf history)).Kept names where
  wf name := Supervisor.wf_states (Guarded.last_mem_states (s := fresh name))
  shown _ name hname _ := .inl (hshown name hname)
  doubted _ _ hdoubted := by simp [Drain.begin, Stage.doubted] at hdoubted
  alive hover := by simp [Drain.begin, Stage.over] at hover
  own _ ho := by simp [Drain.begin] at ho
  classified _ hclassified := by simp [Drain.begin, Stage.classified] at hclassified

/-- **The drain accounts for every process** that is held when it returns, if none is held behind
a row it does not read: at its beginning, or after an operation that comes between. -/
theorem drain_accounts {names : List InstanceName}
    {history : InstanceName → List Supervisor.Step} {acts : List Act} {d : Drain}
    (hshown : ∀ name ∈ names, Shown (fleetOf history name))
    (hplain : Guarded.Meets (Drain.step names) Drain.Plain (Drain.begin (fleetOf history)) acts)
    (hd : d ∈ Guarded.states (Drain.step names) (Drain.begin (fleetOf history)) acts)
    (hreturned : d.stage = .returned) : d.Accounts names := by
  have honce : d.Once :=
    Guarded.invariant (fun _ act h _ => h.step act) (Drain.once_begin _) hplain hd
  have hkept : d.Kept names :=
    Guarded.invariant (fun _ _ h hact => h.step hact) (kept_begin hshown) hplain hd
  exact ⟨honce.issued_nodup, hkept.alive (by rw [hreturned]; rfl), hkept.own⟩

instance (s : Supervisor) : Decidable (Planned s) := inferInstanceAs (Decidable (_ ∨ _))

instance (s : Supervisor) : Decidable (Shown s) := inferInstanceAs (Decidable (_ → _))

instance (d : Drain) : (act : Act) → Decidable (d.Plain act)
  | .drain _ => inferInstanceAs (Decidable (_ → _))
  | .meanwhile _ _ => inferInstanceAs (Decidable (_ ∧ _ ∧ _))

/-- One instance runs, and two others are registered. -/
def busyHistory (name : InstanceName) : List Supervisor.Step :=
  if name = "a" then [(.register plainConfig, fun _ => {}), (.start false, fun _ => {})]
  else [(.register plainConfig, fun _ => {})]

/-- The second instance starts during the first pass, and its stop fails; the third one starts
during the second pass. -/
def busyActs : List Act :=
  [.drain {}, .meanwhile "b" (.start false, fun _ => {}), .drain {}, .drain {}, .drain {},
    .drain {}, .meanwhile "c" (.start false, fun _ => {}),
    .drain { env := fun _ => { stop := .failed } }, .drain {}, .drain {}, .drain {},
    .drain ({} : Answer)]

theorem drain_accounts_busy :
    (busyActs.foldl (Drain.step ["a", "b", "c"]) (Drain.begin (fleetOf busyHistory))).Accounts
      ["a", "b", "c"] := by
  have hshown : ∀ name ∈ ["a", "b", "c"], Shown (fleetOf busyHistory name) := by decide +kernel
  have hplain : Guarded.Meets (Drain.step ["a", "b", "c"]) Drain.Plain
      (Drain.begin (fleetOf busyHistory)) busyActs := by
    refine ⟨fun _ => rfl, ?_, fun _ => rfl, fun _ => rfl, fun _ => rfl, fun _ => rfl, ?_,
      fun _ => rfl, fun _ => rfl, fun _ => rfl, fun _ => rfl, fun _ => rfl, trivial⟩
    · decide +kernel
    · decide +kernel
  exact drain_accounts hshown hplain Guarded.last_mem_states (by decide +kernel)

/-- An instance was started, its stop could not be confirmed, and its process is still alive when
it is polled. -/
def wedgedHistory (_ : InstanceName) : List Supervisor.Step :=
  [(.register plainConfig, fun _ => {}), (.start false, fun _ => {}),
    (.stop, fun _ => { stop := .unconfirmed }), (.poll, fun _ => { poll := .alive })]

/-- **A process that is not accounted for**: it is held behind a stopping row. -/
theorem wedged_not_accounted :
    ¬ (([.drain {}, .drain {}, .drain {}, .drain {}] : List Act).foldl (Drain.step ["wedge"])
      (Drain.begin (fleetOf wedgedHistory))).Accounts ["wedge"] := by
  intro h
  have hheld : ((([.drain {}, .drain {}, .drain {}, .drain {}] : List Act).foldl
      (Drain.step ["wedge"]) (Drain.begin (fleetOf wedgedHistory))).fleet "wedge").running.isSome :=
    by decide +kernel
  have houtcomes : (([.drain {}, .drain {}, .drain {}, .drain {}] : List Act).foldl
      (Drain.step ["wedge"]) (Drain.begin (fleetOf wedgedHistory))).outcomes = [] := by
    decide +kernel
  have hnotes : (([.drain {}, .drain {}, .drain {}, .drain {}] : List Act).foldl
      (Drain.step ["wedge"]) (Drain.begin (fleetOf wedgedHistory))).notes = [.nothingToStop] := by
    decide +kernel
  rcases h.alive "wedge" (by simp) hheld with ⟨error, hfailed⟩ | ⟨names, hnoticed, -⟩
  · rw [houtcomes] at hfailed
    simp at hfailed
  · rw [hnotes] at hnoticed
    simp at hnoticed

end Shutdown

end Hekma
