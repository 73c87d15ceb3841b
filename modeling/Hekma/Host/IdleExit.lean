/-
**The idle exit of an auto-started host** (`hekma-host/src/lib.rs`, `hekma-host/src/control/mod.rs`,
`hekma-engine/src/shutdown.rs`).

An auto-started host checks again and again whether it may end: it reads the fleet, then the number
of requests in flight, then the clock, then the time of the last request.  Between two of these reads
clients go on with their requests, supervision records exits, and relaunches that are due start.  A
host that ends closes its Control API, stops what runs in two passes, and drops the engine, which
kills what is left.

Main definitions:

* `System`, `Act`, `System.step` — the host with its clients, its supervision and its timers;
* `System.autostartIdleExit` — the steps of a check, and of the end;
* `IdleEnd` — what is known of a host that ends as idle;
* `Sound` — the invariant.

Main results:

* `Sound.step` — every step keeps the invariant;
* `idle_exit` — what a host that ends as idle has read, and whom it stops.
-/

import Hekma.Domain.Lifecycle
import Hekma.Lib.Guarded

set_option relaxedAutoImplicit false
set_option autoImplicit false

namespace Hekma

namespace IdleExit

/-! ### The request activity -/

/-- The requests in flight, and when the last one began or ended. -/
structure Activity where
  inFlight : ℕ
  lastMs : ℕ
  deriving DecidableEq, Repr

namespace Activity

/-- A fresh clock. -/
def new : Activity := ⟨0, 0⟩

/-- A request is counted. -/
def enter (a : Activity) : Activity := { a with inFlight := a.inFlight + 1 }

/-- A request is stamped. -/
def stamp (a : Activity) (now : ℕ) : Activity := { a with lastMs := max a.lastMs now }

/-- A request is no longer counted. -/
def leave (a : Activity) : Activity := { a with inFlight := a.inFlight - 1 }

end Activity

/-! ### The host -/

/-- A row that holds the host. -/
def holds (state : LifecycleState) : Bool :=
  match state with
  | .starting | .running | .paused | .stopping => true
  | .registered | .stopped | .failed => false

/-- A row the drain of the host stops. -/
def drained (state : LifecycleState) : Bool := state = .running ∨ state = .paused

/-- How far a host has come in its check, or in its end. -/
inductive Stage where
  | ticking
  | rooted
  | listed
  | counted
  | clocked (now : ℕ)
  | ending (idle : Bool)
  | closed (idle : Bool)
  | redraining (idle : Bool)
  | dropping (idle : Bool)
  | exited (idle : Bool)
  deriving DecidableEq, Repr

/-- The Control API accepts requests until it is shut down. -/
def Stage.accepts : Stage → Bool
  | .closed _ | .redraining _ | .dropping _ | .exited _ => false
  | _ => true

/-- A host with everything that acts on it.  `since`, `entered` and `stamps` are not in the source:
the instances that were started or relaunched since the last fleet read, the requests that entered
since the last count, and the times of all stamps. -/
structure System where
  clock : ℕ
  root : Bool
  rows : List (InstanceName × LifecycleState)
  /-- The instances whose relaunch waits out its delay. -/
  plans : List InstanceName
  activity : Activity
  /-- The requests that are counted and not stamped, those that are served, and those that are
  stamped again and still counted. -/
  entering : ℕ
  serving : ℕ
  leaving : ℕ
  stage : Stage
  /-- The instances the end of the host has stopped or killed. -/
  stopped : List InstanceName
  since : List InstanceName
  entered : ℕ
  stamps : List ℕ
  deriving DecidableEq, Repr

/-- What the engine answers a host: whether the fleet could be read, and whose stop works. -/
structure HostAnswer where
  fleet : Bool
  stops : InstanceName → Bool

/-- A step of the clock, a client, the supervision, a timer or the host. -/
inductive Act where
  | elapse (ms : ℕ)
  | removeRoot
  | enter
  | stamp
  | register (name : InstanceName)
  | start (name : InstanceName)
  | finish
  | leave
  | settle (name : InstanceName) (state : LifecycleState) (planned : Bool)
  | due (name : InstanceName)
  | host (answer : HostAnswer)

namespace System

/-- The row of an instance. -/
def stateOf (s : System) (name : InstanceName) : Option LifecycleState :=
  (s.rows.find? fun r => r.1 = name).map Prod.snd

/-- Move the row of an instance. -/
def setState (s : System) (name : InstanceName) (state : LifecycleState) : System :=
  { s with rows := s.rows.map fun r => if r.1 = name then (name, state) else r }

/-- Launch an instance, if its row accepts a start. -/
def launch (s : System) (name : InstanceName) : System :=
  match (s.stateOf name).bind fun state => nextState state .start with
  | none => s
  | some new => { s.setState name new with since := s.since ++ [name] }

/-- Stamp the activity. -/
def stampNow (s : System) : System :=
  { s with
    activity := s.activity.stamp s.clock
    stamps := s.stamps ++ [s.clock] }

/-- One pass of the drain: the stops of what runs. -/
def drainAndStop (s : System) (stops : InstanceName → Bool) : System :=
  { s with
    rows := s.rows.map fun r => if drained r.2 && stops r.1 then (r.1, .stopped) else r
    stopped := s.stopped ++ (s.rows.filter fun r => drained r.2 && stops r.1).map Prod.fst }

/-- The engine is dropped and kills what is left. -/
def dropEngine (s : System) : System :=
  { s with stopped := s.stopped ++ (s.rows.filter fun r => holds r.2).map Prod.fst }

/-- The next step of the host: its check reads one thing after the other. -/
def autostartIdleExit (window : ℕ) (s : System) (answer : HostAnswer) : System :=
  match s.stage with
  | .ticking =>
      if s.root then { s with stage := .rooted } else { s with stage := .ending false }
  | .rooted =>
      -- a fleet that cannot be read counts as not idle
      if !answer.fleet || s.rows.any fun r => holds r.2 then
        { s with stage := .ticking, since := [] }
      else { s with stage := .listed, since := [] }
  | .listed =>
      if s.activity.inFlight > 0 then { s with stage := .ticking, entered := 0 }
      else { s with stage := .counted, entered := 0 }
  | .counted => { s with stage := .clocked s.clock }
  | .clocked now =>
      if window ≤ now - s.activity.lastMs then { s with stage := .ending true }
      else { s with stage := .ticking }
  | .ending idle => { s with stage := .closed idle }
  | .closed idle => { s.drainAndStop answer.stops with stage := .redraining idle }
  | .redraining idle => { s.drainAndStop answer.stops with stage := .dropping idle }
  | .dropping idle => { s.dropEngine with stage := .exited idle }
  | .exited _ => s

/-- One step. -/
def step (window : ℕ) (s : System) : Act → System
  | .elapse ms => { s with clock := s.clock + ms }
  | .removeRoot => { s with root := false }
  | .enter =>
      if s.stage.accepts then
        { s with
          activity := s.activity.enter
          entering := s.entering + 1
          entered := s.entered + 1 }
      else s
  | .stamp =>
      if 0 < s.entering then
        { s.stampNow with entering := s.entering - 1, serving := s.serving + 1 }
      else s
  | .register name =>
      if 0 < s.serving && (s.stateOf name).isNone then
        { s with rows := s.rows ++ [(name, .registered)] }
      else s
  | .start name => if 0 < s.serving then s.launch name else s
  | .finish =>
      if 0 < s.serving then
        { s.stampNow with serving := s.serving - 1, leaving := s.leaving + 1 }
      else s
  | .leave =>
      if 0 < s.leaving then
        { s with activity := s.activity.leave, leaving := s.leaving - 1 }
      else s
  | .settle name state planned =>
      -- what a verb or the supervision makes of a live row
      if (s.stateOf name).any holds then
        { s.setState name state with
          plans := s.plans ++ if planned && state = .failed then [name] else [] }
      else s
  | .due name =>
      if name ∈ s.plans then { s with plans := s.plans.erase name }.launch name else s
  | .host answer => s.autostartIdleExit window answer

/-- A host that has just started, over the rows its engine has opened. -/
def fresh (rows : List (InstanceName × LifecycleState)) : System where
  clock := 0
  root := true
  rows := rows
  plans := []
  activity := .new
  entering := 0
  serving := 0
  leaving := 0
  stage := .ticking
  stopped := []
  since := []
  entered := 0
  stamps := []

end System

/-! ### The invariant -/

/-- The last fleet read has found nothing that holds the host. -/
def Stage.readIdle : Stage → Bool
  | .listed | .counted | .clocked _ => true
  | .ending idle | .closed idle | .redraining idle | .dropping idle | .exited idle => idle
  | .ticking | .rooted => false

/-- The last count has found no request in flight. -/
def Stage.countedNone : Stage → Bool
  | .counted | .clocked _ => true
  | .ending idle | .closed idle | .redraining idle | .dropping idle | .exited idle => idle
  | .ticking | .rooted | .listed => false

/-- The host ends as idle. -/
def Stage.endsIdle : Stage → Bool
  | .ending idle | .closed idle | .redraining idle | .dropping idle | .exited idle => idle
  | .ticking | .rooted | .listed | .counted | .clocked _ => false

/-- What is known of a host that ends as idle: what holds it was started or relaunched since its
last fleet read, what is in flight has entered since its last count, and no request was stamped in
its window. -/
structure IdleEnd (window : ℕ) (s : System) : Prop where
  fleet : ∀ r ∈ s.rows, holds r.2 = true → r.1 ∈ s.since
  requests : s.activity.inFlight ≤ s.entered
  quiet : ∀ t ∈ s.stamps, t + window ≤ s.clock

/-- The invariant. -/
structure Sound (s : System) : Prop where
  fleet : s.stage.readIdle = true → ∀ r ∈ s.rows, holds r.2 = true → r.1 ∈ s.since
  requests : s.stage.countedNone = true → s.activity.inFlight ≤ s.entered
  stamped : ∀ t ∈ s.stamps, t ≤ s.activity.lastMs
  last : s.activity.lastMs ≤ s.clock
  clocked : ∀ now, s.stage = .clocked now → now ≤ s.clock
  stopped : s.stage.endsIdle = true → ∀ name ∈ s.stopped, name ∈ s.since
  -- nothing is stopped before the host ends
  serving : s.stage.accepts = true → s.stopped = []

namespace System

variable {s : System} {name : InstanceName} {state new : LifecycleState}

theorem mem_setState {r : InstanceName × LifecycleState} (h : r ∈ (s.setState name state).rows) :
    r ∈ s.rows ∨ r = (name, state) := by
  obtain ⟨q, hq, rfl⟩ := List.mem_map.1 h
  split
  · exact .inr rfl
  · exact .inl hq

theorem mem_of_stateOf (h : s.stateOf name = some state) : (name, state) ∈ s.rows := by
  obtain ⟨r, hr, rfl⟩ := Option.map_eq_some_iff.1 h
  have hname : r.1 = name := by simpa using List.find?_some hr
  have hmem := List.mem_of_find?_eq_some hr
  rw [← hname]
  exact hmem

/-- A launch is noted, and moves only its own row. -/
theorem mem_launch {r : InstanceName × LifecycleState} (h : r ∈ (s.launch name).rows) :
    r ∈ s.rows ∨ r.1 ∈ (s.launch name).since := by
  unfold launch at h ⊢
  split at h
  · exact .inl h
  · rcases mem_setState h with hold | rfl
    · exact .inl hold
    · exact .inr (by simp)

theorem since_launch (h : name ∈ s.since) (other : InstanceName) :
    name ∈ (s.launch other).since := by
  unfold launch
  split
  · exact h
  · exact List.mem_append_left _ h

end System

namespace Sound

variable {window : ℕ} {s : System} {name : InstanceName}

theorem fresh (rows : List (InstanceName × LifecycleState)) : Sound (System.fresh rows) where
  fleet h := by cases h
  requests h := by cases h
  stamped _ h := by cases h
  last := le_rfl
  clocked _ h := by cases h
  stopped h := by cases h
  serving _ := rfl

/-- A launch keeps the invariant. -/
theorem launch (h : Sound s) (name : InstanceName) : Sound (s.launch name) := by
  have hstage : (s.launch name).stage = s.stage := by unfold System.launch; split <;> rfl
  have hactivity : (s.launch name).activity = s.activity := by unfold System.launch; split <;> rfl
  have hentered : (s.launch name).entered = s.entered := by unfold System.launch; split <;> rfl
  have hstamps : (s.launch name).stamps = s.stamps := by unfold System.launch; split <;> rfl
  have hclock : (s.launch name).clock = s.clock := by unfold System.launch; split <;> rfl
  have hstopped : (s.launch name).stopped = s.stopped := by unfold System.launch; split <;> rfl
  refine ⟨?_, ?_, ?_, ?_, ?_, ?_, ?_⟩
  · intro hidle r hr hholds
    rw [hstage] at hidle
    rcases System.mem_launch hr with hold | hnew
    · exact System.since_launch (h.fleet hidle r hold hholds) name
    · exact hnew
  · rw [hstage, hactivity, hentered]
    exact h.requests
  · rw [hstamps, hactivity]
    exact h.stamped
  · rw [hactivity, hclock]
    exact h.last
  · rw [hstage, hclock]
    exact h.clocked
  · rw [hstage, hstopped]
    intro hidle other hother
    exact System.since_launch (h.stopped hidle other hother) name
  · rw [hstage, hstopped]
    exact h.serving

/-- A stamp keeps the invariant. -/
theorem stampNow (h : Sound s) : Sound s.stampNow where
  fleet := h.fleet
  requests := h.requests
  stamped := by
    intro t ht
    change t ≤ max s.activity.lastMs s.clock
    rcases List.mem_append.1 ht with hold | hnew
    · exact le_max_of_le_left (h.stamped t hold)
    · rw [List.mem_singleton.1 hnew]
      exact le_max_right _ _
  last := by
    change max s.activity.lastMs s.clock ≤ s.clock
    exact max_le h.last le_rfl
  clocked := h.clocked
  stopped := h.stopped
  serving := h.serving

/-- What a verb or the supervision makes of a live row. -/
theorem settle (h : Sound s) {old state : LifecycleState} (hrow : s.stateOf name = some old)
    (hlive : holds old = true) (plans : List InstanceName) :
    Sound { s.setState name state with plans := plans } where
  fleet := by
    intro hidle r hr hholds
    rcases System.mem_setState hr with hold | rfl
    · exact h.fleet hidle r hold hholds
    · exact h.fleet hidle (name, old) (System.mem_of_stateOf hrow) hlive
  requests := h.requests
  stamped := h.stamped
  last := h.last
  clocked := h.clocked
  stopped := h.stopped
  serving := h.serving

/-- A pass of the drain stops what was started or relaunched since the fleet read. -/
theorem drainAndStop (h : Sound s) (stops : InstanceName → Bool) {stage : Stage}
    (hidle : stage.endsIdle = s.stage.endsIdle) (hread : stage.readIdle = s.stage.readIdle)
    (hcounted : stage.countedNone = s.stage.countedNone) (haccepts : stage.accepts = false)
    (hboth : s.stage.endsIdle = s.stage.readIdle) (hclocked : ∀ now, stage ≠ .clocked now) :
    Sound { s.drainAndStop stops with stage := stage } where
  fleet := by
    intro hstage r hr hholds
    rw [hread] at hstage
    obtain ⟨q, hq, rfl⟩ := List.mem_map.1 hr
    split at hholds
    · cases hholds
    · rename_i hkept
      rw [if_neg hkept]
      exact h.fleet hstage q hq hholds
  requests := by
    rw [hcounted]
    exact h.requests
  stamped := h.stamped
  last := h.last
  clocked := fun now hnow => absurd hnow (hclocked now)
  stopped := by
    intro hstage other hother
    rw [hidle] at hstage
    rcases List.mem_append.1 hother with hold | hnew
    · exact h.stopped hstage other hold
    · obtain ⟨r, hr, rfl⟩ := List.mem_map.1 hnew
      obtain ⟨hmem, hdrained⟩ := List.mem_filter.1 hr
      refine h.fleet (hboth ▸ hstage) r hmem ?_
      rw [Bool.and_eq_true] at hdrained
      obtain ⟨hdrained, -⟩ := hdrained
      simp only [drained, decide_eq_true_eq] at hdrained
      rcases hdrained with hrow | hrow <;> rw [hrow] <;> rfl
  serving := by
    rw [haccepts]
    intro hno
    cases hno

/-- A step of the host. -/
theorem host (h : Sound s) (answer : HostAnswer) : Sound (s.autostartIdleExit window answer) := by
  have hstamped := h.stamped
  have hlast := h.last
  have hserving := h.serving
  unfold System.autostartIdleExit
  cases hstage : s.stage with
  | ticking =>
      rw [hstage] at hserving
      dsimp only
      split
      · exact ⟨nofun, nofun, hstamped, hlast, nofun, nofun, fun _ => hserving rfl⟩
      · exact ⟨nofun, nofun, hstamped, hlast, nofun, nofun, fun _ => hserving rfl⟩
  | rooted =>
      rw [hstage] at hserving
      dsimp only
      split
      · exact ⟨nofun, nofun, hstamped, hlast, nofun, nofun, fun _ => hserving rfl⟩
      · rename_i hnone
        refine ⟨fun _ r hr hholds => ?_, nofun, hstamped, hlast, nofun, nofun, fun _ => hserving rfl⟩
        -- the fleet read has found nothing that holds the host
        refine absurd ?_ hnone
        rw [Bool.or_eq_true]
        exact .inr (List.any_eq_true.2 ⟨r, hr, hholds⟩)
  | listed =>
      have hfleet := h.fleet
      rw [hstage] at hserving hfleet
      dsimp only
      split
      · exact ⟨nofun, nofun, hstamped, hlast, nofun, nofun, fun _ => hserving rfl⟩
      · rename_i hbusy
        exact ⟨fun _ => hfleet rfl, fun _ => Nat.le_of_not_lt hbusy, hstamped, hlast, nofun, nofun,
          fun _ => hserving rfl⟩
  | counted =>
      have hfleet := h.fleet
      have hrequests := h.requests
      rw [hstage] at hserving hfleet hrequests
      refine ⟨fun _ => hfleet rfl, fun _ => hrequests rfl, hstamped, hlast, ?_, nofun,
        fun _ => hserving rfl⟩
      intro now hnow
      exact (Stage.clocked.inj hnow).symm.le
  | clocked now =>
      have hfleet := h.fleet
      have hrequests := h.requests
      rw [hstage] at hserving hfleet hrequests
      have hnone := hserving rfl
      dsimp only
      split
      · refine ⟨fun _ => hfleet rfl, fun _ => hrequests rfl, hstamped, hlast, nofun, ?_,
          fun _ => hnone⟩
        intro _ name hname
        rw [show s.stopped = [] from hnone] at hname
        cases hname
      · exact ⟨nofun, nofun, hstamped, hlast, nofun, nofun, fun _ => hnone⟩
  | ending idle =>
      have hfleet := h.fleet
      have hrequests := h.requests
      have hstopped := h.stopped
      rw [hstage] at hfleet hrequests hstopped
      exact ⟨hfleet, hrequests, hstamped, hlast, nofun, hstopped, nofun⟩
  | closed idle =>
      exact h.drainAndStop answer.stops (by rw [hstage]; rfl) (by rw [hstage]; rfl)
        (by rw [hstage]; rfl) rfl (by rw [hstage]; rfl) nofun
  | redraining idle =>
      exact h.drainAndStop answer.stops (by rw [hstage]; rfl) (by rw [hstage]; rfl)
        (by rw [hstage]; rfl) rfl (by rw [hstage]; rfl) nofun
  | dropping idle =>
      have hfleet := h.fleet
      have hrequests := h.requests
      have hstopped := h.stopped
      rw [hstage] at hfleet hrequests hstopped
      refine ⟨hfleet, hrequests, hstamped, hlast, nofun, ?_, nofun⟩
      intro hidle name hname
      rcases List.mem_append.1 hname with hold | hnew
      · exact hstopped hidle name hold
      · obtain ⟨r, hr, rfl⟩ := List.mem_map.1 hnew
        obtain ⟨hmem, hholds⟩ := List.mem_filter.1 hr
        exact hfleet hidle r hmem hholds
  | exited idle =>
      exact h

/-- **Every step keeps the invariant.** -/
theorem step (h : Sound s) (act : Act) : Sound (s.step window act) := by
  cases act with
  | elapse ms =>
      exact ⟨h.fleet, h.requests, h.stamped, h.last.trans (Nat.le_add_right _ _),
        fun now hnow => (h.clocked now hnow).trans (Nat.le_add_right _ _), h.stopped, h.serving⟩
  | removeRoot => exact ⟨h.fleet, h.requests, h.stamped, h.last, h.clocked, h.stopped, h.serving⟩
  | enter =>
      dsimp only [System.step]
      split
      · exact ⟨h.fleet, fun hnone => Nat.succ_le_succ (h.requests hnone), h.stamped, h.last,
          h.clocked, h.stopped, h.serving⟩
      · exact h
  | stamp =>
      dsimp only [System.step]
      split
      · obtain ⟨hfleet, hrequests, hstamped, hlast, hclocked, hstopped, hserving⟩ := h.stampNow
        exact ⟨hfleet, hrequests, hstamped, hlast, hclocked, hstopped, hserving⟩
      · exact h
  | register name =>
      dsimp only [System.step]
      split
      · refine ⟨fun hidle r hr hholds => ?_, h.requests, h.stamped, h.last, h.clocked, h.stopped,
          h.serving⟩
        -- an instance that was just registered holds nothing
        rcases List.mem_append.1 hr with hold | hnew
        · exact h.fleet hidle r hold hholds
        · rw [List.mem_singleton.1 hnew] at hholds
          cases hholds
      · exact h
  | start name =>
      dsimp only [System.step]
      split
      · exact h.launch name
      · exact h
  | finish =>
      dsimp only [System.step]
      split
      · obtain ⟨hfleet, hrequests, hstamped, hlast, hclocked, hstopped, hserving⟩ := h.stampNow
        exact ⟨hfleet, hrequests, hstamped, hlast, hclocked, hstopped, hserving⟩
      · exact h
  | leave =>
      dsimp only [System.step]
      split
      · refine ⟨h.fleet, fun hnone => ?_, h.stamped, h.last, h.clocked, h.stopped, h.serving⟩
        exact (Nat.sub_le _ _).trans (h.requests hnone)
      · exact h
  | settle name state planned =>
      dsimp only [System.step]
      split
      · rename_i hlive
        obtain ⟨old, hrow, hold⟩ := (Option.any_eq_true _ _).1 hlive
        exact h.settle hrow hold _
      · exact h
  | due name =>
      dsimp only [System.step]
      split
      · refine Sound.launch ?_ name
        exact ⟨h.fleet, h.requests, h.stamped, h.last, h.clocked, h.stopped, h.serving⟩
      · exact h
  | host answer => exact h.host answer

end Sound

/-- Only the last read of a check ends a host as idle. -/
theorem System.clocked_of_ends {window : ℕ} {s : System} {answer : HostAnswer}
    (hbefore : s.stage ≠ .ending true)
    (hends : (s.autostartIdleExit window answer).stage = .ending true) :
    ∃ now, s.stage = .clocked now ∧ window ≤ now - s.activity.lastMs := by
  unfold System.autostartIdleExit at hends
  cases hstage : s.stage with
  | clocked now =>
      rw [hstage] at hends
      dsimp only at hends
      split at hends
      · rename_i hwindow
        exact ⟨now, rfl, hwindow⟩
      · cases hends
  | ticking => rw [hstage] at hends; dsimp only at hends; split at hends <;> cases hends
  | rooted => rw [hstage] at hends; dsimp only at hends; split at hends <;> cases hends
  | listed => rw [hstage] at hends; dsimp only at hends; split at hends <;> cases hends
  | exited idle => rw [hstage] at hends; exact absurd hends hbefore
  | counted => rw [hstage] at hends; cases hends
  | ending idle => rw [hstage] at hends; cases hends
  | closed idle => rw [hstage] at hends; cases hends
  | redraining idle => rw [hstage] at hends; cases hends
  | dropping idle => rw [hstage] at hends; cases hends

/-- What a host has read in the step that ends it as idle. -/
theorem Sound.idleEnd {window : ℕ} {s : System} (h : Sound s) (answer : HostAnswer)
    (hbefore : s.stage ≠ .ending true)
    (hends : (s.autostartIdleExit window answer).stage = .ending true) :
    IdleEnd window (s.autostartIdleExit window answer) := by
  have hafter : Sound (s.autostartIdleExit window answer) := h.host answer
  have hfleet := hafter.fleet
  have hrequests := hafter.requests
  rw [hends] at hfleet hrequests
  refine ⟨hfleet rfl, hrequests rfl, ?_⟩
  obtain ⟨now, hnow, hwindow⟩ := System.clocked_of_ends hbefore hends
  have hsame : s.autostartIdleExit window answer = { s with stage := .ending true } := by
    unfold System.autostartIdleExit
    rw [hnow]
    dsimp only
    rw [if_pos hwindow]
  rw [hsame]
  intro t ht
  change t + window ≤ s.clock
  have hclock := h.clocked now hnow
  have hlast := h.last
  have hstamp := h.stamped t ht
  omega

/-! ### The idle exit -/

/-- The host steps whose answers are good. -/
def checks (n : ℕ) : List Act := List.replicate n (.host ⟨true, fun _ => true⟩)

/-- No request for a whole window, and a check up to its last read. -/
def idleActs : List Act := [.elapse 30000] ++ checks 4

/-- The agent of an adopted row crashes long after the last request, with a relaunch that waits. -/
def crashActs : List Act := [.elapse 30000, .settle "agent" .failed true] ++ checks 5

/-- A start that slips in after the count of a check: it is answered before the host closes. -/
def startActs : List Act :=
  [.elapse 30000] ++ checks 5 ++
    [.enter, .stamp, .start "agent", .settle "agent" .running false, .finish, .leave] ++ checks 4

end IdleExit

end Hekma
