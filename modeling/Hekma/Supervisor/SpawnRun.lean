/-
**The Run of the spawn record** (`store/sqlite.rs`, `domain/supervisor/spawn.rs`,
`domain/supervisor/reaper.rs`).

The spawn record names the Run its process belongs to, in a column of its own.  A launch writes both
in one job and a settlement clears both in one, so the record has a Run exactly while it names a
process, in every state the store passes through.  A held handle holds the Run of the record.

Main definitions:

* `Disk.live`, `Disk.spawnRun` — the record names a process, and the Run of the record;
* `Disk.Named`, `Supervisor.Recorded`, `Supervisor.Holds` — the invariant, over the store and over
  the handle;
* `Supervisor.Spent` — what every operation without a launch or an adoption keeps.

Main results:

* `spent_conduct` — those operations keep the invariant and bring no process back;
* `sound_launch` — a launch keeps it, if nothing is held;
* `sound_openEngine`, `vacant_openEngine` — opening the engine brings it about.
-/

import Hekma.Domain.Runs.Jobs
import Hekma.Supervisor.Conduct
import Hekma.Supervisor.HandleRow

set_option relaxedAutoImplicit false
set_option autoImplicit false

namespace Hekma

open Governance

/-! ### The books -/

namespace Books

variable {b b' : Books} {input : EvalInput} {at_ : Timestamp} {evaluation : Evaluation}

theorem spawn_evaluate (h : b.evaluate input at_ = .ok (evaluation, b')) :
    b'.ledger.runs.spawnRunId = b.ledger.runs.spawnRunId := by
  rcases evaluate_spec h with ⟨-, -, rfl⟩ | ⟨-, hrec⟩
  · rfl
  · obtain ⟨runs, hledger, hruns⟩ := hrec.ledger
    have hlevels : (levelsFor b input at_).2.ledger.runs.spawnRunId =
        b.ledger.runs.spawnRunId := by
      unfold levelsFor
      split
      · exact Runs.spawn_ensureRunRow _ _ _ _
      · rfl
    rw [hledger]
    exact hruns.spawn.trans hlevels

/-- Metering does not touch the Run of a spawn record. -/
theorem Charged.spawn (h : b.Charged b') :
    b'.ledger.runs.spawnRunId = b.ledger.runs.spawnRunId := by
  cases h with
  | usage event generation input at_ evaluation _ h =>
      rcases commitUsage_spec h with ⟨-, -, rfl⟩ | ⟨-, ledger, hins, hev⟩
      · rfl
      · rw [spawn_evaluate hev]
        change ledger.runs.spawnRunId = _
        rw [Ledger.insertUsage_runs hins]
  | evaluated input at_ evaluation _ h => exact spawn_evaluate h

end Books

/-! ### The record -/

/-- The spawn record names a process. -/
def Disk.live (d : Disk) : Bool := d.record.any fun r => r.pid ≠ 0

/-- The Run of the spawn record. -/
def Disk.spawnRun (d : Disk) (name : InstanceName) : Option RunId :=
  d.books.ledger.runs.spawnRunId name

/-- The record has a Run exactly while it names a process, and without a row there is none. -/
structure Disk.Named (name : InstanceName) (d : Disk) : Prop where
  run : (d.spawnRun name).isSome ↔ d.live = true
  rowless : d.state = none → d.record = none

/-- A write that keeps the process and the Run of the record. -/
structure Disk.Carries (name : InstanceName) (d d' : Disk) : Prop where
  live : d'.live = d.live
  run : d'.spawnRun name = d.spawnRun name
  rowless : (d.state = none → d.record = none) → d'.state = none → d'.record = none

theorem Disk.Carries.named {name : InstanceName} {d d' : Disk} (h : d.Carries name d')
    (hd : d.Named name) : d'.Named name :=
  ⟨by rw [h.run, h.live]; exact hd.run, h.rowless hd.rowless⟩

/-- A settled record names no process. -/
theorem settledRecord_dead (record : Option SpawnRecord) :
    ((Supervisor.settledRecord record).any fun r => r.pid ≠ 0) = false := by
  unfold Supervisor.settledRecord
  cases record with
  | none => rfl
  | some r =>
      dsimp only
      split <;> simp

namespace Supervisor

variable {s s' t : Supervisor} {env : Env}

/-- The invariant over the store, and over every state the store has passed through. -/
def Recorded (s : Supervisor) : Prop :=
  s.disk.Named s.name ∧ ∀ d ∈ s.trace, d.Named s.name

/-- A held handle holds the Run of the record. -/
def Holds (s : Supervisor) : Prop :=
  ∀ h, s.running = some h → s.disk.spawnRun s.name = some h.runId

/-- What an operation keeps that launches nothing and adopts nothing. -/
structure Spent (s s' : Supervisor) : Prop where
  name : s'.name = s.name
  recorded : s.Recorded → s'.Recorded
  holds : s.Recorded → s.Holds → s'.Holds
  live : s'.disk.live = true → s.disk.live = true

theorem Spent.refl (s : Supervisor) : Spent s s := ⟨rfl, id, fun _ => id, id⟩

theorem Spent.trans (h : Spent s s') (h' : Spent s' t) : Spent s t where
  name := h'.name.trans h.name
  recorded hr := h'.recorded (h.recorded hr)
  holds hr hh := h'.holds (h.recorded hr) (h.holds hr hh)
  live hl := h.live (h'.live hl)

theorem Recorded.commit {disk : Disk} (h : s.Recorded) (hdisk : disk.Named s.name) :
    (s.commit disk).Recorded := by
  refine ⟨hdisk, fun d hd => ?_⟩
  rcases List.mem_append.1 hd with hd | hd
  · exact h.2 d hd
  · rw [List.mem_singleton.1 hd]
    exact hdisk

/-- A job that keeps the process and the Run of the record. -/
theorem Spent.job (env : Env) {disk : Disk} (h : s.disk.Carries s.name disk) :
    Spent s (s.job env disk).2 := by
  rcases job_cases s env disk with heq | ⟨-, err, heq⟩
  · rw [heq]
    refine ⟨rfl, fun hr => Recorded.commit (s := s.tick) hr (h.named hr.1), fun _ hh x hx => ?_, fun hl => ?_⟩
    · exact h.run.trans (hh x hx)
    · rwa [← h.live]
  · rw [heq]
    exact ⟨rfl, id, fun _ => id, id⟩

theorem carries_transition (at_ : Timestamp) (fate : Runs.RunFate) (prior new : LifecycleState)
    (cause : TransitionCause) :
    s.disk.Carries s.name { s.disk with
      state := some new
      events := s.disk.events ++ [⟨prior, new, cause⟩]
      books := s.projected at_ new fate cause } := by
  refine ⟨rfl, ?_, fun _ hrow => absurd hrow (by simp)⟩
  change (Runs.commitJob _ _).spawnRunId s.name = _
  cases hjob : Runs.projectTransition s.disk.books.ledger.runs s.name new fate cause.text at_ with
  | error err => rfl
  | ok job => exact congrFun (Runs.spawn_conduct.projectTransition hjob) s.name

/-- A recorded transition. -/
theorem Spent.transitionWith (s : Supervisor) (env : Env) (fate : Runs.RunFate)
    (prior new : LifecycleState) (cause : TransitionCause) :
    Spent s (s.transitionWith env fate prior new cause).2 := by
  unfold Supervisor.transitionWith
  split
  · exact .refl s
  · have hjob := Spent.job env
      (carries_transition (s := s) (s.now env).time fate prior new cause)
    generalize s.job env _ = r at hjob ⊢
    obtain ⟨_ | err, s'⟩ := r
    · exact ⟨hjob.name, hjob.recorded, hjob.holds, hjob.live⟩
    · exact hjob

theorem live_settledDisk (s : Supervisor) (at_ : Timestamp) : (s.settledDisk at_).live = false := by
  unfold settledDisk
  cases hrec : s.disk.record with
  | none => simp [Disk.live, hrec]
  | some r => exact settledRecord_dead (some r)

/-- The record is settled, and its Run with it. -/
theorem named_settledDisk (h : s.disk.Named s.name) (at_ : Timestamp) :
    (s.settledDisk at_).Named s.name := by
  have hlive := live_settledDisk s at_
  unfold settledDisk at hlive ⊢
  cases hrec : s.disk.record with
  | none => exact h
  | some r =>
      rw [hrec] at hlive
      refine ⟨?_, fun hrow => ?_⟩
      · have hnone : ((Runs.RunOp.settle s.name).apply s.disk.books.ledger.runs at_).spawnRunId
            s.name = none := Function.update_self _ _ _
        rw [hlive]
        change (((Runs.RunOp.settle s.name).apply s.disk.books.ledger.runs at_).spawnRunId
          s.name).isSome ↔ _
        rw [hnone]
        simp
      · have hnone := h.rowless hrow
        rw [hrec] at hnone
        exact absurd hnone (by simp)

/-- A settlement without a handle. -/
theorem Spent.settle (hfree : s.running = none) : Spent s (s.settleSpawnRecord env).2 := by
  unfold settleSpawnRecord
  rcases job_cases s env (s.settledDisk (s.now env).time) with heq | ⟨-, err, heq⟩
  · rw [heq]
    refine ⟨rfl, fun hr => Recorded.commit (s := s.tick) hr (named_settledDisk hr.1 _), fun _ _ x hx => ?_,
      fun hl => ?_⟩
    · rw [show s.running = some x from hx] at hfree
      exact absurd hfree (by simp)
    · exact absurd (hl.symm.trans (live_settledDisk s _)) (by simp)
  · rw [heq]
    exact ⟨rfl, id, fun _ => id, id⟩

theorem Spent.setRestartPolicy (s : Supervisor) (env : Env) (policy : RestartPolicy) :
    Spent s (s.setRestartPolicy env policy).2 := by
  unfold Supervisor.setRestartPolicy
  split
  · exact .refl s
  · rename_i state hrow
    refine Spent.job env ⟨?_, rfl, fun _ hnone => ?_⟩
    · unfold Disk.live
      cases s.disk.record <;> rfl
    · rw [show s.disk.state = none from hnone] at hrow
      exact absurd hrow (by simp)

theorem Spent.setRestartCount (s : Supervisor) (env : Env) (count : ℕ) :
    Spent s (s.setRestartCount env count).2 := by
  refine Spent.job env ⟨?_, rfl, fun hrow hnone => ?_⟩
  · unfold Disk.live
    cases s.disk.record <;> rfl
  · change (s.disk.record.map _) = none
    rw [hrow hnone]
    rfl

/-- A process that is found again for its stop is held under the Run of its record. -/
theorem Spent.reacquire (s : Supervisor) (env : Env) : Spent s (s.reacquire env) := by
  unfold Supervisor.reacquire
  split
  · rename_i r hfree hrec
    split
    · refine ⟨rfl, id, fun hr _ x hx => ?_, id⟩
      obtain rfl := Option.some.inj hx
      have hlive : s.disk.live = true := by
        simp only [liveRecord, Option.filter_eq_some_iff, decide_eq_true_eq] at hrec
        simp [Disk.live, hrec.1, hrec.2]
      obtain ⟨id, hid⟩ := Option.isSome_iff_exists.1 (hr.1.run.2 hlive)
      change s.disk.spawnRun s.name = some ((s.disk.spawnRun s.name).getD _)
      rw [hid, Option.getD_some]
    · exact ⟨rfl, id, fun _ => id, id⟩
  · exact .refl s

/-- **Without a launch and an adoption** the record keeps its Run until both are cleared. -/
theorem spent_conduct (env : Env) : Conduct env Spent where
  refl := .refl
  trans := .trans
  tick _ := ⟨rfl, id, fun _ => id, id⟩
  handle s f hf := by
    refine ⟨rfl, id, fun _ hh x hx => ?_, id⟩
    obtain ⟨y, hy, rfl⟩ := Option.map_eq_some_iff.1 hx
    rw [(hf y).1]
    exact hh y hy
  drop _ := ⟨rfl, id, fun _ _ x hx => absurd hx (by simp [dropHandle]), id⟩
  notes _ _ _ _ _ := ⟨rfl, id, fun _ => id, id⟩
  transition s fate prior new cause := .transitionWith s env fate prior new cause
  settle _ hfree := .settle hfree
  policy s policy := .setRestartPolicy s env policy
  count s count := .setRestartCount s env count
  charge s books h := by
    have hcarries : s.disk.Carries s.name { s.disk with books := books } :=
      ⟨rfl, congrFun h.spawn s.name, id⟩
    refine ⟨rfl, fun hr => Recorded.commit (s := s.tick) hr (hcarries.named hr.1), fun _ hh x hx => ?_, id⟩
    exact hcarries.run.trans (hh x hx)
  reacquire s := .reacquire s env

/-! ### A launch -/

/-- The Run and the handle are consistent. -/
def Sound (s : Supervisor) : Prop := s.Recorded ∧ s.Holds

theorem Spent.sound (h : Spent s s') (hs : s.Sound) : s'.Sound :=
  ⟨h.recorded hs.1, h.holds hs.1 hs.2⟩

theorem sound_of_free (h : s.Recorded) (hfree : s.running = none) : s.Sound :=
  ⟨h, fun x hx => by rw [hfree] at hx; exact absurd hx (by simp)⟩

/-- The record of a launch is written, and nothing is held yet. -/
structure Readied (runId : RunId) (s : Supervisor) : Prop where
  recorded : s.Recorded
  free : s.running = none
  run : s.disk.spawnRun s.name = some runId

theorem Readied.sound {runId : RunId} (h : Readied runId s) : s.Sound :=
  sound_of_free h.recorded h.free

/-- A job that keeps the process and the Run of the record, while nothing is held. -/
theorem Readied.job (env : Env) {runId : RunId} {disk : Disk} (h : Readied runId s)
    (hdisk : s.disk.Carries s.name disk) : Readied runId (s.job env disk).2 := by
  have hspent := Spent.job env hdisk
  refine ⟨hspent.recorded h.recorded, (running_job s env disk).trans h.free, ?_⟩
  rcases job_cases s env disk with heq | ⟨-, err, heq⟩
  · rw [heq]
    exact hdisk.run.trans h.run
  · rw [heq]
    exact h.run

theorem Readied.transition (env : Env) {runId : RunId} (h : Readied runId s) (prior new : LifecycleState)
    (cause : TransitionCause) : Readied runId (s.transition env prior new cause).2 := by
  unfold Supervisor.transition Supervisor.transitionWith
  split
  · exact h
  · have hjob := Readied.job env h
      (carries_transition (s := s) (s.now env).time .terminal prior new cause)
    generalize s.job env _ = r at hjob ⊢
    obtain ⟨_ | err, s'⟩ := r
    · exact ⟨hjob.recorded, hjob.free, hjob.run⟩
    · exact hjob

/-- The session is a column of its own. -/
theorem Readied.setAcpSession {runId : RunId} (h : Readied runId s) :
    Readied runId (s.setAcpSession env) := by
  refine Readied.job env h ⟨?_, rfl, fun hrow hnone => ?_⟩
  · unfold Disk.live
    cases s.disk.record <;> rfl
  · change (s.disk.record.map _) = none
    rw [hrow hnone]
    rfl

/-- The record, the generation and the Run are written in one job, or nothing is. -/
theorem readied_writeSpawnRecord (h : s.Recorded) (hfree : s.running = none)
    (hrow : s.disk.state ≠ none) (hpid : (s.now env).pid ≠ 0) (detach : Bool) (count : ℕ)
    (runId : RunId) (fresh : Bool) :
    (∃ s', s.writeSpawnRecordNewLaunch env detach count runId fresh = (none, s') ∧
      Readied runId s') ∨
    ∃ err, s.writeSpawnRecordNewLaunch env detach count runId fresh = (some err, s.tick) := by
  unfold writeSpawnRecordNewLaunch
  dsimp only
  cases hjob : Runs.ensureSupervised (Runs.setSpawnRunId s.books.ledger.runs s.name runId)
      ⟨s.name, runId, s.disk.config.observed, s.disk.config.labels, fresh⟩ (s.now env).time with
  | error err => exact .inr ⟨_, rfl⟩
  | ok job =>
      have hspawn : job.1.spawnRunId s.name = some runId := by
        rw [Runs.spawn_conduct.ensureSupervised hjob]
        exact Function.update_self _ _ _
      dsimp only
      rcases job_cases s env { s.disk with
          record := some ⟨(s.now env).pid, detach, s.disk.config.restartPolicy, count, false⟩
          generation := s.disk.generation + 1
          books := s.disk.books.setRuns job.1 } with heq | ⟨-, err, heq⟩
      · refine .inl ⟨_, heq, Recorded.commit (s := s.tick) h ⟨?_, fun hnone => ?_⟩, hfree, hspawn⟩
        · change (job.1.spawnRunId s.name).isSome ↔ decide ((s.now env).pid ≠ 0) = true
          rw [hspawn]
          simp [hpid]
        · exact absurd hnone hrow
      · exact .inr ⟨_, heq⟩

theorem spent_failLaunch (s : Supervisor) (env : Env) (cause : TransitionCause) :
    Spent s (s.failLaunch env cause).2 :=
  (spent_conduct env).andThen (.transitionWith s env .terminal _ _ cause) fun s => .refl s

theorem spent_exitDuringProbe (hfree : s.running = none) : Spent s (s.exitDuringProbe env).2 :=
  ((spent_conduct env).planRestart hfree false).trans
    ((Spent.transitionWith _ env _ _ _ _).trans ((spent_conduct env).notes _ _ _ _ _))

/-- The handle of a launch holds the Run its record was written with. -/
theorem sound_becomeRunning {runId : RunId} (h : Readied runId s) (restart : Option ℕ)
    (kept : Option RunId) (fence : List LatchKey) (cursor : UsageChannel → ℕ) :
    (s.becomeRunning env restart kept runId fence cursor).2.Sound := by
  have hmoved := Readied.transition env h .starting .running
    (restart.elim .adapterReady .restarted)
  unfold becomeRunning
  generalize s.transition env .starting .running (restart.elim .adapterReady .restarted) = r
    at hmoved ⊢
  obtain ⟨_ | err, s₁⟩ := r
  · rw [andThen_none]
    dsimp only at hmoved ⊢
    have hheld : ({ s₁ with
        pollErrorStreak := 0
        running := some (s₁.launchedHandle runId fence cursor) } : Supervisor).Sound := by
      refine ⟨hmoved.recorded, fun x hx => ?_⟩
      obtain rfl := Option.some.inj hx
      exact hmoved.run
    exact ((spent_conduct env).enforceLaunch _ restart kept runId fence).sound hheld
  · exact hmoved.sound

/-- **A launch** keeps the invariant, if nothing is held. -/
theorem sound_launch (h : s.Recorded) (hfree : s.running = none) (hrow : s.disk.state ≠ none)
    (hpid : ∀ n, (env n).pid ≠ 0) (restart : Option ℕ) (detach : Bool) (kept : Option RunId)
    (fence : List LatchKey) : (s.launch env restart detach kept fence).2.Sound := by
  have hfail : ∀ (s' : Supervisor) cause, s'.Sound → (s'.failLaunch env cause).2.Sound :=
    fun s' cause hs' => (spent_failLaunch s' env cause).sound hs'
  unfold launch
  dsimp only
  split
  · exact hfail _ _ (sound_of_free (s := s.tick) h hfree)
  rcases readied_writeSpawnRecord (s := s.tick) h hfree hrow (hpid _) detach (restart.getD 0)
    (kept.getD (s.now env).mintedRun) kept.isNone with ⟨s₁, heq, hready⟩ | ⟨err, heq⟩
  · rw [heq]
    dsimp only
    split
    · exact hfail _ _ hready.sound
    have hready' : Readied (kept.getD (s.now env).mintedRun)
        (if s₁.disk.config.isAcp then s₁.setAcpSession env else s₁) := by
      split
      · exact hready.setAcpSession
      · exact hready
    generalize (if s₁.disk.config.isAcp then s₁.setAcpSession env else s₁) = s₂ at hready' ⊢
    split
    · split
      · exact hfail _ _ hready'.sound
      · exact (spent_exitDuringProbe hready'.free).sound hready'.sound
      · exact sound_becomeRunning hready' _ _ _ _
    · exact sound_becomeRunning hready' _ _ _ _
  · rw [heq]
    exact hfail _ _ (sound_of_free (s := s.tick.tick) h hfree)

theorem sound_startInner (h : s.Sound)
    (hfree : ∀ prior, s.disk.state = some prior → (nextState prior .start).isSome →
      s.running = none) (hpid : ∀ n, (env n).pid ≠ 0) (restart : Option ℕ) (detach : Bool) :
    (s.startInner env restart detach).2.Sound := by
  unfold startInner
  split
  · exact h
  rename_i state hrow
  split
  · exact h
  rename_i new hnext
  split
  · exact h
  split
  · exact h
  split
  · exact h
  have hfree := hfree state hrow (by rw [hnext]; rfl)
  dsimp only
  rcases ensureLogDir_cases s.tick env with heq | heq
  · rw [heq, andThen_none]
    have hspent : Spent s.tick.tick (s.tick.tick.transition env state new (.command "start")).2 :=
      .transitionWith s.tick.tick env .terminal state new (.command "start")
    have hrunning : (s.tick.tick.transition env state new (.command "start")).2.running =
        s.tick.tick.running := running_transition _ _ _
    rcases transition_cases (s := s.tick.tick) (by rw [disk_tick, disk_tick, hrow]; simp) env state
      new (.command "start") with ⟨s₁, hm, hc⟩ | ⟨-, err, s₁, hm, -⟩
    · rw [hm] at hspent hrunning
      rw [hm, andThen_none]
      have hrow₁ : s₁.disk.state ≠ none := by
        rw [← state_control, hc]
        simp
      exact sound_launch (hspent.recorded h.1) (hrunning.trans hfree) hrow₁ hpid _ _ _ _
    · rw [hm] at hspent
      rw [hm, andThen_some]
      exact hspent.sound h
  · rw [heq, andThen_some]
    exact h

/-! ### The opening of the engine -/

/-- A process that is not held is not the one of a live record. -/
theorem live_of_liveRecord : s.liveRecord.isSome ↔ s.disk.live = true := by
  unfold liveRecord Disk.live
  cases hrec : s.disk.record with
  | none => simp
  | some r => by_cases hpid : r.pid = 0 <;> simp [Option.filter, hpid]

/-- The adopted Run is the one of the record. -/
theorem adoptedRun_eq (env : Env) (h : s.Recorded) (hlive : s.disk.live = true) :
    ∃ id, s.disk.spawnRun s.name = some id ∧ s.adoptedRun env = (id, s) := by
  obtain ⟨id, hid⟩ := Option.isSome_iff_exists.1 (h.1.run.2 hlive)
  refine ⟨id, hid, ?_⟩
  unfold adoptedRun
  rw [show s.books.ledger.runs.spawnRunId s.name = some id from hid]

/-- A job of the registry that keeps the Runs of the records. -/
theorem spent_setRuns {runs : RunStore} (h : runs.spawnRunId = s.disk.books.ledger.runs.spawnRunId) :
    Spent s (s.job env { s.disk with books := s.disk.books.setRuns runs }).2 :=
  Spent.job env ⟨rfl, congrFun h s.name, id⟩

theorem spent_syncAdoptedRun (s : Supervisor) (env : Env) (runId : RunId) :
    Spent s (s.syncAdoptedRun env runId) := by
  unfold syncAdoptedRun
  cases hjob : Runs.ensureSupervised s.books.ledger.runs
      ⟨s.name, runId, s.disk.config.observed, s.disk.config.labels, false⟩ (s.now env).time with
  | error err => exact (spent_conduct env).tick s
  | ok job => exact spent_setRuns (Runs.spawn_conduct.ensureSupervised hjob)

theorem spent_endRunsWithoutAProcess (s : Supervisor) (env : Env) :
    Spent s (s.endRunsWithoutAProcess env) := by
  unfold endRunsWithoutAProcess
  cases hjob : Runs.endRunsWithoutAProcess s.books.ledger.runs
      (fun name => if name = s.name then s.disk.state.getD .registered else .running)
      (s.now env).time with
  | error err => exact (spent_conduct env).tick s
  | ok job => exact spent_setRuns (Runs.spawn_conduct.endRunsWithoutAProcess hjob)

theorem sound_adopt (h : s.Recorded) (hfree : s.running = none) (hlive : s.disk.live = true) :
    (s.adopt env).Sound := by
  obtain ⟨id, hid, hrun⟩ := adoptedRun_eq env h hlive
  unfold adopt
  rw [hrun]
  dsimp only
  have hready : Readied id (s.bumpLaunchGeneration env) :=
    Readied.job env ⟨h, hfree, hid⟩ ⟨rfl, rfl, fun hrow => hrow⟩
  generalize s.bumpLaunchGeneration env = b at hready ⊢
  have hheld : ({ b.tick with running := some (b.adoptedHandle env id (s.fenceReasons id)) } :
      Supervisor).Sound := by
    refine ⟨hready.recorded, fun x hx => ?_⟩
    obtain rfl := Option.some.inj hx
    exact hready.run
  exact ((spent_conduct env).enforceBudget (spent_conduct env).stopWithCause _ id _).sound
    ((spent_syncAdoptedRun _ env id).sound hheld)

theorem spent_reconcileOrphanFailed (hfree : s.running = none) (hrow : s.disk.state ≠ none) :
    Spent s (s.reconcileOrphanFailed env) := by
  unfold reconcileOrphanFailed
  cases hstate : s.disk.state with
  | none => exact absurd hstate hrow
  | some state =>
      dsimp only
      split
      · have hrunning : ((s.ensureLogDir env).2.transition env state .failed .crashed).2.running =
            (s.ensureLogDir env).2.running := running_transition _ _ _
        have hlog : (s.ensureLogDir env).2.running = none := by
          rcases ensureLogDir_cases s env with heq | heq <;> rw [heq] <;> exact hfree
        exact ((spent_conduct env).ensureLogDir s).trans
          ((Spent.transitionWith _ env .terminal _ _ _).trans (.settle (hrunning.trans hlog)))
      · exact .settle hfree

/-- **Opening the engine** brings the invariant about. -/
theorem sound_openEngine (h : s.Recorded) : (s.openEngine env).Sound := by
  have hended : s.ended.Sound := sound_of_free h rfl
  refine (spent_endRunsWithoutAProcess _ env).sound ?_
  unfold adoptOrphan
  split
  · exact hended
  rename_i r hrec
  have hlive : s.disk.live = true := live_of_liveRecord.1 (by
    change s.liveRecord = some r at hrec
    rw [hrec]
    rfl)
  split
  · exact hended
  split
  · exact sound_adopt (s := s.ended.tick) h rfl hlive
  · refine (spent_reconcileOrphanFailed (s := s.ended.tick) rfl ?_).sound hended
    -- a live record has a row
    intro hrow
    have hnone := h.1.rowless hrow
    rw [Disk.live, hnone] at hlive
    exact absurd hlive (by simp)

/-- What settles is not live, if the write commits. -/
theorem live_settle (hw : ∀ n, (env n).write = .committed) :
    (s.settleSpawnRecord env).2.disk.live = false := by
  unfold settleSpawnRecord
  rcases job_cases s env (s.settledDisk (s.now env).time) with heq | ⟨⟨n, hn⟩, -⟩
  · rw [heq]
    exact live_settledDisk s _
  · exact absurd (hw n) hn

/-- An engine that is opened over a row of its own leaves no live record unheld under a live
row. -/
theorem vacant_openEngine (h : s.Recorded) (hopen : s.OpensOrderly env)
    (hown : ∀ n, (env n).ownedElsewhere = false) (hfree : (s.openEngine env).running = none)
    (hlive : (s.openEngine env).control.Live) : (s.openEngine env).disk.live = false := by
  have hw : ¬ env.faults.write := fun ⟨n, hn⟩ => hn (hopen.committed n)
  have hf : ¬ env.faults.stopFailed := fun ⟨n, hn⟩ => hopen.stops n hn
  have hend := spent_endRunsWithoutAProcess (s.ended.adoptOrphan env) env
  rw [← Bool.not_eq_true]
  intro hrecord
  have hrecord := hend.live hrecord
  change ((s.ended.adoptOrphan env).endRunsWithoutAProcess env).running = none at hfree
  change ((s.ended.adoptOrphan env).endRunsWithoutAProcess env).control.Live at hlive
  rw [control_endRunsWithoutAProcess] at hlive
  have hheld : (s.ended.adoptOrphan env).control.held = none := by
    have hcontrol : ((s.ended.adoptOrphan env).endRunsWithoutAProcess env).control =
        (s.ended.adoptOrphan env).control := control_endRunsWithoutAProcess
    rw [← hcontrol]
    simp [control, hfree]
  unfold adoptOrphan at hrecord hlive hheld
  split at hrecord
  · rename_i hnone
    have hsome := live_of_liveRecord.2 hrecord
    rw [hnone] at hsome
    exact absurd hsome (by simp)
  · rename_i r hrec
    simp only [hrec] at hlive hheld
    have hforeign : s.ended.foreign env = false := by
      simp [foreign, now, hown, hopen.committed]
    rw [hforeign] at hrecord hlive hheld
    simp only [Bool.false_eq_true, if_false] at hrecord hlive hheld
    split at hrecord
    · rename_i hfound
      simp only [hfound] at hlive hheld
      -- an adopted process is held until its row says that it has ended
      obtain ⟨runId, generation, henf⟩ := adopt_enforced s.ended.tick env
      have hrow := hopen.found _ hfound
      have htidy := Control.Tidy.enforced hw hf (Control.agrees_of_running hrow) henf
      exact absurd (htidy.vacant hheld hlive).1 (by simp [Control.holding])
    · unfold reconcileOrphanFailed at hrecord
      split at hrecord
      · rename_i state hrow
        rw [live_settle hopen.committed] at hrecord
        exact absurd hrecord (by simp)
      · rename_i hrow
        have hnone := h.1.rowless hrow
        have hsome : s.ended.disk.live = true := live_of_liveRecord.1 (by rw [hrec]; rfl)
        rw [Disk.live, show s.ended.disk.record = none from hnone] at hsome
        exact absurd hsome (by simp)

end Supervisor

end Hekma
