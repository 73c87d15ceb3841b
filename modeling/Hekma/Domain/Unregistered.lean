/-
**The evaluations of a Run id without a row** (`domain/pipeline.rs`, `store/runs_sqlite.rs`).

A Run id that no operation has registered is one process level, and its breach acts on the process.
The evaluation gives the id a row, so that its latches have a reference; the row is that of an ended
owner.  The next evaluation finds the row, and the breach of an ended owner acts on nothing.

Main definitions:

* `MeterJob`, `Books.after` — a usage commit or an evaluation, and the books after it;
* `Books.treated` — the levels each evaluation of some jobs works on;
* `Books.Placeholder` — the id has the row of an ended owner.

Main results:

* `treated_placeholder` — every evaluation of such a row spares the process;
* `treated_acting_iff` — **when every evaluation acts**: if there is no second one.
-/

import Hekma.Domain.Runs.Tree
import Hekma.Domain.Pipeline

set_option relaxedAutoImplicit false
set_option autoImplicit false

namespace Hekma

/-! ### Jobs -/

/-- A job of the metering of a process. -/
inductive MeterJob where
  | commit (event : UsageEvent) (generation : ℕ) (input : EvalInput) (at_ : Timestamp)
  | evaluate (input : EvalInput) (at_ : Timestamp)

/-- What the evaluation of a job reads. -/
def MeterJob.input : MeterJob → EvalInput
  | .commit _ _ input _ => input
  | .evaluate input _ => input

namespace Books

/-- The books after a job.  A job that fails is rolled back. -/
def after (b : Books) : MeterJob → Books
  | .commit event generation input at_ =>
      match b.commitUsage event generation input at_ with
      | .ok (_, _, b') => b'
      | .error _ => b
  | .evaluate input at_ =>
      match b.evaluate input at_ with
      | .ok (_, b') => b'
      | .error _ => b

/-- The levels the evaluation of a job works on.  A commit that inserts nothing evaluates
nothing. -/
def levelsIn (b : Books) : MeterJob → Option (List Level)
  | .commit event generation input at_ =>
      match b.ledger.insertUsage event input.rate generation with
      | .ok (.inserted, ledger) => some (levelsFor { b with ledger := ledger } input at_).1
      | _ => none
  | .evaluate input at_ => some (levelsFor b input at_).1

/-- The levels each evaluation of some jobs works on. -/
def treated (b : Books) : List MeterJob → List (List Level)
  | [] => []
  | job :: jobs => (b.levelsIn job).toList ++ treated (b.after job) jobs

/-- The id has the row of an ended owner. -/
def Placeholder (b : Books) (id : RunId) : Prop :=
  ∃ r, b.ledger.runs.runRecord id = some r ∧ r.processOwner = true ∧ r.isEnded = true

/-- The jobs meter a supervised process of a registered instance under a Run id. -/
def Meters (b : Books) (id : RunId) (jobs : List MeterJob) : Prop :=
  ∀ job ∈ jobs, job.input.runId = id ∧ job.input.supervised = true ∧
    job.input.name ∈ b.ledger.runs.instances

variable {b b' : Books} {id : RunId} {input : EvalInput} {at_ : Timestamp} {job : MeterJob}
  {jobs : List MeterJob}

/-! ### The levels -/

theorem levelsFor_unregistered (at_ : Timestamp)
    (h : b.ledger.runs.runRecord input.runId = none) :
    levelsFor b input at_ = ([processLevel input.runId true],
      b.setRuns (b.ledger.runs.ensureRunRow input.runId input.name at_)) := by
  have hchain : b.ledger.runs.runChain input.runId = [] := by
    change RunStore.runChainF _ (15 + 1) _ = _
    rw [RunStore.runChainF, h]
  rw [levelsFor, hchain]

theorem levelsFor_placeholder (at_ : Timestamp) (h : b.Placeholder input.runId) :
    levelsFor b input at_ = ([processLevel input.runId false], b) := by
  obtain ⟨r, hr, howner, hended⟩ := h
  have hid := RunStore.runId_of_runRecord hr
  obtain ⟨rest, hchain⟩ : ∃ rest, b.ledger.runs.runChain input.runId = r :: rest := by
    change ∃ rest, RunStore.runChainF _ (15 + 1) _ = r :: rest
    rw [RunStore.runChainF, hr]
    exact ⟨_, rfl⟩
  rw [levelsFor, hchain]
  dsimp only
  rw [levelsOf, if_pos howner, hended, hid]
  rfl

/-! ### The row of the first evaluation -/

theorem runRecord_ensureRunRow {s : RunStore} {name : InstanceName} (h : s.runRecord id = none)
    (hname : name ∈ s.instances) :
    ∃ r, (s.ensureRunRow id name at_).runRecord id = some r ∧ r.processOwner = true ∧
      r.isEnded = true := by
  set run : NewRun := ⟨RunStore.placeholderRecord id name at_, [], RunLimits.empty, none⟩
  have hinsertable : s.insertable run = true := by
    simp [RunStore.insertable, run, RunStore.placeholderRecord, h, RunStore.ownerConflict,
      RunRecord.isEnded]
  have hnamed : (run.record.instanceName.all fun name => name ∈ s.instances) = true := by
    simpa [run, RunStore.placeholderRecord] using hname
  obtain ⟨s', hs⟩ : ∃ s', s.insertRun run = .ok s' := by
    unfold RunStore.insertRun
    rw [if_pos hnamed, if_pos hinsertable]
    exact ⟨_, rfl⟩
  have hself : id = run.record.runId := rfl
  have hrow := RunStore.runRecord_insertRun hs id
  rw [if_pos hself] at hrow
  rw [RunStore.ensureRunRow, hs]
  exact ⟨_, hrow, rfl, rfl⟩

/-! ### The mark of an ended Run -/

theorem ownerConflict_of_isEnded {s : RunStore} {r : RunRecord} (h : r.isEnded = true) :
    s.ownerConflict r = false := by
  simp [RunStore.ownerConflict, h]

/-- The breach mark of an ended Run can always be raised. -/
theorem exists_markBreach {s : RunStore} {r : RunRecord} (at_ : Timestamp)
    (hr : s.runRecord id = some r) (hended : r.isEnded = true) : ∃ job, Runs.markBreach s id at_ = .ok job := by
  unfold Runs.markBreach
  rw [hr]
  dsimp only
  split
  · exact ⟨_, rfl⟩
  · unfold Runs.moveTo
    dsimp only
    split
    · exact ⟨_, rfl⟩
    · set moved := Runs.movedRecord r r.status (Anomaly.normalize (r.anomalies ++ [.breach])) none at_
      have hid : moved.runId = id := by
        rw [← RunStore.runId_of_runRecord hr]
        simp [moved, Runs.movedRecord]
      have hstill : (RunStore.overwrite moved r).isEnded = true := hended
      have hfree : ¬ s.ownerConflict (RunStore.overwrite moved r) = true := by
        rw [ownerConflict_of_isEnded hstill]
        simp
      obtain ⟨s', hs⟩ : ∃ s', s.saveRun moved = .ok s' := by
        unfold RunStore.saveRun
        rw [hid, hr]
        dsimp only
        rw [if_neg hfree]
        exact ⟨_, rfl⟩
      rw [hs]
      exact ⟨_, rfl⟩

theorem Placeholder.restatus (h : b.Placeholder id)
    (hledger : Runs.Restatus (fun _ => none) b.ledger.runs b'.ledger.runs) : b'.Placeholder id := by
  obtain ⟨r, hr, howner, hended⟩ := h
  have hrow := hledger.rows id
  rw [hr] at hrow
  cases hr' : b'.ledger.runs.runRecord id with
  | none =>
      rw [hr'] at hrow
      cases hrow
  | some r' =>
      rw [hr'] at hrow
      cases hrow with
      | some hmoved =>
          refine ⟨r', hr', hmoved.owner.trans howner, ?_⟩
          have hstatus : r'.status = r.status := hmoved.status
          rw [RunRecord.isEnded, hstatus]
          exact hended

/-- The level of such a row can be committed. -/
theorem exists_commitLevel (input : EvalInput) (at_ : Timestamp) {acc : Evaluation × Books}
    {level : Level} (h : acc.2.Placeholder level.runId) (outcome : Governance.GovernanceOutcome) :
    ∃ acc', commitLevel input at_ acc (level, outcome) = .ok acc' := by
  have hds : Recorded input at_ acc _ _ := commitDecisions_recorded level outcome.decisions acc
  obtain ⟨runs, hl, hr⟩ := hds.ledger
  unfold commitLevel
  dsimp only
  split
  · have hrow : Placeholder (outcome.decisions.foldl (commitDecision input level at_) acc).2
        level.runId := h.restatus (by rw [hl]; exact hr)
    obtain ⟨r, hr, -, hended⟩ := hrow
    obtain ⟨job, hjob⟩ := exists_markBreach at_ hr hended
    rw [hjob]
    exact ⟨_, rfl⟩
  · exact ⟨_, rfl⟩

/-! ### Jobs -/

theorem Placeholder.evaluate {ev : Evaluation} (h : (levelsFor b input at_).2.Placeholder id)
    (hb : b.Placeholder id ∨ input.supervised = true)
    (hev : b.evaluate input at_ = .ok (ev, b')) : b'.Placeholder id := by
  rcases evaluate_spec hev with ⟨hsup, -, rfl⟩ | ⟨-, hrec⟩
  · rcases hb with hb | hb
    · exact hb
    · exact absurd (hsup.symm.trans hb) (by simp)
  · obtain ⟨runs, hl, hr⟩ := hrec.ledger
    exact h.restatus (by rw [hl]; exact hr)

/-- **The first evaluation** acts on the process, and leaves the row of an ended owner. -/
theorem evaluate_unregistered (at_ : Timestamp)
    (hrow : b.ledger.runs.runRecord input.runId = none)
    (hname : input.name ∈ b.ledger.runs.instances) (hsup : input.supervised = true) :
    ∃ ev b', b.evaluate input at_ = .ok (ev, b') ∧ b'.Placeholder input.runId := by
  have hlevels := levelsFor_unregistered at_ hrow
  have hplace : (b.setRuns (b.ledger.runs.ensureRunRow input.runId input.name at_)).Placeholder
      input.runId := runRecord_ensureRunRow hrow hname
  obtain ⟨⟨ev, b'⟩, hev⟩ : ∃ r, b.evaluate input at_ = .ok r := by
    unfold Books.evaluate
    rw [hsup, hlevels]
    generalize b.setRuns (b.ledger.runs.ensureRunRow input.runId input.name at_) = books at hplace
    set level := processLevel input.runId true
    have hlevel : (Evaluation.empty, books).2.Placeholder level.runId := hplace
    obtain ⟨acc', hacc⟩ :=
      exists_commitLevel input at_ hlevel (Governance.decide (levelInput books input level))
    refine ⟨acc', ?_⟩
    change (commitLevel input at_ (.empty, books) _ >>= fun acc => pure acc) = _
    rw [hacc]
    rfl
  refine ⟨ev, b', hev, Placeholder.evaluate ?_ (.inr hsup) hev⟩
  rw [hlevels]
  exact hplace

/-- An evaluation of such a row leaves such a row. -/
theorem Placeholder.evaluated {ev : Evaluation} (h : b.Placeholder input.runId)
    (hev : b.evaluate input at_ = .ok (ev, b')) : b'.Placeholder input.runId := by
  refine Placeholder.evaluate ?_ (.inl h) hev
  rw [levelsFor_placeholder at_ h]
  exact h

/-- A commit of the ledger leaves such a row alone. -/
theorem Placeholder.insertUsage {event : UsageEvent} {rate : Option Rate} {generation : ℕ}
    {outcome : RecordOutcome} {ledger : Ledger} (h : b.Placeholder id)
    (hins : b.ledger.insertUsage event rate generation = .ok (outcome, ledger)) :
    Placeholder { b with ledger := ledger } id := by
  obtain ⟨r, hr, hrest⟩ := h
  refine ⟨r, ?_, hrest⟩
  change ledger.runs.runRecord id = some r
  rw [Ledger.insertUsage_runs hins]
  exact hr

/-- An evaluation of such a row spares the process, and leaves such a row. -/
theorem Placeholder.evaluation (h : b.Placeholder job.input.runId) :
    (∀ levels ∈ b.levelsIn job, levels = [processLevel job.input.runId false]) ∧
      (b.after job).Placeholder job.input.runId := by
  cases job with
  | commit event generation input at_ =>
      change b.Placeholder input.runId at h
      constructor
      · intro levels hlevels
        unfold levelsIn at hlevels
        dsimp only at hlevels
        split at hlevels
        · rename_i ledger hins
          rw [levelsFor_placeholder at_ (h.insertUsage hins)] at hlevels
          exact (Option.some.inj hlevels).symm
        · exact absurd hlevels (by simp)
      · unfold after
        dsimp only
        split
        · rename_i outcome ev b' hcommit
          rcases commitUsage_spec hcommit with ⟨-, -, rfl⟩ | ⟨-, ledger, hins, hev⟩
          · exact h
          · exact (h.insertUsage hins).evaluated hev
        · exact h
  | evaluate input at_ =>
      constructor
      · intro levels hlevels
        unfold levelsIn at hlevels
        dsimp only at hlevels
        change b.Placeholder input.runId at h
        rw [levelsFor_placeholder at_ h] at hlevels
        exact (Option.some.inj hlevels).symm
      · unfold after
        dsimp only
        split
        · rename_i ev b' hev
          exact Placeholder.evaluated h hev
        · exact h

/-- **Every evaluation of such a row** spares the process. -/
theorem treated_placeholder (h : b.Placeholder id) (hjobs : ∀ job ∈ jobs, job.input.runId = id) :
    ∀ levels ∈ b.treated jobs, levels = [processLevel id false] := by
  induction jobs generalizing b with
  | nil => simp [treated]
  | cons job jobs ih =>
      obtain rfl := hjobs job List.mem_cons_self
      intro levels hlevels
      rw [treated, List.mem_append, Option.mem_toList] at hlevels
      rcases hlevels with hlevels | hlevels
      · exact h.evaluation.1 levels hlevels
      · exact ih h.evaluation.2 (fun j hj => hjobs j (List.mem_cons_of_mem job hj)) levels hlevels

/-- A job on an id without a row: it evaluates nothing and changes nothing, or it acts on the
process and leaves the row of an ended owner. -/
theorem job_unregistered (hrow : b.ledger.runs.runRecord job.input.runId = none)
    (hname : job.input.name ∈ b.ledger.runs.instances) (hsup : job.input.supervised = true) :
    (b.levelsIn job = none ∧ b.after job = b) ∨
      (b.levelsIn job = some [processLevel job.input.runId true] ∧
        (b.after job).Placeholder job.input.runId) := by
  cases job with
  | commit event generation input at_ =>
      cases hins : b.ledger.insertUsage event input.rate generation with
      | error err => exact .inl ⟨by simp only [levelsIn, hins], by
          simp only [after, commitUsage, hins]⟩
      | ok r =>
          obtain ⟨outcome, ledger⟩ := r
          cases outcome with
          | duplicateReplay => exact .inl ⟨by simp only [levelsIn, hins], by
              simp only [after, commitUsage, hins]⟩
          | inserted =>
              -- the event is in the ledger, and the Run tables are as before
              have hruns : ledger.runs = b.ledger.runs := Ledger.insertUsage_runs hins
              have hrow' : ({ b with ledger := ledger } : Books).ledger.runs.runRecord input.runId
                  = none := by
                change ledger.runs.runRecord input.runId = none
                rw [hruns]
                exact hrow
              have hname' : input.name ∈ ({ b with ledger := ledger } : Books).ledger.runs.instances
                  := by
                change input.name ∈ ledger.runs.instances
                rw [hruns]
                exact hname
              obtain ⟨ev, b', hev, hplace⟩ := evaluate_unregistered at_ hrow' hname' hsup
              refine .inr ⟨?_, ?_⟩
              · simp only [levelsIn, hins]
                rw [levelsFor_unregistered at_ hrow']
                rfl
              · simp only [after, commitUsage, hins, hev]
                exact hplace
  | evaluate input at_ =>
      change b.ledger.runs.runRecord input.runId = none at hrow
      change input.name ∈ b.ledger.runs.instances at hname
      change input.supervised = true at hsup
      obtain ⟨ev, b', hev, hplace⟩ := evaluate_unregistered at_ hrow hname hsup
      refine .inr ⟨?_, ?_⟩
      · simp only [levelsIn]
        rw [levelsFor_unregistered at_ hrow]
        rfl
      · simp only [after, hev]
        exact hplace

/-- **When every evaluation acts** on the process of an id without a row: exactly if there is at most
one. -/
theorem treated_acting_iff (b : Books) (id : RunId) (jobs : List MeterJob)
    (hrow : b.ledger.runs.runRecord id = none) (hjobs : b.Meters id jobs) :
    (∀ levels ∈ b.treated jobs, levels = [processLevel id true]) ↔ (b.treated jobs).length ≤ 1 := by
  induction jobs with
  | nil => simp [treated]
  | cons job jobs ih =>
      obtain ⟨rfl, hsup, hname⟩ := hjobs job List.mem_cons_self
      have hrest := ih fun j hj => hjobs j (List.mem_cons_of_mem job hj)
      rcases job_unregistered hrow hname hsup with ⟨hnone, hsame⟩ | ⟨hacting, hplace⟩
      · rw [treated, hnone, hsame]
        exact hrest
      · have hlater := treated_placeholder hplace fun j hj =>
          (hjobs j (List.mem_cons_of_mem job hj)).1
        rw [treated, hacting]
        cases htail : (b.after job).treated jobs with
        | nil => simp
        | cons levels rest =>
            have hspared := hlater levels (htail ▸ List.mem_cons_self)
            subst hspared
            refine iff_of_false (fun h => ?_) (by simp)
            exact absurd (h [processLevel job.input.runId false] (by simp)) (by simp [processLevel])

/-! ### A second commit -/

/-- An instance with a ceiling of its tokens that stops it. -/
def stopInput : EvalInput where
  name := "agent"
  runId := 7
  meteringSource := "self-reported"
  tokenBudget := ⟨some 100, none⟩
  tokenAction := .stop
  rate := none
  costCap := ⟨none, none⟩
  costAction := .warn
  supervised := true
  fence := false

/-- A report of its usage. -/
def usageAt (sequence tokens : ℕ) : UsageEvent where
  instanceName := "agent"
  runId := 7
  inputTokens := tokens
  outputTokens := 0
  cachedTokens := none
  meteringSource := "self-reported"
  occurredAt := "t"
  sequence := sequence

/-- The instance is registered, the Run is not. -/
def noRunYet : Books := empty.setRuns { RunStore.empty with instances := ["agent"] }

/-- The first commit acts. -/
theorem treated_acting_once :
    (noRunYet.treated [.commit (usageAt 0 150) 1 stopInput "t"]).all
      (· = [processLevel 7 true]) = true := by
  rw [List.all_eq_true]
  intro levels hlevels
  refine decide_eq_true ((treated_acting_iff noRunYet 7 _ rfl fun job hjob => ?_).2 ?_ _ hlevels)
  · obtain rfl := List.mem_singleton.1 hjob
    exact ⟨rfl, rfl, by decide⟩
  · decide +kernel

/-- **A second commit does not act**: it crosses the ceiling, and the breach is recorded as one that
executes nothing. -/
theorem second_commit_spares :
    noRunYet.ledger.runs.runRecord 7 = none ∧
      noRunYet.treated [.commit (usageAt 0 50) 1 stopInput "t", .commit (usageAt 1 100) 1 stopInput "t"]
        = [[processLevel 7 true], [processLevel 7 false]] ∧
      (((noRunYet.after (.commit (usageAt 0 50) 1 stopInput "t")).commitUsage (usageAt 1 100) 1
        stopInput "t").toOption.map fun r =>
          r.2.1.breaches.map fun breach => (breach.decision.action, breach.processLevel))
        = some [(.stop, false)] := by
  decide +kernel

end Books

end Hekma
