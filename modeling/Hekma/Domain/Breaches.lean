/-
**Breaches are recorded once** (`domain/pipeline.rs`).

A breach row and its latch are written together, and a latched pair does not fire again under the
same action.  So every pair of a Run fires at most once under each action, whatever is reported,
replayed or reconfigured.  An event is evaluated on its own Run and on every Run above it; each of
these decides on the rollup of its own subtree and through its own latch, and only the open
process-owning Run acts on the process.

Main definitions:

* `Books.levelOf` — the level of a Run;
* `Books.Once` — every breach has its latch, once;
* `PipelineJob`, `PipelineJob.run` — the writer jobs of the pipeline;
* `Served` — the books that any sequence of them leaves.

Main results:

* `levelsFor_chain` — the levels of an event are the Runs at or above its own;
* `Once.evaluate`, `Once.commitUsage` — what fires was not latched;
* `breaches_once` — breaches, latches, levels and fence reasons after any sequence of jobs.
-/

import Hekma.Domain.Pipeline
import Hekma.Store.Writer

set_option relaxedAutoImplicit false
set_option autoImplicit false

namespace Hekma

/-! ### The chain of a Run -/

namespace RunStore

variable {s : RunStore} {id a : RunId} {r : RunRecord}

theorem parentOf_of_runRecord (hr : s.runRecord id = some r) : s.parentOf id = r.parentRunId := by
  rw [parentOf, hr, Option.bind_some]

/-- The chain of a Run is the walk upward from it. -/
theorem mem_runChainF (fuel : ℕ) (h : r ∈ s.runChainF fuel id) :
    s.runRecord r.runId = some r ∧ ∃ k < fuel, Forest.up s.parentOf k id = some r.runId := by
  induction fuel generalizing id with
  | zero => simp [runChainF] at h
  | succ fuel ih =>
      rw [runChainF] at h
      cases hq : s.runRecord id with
      | none => simp [hq] at h
      | some q =>
          rw [hq] at h
          rcases List.mem_cons.mp h with rfl | h
          · rw [runId_of_runRecord hq]
            exact ⟨hq, 0, by omega, rfl⟩
          · cases hp : q.parentRunId with
            | none => simp [hp] at h
            | some p =>
                rw [hp] at h
                obtain ⟨hrow, k, hk, hup⟩ := ih h
                have hpar := (parentOf_of_runRecord hq).trans hp
                exact ⟨hrow, k + 1, by omega, by rw [Forest.up_succ_of_parent hpar, hup]⟩

theorem runChainF_complete (fuel : ℕ) {k : ℕ} (hk : k < fuel)
    (hrows : ∀ i p, s.parentOf i = some p → ∃ q, s.runRecord p = some q)
    (hrow : ∃ q, s.runRecord id = some q) (hup : Forest.up s.parentOf k id = some a)
    (hr : s.runRecord a = some r) : r ∈ s.runChainF fuel id := by
  induction fuel generalizing id k with
  | zero => omega
  | succ fuel ih =>
      obtain ⟨q, hq⟩ := hrow
      rw [runChainF, hq]
      cases k with
      | zero =>
          obtain rfl := Option.some.inj hup
          obtain rfl := Option.some.inj (hq.symm.trans hr)
          exact List.mem_cons_self
      | succ k =>
          cases hp : q.parentRunId with
          | none =>
              rw [Forest.up_succ_of_root ((parentOf_of_runRecord hq).trans hp)] at hup
              simp at hup
          | some p =>
              have hpar := (parentOf_of_runRecord hq).trans hp
              rw [Forest.up_succ_of_parent hpar] at hup
              simp only [hp]
              exact List.mem_cons_of_mem _ (ih (by omega) (hrows id p hpar) hup)

theorem runChainF_nodup (fuel : ℕ) {n : ℕ} (h : Forest.Height s.parentOf n) :
    ((s.runChainF fuel id).map RunRecord.runId).Nodup := by
  induction fuel generalizing id with
  | zero => exact List.nodup_nil
  | succ fuel ih =>
      rw [runChainF]
      cases hq : s.runRecord id with
      | none => exact List.nodup_nil
      | some q =>
          cases hp : q.parentRunId with
          | none => simp [hp]
          | some p =>
              simp only [hp, List.map_cons, List.nodup_cons]
              refine ⟨?_, ih⟩
              -- a Run is not above itself
              intro hmem
              obtain ⟨r, hr, he⟩ := List.mem_map.mp hmem
              obtain ⟨-, k, -, hup⟩ := mem_runChainF fuel hr
              have hpar := (parentOf_of_runRecord hq).trans hp
              rw [he, runId_of_runRecord hq, ← Forest.up_succ_of_parent hpar] at hup
              exact h.irrefl hup

end RunStore

namespace Books

open Governance

variable {b b' : Books} {input : EvalInput} {at_ : Timestamp} {s : RunStore}

/-! ### The levels of an event -/

/-- The level of a Run. -/
def levelOf (s : RunStore) (record : RunRecord) : Level :=
  if record.processOwner then processLevel record.runId (!record.isEnded) else childLevel s record

@[simp] theorem levelOf_runId (s : RunStore) (record : RunRecord) :
    (levelOf s record).runId = record.runId := by
  unfold levelOf
  split <;> rfl

/-- A chain ends at its process-owning Run, so none of its Runs is cut off. -/
theorem levelsOf_runChainF (h : Runs.TreeShape s) (fuel : ℕ) (id : RunId) :
    levelsOf s (s.runChainF fuel id) = (s.runChainF fuel id).map (levelOf s) := by
  induction fuel generalizing id with
  | zero => rfl
  | succ fuel ih =>
      rw [RunStore.runChainF]
      cases hr : s.runRecord id with
      | none => rfl
      | some r =>
          dsimp only
          rw [List.map_cons, levelsOf, levelOf]
          cases hp : r.parentRunId with
          | none =>
              rw [(h.roots hr).mpr hp]
              rfl
          | some p =>
              have ho : ¬ r.processOwner = true := by
                intro ho
                rw [(h.roots hr).mp ho] at hp
                simp at hp
              rw [if_neg ho, if_neg ho]
              exact congrArg _ (ih p)

theorem runChain_ne_nil {id : RunId} {r : RunRecord} (hr : s.runRecord id = some r) :
    ∃ chain, s.runChain id = r :: chain := by
  unfold RunStore.runChain
  rw [show 2 * maxRunNesting = (2 * maxRunNesting - 1) + 1 from rfl, RunStore.runChainF, hr]
  exact ⟨_, rfl⟩

/-- The levels of an event are the Runs at or above its own. -/
theorem levelsFor_chain (h : Runs.TreeShape b.ledger.runs) {r : RunRecord}
    (hr : b.ledger.runs.runRecord input.runId = some r) :
    levelsFor b input at_ =
      ((b.ledger.runs.runChain input.runId).map (levelOf b.ledger.runs), b) := by
  obtain ⟨chain, hc⟩ := runChain_ne_nil hr
  have hl := levelsOf_runChainF h (2 * maxRunNesting) input.runId
  change levelsOf _ (b.ledger.runs.runChain input.runId) =
    (b.ledger.runs.runChain input.runId).map _ at hl
  rw [hc] at hl
  rw [levelsFor, hc]
  exact congrArg (·, b) hl

theorem levelsFor_unknown (hr : b.ledger.runs.runRecord input.runId = none) :
    levelsFor b input at_ = ([processLevel input.runId true],
      b.setRuns (b.ledger.runs.ensureRunRow input.runId input.name at_)) := by
  have hc : b.ledger.runs.runChain input.runId = [] := by
    unfold RunStore.runChain
    rw [show 2 * maxRunNesting = (2 * maxRunNesting - 1) + 1 from rfl, RunStore.runChainF, hr]
  rw [levelsFor, hc]

theorem mem_runChain (h : Runs.TreeShape s) {id : RunId} (hid : ∃ q, s.runRecord id = some q)
    (r : RunRecord) :
    r ∈ s.runChain id ↔ s.runRecord r.runId = some r ∧ Forest.Under s.parentOf r.runId id := by
  constructor
  · intro hmem
    obtain ⟨hrow, k, -, hup⟩ := RunStore.mem_runChainF _ hmem
    exact ⟨hrow, k, hup⟩
  · rintro ⟨hrow, k, hup⟩
    have hk := h.height.lt hup
    exact RunStore.runChainF_complete _ (by omega) h.parent_row hid hup hrow

/-- An event has one level for each Run. -/
theorem levelsFor_nodup (h : Runs.TreeShape b.ledger.runs) :
    ((levelsFor b input at_).1.map Level.runId).Nodup := by
  cases hr : b.ledger.runs.runRecord input.runId with
  | none =>
      rw [levelsFor_unknown hr]
      exact List.nodup_singleton _
  | some r =>
      rw [levelsFor_chain h hr, List.map_map]
      have hid : Level.runId ∘ levelOf b.ledger.runs = RunRecord.runId := by
        funext q
        exact levelOf_runId _ q
      rw [hid]
      exact RunStore.runChainF_nodup _ h.height

/-! ### What fires was not latched -/

/-- The action of an armed dimension of a level. -/
theorem actionOf_levelInput {level : Level} {d : BreachDimension} {action : BreachAction}
    (h : (levelInput b input level).actionOf d = some action) : action = input.actionAt level d := by
  unfold levelInput GovernanceInput.actionOf at h
  cases d with
  | tokens =>
      dsimp only at h
      split at h <;> simp_all
  | dollars =>
      dsimp only at h
      split at h <;> simp_all

theorem mem_fired {levels : List Level} {x : Level × GovernanceDecision} :
    x ∈ fired b input levels ↔
      x.1 ∈ levels ∧ ∃ d, (levelInput b input x.1).decisionOf d = some x.2 := by
  unfold fired
  rw [List.mem_flatMap]
  constructor
  · rintro ⟨level, hl, hx⟩
    obtain ⟨dec, hdec, rfl⟩ := List.mem_map.mp hx
    exact ⟨hl, (mem_decisions _ _).mp hdec⟩
  · rintro ⟨hl, hdec⟩
    exact ⟨x.1, hl, List.mem_map.mpr ⟨x.2, (mem_decisions _ _).mpr hdec, rfl⟩⟩

/-- What fires was not latched under its action. -/
theorem latchAt_not_mem {levels : List Level} {x : Level × GovernanceDecision}
    (hx : x ∈ fired b input levels) : latchAt x ∉ b.latches := by
  obtain ⟨-, d, hd⟩ := mem_fired.mp hx
  obtain ⟨-, hnew, haction⟩ := decisionOf_spec hd
  have hdim := decisionOf_dimension hd
  have hact := actionOf_levelInput haction
  intro hmem
  apply hnew
  change _ ∈ b.latchedUnder x.1.runId (input.actionAt x.1)
  unfold latchedUnder
  refine List.mem_map.mpr ⟨latchAt x, List.mem_filter.mpr ⟨hmem, ?_⟩, ?_⟩
  · simp only [latchAt, hdim, hact, decide_true, Bool.and_self]
  · rw [latchAt, hdim]

/-- No pair of a Run fires twice in one evaluation. -/
theorem latchAt_fired_nodup {levels : List Level} (h : (levels.map Level.runId).Nodup) :
    ((fired b input levels).map latchAt).Nodup := by
  induction levels with
  | nil => exact List.nodup_nil
  | cons level levels ih =>
      rw [List.map_cons, List.nodup_cons] at h
      have hcons : fired b input (level :: levels) =
          ((decide (levelInput b input level)).decisions.map fun d => (level, d)) ++
            fired b input levels := List.flatMap_cons
      rw [hcons, List.map_append, List.nodup_append]
      refine ⟨?_, ih h.2, ?_⟩
      · -- the two dimensions of a level have different keys
        rw [decisions_eq, List.map_map]
        cases ht : (levelInput b input level).decisionOf .tokens with
        | none =>
            cases (levelInput b input level).decisionOf .dollars <;> simp
        | some t =>
            cases hd : (levelInput b input level).decisionOf .dollars with
            | none => simp
            | some d =>
                have hne : t.dimension ≠ d.dimension := by
                  rw [decisionOf_dimension ht, decisionOf_dimension hd]
                  decide
                simp [latchAt, hne]
      · rintro l hl l' hl' rfl
        obtain ⟨x, hx, rfl⟩ := List.mem_map.mp hl
        obtain ⟨dec, -, rfl⟩ := List.mem_map.mp hx
        obtain ⟨y, hy, he⟩ := List.mem_map.mp hl'
        refine h.1 (List.mem_map.mpr ⟨y.1, (mem_fired.mp hy).1, ?_⟩)
        exact congrArg Latch.runId he

/-! ### Once -/

/-- The latch of a breach row. -/
def latchOf (e : BudgetBreachEvent) : Latch := ⟨e.runId, ⟨e.dimension, e.scope⟩, e.action⟩

/-- Every breach row has its latch and every latch its row, once. -/
structure Once (b : Books) : Prop where
  registry : Runs.RegistryInv b.ledger.runs
  latched : b.latches = b.breaches.map latchOf
  once : b.latches.Nodup

theorem once_empty : Once empty where
  registry := Ledger.ledgerInv_empty.registry
  latched := rfl
  once := List.nodup_nil

/-- Recording what fires keeps the rows and the latches together. -/
theorem Once.recorded (h : Once b) {levels : List Level} (hn : (levels.map Level.runId).Nodup)
    {ev ev' : Evaluation} (hrec : Recorded input at_ (ev, b) (fired b input levels) (ev', b')) :
    Once b' := by
  have hnodup : (b.latches ++ (fired b input levels).map latchAt).Nodup := by
    refine List.Nodup.append h.once (latchAt_fired_nodup hn) ?_
    intro l hl hl'
    obtain ⟨x, hx, rfl⟩ := List.mem_map.mp hl'
    exact latchAt_not_mem hx hl
  have hlatches := hrec.latches hnodup
  refine ⟨?_, ?_, ?_⟩
  · obtain ⟨runs, hledger, hmoved⟩ := hrec.ledger
    have hinv : Runs.RegistryInv runs ∧ Runs.Grown none b.ledger.runs runs :=
      h.registry.restatus_none hmoved
    rw [hledger]
    exact hinv.1
  · rw [hlatches, hrec.rows, h.latched, List.map_append, List.map_map]
    rfl
  · rw [hlatches]
    exact hnodup

theorem Once.setRuns (h : Once b) {runs : RunStore} (hr : Runs.RegistryInv runs) :
    Once (b.setRuns runs) := ⟨hr, h.latched, h.once⟩

theorem Once.levelsFor (h : Once b) : Once (levelsFor b input at_).2 := by
  cases hr : b.ledger.runs.runRecord input.runId with
  | some r =>
      rw [levelsFor_chain h.registry.1.toTreeShape hr]
      exact h
  | none =>
      rw [levelsFor_unknown hr]
      exact h.setRuns (h.registry.ensureRunRow).1

theorem Once.evaluate (h : Once b) {ev : Evaluation} (hok : evaluate b input at_ = .ok (ev, b')) :
    Once b' := by
  rcases evaluate_spec hok with ⟨-, -, rfl⟩ | ⟨-, hrec⟩
  · exact h
  · refine h.levelsFor.recorded ?_ hrec
    have hn : ((Books.levelsFor b input at_).1.map Level.runId).Nodup :=
      levelsFor_nodup h.registry.1.toTreeShape
    exact hn.sublist (List.filter_sublist.map _)

theorem insertUsage_runs {l l' : Ledger} {event : UsageEvent} {rate : Option Rate} {generation : ℕ}
    {outcome : RecordOutcome} (h : l.insertUsage event rate generation = .ok (outcome, l')) :
    l'.runs = l.runs := by
  rcases Ledger.insertUsage_cases h with ⟨-, rfl, -⟩ | ⟨-, rfl, -⟩
  · rfl
  · rfl

theorem Once.commitUsage (h : Once b) {event : UsageEvent} {generation : ℕ}
    {outcome : RecordOutcome} {ev : Evaluation}
    (hok : commitUsage b event generation input at_ = .ok (outcome, ev, b')) : Once b' := by
  rcases commitUsage_spec hok with ⟨-, -, rfl⟩ | ⟨-, ledger, hins, hev⟩
  · exact h
  · have hledger : Once { b with ledger := ledger } :=
      ⟨by rw [insertUsage_runs hins]; exact h.registry, h.latched, h.once⟩
    exact hledger.evaluate hev

/-! ### What an evaluation decides on -/

/-- The rows under a Run id, and its row in the registry, belong to the instance. -/
def Hosts (b : Books) (id : RunId) (name : InstanceName) : Prop :=
  (∀ r, b.ledger.runs.runRecord id = some r → r.instanceName = some name) ∧
    ∀ e ∈ b.ledger.usage, e.runId = id → e.instanceName = some name

/-- The rollups are exact and every row is folded. -/
structure Exact (b : Books) : Prop where
  ledger : Ledger.LedgerInv b.ledger
  folded : b.ledger.folded = b.ledger.usage

/-- The armed levels of an event: its Run and every Run above it.  A Run id without a row is one
process level. -/
def IsLevel (b : Books) (input : EvalInput) (level : Level) : Prop :=
  level.isArmed = true ∧
    match b.ledger.runs.runRecord input.runId with
    | none => level = processLevel input.runId true
    | some _ => ∃ r, b.ledger.runs.runRecord r.runId = some r ∧
        Forest.Under b.ledger.runs.parentOf r.runId input.runId ∧ level = levelOf b.ledger.runs r

/-- The totals a level decides on are the sums over its own subtree and over its instance. -/
structure OwnTotals (b : Books) (input : EvalInput) : Prop where
  run : ∀ r, b.ledger.runs.runRecord r.runId = some r →
    Forest.Under b.ledger.runs.parentOf r.runId input.runId →
    b.ledger.runRollup (input.name, r.runId) =
      rescan b.ledger.usage fun e => Forest.Under b.ledger.runs.parentOf r.runId e.runId
  cumulative : b.ledger.instanceRollup input.name =
    rescan b.ledger.usage fun e => e.instanceName = some input.name

/-- What an evaluation with a supervised process commits: what each armed level decides on the books
`b`, for itself. -/
structure Evaluated (b : Books) (input : EvalInput) (at_ : Timestamp) (ev : Evaluation)
    (b' : Books) : Prop where
  appended : b'.breaches = b.breaches ++ ev.breaches.map CommittedBreach.event
  fired : ∀ x, x ∈ ev.breaches ↔ ∃ level d dec, IsLevel b input level ∧
    (levelInput b input level).decisionOf d = some dec ∧ x = committed input at_ (level, dec)
  tripped : ∀ x ∈ ev.breaches, ∃ level, IsLevel b input level ∧ level.runId = x.event.runId ∧
    (levelInput b input level).trips x.event.dimension x.event.scope = true ∧
    latchOf x.event ∉ b.latches
  process : ∀ x ∈ ev.breaches, x.processLevel = true →
    b.ledger.runs.runRecord input.runId = none ∨
      ∃ r, b.ledger.runs.runRecord x.event.runId = some r ∧ r.processOwner = true ∧
        r.status ≠ .ended
  raised : ∀ key, key ∈ ev.raised ↔ input.fence = true ∧ ∃ x ∈ ev.breaches,
    x.processLevel = true ∧ x.decision.action = .block ∧
      key = ⟨x.decision.dimension, x.decision.scope⟩

/-- What an evaluation commits; without a supervised process it commits nothing. -/
structure Decided (attributed : Prop) (b : Books) (input : EvalInput) (at_ : Timestamp)
    (ev : Evaluation) (b' : Books) : Prop where
  unsupervised : input.supervised = false → ev = .empty ∧ b' = b
  evaluated : input.supervised = true → Evaluated b input at_ ev b'
  totals : attributed → OwnTotals b input

theorem mem_levelsFor (h : Runs.TreeShape b.ledger.runs) (level : Level) :
    level ∈ (levelsFor b input at_).1.filter Level.isArmed ↔ IsLevel b input level := by
  rw [List.mem_filter, IsLevel, and_comm]
  refine and_congr_right fun _ => ?_
  cases hr : b.ledger.runs.runRecord input.runId with
  | none =>
      rw [levelsFor_unknown hr]
      exact List.mem_singleton
  | some r₀ =>
      rw [levelsFor_chain h hr, List.mem_map]
      constructor
      · rintro ⟨r, hmem, rfl⟩
        obtain ⟨hrow, hunder⟩ := (mem_runChain h ⟨r₀, hr⟩ r).mp hmem
        exact ⟨r, hrow, hunder, rfl⟩
      · rintro ⟨r, hrow, hunder, rfl⟩
        exact ⟨r, (mem_runChain h ⟨r₀, hr⟩ r).mpr ⟨hrow, hunder⟩, rfl⟩

theorem levelsFor_books : ∃ runs, (levelsFor b input at_).2 = b.setRuns runs := by
  unfold levelsFor
  split
  · exact ⟨_, rfl⟩
  · exact ⟨b.ledger.runs, rfl⟩

/-- A level that acts on the process is the open process-owning Run. -/
theorem IsLevel.acts {level : Level} (h : IsLevel b input level) (ha : level.acts = true) :
    b.ledger.runs.runRecord input.runId = none ∨
      ∃ r, b.ledger.runs.runRecord level.runId = some r ∧ r.processOwner = true ∧
        r.status ≠ .ended := by
  obtain ⟨-, h⟩ := h
  cases hr : b.ledger.runs.runRecord input.runId with
  | none => exact .inl rfl
  | some r₀ =>
      rw [hr] at h
      obtain ⟨r, hrow, -, rfl⟩ := h
      right
      refine ⟨r, by rwa [levelOf_runId], ?_⟩
      unfold levelOf at ha
      split at ha
      · rename_i ho
        exact ⟨ho, by simpa [processLevel, RunRecord.isEnded] using ha⟩
      · simp [childLevel] at ha

/-- The fence reasons of a list of decisions: what the process level blocks on, if fences are on. -/
theorem mem_raisedBy {xs : List (Level × GovernanceDecision)} {key : LatchKey} :
    key ∈ xs.flatMap (raisedBy input) ↔ input.fence = true ∧ ∃ y ∈ xs.map (committed input at_),
      y.processLevel = true ∧ y.decision.action = .block ∧
        key = ⟨y.decision.dimension, y.decision.scope⟩ := by
  rw [List.mem_flatMap]
  constructor
  · rintro ⟨x, hx, hkey⟩
    unfold raisedBy at hkey
    split at hkey
    · rename_i hc
      simp only [Bool.and_eq_true, decide_eq_true_eq] at hc
      exact ⟨hc.2, _, List.mem_map_of_mem hx, hc.1.1, hc.1.2, List.mem_singleton.mp hkey⟩
    · simp at hkey
  · rintro ⟨hfence, y, hy, hp, hblock, rfl⟩
    obtain ⟨x, hx, rfl⟩ := List.mem_map.mp hy
    refine ⟨x, hx, ?_⟩
    have hc : (x.1.acts && x.2.action = .block && input.fence) = true := by
      simp only [Bool.and_eq_true, decide_eq_true_eq]
      exact ⟨⟨hp, hblock⟩, hfence⟩
    rw [raisedBy, if_pos hc]
    exact List.mem_cons_self

theorem evaluated_of_recorded (h : Once b) {ev : Evaluation}
    (hrec : Recorded input at_ (.empty, (levelsFor b input at_).2)
      (fired (levelsFor b input at_).2 input ((levelsFor b input at_).1.filter Level.isArmed))
      (ev, b')) : Evaluated b input at_ ev b' := by
  obtain ⟨runs, hbooks⟩ : ∃ runs, (levelsFor b input at_).2 = b.setRuns runs := levelsFor_books
  -- the row of an unknown Run changes nothing that a level reads
  have hfired : fired (levelsFor b input at_).2 input
      ((levelsFor b input at_).1.filter Level.isArmed) =
      fired b input ((levelsFor b input at_).1.filter Level.isArmed) := by
    rw [hbooks]
    rfl
  have hrows : (levelsFor b input at_).2.breaches = b.breaches := by
    rw [hbooks]
    rfl
  have hmem : ∀ x, x ∈ fired b input ((levelsFor b input at_).1.filter Level.isArmed) ↔
      IsLevel b input x.1 ∧ ∃ d, (levelInput b input x.1).decisionOf d = some x.2 := by
    intro x
    rw [mem_fired, mem_levelsFor h.registry.1.toTreeShape]
  rw [hfired] at hrec
  have hbreaches : ev.breaches = (fired b input
      ((levelsFor b input at_).1.filter Level.isArmed)).map (committed input at_) := hrec.breaches
  have hin : ∀ x, x ∈ ev.breaches ↔ ∃ level d dec, IsLevel b input level ∧
      (levelInput b input level).decisionOf d = some dec ∧
      x = committed input at_ (level, dec) := by
    intro x
    rw [hbreaches, List.mem_map]
    constructor
    · rintro ⟨⟨level, dec⟩, hx, rfl⟩
      obtain ⟨hlevel, d, hd⟩ := (hmem _).mp hx
      exact ⟨level, d, dec, hlevel, hd, rfl⟩
    · rintro ⟨level, d, dec, hlevel, hd, rfl⟩
      exact ⟨(level, dec), (hmem _).mpr ⟨hlevel, d, hd⟩, rfl⟩
  refine ⟨?_, hin, ?_, ?_, ?_⟩
  · have happ := hrec.rows
    rw [hrows] at happ
    rw [happ, hbreaches, List.map_map]
    rfl
  · intro x hx
    obtain ⟨level, d, dec, hlevel, hd, rfl⟩ := (hin x).mp hx
    refine ⟨level, hlevel, rfl, ?_, ?_⟩
    · have hdim := decisionOf_dimension hd
      change (levelInput b input level).trips dec.dimension dec.scope = true
      rw [hdim]
      exact (decisionOf_spec hd).1
    · exact latchAt_not_mem ((hmem (level, dec)).mpr ⟨hlevel, d, hd⟩)
  · intro x hx hp
    obtain ⟨level, d, dec, hlevel, -, rfl⟩ := (hin x).mp hx
    exact hlevel.acts hp
  · intro key
    have hraised : ev.raised = (fired b input
        ((levelsFor b input at_).1.filter Level.isArmed)).flatMap (raisedBy input) := hrec.raised
    rw [hraised, hbreaches]
    exact mem_raisedBy

theorem Once.evaluated (h : Once b) {ev : Evaluation} (hok : b.evaluate input at_ = .ok (ev, b'))
    {attributed : Prop} (htotals : attributed → OwnTotals b input) :
    Decided attributed b input at_ ev b' := by
  rcases evaluate_spec hok with ⟨hs, rfl, rfl⟩ | ⟨hs, hrec⟩
  · refine ⟨fun _ => ⟨rfl, rfl⟩, fun hs' => ?_, htotals⟩
    rw [hs] at hs'
    simp at hs'
  · refine ⟨fun hs' => ?_, fun _ => evaluated_of_recorded h hrec, htotals⟩
    rw [hs] at hs'
    simp at hs'

/-! ### The totals are exact -/

/-- A Run and the Runs above it belong to one instance. -/
theorem instanceName_up (h : Runs.TreeShape s) {id : RunId} {q r : RunRecord} (k : ℕ)
    (hup : Forest.up s.parentOf k id = some r.runId) (hq : s.runRecord id = some q)
    (hr : s.runRecord r.runId = some r) : r.instanceName = q.instanceName := by
  induction k generalizing id q with
  | zero =>
      obtain rfl := Option.some.inj hup
      rw [hr] at hq
      rw [Option.some.inj hq]
  | succ k ih =>
      cases hp : q.parentRunId with
      | none =>
          rw [Forest.up_succ_of_root ((RunStore.parentOf_of_runRecord hq).trans hp)] at hup
          simp at hup
      | some p =>
          rw [Forest.up_succ_of_parent ((RunStore.parentOf_of_runRecord hq).trans hp)] at hup
          obtain ⟨q', hq', hname⟩ := h.parents hq hp
          rw [ih hup hq', hname]

theorem Exact.ownTotals (h : Exact b) (hhost : Hosts b input.runId input.name) :
    OwnTotals b input := by
  have hshape := h.ledger.registry.1.toTreeShape
  refine ⟨?_, ?_⟩
  · intro r hr hunder
    have hname : r.instanceName = some input.name := by
      obtain ⟨k, hup⟩ := hunder
      cases hq : b.ledger.runs.runRecord input.runId with
      | some q => rw [instanceName_up hshape k hup hq hr, hhost.1 q hq]
      | none =>
          -- nothing is above a Run without a row
          cases k with
          | zero =>
              obtain he := Option.some.inj hup
              rw [← he, hq] at hr
              simp at hr
          | succ k =>
              rw [Forest.up_succ_of_root (by rw [RunStore.parentOf, hq]; rfl)] at hup
              simp at hup
    rw [h.ledger.runRollup_eq hr hname, h.folded]
  · rw [h.ledger.instanceRollup_eq, h.folded]

/-- Marking anomalies changes no rollup. -/
theorem Exact.restatus (h : Exact b) {ledger : Ledger}
    (hm : ∃ runs, ledger = { b.ledger with runs := runs } ∧
      Runs.Restatus (fun _ => none) b.ledger.runs runs) {b' : Books} (hb : b'.ledger = ledger) :
    Exact b' := by
  obtain ⟨runs, rfl, hmoved⟩ := hm
  have hinv : Runs.RegistryInv runs ∧ Runs.Grown none b.ledger.runs runs :=
    h.ledger.registry.restatus_none hmoved
  constructor
  · rw [hb]
    exact h.ledger.grown hinv.1 hinv.2 fun _ _ hf => by simp at hf
  · rw [hb]
    exact h.folded

theorem Exact.levelsFor (h : Exact b) (hhost : Hosts b input.runId input.name) :
    Exact (levelsFor b input at_).2 := by
  cases hr : b.ledger.runs.runRecord input.runId with
  | some r =>
      rw [levelsFor_chain h.ledger.registry.1.toTreeShape hr]
      exact h
  | none =>
      rw [levelsFor_unknown hr]
      exact ⟨h.ledger.ensureRunRow at_ hhost.2, h.folded⟩

theorem Exact.evaluate (h : Exact b) (hhost : Hosts b input.runId input.name) {ev : Evaluation}
    (hok : b.evaluate input at_ = .ok (ev, b')) : Exact b' := by
  rcases evaluate_spec hok with ⟨-, -, rfl⟩ | ⟨-, hrec⟩
  · exact h
  · exact (h.levelsFor hhost).restatus hrec.ledger rfl

/-- A commit keeps the rollups exact, and its event is in them. -/
theorem Exact.insert (h : Exact b) {event : UsageEvent} {rate : Option Rate} {generation : ℕ}
    {ledger : Ledger} (hhost : Hosts b event.runId event.instanceName)
    (hins : b.ledger.insertUsage event rate generation = .ok (.inserted, ledger)) :
    Exact { b with ledger := ledger } ∧
      Hosts { b with ledger := ledger } event.runId event.instanceName := by
  refine ⟨⟨h.ledger.insertUsage hhost.1 hins, h.ledger.folded_insertUsage hhost.1 hins⟩, ?_, ?_⟩
  · rw [insertUsage_runs hins]
    exact hhost.1
  · rcases Ledger.insertUsage_cases hins with ⟨hdup, -⟩ | ⟨-, rfl, -⟩
    · simp at hdup
    · intro e he hid
      rcases List.mem_append.mp he with he | he
      · exact hhost.2 e he hid
      · rw [List.mem_singleton.mp he]
        rfl

end Books

/-! ### The writer jobs -/

/-- The jobs of the pipeline, and the operations of the Run registry between them. -/
inductive PipelineJob where
  | commit (event : UsageEvent) (generation : ℕ) (input : EvalInput)
  | evaluate (input : EvalInput)
  | registry (op : Runs.RunOp)

namespace PipelineJob

open Books

variable {b b' : Books} {at_ : Timestamp} {ev : Evaluation}

/-- Run a job in its transaction. -/
def run (job : PipelineJob) (at_ : Timestamp) (b : Books) : Except StoreError (Evaluation × Books) :=
  match job with
  | .commit event generation input => (b.commitUsage event generation input at_).map fun r => r.2
  | .evaluate input => b.evaluate input at_
  | .registry op => .ok (.empty, b.setRuns (op.apply b.ledger.runs at_))

/-- A job as the writer runs it.  It registers the fence reasons for after its commit. -/
def work (describe : StoreError → Writer.WriteError) (job : PipelineJob) (at_ : Timestamp)
    (b : Books) : Writer.WorkEnd Books Governance.LatchKey :=
  match job.run at_ b with
  | .ok (ev, b') => ⟨.ok, some b', ev.raised⟩
  | .error err => ⟨.failed (describe err), some b, []⟩

/-- Work that succeeds has run its job, and its hooks are the reasons that were raised. -/
theorem work_ok {describe : StoreError → Writer.WriteError} {job : PipelineJob}
    {hooks : List Governance.LatchKey} (hwork : job.work describe at_ b = ⟨.ok, some b', hooks⟩) :
    ∃ ev, job.run at_ b = .ok (ev, b') ∧ hooks = ev.raised := by
  unfold work at hwork
  split at hwork
  · rename_i ev after hok
    obtain ⟨-, hview, rfl⟩ := Writer.WorkEnd.mk.inj hwork
    obtain rfl := Option.some.inj hview
    exact ⟨ev, hok, rfl⟩
  · simp at hwork

/-- A caller attributes an event to a Run of its own instance and evaluates that Run, and a minted
Run id is new. -/
def Attributed (b : Books) : PipelineJob → Prop
  | .commit event _ input => input.name = event.instanceName ∧ input.runId = event.runId ∧
      Hosts b event.runId event.instanceName
  | .evaluate input => Hosts b input.runId input.name
  | .registry op => ∀ e ∈ b.ledger.usage, op.minted ≠ some e.runId

/-- What a job that succeeds has done.  A replay writes nothing; an event is evaluated on the ledger
that holds it. -/
def Acted (attributed : Prop) (b : Books) (at_ : Timestamp) (ev : Evaluation) (b' : Books) :
    PipelineJob → Prop
  | .commit event generation input =>
      let row := b.ledger.rowOf event input.rate generation
      ((∃ e ∈ b.ledger.usage, Ledger.sameKey row e = true) ∧ ev = .empty ∧ b' = b) ∨
      ((∀ e ∈ b.ledger.usage, Ledger.sameKey row e = false) ∧ ∃ ledger,
        ledger.usage = b.ledger.usage ++ [row] ∧ ledger.runs = b.ledger.runs ∧
        Decided attributed { b with ledger := ledger } input at_ ev b')
  | .evaluate input => Decided attributed b input at_ ev b'
  | .registry _ => ev = .empty ∧ b'.breaches = b.breaches ∧ b'.latches = b.latches

theorem run_commit {event : UsageEvent} {generation : ℕ} {input : EvalInput}
    (h : (commit event generation input).run at_ b = .ok (ev, b')) :
    ∃ outcome, b.commitUsage event generation input at_ = .ok (outcome, ev, b') := by
  change (b.commitUsage event generation input at_).map _ = _ at h
  cases hc : b.commitUsage event generation input at_ with
  | error err =>
      rw [hc] at h
      simp [Except.map] at h
  | ok r =>
      rw [hc] at h
      exact ⟨r.1, congrArg (fun x => Except.ok (r.1, x)) (Except.ok.inj h)⟩

theorem run_once (job : PipelineJob) (h : Once b) (hok : job.run at_ b = .ok (ev, b')) :
    Once b' := by
  cases job with
  | commit event generation input =>
      obtain ⟨outcome, hc⟩ := run_commit hok
      exact h.commitUsage hc
  | evaluate input => exact h.evaluate hok
  | registry op =>
      obtain ⟨-, rfl⟩ := Prod.mk.inj (Except.ok.inj hok)
      exact h.setRuns (h.registry.apply op).1

theorem run_exact (job : PipelineJob) (h : Exact b) (hattr : job.Attributed b)
    (hok : job.run at_ b = .ok (ev, b')) : Exact b' := by
  cases job with
  | commit event generation input =>
      obtain ⟨outcome, hc⟩ := run_commit hok
      obtain ⟨hname, hid, hhost⟩ := hattr
      rcases commitUsage_spec hc with ⟨-, -, rfl⟩ | ⟨-, ledger, hins, hev⟩
      · exact h
      · obtain ⟨hexact, hhosts⟩ := h.insert hhost hins
        rw [← hname, ← hid] at hhosts
        exact hexact.evaluate hhosts hev
  | evaluate input => exact h.evaluate hattr hok
  | registry op =>
      obtain ⟨-, rfl⟩ := Prod.mk.inj (Except.ok.inj hok)
      exact ⟨h.ledger.registry_op op at_ hattr, h.folded⟩

theorem replay_key {event : UsageEvent} {generation : ℕ} {input : EvalInput}
    (h : b.commitUsage event generation input at_ = .ok (.duplicateReplay, ev, b')) :
    ∃ e ∈ b.ledger.usage,
      Ledger.sameKey (b.ledger.rowOf event input.rate generation) e = true := by
  unfold commitUsage at h
  split at h
  · simp at h
  · rename_i ledger hdup
    rcases Ledger.insertUsage_cases hdup with ⟨-, -, hkey⟩ | ⟨hins, -⟩
    · exact hkey
    · simp at hins
  · rename_i ledger hins
    cases hev : Books.evaluate { b with ledger := ledger } input at_ <;>
      simp [hev, Except.map] at h

/-- **What a job does**, on books whose breaches are recorded once. -/
theorem run_acted (job : PipelineJob) {attributed : Prop} (h : Once b)
    (hexact : attributed → Exact b ∧ job.Attributed b) (hok : job.run at_ b = .ok (ev, b')) :
    job.Acted attributed b at_ ev b' := by
  cases job with
  | commit event generation input =>
      obtain ⟨outcome, hc⟩ := run_commit hok
      rcases commitUsage_spec hc with ⟨rfl, rfl, rfl⟩ | ⟨rfl, ledger, hins, hev⟩
      · exact .inl ⟨replay_key hc, rfl, rfl⟩
      · right
        rcases Ledger.insertUsage_cases hins with ⟨hdup, -⟩ | ⟨-, rfl, hkey⟩
        · simp at hdup
        · have honce : Once { b with ledger :=
              (b.ledger.append (b.ledger.rowOf event input.rate generation)).foldRows true } :=
            ⟨h.registry, h.latched, h.once⟩
          refine ⟨hkey, (b.ledger.append (b.ledger.rowOf event input.rate generation)).foldRows true,
            rfl, rfl, honce.evaluated hev ?_⟩
          intro ha
          obtain ⟨hex, hname, hid, hhost⟩ := hexact ha
          obtain ⟨hexact', hhosts⟩ := hex.insert hhost hins
          rw [← hname, ← hid] at hhosts
          exact hexact'.ownTotals hhosts
  | evaluate input => exact h.evaluated hok fun ha => (hexact ha).1.ownTotals (hexact ha).2
  | registry op =>
      obtain ⟨rfl, rfl⟩ := Prod.mk.inj (Except.ok.inj hok)
      exact ⟨rfl, rfl, rfl⟩

end PipelineJob

/-- The books that a sequence of jobs leaves.  With `attributed` every job meets the promise of its
caller. -/
inductive Served (attributed : Bool) : Books → Prop where
  | empty : Served attributed Books.empty
  | job {b b' : Books} (job : PipelineJob) (at_ : Timestamp) (ev : Evaluation)
      (h : Served attributed b) (hattr : attributed = true → job.Attributed b)
      (hok : job.run at_ b = .ok (ev, b')) : Served attributed b'

namespace Served

open Books Writer

variable {attributed : Bool} {b : Books}

theorem once (h : Served attributed b) : Once b := by
  induction h with
  | empty => exact once_empty
  | job job at_ ev _ _ hok ih => exact job.run_once ih hok

theorem exact (h : Served true b) : Exact b := by
  induction h with
  | empty => exact ⟨Ledger.ledgerInv_empty, rfl⟩
  | job job at_ ev _ hattr hok ih => exact job.run_exact ih (hattr rfl) hok

/-- Without the promises of the callers. -/
theorem forget (h : Served attributed b) : Served false b := by
  induction h with
  | empty => exact .empty
  | job job at_ ev _ _ hok ih => exact .job job at_ ev ih (by simp) hok

/-- The jobs a writer has applied are a sequence of jobs. -/
theorem applied {oks : List (Job Books Governance.LatchKey × List Governance.LatchKey)} {b' : Books}
    (hb : Served false b) (h : Applied b oks b') {describe : StoreError → WriteError}
    (hjobs : ∀ x ∈ oks, ∃ (p : PipelineJob) (at_ : Timestamp), x.1.work = p.work describe at_) :
    Served false b' := by
  induction h with
  | nil db => exact hb
  | @cons db mid db' job hooks oks work rest ih =>
      obtain ⟨p, at_, hp⟩ := hjobs _ List.mem_cons_self
      rw [hp] at work
      obtain ⟨ev, hok, -⟩ := PipelineJob.work_ok work
      exact ih (.job p at_ ev hb (by simp) hok) fun x hx => hjobs x (List.mem_cons_of_mem _ hx)

/-- A job that a writer has applied ran on books that a sequence of jobs leaves. -/
theorem applied_mem {oks : List (Job Books Governance.LatchKey × List Governance.LatchKey)}
    {b' : Books} (hb : Served false b) (h : Applied b oks b')
    {describe : StoreError → WriteError}
    (hjobs : ∀ x ∈ oks, ∃ (p : PipelineJob) (at_ : Timestamp), x.1.work = p.work describe at_)
    {job : Job Books Governance.LatchKey} {hooks : List Governance.LatchKey}
    (hmem : (job, hooks) ∈ oks) {p : PipelineJob} {at_ : Timestamp}
    (hwork : job.work = p.work describe at_) :
    ∃ (b₁ : Books) (ev : Evaluation) (b₂ : Books), Served false b₁ ∧
      p.run at_ b₁ = .ok (ev, b₂) ∧ hooks = ev.raised := by
  obtain ⟨pre, mid, mid', post, rfl, hpre, hmid, -⟩ := h.split hmem
  have hserved : Served false mid :=
    hb.applied hpre fun x hx => hjobs x (List.mem_append_left _ hx)
  rw [hwork] at hmid
  obtain ⟨ev, hok, hhooks⟩ := PipelineJob.work_ok hmid
  exact ⟨mid, ev, mid', hserved, hok, hhooks⟩

/-- **Breaches are recorded once.**  After any sequence of jobs no pair of a Run has two breach rows
under one action, and the latches are those of the rows.  A job on these books does what `Acted`
says: a replay and an evaluation without a supervised process write nothing; else each armed level,
from the Run of the event up to the process-owning one, decides on its own subtree and through its
own latch, and only the open process-owning level acts or raises the fence.  In every run of the
writer a fence reason is raised by a job that is in the database, and before its sender is told. -/
theorem breaches_once (h : Served attributed b) :
    (b.breaches.map latchOf).Nodup ∧
    (∀ l, l ∈ b.latches ↔ ∃ e ∈ b.breaches, latchOf e = l) ∧
    (∀ (job : PipelineJob) (at_ : Timestamp) (ev : Evaluation) (b' : Books),
      job.run at_ b = .ok (ev, b') →
        job.Acted (attributed = true ∧ job.Attributed b) b at_ ev b') ∧
    ∀ (describe : StoreError → WriteError) (steps : List (StoreWriter.Op Books Governance.LatchKey)),
      (∀ sender acked weight work, .send sender acked weight work ∈ steps →
        ∃ (p : PipelineJob) (at_ : Timestamp), work = p.work describe at_) →
      let s := steps.foldl StoreWriter.step (StoreWriter.start b)
      ∃ oks, Applied b oks s.db ∧ ∀ job ∈ s.sent, ∀ key, .hook job.id key ∈ s.told job.id →
        ∃ (p : PipelineJob) (at_ : Timestamp) (b₁ : Books) (ev : Evaluation) (b₂ : Books),
          Served false b₁ ∧ p.run at_ b₁ = .ok (ev, b₂) ∧ job.work = p.work describe at_ ∧
          (job, ev.raised) ∈ oks ∧ key ∈ ev.raised ∧
          s.told job.id = ev.raised.map (.hook job.id) ++ [.reply job.id none] := by
  have honce := h.once
  refine ⟨by rw [← honce.latched]; exact honce.once, ?_, ?_, ?_⟩
  · intro l
    rw [honce.latched, List.mem_map]
  · intro job at_ ev b' hok
    refine job.run_acted honce ?_ hok
    rintro ⟨rfl, hattr⟩
    exact ⟨h.exact, hattr⟩
  · intro describe steps hsteps s
    obtain ⟨blocks, finished, hp⟩ := StoreWriter.protocol_states b steps
    have hsent : ∀ job ∈ s.sent, ∃ (p : PipelineJob) (at_ : Timestamp),
        job.work = p.work describe at_ := by
      intro job hjob
      obtain ⟨sender, acked, weight, hmem⟩ := StoreWriter.sent_work b steps job hjob
      exact hsteps _ _ _ _ hmem
    refine ⟨Writer.applied blocks, hp.applied, ?_⟩
    intro job hjob key hkey
    obtain ⟨p, at_, hwork⟩ := hsent job hjob
    cases hp.fate hjob with
    | refused err hout htold =>
        rw [htold] at hkey
        simp at hkey
    | waiting hq hout htold =>
        rw [htold] at hkey
        simp at hkey
    | durable hooks hin htold =>
        have hjobs : ∀ x ∈ Writer.applied blocks, ∃ (p : PipelineJob) (at_ : Timestamp),
            x.1.work = p.work describe at_ := by
          intro x hx
          refine hsent x.1 ?_
          rw [hp.sent]
          exact List.mem_append_left _ (hp.order.mem (List.mem_map_of_mem hx))
        obtain ⟨b₁, ev, b₂, hserved, hok, rfl⟩ := h.forget.applied_mem hp.applied hjobs hin hwork
        refine ⟨p, at_, b₁, ev, b₂, hserved, hok, hwork, hin, ?_, htold⟩
        -- its sender is told the reasons it raised, and then the answer
        rw [htold] at hkey
        rcases List.mem_append.mp hkey with hkey | hkey
        · obtain ⟨key', hmem, he⟩ := List.mem_map.mp hkey
          obtain ⟨-, rfl⟩ := Event.hook.inj he
          exact hmem
        · simp at hkey

/-- An owner whose instance has a ceiling of 25 tokens, with a child that has one of 20. -/
def ownerAndChild : Books :=
  Books.empty.setRuns (Runs.runOps [("1", .register "a"), ("2", .launch "a" false 7 true []),
    ("3", .openChild ⟨.ofInstance "a", [], ⟨some 20, none, none⟩, none⟩ 8)])

/-- A report of 30 tokens of the child. -/
def childReport : PipelineJob :=
  .commit ⟨"a", 8, 10, 20, none, "self-reported", "4", 1⟩ 1
    { name := "a", runId := 8, meteringSource := "self-reported"
      tokenBudget := ⟨some 25, none⟩, tokenAction := .pause
      rate := none, costCap := ⟨none, none⟩, costAction := .warn
      supervised := true, fence := true }

theorem served_ownerAndChild : Served true ownerAndChild :=
  (((Served.empty.job (.registry (.register "a")) "1" _
    (fun _ => by simp [PipelineJob.Attributed, Books.empty, Ledger.empty]) rfl).job
    (.registry (.launch "a" false 7 true [])) "2" _
    (fun _ => by simp [PipelineJob.Attributed, Books.empty, Ledger.empty]) rfl).job
    (.registry (.openChild ⟨.ofInstance "a", [], ⟨some 20, none, none⟩, none⟩ 8)) "3" _
    (fun _ => by simp [PipelineJob.Attributed, Books.empty, Ledger.empty]) rfl)

/-- The report breaches both ceilings, and each of them once. -/
theorem breaches_once_ownerAndChild : ∃ b, Served true b ∧
    b.breaches.map (fun e => (e.runId, e.limit, e.action)) = [(8, 20, .warn), (7, 25, .pause)] ∧
    (b.breaches.map latchOf).Nodup := by
  have hrows : ((childReport.run "4" ownerAndChild).toOption.map fun r =>
      r.2.breaches.map fun e => (e.runId, e.limit, e.action)) =
        some [(8, 20, .warn), (7, 25, .pause)] := by decide +kernel
  cases hr : childReport.run "4" ownerAndChild with
  | error err =>
      rw [hr] at hrows
      simp [Except.toOption] at hrows
  | ok r =>
      rw [hr] at hrows
      have hattr : childReport.Attributed ownerAndChild := by
        refine ⟨rfl, rfl, by decide +kernel, ?_⟩
        simp [ownerAndChild, Books.setRuns, Books.empty, Ledger.empty]
      have hserved := served_ownerAndChild.job childReport "4" r.1 (fun _ => hattr) hr
      exact ⟨r.2, hserved, Option.some.inj hrows, (breaches_once hserved).1⟩

end Served

end Hekma
