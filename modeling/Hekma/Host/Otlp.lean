/-
**The cumulative series of the metrics exporter** (`hekma-host/src/otlp/payload.rs`).

The exporter folds the events of the engine into cumulative series and posts a snapshot of them now
and then; all points of one exporter carry the time it was started at.  The token histograms of an
instance are kept for the Runs that were observed most recently, a bounded number of them.  A Run
that falls out of this window and is observed again starts its series anew, at the old start time.

Main definitions:

* `Otlp.MetricState`, `MetricState.observe`, `MetricState.enforceRunWindow` — the exporter;
* `Otlp.Command`, `Otlp.MetricState.run` — what happens to it;
* `Otlp.Series`, `Otlp.Series.add` — the cumulative series, and what a command contributes to one;
* `Otlp.Cumulative` — two snapshots are those of cumulative series;
* `Otlp.StaysInWindow` — no Run falls out of the window in between.

Main results:

* `Otlp.windowed_run` — the exporter keeps the most recent Runs of each instance;
* `Otlp.value_step` — a series that is kept takes what a command contributes;
* `Otlp.cumulative_iff` — the series are cumulative exactly when no Run falls out of the window.
-/

import Mathlib.Data.List.AList
import Mathlib.Data.List.Sort
import Mathlib.Data.Fintype.Basic
import Hekma.Domain.Governance
import Hekma.Domain.Lifecycle
import Hekma.Domain.Runs.Record
import Hekma.Lib.Recency

set_option relaxedAutoImplicit false
set_option autoImplicit false

namespace Hekma

namespace Otlp

open Governance

/-! ### Histograms -/

/-- The bounds of the token histogram. -/
def tokenHistogramBounds : List ℕ := [1000, 10000, 100000, 1000000, 10000000]

/-- How many Runs of an instance have token series. -/
def maxRunsPerInstance : ℕ := 64

/-- Which token count an observation carries. -/
inductive TokenType where
  | input
  | output
  | cached
  deriving DecidableEq, Repr

/-- One histogram.  Counts are exact here. -/
structure HistogramAccumulator where
  count : ℕ
  sum : ℕ
  min : ℕ
  max : ℕ
  buckets : Fin 6 → ℕ

namespace HistogramAccumulator

/-- A histogram without an observation. -/
def empty : HistogramAccumulator := ⟨0, 0, 0, 0, fun _ => 0⟩

/-- The first bucket whose bound is not below the value, and the last bucket if there is none. -/
def bucketOf (value : ℕ) : Fin 6 :=
  ((List.finRange 6).find? fun b => tokenHistogramBounds[b.1]?.any (value ≤ ·)).getD 5

/-- Record one observation. -/
def observe (h : HistogramAccumulator) (value : ℕ) : HistogramAccumulator where
  count := h.count + 1
  sum := h.sum + value
  min := if h.count = 0 then value else Min.min h.min value
  max := if h.count = 0 then value else Max.max h.max value
  buckets := Function.update h.buckets (bucketOf value) (h.buckets (bucketOf value) + 1)

end HistogramAccumulator

/-! ### Events -/

/-- How far a dollar amount has been settled. -/
inductive EstimateLabel where
  | estimated
  | reconciled
  deriving DecidableEq, Repr

def EstimateLabel.text : EstimateLabel → String
  | .estimated => "estimated"
  | .reconciled => "reconciled"

/-- A transition of an instance. -/
structure TransitionEvent where
  instanceName : InstanceName
  priorState : LifecycleState
  newState : LifecycleState

/-- A recorded breach.  Amounts are in micro-dollars. -/
structure BudgetBreachEvent where
  instanceName : InstanceName
  dimension : BreachDimension
  scope : BreachScope
  action : BreachAction
  dollarObserved : Option ℤ
  estimateLabel : Option EstimateLabel

/-- A committed usage event.  The number of cached tokens may be unknown. -/
structure UsageUpdateEvent where
  instanceName : InstanceName
  runId : RunId
  inputTokens : ℕ
  outputTokens : ℕ
  cachedTokens : Option ℕ

/-- What the engine publishes. -/
inductive EngineEvent where
  | transition (event : TransitionEvent)
  | budgetBreach (event : BudgetBreachEvent)
  | usageUpdate (event : UsageUpdateEvent)
  | run

/-! ### The state of the exporter -/

def dimensionStr : BreachDimension → String
  | .tokens => "tokens"
  | .dollars => "dollars"

def scopeStr : BreachScope → String
  | .perRun => "per-run"
  | .cumulative => "cumulative"

def actionStr : BreachAction → String
  | .pause => "pause"
  | .stop => "stop"
  | .warn => "warn"
  | .block => "block"

/-- What a breach is counted under. -/
structure BreachKey where
  instanceName : InstanceName
  dimension : String
  scope : String
  action : String
  deriving DecidableEq, Repr

/-- What a cost is summed under. -/
structure CostKey where
  instanceName : InstanceName
  estimateState : String
  deriving DecidableEq, Repr

/-- A map of the exporter. -/
abbrev Table (κ ν : Type) : Type := AList fun _ : κ => ν

/-- The key of a token histogram. -/
abbrev TokenKey : Type := InstanceName × RunId × TokenType

/-- Everything the events have fed the exporter since its start.  Costs are in micro-dollars. -/
structure MetricState where
  startTimeUnixNano : ℕ
  serviceInstanceId : String
  tokenUsage : Table TokenKey HistogramAccumulator
  /-- The number of the last observation of a Run. -/
  runLastSeen : Table (InstanceName × RunId) ℕ
  nextRunSeq : ℕ
  evictedRunsThisCycle : Table InstanceName ℕ
  breaches : Table BreachKey ℕ
  agentState : Table (InstanceName × LifecycleState) ℕ
  cost : Table CostKey ℕ
  dropped : ℕ
  inFlight : ℕ

/-- The key of a breach. -/
def BudgetBreachEvent.key (event : BudgetBreachEvent) : BreachKey :=
  ⟨event.instanceName, dimensionStr event.dimension, scopeStr event.scope, actionStr event.action⟩

/-- The cost a breach reports: only one of the whole life of an instance does, and only if its
dollars were observed. -/
def BudgetBreachEvent.cost (event : BudgetBreachEvent) : Option (CostKey × ℕ) :=
  if event.dimension = .dollars ∧ event.scope = .cumulative then
    event.dollarObserved.map fun micros =>
      (⟨event.instanceName, (event.estimateLabel.map EstimateLabel.text).getD
        EstimateLabel.estimated.text⟩, micros.toNat)
  else none

/-- The counts of a usage event, by token type. -/
def UsageUpdateEvent.counts (event : UsageUpdateEvent) : TokenType → Option ℕ
  | .input => some event.inputTokens
  | .output => some event.outputTokens
  | .cached => event.cachedTokens

namespace MetricState

/-- The exporter at its start. -/
def new (startTimeUnixNano : ℕ) (serviceInstanceId : String) : MetricState :=
  ⟨startTimeUnixNano, serviceInstanceId, ∅, ∅, 0, ∅, ∅, ∅, ∅, 0, 0⟩

/-- Observe the count of one token type, if it is known. -/
def observeTokens (s : MetricState) (event : UsageUpdateEvent) (type : TokenType) : MetricState :=
  match event.counts type with
  | none => s
  | some tokens =>
      let key := (event.instanceName, event.runId, type)
      { s with
        tokenUsage := s.tokenUsage.insert key
          (((s.tokenUsage.lookup key).getD .empty).observe tokens) }

/-- The Runs of an instance, with the numbers of their last observations. -/
def runsOf (s : MetricState) (name : InstanceName) : List (RunId × ℕ) :=
  (s.runLastSeen.entries.filter fun e => e.1.1 = name).map fun e => (e.1.2, e.2)

/-- Forget a Run. -/
def evict (s : MetricState) (name : InstanceName) (runId : RunId) : MetricState :=
  { s with
    runLastSeen := s.runLastSeen.erase (name, runId)
    tokenUsage := ((s.tokenUsage.erase (name, runId, .input)).erase (name, runId, .output)).erase
      (name, runId, .cached)
    evictedRunsThisCycle := s.evictedRunsThisCycle.insert name
      ((s.evictedRunsThisCycle.lookup name).getD 0 + 1) }

/-- Forget the Runs that were not observed for the longest time. -/
def enforceRunWindow (s : MetricState) (name : InstanceName) : MetricState :=
  let runs := s.runsOf name
  if runs.length ≤ maxRunsPerInstance then s
  else
    let oldest := runs.insertionSort fun a b => a.2 ≤ b.2
    (oldest.take (runs.length - maxRunsPerInstance)).foldl (fun s r => s.evict name r.1) s

/-- Observe one event. -/
def observe (s : MetricState) (event : EngineEvent) : MetricState :=
  let s := { s with inFlight := s.inFlight + 1 }
  match event with
  | .transition e =>
      { s with
        agentState := (s.agentState.insert (e.instanceName, e.priorState) 0).insert
          (e.instanceName, e.newState) 1 }
  | .budgetBreach e =>
      let s := { s with
        breaches := s.breaches.insert e.key ((s.breaches.lookup e.key).getD 0 + 1) }
      match e.cost with
      | none => s
      | some (key, observed) =>
          { s with cost := s.cost.insert key (Max.max ((s.cost.lookup key).getD 0) observed) }
  | .usageUpdate e =>
      let s := { s with
        runLastSeen := s.runLastSeen.insert (e.instanceName, e.runId) s.nextRunSeq
        nextRunSeq := s.nextRunSeq + 1 }
      let s := [TokenType.input, .output, .cached].foldl (fun s type => s.observeTokens e type) s
      s.enforceRunWindow e.instanceName
  | .run => s

end MetricState

/-! ### What happens to an exporter -/

/-- What the task of the exporter does with its state, apart from taking a snapshot. -/
inductive Command where
  | observe (event : EngineEvent)
  | noteDroppedEvents (n : ℕ)
  | noteDroppedBatch
  | noteRejectedPoints (n : ℕ)
  | markDelivered
  | takeEvictedRunSeries

namespace MetricState

def apply (s : MetricState) : Command → MetricState
  | .observe event => s.observe event
  | .noteDroppedEvents n => { s with dropped := s.dropped + n }
  | .noteDroppedBatch => { s with dropped := s.dropped + 1 }
  | .noteRejectedPoints n => { s with dropped := s.dropped + n }
  | .markDelivered => { s with inFlight := 0 }
  | .takeEvictedRunSeries => { s with evictedRunsThisCycle := ∅ }

/-- The exporter after some commands. -/
def run (s : MetricState) (commands : List Command) : MetricState := commands.foldl apply s

end MetricState

/-! ### Snapshots -/

/-- The points of a snapshot, by metric.  All of them carry its start time. -/
structure Snapshot where
  startTimeUnixNano : ℕ
  timeUnixNano : ℕ
  tokenUsage : Table TokenKey HistogramAccumulator
  breaches : Table BreachKey ℕ
  cost : Table CostKey ℕ
  agentState : Table (InstanceName × LifecycleState) ℕ
  dropped : ℕ

/-- A snapshot.  Its time is not before the start. -/
def MetricState.snapshot (s : MetricState) (timeUnixNano : ℕ) : Snapshot where
  startTimeUnixNano := s.startTimeUnixNano
  timeUnixNano := Max.max timeUnixNano s.startTimeUnixNano
  tokenUsage := s.tokenUsage
  breaches := s.breaches
  cost := s.cost
  agentState := s.agentState
  dropped := s.dropped

/-- The cumulative numbers of a histogram. -/
inductive Part where
  | count
  | sum
  | bucket (b : Fin 6)
  deriving DecidableEq, Repr

/-- A cumulative series. -/
inductive Series where
  | tokens (name : InstanceName) (runId : RunId) (type : TokenType) (part : Part)
  | breaches (key : BreachKey)
  | cost (key : CostKey)
  | dropped
  deriving DecidableEq, Repr

/-- A cumulative number of a histogram. -/
def HistogramAccumulator.part (h : HistogramAccumulator) : Part → ℕ
  | .count => h.count
  | .sum => h.sum
  | .bucket b => h.buckets b

/-- The value of a series, if the snapshot has it. -/
def Snapshot.value (s : Snapshot) : Series → Option ℕ
  | .tokens name runId type part =>
      (s.tokenUsage.lookup (name, runId, type)).map fun h => h.part part
  | .breaches key => s.breaches.lookup key
  | .cost key => s.cost.lookup key
  | .dropped => some s.dropped

/-! ### The promise -/

/-- What one observation adds to a number of a histogram. -/
def Part.amount (value : ℕ) : Part → ℕ
  | .count => 1
  | .sum => value
  | .bucket b => if HistogramAccumulator.bucketOf value = b then 1 else 0

/-- What an event makes of the value of a series. -/
def Series.addEvent (a : ℕ) : Series → EngineEvent → ℕ
  | .tokens name runId type part, .usageUpdate e =>
      if e.instanceName = name ∧ e.runId = runId then a + (e.counts type).elim 0 part.amount else a
  | .breaches key, .budgetBreach e => if e.key = key then a + 1 else a
  | .cost key, .budgetBreach e =>
      (e.cost.filter fun c => c.1 = key).elim a fun c => Max.max a c.2
  | _, _ => a

/-- What a command contributes to a series, added to its value: an observation adds its amount, a
breach one, a cost is the highest one reported. -/
def Series.add (σ : Series) (a : ℕ) : Command → ℕ
  | .observe event => σ.addEvent a event
  | .noteDroppedEvents n | .noteRejectedPoints n => if σ = .dropped then a + n else a
  | .noteDroppedBatch => if σ = .dropped then a + 1 else a
  | .markDelivered | .takeEvictedRunSeries => a

/-- Two snapshots of an exporter, with the commands in between, are those of cumulative series:
a series that is in both has not gone down, and it has grown by what was contributed to it. -/
def Cumulative (first later : Snapshot) (between : List Command) : Prop :=
  ∀ σ a b, first.value σ = some a → later.value σ = some b →
    a ≤ b ∧ b = between.foldl σ.add a

/-- The Runs of an instance that were observed, in their order. -/
def observedRuns (name : InstanceName) (commands : List Command) : List RunId :=
  commands.filterMap fun
    | .observe (.usageUpdate e) => if e.instanceName = name then some e.runId else none
    | _ => none

/-- The Run is one of the most recently observed ones of its instance. -/
def InWindow (name : InstanceName) (runId : RunId) (commands : List Command) : Prop :=
  runId ∈ Recency.window maxRunsPerInstance (observedRuns name commands)

/-- No Run that has series in both snapshots falls out of the window in between. -/
def StaysInWindow (before between : List Command) : Prop :=
  ∀ name runId, InWindow name runId before → InWindow name runId (before ++ between) →
    ∀ k, InWindow name runId (before ++ between.take k)

/-! ### Histograms -/

theorem part_empty (part : Part) : HistogramAccumulator.empty.part part = 0 := by
  cases part <;> rfl

theorem part_observe (h : HistogramAccumulator) (value : ℕ) (part : Part) :
    (h.observe value).part part = h.part part + part.amount value := by
  cases part with
  | count => rfl
  | sum => rfl
  | bucket b =>
      simp only [HistogramAccumulator.part, HistogramAccumulator.observe, Part.amount,
        Function.update_apply]
      split
      · rename_i h
        rw [if_pos h.symm, h]
      · rename_i h
        rw [if_neg fun heq => h heq.symm]
        rfl

/-! ### The window -/

theorem keys_erase {κ ν : Type} [DecidableEq κ] (m : Table κ ν) (a : κ) :
    (m.erase a).keys = m.keys.filter fun k => k ≠ a := by
  rw [AList.keys_erase, m.keys_nodup.erase_eq_filter]
  refine List.filter_congr fun k _ => ?_
  rw [Bool.eq_iff_iff]
  simp

theorem keys_insert {κ ν : Type} [DecidableEq κ] (m : Table κ ν) (a : κ) (b : ν) :
    (m.insert a b).keys = a :: m.keys.filter fun k => k ≠ a := by
  rw [AList.keys_insert, ← AList.keys_erase, keys_erase]

namespace MetricState

variable {s : MetricState} {name : InstanceName} {runId : RunId} {event : UsageUpdateEvent}

/-- The Runs of an instance as the exporter keeps them, the most recent one first. -/
def recency (s : MetricState) (name : InstanceName) : List RunId :=
  (s.runLastSeen.keys.filter fun k => k.1 = name).map Prod.snd

theorem map_fst_runsOf (s : MetricState) (name : InstanceName) :
    (s.runsOf name).map Prod.fst = s.recency name := by
  rw [runsOf, recency, AList.keys, List.keys, List.filter_map, List.map_map, List.map_map]
  rfl

theorem nodup_recency (s : MetricState) (name : InstanceName) : (s.recency name).Nodup := by
  refine List.Nodup.map_on ?_ (s.runLastSeen.keys_nodup.filter _)
  rintro ⟨n, r⟩ hx ⟨n', r'⟩ hy (rfl : r = r')
  simp only [List.mem_filter, decide_eq_true_eq] at hx hy
  rw [hx.2, hy.2]

/-- The numbers of the observations fall along the table, and the next one is new. -/
structure Ordered (s : MetricState) : Prop where
  falling : s.runLastSeen.entries.Pairwise fun a b => b.2 < a.2
  fresh : ∀ e ∈ s.runLastSeen.entries, e.2 < s.nextRunSeq

theorem runsOf_falling (hs : Ordered s) (name : InstanceName) :
    (s.runsOf name).Pairwise fun a b => b.2 < a.2 :=
  (hs.falling.filter _).map _ fun _ _ h => h

/-- The oldest Runs are at the end of the table. -/
theorem oldest_eq (hs : Ordered s) (name : InstanceName) :
    ((s.runsOf name).insertionSort fun a b => a.2 ≤ b.2) = (s.runsOf name).reverse := by
  have hle : (s.runsOf name).reverse.Pairwise fun a b => a.2 ≤ b.2 := by
    rw [List.pairwise_reverse]
    exact (runsOf_falling hs name).imp fun h => h.le
  have htotal : Std.Total fun a b : RunId × ℕ => a.2 ≤ b.2 := ⟨fun a b => le_total a.2 b.2⟩
  have htrans : IsTrans (RunId × ℕ) fun a b => a.2 ≤ b.2 := ⟨fun _ _ _ h h' => h.trans h'⟩
  have hdistinct : (s.runsOf name).Pairwise fun a b => a.2 ≠ b.2 :=
    (runsOf_falling hs name).imp fun h => h.ne'
  have hsymm : Std.Symm fun a b : RunId × ℕ => a.2 ≠ b.2 := ⟨fun _ _ h => h.symm⟩
  refine List.Perm.eq_of_pairwise ?_ (List.pairwise_insertionSort _ _) hle
    ((List.perm_insertionSort _ _).trans (List.reverse_perm _).symm)
  intro a b ha hb hab hba
  by_contra hne
  have hmem : a ∈ s.runsOf name := (List.perm_insertionSort _ _).subset ha
  have hmem' : b ∈ s.runsOf name := List.mem_reverse.1 hb
  exact hdistinct.forall hmem hmem' hne (le_antisymm hab hba)

/-- **The Runs that are forgotten are those behind the bound.** -/
theorem enforceRunWindow_eq (hs : Ordered s) (name : InstanceName) :
    s.enforceRunWindow name =
      ((s.recency name).drop maxRunsPerInstance).reverse.foldl (fun s r => s.evict name r) s := by
  have hlength : (s.runsOf name).length = (s.recency name).length := by
    rw [← map_fst_runsOf, List.length_map]
  unfold enforceRunWindow
  dsimp only
  split
  · rename_i hfits
    rw [List.drop_of_length_le (by omega)]
    rfl
  · rename_i hexcess
    rw [oldest_eq hs, List.take_reverse, Nat.sub_sub_self (by omega), ← map_fst_runsOf,
      ← List.map_drop, ← List.map_reverse, List.foldl_map]

/-! ### Forgetting Runs -/

/-- What forgetting some Runs of an instance leaves. -/
structure Forgot (s : MetricState) (name : InstanceName) (runs : List RunId) (s' : MetricState) :
    Prop where
  entries : s'.runLastSeen.entries.Sublist s.runLastSeen.entries
  keys : s'.runLastSeen.keys = s.runLastSeen.keys.filter fun k => ¬ (k.1 = name ∧ k.2 ∈ runs)
  tokens : ∀ n r type, s'.tokenUsage.lookup (n, r, type) =
    if n = name ∧ r ∈ runs then none else s.tokenUsage.lookup (n, r, type)
  frame : s'.nextRunSeq = s.nextRunSeq ∧ s'.breaches = s.breaches ∧ s'.cost = s.cost ∧
    s'.dropped = s.dropped ∧ s'.startTimeUnixNano = s.startTimeUnixNano

theorem forgot_evict (s : MetricState) (name : InstanceName) (runId : RunId) :
    Forgot s name [runId] (s.evict name runId) where
  entries := List.kerase_sublist _ _
  keys := by
    rw [evict, keys_erase]
    refine List.filter_congr fun k _ => ?_
    simp [Prod.ext_iff]
  tokens := by
    intro n r type
    by_cases h : n = name ∧ r = runId
    · obtain ⟨rfl, rfl⟩ := h
      rw [if_pos (by simp)]
      cases type with
      | input => simp [evict, AList.lookup_erase, AList.lookup_erase_ne]
      | output => simp [evict, AList.lookup_erase, AList.lookup_erase_ne]
      | cached => simp [evict, AList.lookup_erase]
    · rw [if_neg (by simpa using h)]
      have hne : ∀ type', (n, r, type) ≠ (name, runId, type') := by
        intro type' heq
        simp only [Prod.mk.injEq] at heq
        exact h ⟨heq.1, heq.2.1⟩
      rw [evict, AList.lookup_erase_ne (hne _), AList.lookup_erase_ne (hne _),
        AList.lookup_erase_ne (hne _)]
  frame := ⟨rfl, rfl, rfl, rfl, rfl⟩

theorem Forgot.trans {s' s'' : MetricState} {runs : List RunId} (h : Forgot s name [runId] s')
    (h' : Forgot s' name runs s'') : Forgot s name (runId :: runs) s'' where
  entries := h'.entries.trans h.entries
  keys := by
    rw [h'.keys, h.keys, List.filter_filter]
    refine List.filter_congr fun k _ => ?_
    rw [Bool.eq_iff_iff]
    simp only [List.mem_cons, List.not_mem_nil, or_false, Bool.and_eq_true, decide_eq_true_eq]
    tauto
  tokens := by
    intro n r type
    rw [h'.tokens, h.tokens]
    by_cases hn : n = name <;> by_cases hr : r = runId <;> by_cases hrs : r ∈ runs <;>
      simp [hn, hr, hrs]
  frame := by
    obtain ⟨h₁, h₂, h₃, h₄, h₅⟩ := h.frame
    obtain ⟨h₁', h₂', h₃', h₄', h₅'⟩ := h'.frame
    exact ⟨h₁'.trans h₁, h₂'.trans h₂, h₃'.trans h₃, h₄'.trans h₄, h₅'.trans h₅⟩

theorem forgot_foldl (name : InstanceName) (runs : List RunId) (s : MetricState) :
    Forgot s name runs (runs.foldl (fun s r => s.evict name r) s) := by
  induction runs generalizing s with
  | nil => exact ⟨List.Sublist.refl _, by simp, by simp, rfl, rfl, rfl, rfl, rfl⟩
  | cons r runs ih => exact (forgot_evict s name r).trans (ih _)

theorem Forgot.recency {s' : MetricState} {runs : List RunId} (h : Forgot s name runs s')
    (n : InstanceName) :
    s'.recency n = (s.recency n).filter fun r => ¬ (n = name ∧ r ∈ runs) := by
  rw [MetricState.recency, h.keys, List.filter_filter, MetricState.recency, List.filter_map,
    List.filter_filter]
  congr 1
  refine List.filter_congr fun k _ => ?_
  rw [Bool.eq_iff_iff]
  simp only [Bool.and_eq_true, decide_eq_true_eq, Function.comp_apply]
  constructor
  · rintro ⟨rfl, hk⟩
    exact ⟨hk, rfl⟩
  · rintro ⟨hk, rfl⟩
    exact ⟨rfl, hk⟩

/-! ### One usage event -/

/-- A Run is stamped as the one observed last. -/
def stamp (s : MetricState) (event : UsageUpdateEvent) : MetricState :=
  { s with
    runLastSeen := s.runLastSeen.insert (event.instanceName, event.runId) s.nextRunSeq
    nextRunSeq := s.nextRunSeq + 1 }

/-- All counts of an event are observed. -/
def observeAll (s : MetricState) (event : UsageUpdateEvent) : MetricState :=
  [TokenType.input, .output, .cached].foldl (fun s type => s.observeTokens event type) s

theorem observe_usage (s : MetricState) (event : UsageUpdateEvent) :
    s.observe (.usageUpdate event) =
      ((({ s with inFlight := s.inFlight + 1 } : MetricState).stamp event).observeAll
        event).enforceRunWindow event.instanceName := rfl

theorem Ordered.stamp (hs : Ordered s) (event : UsageUpdateEvent) : Ordered (s.stamp event) where
  falling := by
    rw [MetricState.stamp, AList.entries_insert, List.pairwise_cons]
    exact ⟨fun e he => hs.fresh e ((List.kerase_sublist _ _).subset he),
      hs.falling.sublist (List.kerase_sublist _ _)⟩
  fresh := by
    intro e he
    change e.2 < s.nextRunSeq + 1
    rw [MetricState.stamp, AList.entries_insert, List.mem_cons] at he
    rcases he with rfl | he
    · exact Nat.lt_succ_self _
    · exact (hs.fresh e ((List.kerase_sublist _ _).subset he)).trans (Nat.lt_succ_self _)

theorem recency_stamp_self (s : MetricState) (event : UsageUpdateEvent) :
    (s.stamp event).recency event.instanceName =
      event.runId :: (s.recency event.instanceName).erase event.runId := by
  rw [(nodup_recency s _).erase_eq_filter, recency, stamp, keys_insert,
    List.filter_cons_of_pos (by simp), List.map_cons, List.filter_filter, recency, List.filter_map,
    List.filter_filter]
  congr 2
  refine List.filter_congr fun k _ => ?_
  rw [Bool.eq_iff_iff]
  simp only [Bool.and_eq_true, decide_eq_true_eq, bne_iff_ne, ne_eq, Prod.ext_iff, not_and,
    Function.comp_apply]
  constructor
  · rintro ⟨h, hne⟩
    exact ⟨hne h, h⟩
  · rintro ⟨hne, h⟩
    exact ⟨h, fun _ => hne⟩

theorem recency_stamp_of_ne (s : MetricState) (event : UsageUpdateEvent)
    (hname : name ≠ event.instanceName) : (s.stamp event).recency name = s.recency name := by
  rw [recency, stamp, keys_insert, List.filter_cons_of_neg (by simpa using hname.symm),
    List.filter_filter, recency]
  congr 1
  refine List.filter_congr fun k _ => ?_
  rw [Bool.eq_iff_iff]
  simp only [Bool.and_eq_true, decide_eq_true_eq, ne_eq, Prod.ext_iff, not_and]
  constructor
  · exact fun h => h.1
  · rintro rfl
    exact ⟨rfl, fun h => absurd h hname⟩

/-- What an event makes of a token histogram. -/
def observed (s : MetricState) (event : UsageUpdateEvent) (key : TokenKey) :
    Option HistogramAccumulator :=
  if key.1 = event.instanceName ∧ key.2.1 = event.runId then
    match event.counts key.2.2 with
    | none => s.tokenUsage.lookup key
    | some tokens => some (((s.tokenUsage.lookup key).getD .empty).observe tokens)
  else s.tokenUsage.lookup key

/-- The counts of an event are observed each in its own histogram. -/
theorem lookup_observeTokens (s : MetricState) (event : UsageUpdateEvent) (type : TokenType)
    (key : TokenKey) :
    (s.observeTokens event type).tokenUsage.lookup key =
      if key.2.2 = type then s.observed event key else s.tokenUsage.lookup key := by
  obtain ⟨n, r, t⟩ := key
  unfold observeTokens observed
  by_cases ht : t = type
  · subst ht
    rw [if_pos rfl]
    by_cases hkey : n = event.instanceName ∧ r = event.runId
    · obtain ⟨rfl, rfl⟩ := hkey
      rw [if_pos ⟨rfl, rfl⟩]
      cases event.counts t with
      | none => rfl
      | some tokens => exact AList.lookup_insert _
    · rw [if_neg hkey]
      cases event.counts t with
      | none => rfl
      | some tokens =>
          refine AList.lookup_insert_ne fun heq => hkey ?_
          simp only [Prod.mk.injEq, and_true] at heq
          exact heq
  · rw [if_neg ht]
    cases event.counts type with
    | none => rfl
    | some tokens =>
        refine AList.lookup_insert_ne fun heq => ht ?_
        simp only [Prod.mk.injEq] at heq
        exact heq.2.2

theorem lookup_observeAll (s : MetricState) (event : UsageUpdateEvent) (key : TokenKey) :
    (s.observeAll event).tokenUsage.lookup key = s.observed event key := by
  obtain ⟨n, r, t⟩ := key
  unfold observeAll
  simp only [List.foldl_cons, List.foldl_nil]
  cases t <;> simp [lookup_observeTokens, observed]

/-- What an observation of tokens leaves alone. -/
structure SameBut (s s' : MetricState) : Prop where
  runLastSeen : s'.runLastSeen = s.runLastSeen
  nextRunSeq : s'.nextRunSeq = s.nextRunSeq
  others : s'.breaches = s.breaches ∧ s'.cost = s.cost ∧ s'.dropped = s.dropped

theorem sameBut_observeTokens (s : MetricState) (event : UsageUpdateEvent) (type : TokenType) :
    SameBut s (s.observeTokens event type) := by
  unfold observeTokens
  cases event.counts type with
  | none => exact ⟨rfl, rfl, rfl, rfl, rfl⟩
  | some tokens => exact ⟨rfl, rfl, rfl, rfl, rfl⟩

theorem sameBut_observeAll (s : MetricState) (event : UsageUpdateEvent) :
    SameBut s (s.observeAll event) := by
  have h₁ := sameBut_observeTokens s event .input
  have h₂ := sameBut_observeTokens (s.observeTokens event .input) event .output
  have h₃ := sameBut_observeTokens ((s.observeTokens event .input).observeTokens event .output)
    event .cached
  exact ⟨h₃.runLastSeen.trans (h₂.runLastSeen.trans h₁.runLastSeen),
    h₃.nextRunSeq.trans (h₂.nextRunSeq.trans h₁.nextRunSeq),
    h₃.others.1.trans (h₂.others.1.trans h₁.others.1),
    h₃.others.2.1.trans (h₂.others.2.1.trans h₁.others.2.1),
    h₃.others.2.2.trans (h₂.others.2.2.trans h₁.others.2.2)⟩

/-- The Runs of an instance after an event, before the window is enforced. -/
def touched (s : MetricState) (event : UsageUpdateEvent) (name : InstanceName) : List RunId :=
  if name = event.instanceName then event.runId :: (s.recency name).erase event.runId
  else s.recency name

/-- What a usage event does. -/
structure Updated (s : MetricState) (event : UsageUpdateEvent) (s' : MetricState) : Prop where
  ordered : Ordered s'
  recency : ∀ name, s'.recency name =
    if name = event.instanceName then (s.touched event name).take maxRunsPerInstance
    else s.recency name
  tokens : ∀ n r type, s'.tokenUsage.lookup (n, r, type) =
    if n = event.instanceName ∧ r ∈ (s.touched event n).drop maxRunsPerInstance then none
    else s.observed event (n, r, type)
  others : s'.breaches = s.breaches ∧ s'.cost = s.cost ∧ s'.dropped = s.dropped

theorem updated_observe (hs : Ordered s) (event : UsageUpdateEvent) :
    Updated s event (s.observe (.usageUpdate event)) := by
  have hstamp : Ordered (({ s with inFlight := s.inFlight + 1 } : MetricState).stamp event) :=
    Ordered.stamp (s := { s with inFlight := s.inFlight + 1 }) ⟨hs.falling, hs.fresh⟩ event
  have hrecency : ∀ name, (({ s with inFlight := s.inFlight + 1 } : MetricState).stamp
      event).recency name = s.touched event name := by
    intro name
    unfold touched
    split
    · rename_i hname
      subst hname
      exact recency_stamp_self _ event
    · rename_i hname
      exact recency_stamp_of_ne _ event hname
  rw [observe_usage]
  generalize hstamped : ({ s with inFlight := s.inFlight + 1 } : MetricState).stamp event = a at *
  have htokens : a.tokenUsage = s.tokenUsage := by rw [← hstamped]; rfl
  have hothers : a.breaches = s.breaches ∧ a.cost = s.cost ∧ a.dropped = s.dropped := by
    rw [← hstamped]
    exact ⟨rfl, rfl, rfl⟩
  have hsame := sameBut_observeAll a event
  have hlookup := lookup_observeAll a event
  generalize a.observeAll event = b at *
  have hb : Ordered b := by
    refine ⟨?_, ?_⟩
    · rw [hsame.runLastSeen]
      exact hstamp.falling
    · rw [hsame.runLastSeen, hsame.nextRunSeq]
      exact hstamp.fresh
  have hrecencyb : ∀ name, b.recency name = s.touched event name := by
    intro name
    rw [← hrecency name, MetricState.recency, hsame.runLastSeen, MetricState.recency]
  -- the Runs past the window are evicted one after another
  rw [enforceRunWindow_eq hb, hrecencyb]
  have hforgot := forgot_foldl event.instanceName
    ((s.touched event event.instanceName).drop maxRunsPerInstance).reverse b
  generalize ((s.touched event event.instanceName).drop maxRunsPerInstance).reverse.foldl
    (fun s r => s.evict event.instanceName r) b = c at *
  obtain ⟨hseq, hbreaches, hcost, hdropped, -⟩ := hforgot.frame
  refine ⟨⟨?_, ?_⟩, ?_, ?_, ?_⟩
  · exact hb.falling.sublist hforgot.entries
  · intro e he
    rw [hseq]
    exact hb.fresh e (hforgot.entries.subset he)
  · intro name
    rw [hforgot.recency, hrecencyb]
    split
    · rename_i hname
      subst hname
      rw [← Recency.filter_notMem_drop (by rw [← hrecencyb]; exact nodup_recency b _)]
      simp
    · rename_i hname
      have htouched : s.touched event name = s.recency name := if_neg hname
      rw [htouched]
      simp [hname]
  · intro n r type
    rw [hforgot.tokens, hlookup, observed, htokens, observed]
    by_cases hn : n = event.instanceName
    · subst hn
      simp only [List.mem_reverse]
    · simp [hn]
  · exact ⟨hbreaches.trans (hsame.others.1.trans hothers.1),
      hcost.trans (hsame.others.2.1.trans hothers.2.1),
      hdropped.trans (hsame.others.2.2.trans hothers.2.2)⟩

end MetricState

/-! ### Runs of the exporter -/

open MetricState

variable {s : MetricState} {commands : List Command} {name : InstanceName} {runId : RunId}

/-- What holds of an exporter after some commands: it keeps the Runs in the windows, and a token
histogram belongs to a Run that is kept. -/
structure Windowed (s : MetricState) (commands : List Command) : Prop where
  ordered : Ordered s
  recency : ∀ name,
    s.recency name = Recency.window maxRunsPerInstance (observedRuns name commands)
  held : ∀ name runId type h, s.tokenUsage.lookup (name, runId, type) = some h →
    InWindow name runId commands ∧ 0 < h.count
  input : ∀ name runId, InWindow name runId commands →
    (s.tokenUsage.lookup (name, runId, .input)).isSome

theorem observedRuns_append (name : InstanceName) (commands more : List Command) :
    observedRuns name (commands ++ more) = observedRuns name commands ++ observedRuns name more :=
  List.filterMap_append

/-- A command that observes no usage touches neither the Runs nor the token histograms. -/
theorem Windowed.of_same {s' : MetricState} {c : Command} (h : Windowed s commands)
    (hobserved : ∀ name, observedRuns name [c] = []) (hseen : s'.runLastSeen = s.runLastSeen)
    (hseq : s'.nextRunSeq = s.nextRunSeq) (htokens : s'.tokenUsage = s.tokenUsage) :
    Windowed s' (commands ++ [c]) := by
  have hruns : ∀ name, observedRuns name (commands ++ [c]) = observedRuns name commands := by
    intro name
    rw [observedRuns_append, hobserved, List.append_nil]
  have hwindow : ∀ name runId, InWindow name runId (commands ++ [c]) ↔
      InWindow name runId commands := by
    intro name runId
    rw [InWindow, hruns, InWindow]
  refine ⟨⟨?_, ?_⟩, ?_, ?_, ?_⟩
  · rw [hseen]
    exact h.ordered.falling
  · rw [hseen, hseq]
    exact h.ordered.fresh
  · intro name
    rw [hruns, ← h.recency, MetricState.recency, hseen, MetricState.recency]
  · intro name runId type hist
    rw [htokens, hwindow]
    exact h.held name runId type hist
  · intro name runId
    rw [htokens, hwindow]
    exact h.input name runId

/-- The Runs of an instance after an event, cut to the bound, are its window. -/
theorem Windowed.touched (h : Windowed s commands) (event : UsageUpdateEvent)
    (name : InstanceName) :
    (s.touched event name).take maxRunsPerInstance =
      Recency.window maxRunsPerInstance
        (observedRuns name (commands ++ [.observe (.usageUpdate event)])) := by
  rw [observedRuns_append, MetricState.touched]
  split
  · rename_i hname
    subst hname
    have hlast : observedRuns event.instanceName [.observe (.usageUpdate event)] =
        [event.runId] := by simp [observedRuns]
    rw [hlast, Recency.window_append, h.recency]
  · rename_i hname
    have hnone : observedRuns name [.observe (.usageUpdate event)] = [] := by
      simp [observedRuns, Ne.symm hname]
    rw [hnone, List.append_nil, h.recency, Recency.window, List.take_take, min_self]

theorem nodup_touched (s : MetricState) (event : UsageUpdateEvent) (name : InstanceName) :
    (s.touched event name).Nodup := by
  unfold MetricState.touched
  split
  · rw [List.nodup_cons]
    exact ⟨(nodup_recency s _).not_mem_erase, (nodup_recency s _).erase _⟩
  · exact nodup_recency s _

/-- A Run that has been touched is in the window or behind the bound, and not both. -/
theorem mem_drop_iff {l : List RunId} (hl : l.Nodup) (hmem : runId ∈ l) (n : ℕ) :
    runId ∈ l.drop n ↔ runId ∉ l.take n := by
  have h := Recency.filter_notMem_drop hl n
  rw [← h, List.mem_filter]
  simp [hmem]

theorem Windowed.mem_touched (h : Windowed s commands) {event : UsageUpdateEvent}
    {type : TokenType} {hist : HistogramAccumulator}
    (hlookup : s.observed event (name, runId, type) = some hist) :
    runId ∈ s.touched event name ∧ 0 < hist.count := by
  have hold : ∀ hist, s.tokenUsage.lookup (name, runId, type) = some hist →
      runId ∈ s.recency name ∧ 0 < hist.count := by
    intro hist hhist
    obtain ⟨hwindow, hpos⟩ := h.held _ _ _ _ hhist
    rw [h.recency]
    exact ⟨hwindow, hpos⟩
  unfold observed at hlookup
  unfold MetricState.touched
  split at hlookup
  · rename_i hkey
    obtain ⟨rfl, rfl⟩ : name = event.instanceName ∧ runId = event.runId := hkey
    rw [if_pos rfl]
    refine ⟨List.mem_cons_self, ?_⟩
    split at hlookup
    · exact (hold _ hlookup).2
    · obtain rfl := Option.some.inj hlookup
      exact Nat.succ_pos _
  · rename_i hkey
    obtain ⟨hmem, hpos⟩ := hold _ hlookup
    refine ⟨?_, hpos⟩
    split
    · rename_i hname
      subst hname
      refine List.mem_cons_of_mem _ ((List.mem_erase_of_ne ?_).2 hmem)
      exact fun hrun => hkey ⟨rfl, hrun⟩
    · exact hmem

/-- **The token histograms after a usage event**: those in the window, with the event observed. -/
theorem Windowed.lookup_usage (h : Windowed s commands) (event : UsageUpdateEvent)
    (name : InstanceName) (runId : RunId) (type : TokenType) :
    (InWindow name runId (commands ++ [.observe (.usageUpdate event)]) →
      (s.observe (.usageUpdate event)).tokenUsage.lookup (name, runId, type) =
        s.observed event (name, runId, type)) ∧
    (¬ InWindow name runId (commands ++ [.observe (.usageUpdate event)]) →
      (s.observe (.usageUpdate event)).tokenUsage.lookup (name, runId, type) = none) := by
  rw [InWindow, ← h.touched, (updated_observe h.ordered event).tokens]
  have hnodup := nodup_touched s event name
  constructor
  · intro hin
    have hmem := (List.take_sublist _ _).subset hin
    rw [if_neg]
    rintro ⟨-, hdrop⟩
    exact (mem_drop_iff hnodup hmem _).1 hdrop hin
  · intro hout
    split
    · rfl
    · rename_i hkept
      cases hlookup : s.observed event (name, runId, type) with
      | none => rfl
      | some hist =>
          obtain ⟨hmem, -⟩ := h.mem_touched hlookup
          have hdrop := (mem_drop_iff hnodup hmem _).2 hout
          have hname : name ≠ event.instanceName := fun hname => hkept ⟨hname, hdrop⟩
          -- The window of another instance is not cut again: it fits already.
          rw [MetricState.touched, if_neg hname, h.recency, Recency.window, List.drop_take,
            Nat.sub_self, List.take_zero] at hdrop
          simp at hdrop

theorem Windowed.usage (h : Windowed s commands) (event : UsageUpdateEvent) :
    Windowed (s.observe (.usageUpdate event)) (commands ++ [.observe (.usageUpdate event)]) where
  ordered := (updated_observe h.ordered event).ordered
  recency := by
    intro name
    rw [(updated_observe h.ordered event).recency, ← h.touched]
    split
    · rfl
    · rename_i hname
      rw [MetricState.touched, if_neg hname, h.recency, Recency.window, List.take_take, min_self]
  held := by
    intro name runId type hist hlookup
    by_cases hin : InWindow name runId (commands ++ [.observe (.usageUpdate event)])
    · rw [(h.lookup_usage event name runId type).1 hin] at hlookup
      exact ⟨hin, (h.mem_touched hlookup).2⟩
    · rw [(h.lookup_usage event name runId type).2 hin] at hlookup
      simp at hlookup
  input := by
    intro name runId hin
    rw [(h.lookup_usage event name runId .input).1 hin]
    unfold observed
    split
    · rfl
    · rename_i hkey
      refine h.input name runId ?_
      rw [InWindow, ← h.touched] at hin
      have hmem := (List.take_sublist _ _).subset hin
      rw [InWindow, ← h.recency]
      unfold MetricState.touched at hmem
      split at hmem
      · rename_i hname
        subst hname
        rcases List.mem_cons.1 hmem with hrun | hmem
        · exact absurd ⟨rfl, hrun⟩ hkey
        · exact List.mem_of_mem_erase hmem
      · exact hmem

theorem Windowed.apply (h : Windowed s commands) (c : Command) :
    Windowed (s.apply c) (commands ++ [c]) := by
  cases c with
  | observe event =>
      cases event with
      | transition e => exact h.of_same (fun _ => rfl) rfl rfl rfl
      | budgetBreach e =>
          refine h.of_same (fun _ => rfl) ?_ ?_ ?_ <;>
            simp only [MetricState.apply, MetricState.observe] <;> cases e.cost <;> rfl
      | usageUpdate e => exact h.usage e
      | run => exact h.of_same (fun _ => rfl) rfl rfl rfl
  | noteDroppedEvents n => exact h.of_same (fun _ => rfl) rfl rfl rfl
  | noteDroppedBatch => exact h.of_same (fun _ => rfl) rfl rfl rfl
  | noteRejectedPoints n => exact h.of_same (fun _ => rfl) rfl rfl rfl
  | markDelivered => exact h.of_same (fun _ => rfl) rfl rfl rfl
  | takeEvictedRunSeries => exact h.of_same (fun _ => rfl) rfl rfl rfl

/-- **The exporter keeps the most recent Runs of each instance**, after all commands. -/
theorem windowed_run (start : ℕ) (id : String) (commands : List Command) :
    Windowed ((MetricState.new start id).run commands) commands := by
  induction commands using List.reverseRecOn with
  | nil =>
      refine ⟨⟨List.Pairwise.nil, fun e he => by cases he⟩, fun name => rfl, ?_, ?_⟩
      · intro name runId type h hlookup
        simp [MetricState.run, MetricState.new] at hlookup
      · intro name runId hin
        simp [InWindow, observedRuns, Recency.window, Recency.recent] at hin
  | append_singleton commands c ih =>
      have hstep := ih.apply c
      rw [MetricState.run, List.foldl_append]
      exact hstep

/-! ### The values of a series -/

/-- The value of a series now. -/
def valueOf (s : MetricState) (σ : Series) : Option ℕ := (s.snapshot 0).value σ

theorem value_snapshot (s : MetricState) (time : ℕ) (σ : Series) :
    (s.snapshot time).value σ = valueOf s σ := by
  cases σ <;> rfl

theorem addEvent_usage (event : UsageUpdateEvent) (type : TokenType) (part : Part) (a : ℕ) :
    (Series.tokens name runId type part).addEvent a (.usageUpdate event) =
      if event.instanceName = name ∧ event.runId = runId then
        a + (event.counts type).elim 0 part.amount else a := rfl

theorem valueOf_observed {event : UsageUpdateEvent} {type : TokenType} {part : Part} {a : ℕ}
    (hval : valueOf s (.tokens name runId type part) = some a) :
    (s.observed event (name, runId, type)).map (fun h => h.part part) =
      some ((Series.tokens name runId type part).addEvent a (.usageUpdate event)) := by
  obtain ⟨h, hlookup, rfl⟩ := Option.map_eq_some_iff.1 hval
  change s.tokenUsage.lookup (name, runId, type) = some h at hlookup
  rw [addEvent_usage]
  unfold observed
  dsimp only
  by_cases hkey : name = event.instanceName ∧ runId = event.runId
  · obtain ⟨rfl, rfl⟩ := hkey
    rw [if_pos ⟨rfl, rfl⟩, if_pos ⟨rfl, rfl⟩]
    cases event.counts type with
    | none => exact congrArg (Option.map _) hlookup
    | some tokens =>
        rw [hlookup]
        exact congrArg some (part_observe h tokens part)
  · rw [if_neg hkey, if_neg fun h => hkey ⟨h.1.symm, h.2.symm⟩, hlookup]
    rfl

/-- A breach adds to its counter, and to the cost it reports. -/
theorem valueOf_breach (e : BudgetBreachEvent) {σ : Series} {a : ℕ}
    (hval : valueOf s σ = some a) :
    valueOf (s.observe (.budgetBreach e)) σ = some (σ.addEvent a (.budgetBreach e)) := by
  have hbreaches : (s.observe (.budgetBreach e)).breaches =
      s.breaches.insert e.key ((s.breaches.lookup e.key).getD 0 + 1) := by
    simp only [MetricState.observe]
    cases e.cost <;> rfl
  have hsame : (s.observe (.budgetBreach e)).tokenUsage = s.tokenUsage ∧
      (s.observe (.budgetBreach e)).dropped = s.dropped := by
    simp only [MetricState.observe]
    cases e.cost <;> exact ⟨rfl, rfl⟩
  cases σ with
  | tokens name runId type part =>
      change Option.map _ _ = _
      exact (congrArg (fun t => (AList.lookup (name, runId, type) t).map _) hsame.1).trans hval
  | breaches key =>
      change s.breaches.lookup key = some a at hval
      change (s.observe (.budgetBreach e)).breaches.lookup key =
        some (if e.key = key then a + 1 else a)
      rw [hbreaches]
      split
      · rename_i hkey
        rw [hkey, AList.lookup_insert, hval]
        rfl
      · rename_i hkey
        rw [AList.lookup_insert_ne fun heq => hkey heq.symm, hval]
  | cost key =>
      change s.cost.lookup key = some a at hval
      change (s.observe (.budgetBreach e)).cost.lookup key =
        some ((e.cost.filter fun c => c.1 = key).elim a fun c => Max.max a c.2)
      simp only [MetricState.observe]
      cases hcost : e.cost with
      | none => exact hval
      | some c =>
          obtain ⟨k, observed⟩ := c
          by_cases hkey : k = key
          · subst hkey
            simp [hval, Option.filter]
          · simp only [AList.lookup_insert_ne (Ne.symm hkey), hval]
            simp [Option.filter, hkey]
  | dropped => exact congrArg some (hsame.2.trans (Option.some.inj hval))

/-- **A series that is kept takes what a command contributes.** -/
theorem value_step (h : Windowed s commands) (c : Command) {σ : Series} {a : ℕ}
    (hwin : ∀ name runId type part, σ = .tokens name runId type part →
      InWindow name runId (commands ++ [c]))
    (hval : valueOf s σ = some a) : valueOf (s.apply c) σ = some (σ.add a c) := by
  have hnote : ∀ n, valueOf { s with dropped := s.dropped + n } σ =
      some (if σ = .dropped then a + n else a) := by
    intro n
    cases σ with
    | dropped => exact congrArg (fun x => some (x + n)) (Option.some.inj hval)
    | tokens name runId type part => exact hval
    | breaches key => exact hval
    | cost key => exact hval
  cases c with
  | observe event =>
      cases event with
      | transition e => cases σ <;> exact hval
      | budgetBreach e => exact valueOf_breach e hval
      | usageUpdate e =>
          obtain ⟨hbreaches, hcost, hdropped⟩ := (updated_observe h.ordered e).others
          cases σ with
          | tokens name runId type part =>
              have hin := hwin name runId type part rfl
              refine Eq.trans ?_ (valueOf_observed hval)
              exact congrArg (Option.map _) ((h.lookup_usage e name runId type).1 hin)
          | breaches key => exact (congrArg (AList.lookup key) hbreaches).trans hval
          | cost key => exact (congrArg (AList.lookup key) hcost).trans hval
          | dropped => exact (congrArg some hdropped).trans hval
      | run => cases σ <;> exact hval
  | noteDroppedEvents n => exact hnote n
  | noteDroppedBatch => exact hnote 1
  | noteRejectedPoints n => exact hnote n
  | markDelivered => cases σ <;> exact hval
  | takeEvictedRunSeries => cases σ <;> exact hval

/-! ### Contributions -/

theorem le_addEvent (σ : Series) (a : ℕ) (event : EngineEvent) : a ≤ σ.addEvent a event := by
  unfold Series.addEvent
  split
  · split <;> omega
  · split <;> omega
  · rename_i e
    cases e.cost.filter _ with
    | none => exact le_rfl
    | some c => exact le_max_left _ _
  · exact le_rfl

theorem le_add (σ : Series) (a : ℕ) (c : Command) : a ≤ σ.add a c := by
  cases c with
  | observe event => exact le_addEvent σ a event
  | noteDroppedEvents n => simp only [Series.add]; split <;> omega
  | noteDroppedBatch => simp only [Series.add]; split <;> omega
  | noteRejectedPoints n => simp only [Series.add]; split <;> omega
  | markDelivered => exact le_rfl
  | takeEvictedRunSeries => exact le_rfl

theorem le_foldl_add (σ : Series) (a : ℕ) (between : List Command) :
    a ≤ between.foldl σ.add a := by
  induction between generalizing a with
  | nil => exact le_rfl
  | cons c between ih => exact (le_add σ a c).trans (ih _)

/-- What is contributed to a number of a histogram does not depend on its value. -/
theorem add_tokens (name : InstanceName) (runId : RunId) (type : TokenType) (part : Part)
    (a x : ℕ) (c : Command) :
    (Series.tokens name runId type part).add (a + x) c =
      a + (Series.tokens name runId type part).add x c := by
  cases c with
  | observe event =>
      cases event with
      | usageUpdate e =>
          change (Series.tokens name runId type part).addEvent (a + x) (.usageUpdate e) =
            a + (Series.tokens name runId type part).addEvent x (.usageUpdate e)
          rw [addEvent_usage, addEvent_usage]
          split <;> omega
      | transition e => rfl
      | budgetBreach e => rfl
      | run => rfl
  | _ => rfl

theorem foldl_add_tokens (name : InstanceName) (runId : RunId) (type : TokenType) (part : Part)
    (a x : ℕ) (between : List Command) :
    between.foldl (Series.tokens name runId type part).add (a + x) =
      a + between.foldl (Series.tokens name runId type part).add x := by
  induction between generalizing x with
  | nil => rfl
  | cons c between ih => rw [List.foldl_cons, add_tokens, ih, List.foldl_cons]

/-! ### The series -/

/-- A series whose Run stays in the window takes all that is contributed to it. -/
theorem value_run (h : Windowed s commands) {σ : Series} {a : ℕ} {between : List Command}
    (hwin : ∀ name runId type part, σ = .tokens name runId type part →
      ∀ k, InWindow name runId (commands ++ between.take k))
    (hval : valueOf s σ = some a) :
    valueOf (s.run between) σ = some (between.foldl σ.add a) := by
  induction between generalizing s commands a with
  | nil => exact hval
  | cons c between ih =>
      have hstep : valueOf (s.apply c) σ = some (σ.add a c) := by
        refine value_step h c (fun name runId type part hσ => ?_) hval
        have hone := hwin name runId type part hσ 1
        simpa using hone
      refine ih (h.apply c) (fun name runId type part hσ k => ?_) hstep
      have hnext := hwin name runId type part hσ (k + 1)
      rw [List.take_succ_cons] at hnext
      rwa [List.append_assoc]

theorem Windowed.value_none (h : Windowed s commands) (type : TokenType) (part : Part)
    (hout : ¬ InWindow name runId commands) :
    valueOf s (.tokens name runId type part) = none := by
  cases hval : valueOf s (.tokens name runId type part) with
  | none => rfl
  | some a =>
      obtain ⟨hist, hlookup, -⟩ := Option.map_eq_some_iff.1 hval
      exact absurd (h.held name runId type hist hlookup).1 hout

/-- A series that appears starts from what the command contributes. -/
theorem value_fresh (h : Windowed s commands) (c : Command) {type : TokenType} {part : Part}
    {a : ℕ} (hnone : valueOf s (.tokens name runId type part) = none)
    (hval : valueOf (s.apply c) (.tokens name runId type part) = some a) :
    a = (Series.tokens name runId type part).add 0 c := by
  have hsame : (s.apply c).tokenUsage = s.tokenUsage →
      a = (Series.tokens name runId type part).add 0 c := by
    intro heq
    have hold : valueOf (s.apply c) (.tokens name runId type part) =
        valueOf s (.tokens name runId type part) := by
      change ((s.apply c).tokenUsage.lookup _).map _ = (s.tokenUsage.lookup _).map _
      rw [heq]
    rw [hold, hnone] at hval
    cases hval
  cases c with
  | observe event =>
      cases event with
      | transition e => exact hsame rfl
      | budgetBreach e =>
          refine hsame ?_
          simp only [MetricState.apply, MetricState.observe]
          cases e.cost <;> rfl
      | run => exact hsame rfl
      | usageUpdate e =>
          obtain ⟨hist, hlookup, rfl⟩ := Option.map_eq_some_iff.1 hval
          have hin := ((h.apply (.observe (.usageUpdate e))).held name runId type hist hlookup).1
          have hobserved := ((h.lookup_usage e name runId type).1 hin).symm.trans hlookup
          have hold : s.tokenUsage.lookup (name, runId, type) = none :=
            Option.map_eq_none_iff.1 hnone
          change _ = (Series.tokens name runId type part).addEvent 0 (.usageUpdate e)
          rw [addEvent_usage]
          unfold observed at hobserved
          split at hobserved
          · rename_i hkey
            rw [if_pos ⟨hkey.1.symm, hkey.2.symm⟩]
            cases hcounts : e.counts type with
            | none => simp [hcounts, hold] at hobserved
            | some tokens =>
                simp only [hcounts, hold, Option.getD_none, Option.some.injEq] at hobserved
                rw [← hobserved, part_observe, part_empty]
                rfl
          · rw [hold] at hobserved
            cases hobserved
  | noteDroppedEvents n => exact hsame rfl
  | noteDroppedBatch => exact hsame rfl
  | noteRejectedPoints n => exact hsame rfl
  | markDelivered => exact hsame rfl
  | takeEvictedRunSeries => exact hsame rfl

/-- A histogram counts at most what was contributed, whether or not its Run stayed in the window. -/
theorem value_le (h : Windowed s commands) {type : TokenType} {part : Part} {x b : ℕ}
    {between : List Command}
    (hval : ∀ a, valueOf s (.tokens name runId type part) = some a → a ≤ x)
    (hlater : valueOf (s.run between) (.tokens name runId type part) = some b) :
    b ≤ between.foldl (Series.tokens name runId type part).add x := by
  induction between generalizing s commands x with
  | nil => exact hval b hlater
  | cons c between ih =>
      refine ih (h.apply c) (fun a ha => ?_) hlater
      have hmono : ∀ y, y ≤ x → (Series.tokens name runId type part).add y c ≤
          (Series.tokens name runId type part).add x c := by
        intro y hy
        have hsplit := add_tokens name runId type part (x - y) y c
        rw [Nat.sub_add_cancel hy] at hsplit
        omega
      by_cases hin : InWindow name runId (commands ++ [c])
      · cases hold : valueOf s (.tokens name runId type part) with
        | none =>
            rw [value_fresh h c hold ha]
            exact hmono 0 (Nat.zero_le x)
        | some y =>
            have hstep := value_step h c (σ := .tokens name runId type part) (a := y)
              (fun _ _ _ _ hσ => by
                cases hσ
                exact hin) hold
            rw [hstep] at ha
            obtain rfl := Option.some.inj ha
            exact hmono y (hval y hold)
      · rw [(h.apply c).value_none type part hin] at ha
        cases ha

theorem run_append (s : MetricState) (commands more : List Command) :
    s.run (commands ++ more) = (s.run commands).run more :=
  List.foldl_append

/-- A Run in the window has counted its input. -/
theorem Windowed.input_count (h : Windowed s commands) (hin : InWindow name runId commands) :
    ∃ a, 0 < a ∧ valueOf s (.tokens name runId .input .count) = some a := by
  obtain ⟨hist, hlookup⟩ := Option.isSome_iff_exists.1 (h.input name runId hin)
  refine ⟨hist.count, (h.held name runId .input hist hlookup).2, ?_⟩
  exact congrArg (Option.map fun h => h.part .count) hlookup

/-- The Run of a token series that is there is in the window. -/
theorem Windowed.inWindow (h : Windowed s commands) {type : TokenType} {part : Part} {a : ℕ}
    (hval : valueOf s (.tokens name runId type part) = some a) : InWindow name runId commands := by
  by_contra hout
  rw [h.value_none type part hout] at hval
  cases hval

/-- **The series are cumulative exactly when no Run falls out of the window.**  Two snapshots of an
exporter have the start time in common; a series in both has grown by all that was contributed to
it in between, unless a Run that is in the window at both falls out of it in between. -/
theorem cumulative_iff (start : ℕ) (id : String) (before between : List Command) (t t' : ℕ) :
    Cumulative (((MetricState.new start id).run before).snapshot t)
        (((MetricState.new start id).run (before ++ between)).snapshot t') between ↔
      StaysInWindow before between := by
  have hbefore := windowed_run start id before
  have hlater := windowed_run start id (before ++ between)
  constructor
  · intro hcumulative name runId hfirst hlast k
    by_contra hout
    obtain ⟨a, hpos, ha⟩ := hbefore.input_count hfirst
    obtain ⟨b, -, hb⟩ := hlater.input_count hlast
    obtain ⟨-, hgrown⟩ := hcumulative (.tokens name runId .input .count) a b
      ((value_snapshot _ t _).trans ha) ((value_snapshot _ t' _).trans hb)
    have hk := windowed_run start id (before ++ between.take k)
    have hsplit : before ++ between = before ++ between.take k ++ between.drop k := by
      rw [List.append_assoc, List.take_append_drop]
    rw [hsplit, run_append] at hb
    -- The series started anew, so it has counted only what came after the Run had fallen out.
    have hle := value_le (x := 0) hk
      (fun a ha => by
        rw [hk.value_none .input .count hout] at ha
        cases ha) hb
    have hall := foldl_add_tokens name runId .input .count
      ((between.take k).foldl (Series.tokens name runId .input .count).add a) 0 (between.drop k)
    rw [Nat.add_zero, ← List.foldl_append, List.take_append_drop, ← hgrown] at hall
    have hkept := le_foldl_add (.tokens name runId .input .count) a (between.take k)
    omega
  · intro hstays σ a b ha hb
    rw [value_snapshot] at ha hb
    rw [run_append] at hb
    have hwin : ∀ name runId type part, σ = .tokens name runId type part →
        ∀ k, InWindow name runId (before ++ between.take k) := by
      rintro name runId type part rfl
      rw [← run_append] at hb
      exact hstays name runId (hbefore.inWindow ha) (hlater.inWindow hb)
    have hgrown := value_run hbefore hwin ha
    rw [hgrown] at hb
    obtain rfl := Option.some.inj hb
    exact ⟨le_foldl_add σ a between, rfl⟩

/-! ### A Run that reappears -/

/-- A usage event of one input token. -/
def oneToken (runId : RunId) : Command :=
  .observe (.usageUpdate ⟨"agent", runId, 1, 0, none⟩)

/-- As many other Runs as the window holds are observed, and then the first one again. -/
def reappearing : List Command :=
  (List.range 64).map (fun n => oneToken (n + 1)) ++ [oneToken 0]

theorem reappearing_run_regresses :
    ¬ Cumulative (((MetricState.new 5 "host").run [oneToken 0, oneToken 0]).snapshot 7)
      (((MetricState.new 5 "host").run ([oneToken 0, oneToken 0] ++ reappearing)).snapshot 9)
      reappearing := by
  intro hcumulative
  have hregress := (hcumulative (.tokens "agent" 0 .input .count) 2 1 (by decide +kernel)
    (by decide +kernel)).1
  omega

end Otlp

end Hekma
