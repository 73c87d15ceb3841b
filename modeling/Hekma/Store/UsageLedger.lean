/-
**The usage ledger and its rollups** (`store/run_store_sqlite.rs`, `store/runs_sqlite.rs`).

A usage event becomes one ledger row, deduplicated by its instance, Run, launch generation and
sequence.  Two rollup tables keep the sums of the rows, of an instance and of the subtree of a
Run.  They are never recomputed: the rows above a watermark are collected by key and folded into
the rollups of their instance, their Run and every ancestor of their Run, each row priced at the
rate stored with it.

Main definitions:

* `UsageEvent`, `UsageRow`, `StoredUsage` — an event, its row, and what a rollup folds of a row;
* `RollupRow` — a rollup, with saturating sums;
* `ancestorsForFold`, `Ledger.foldRows`, `Ledger.insertUsage` — the code.

Main results:

* `RollupRow.isImage` — merging rollups is the image of adding exact amounts;
* `Ledger.foldRows_instance`, `Ledger.foldRows_run` — what a fold adds to a rollup.
-/

import Hekma.Lib.Accumulate
import Hekma.Domain.CostExact
import Hekma.Store.Runs

set_option relaxedAutoImplicit false
set_option autoImplicit false

namespace Hekma

/-! ### Events and rows -/

/-- A usage event as the engine meters it. -/
structure UsageEvent where
  instanceName : InstanceName
  runId : RunId
  inputTokens : ℕ
  outputTokens : ℕ
  cachedTokens : Option ℕ
  meteringSource : String
  occurredAt : Timestamp
  sequence : ℕ
  deriving DecidableEq, Repr

/-- A ledger row: the event in the signed columns of the table, with the rate in force. -/
structure UsageRow where
  id : ℕ
  instanceName : Option InstanceName
  runId : RunId
  inputTokens : ℤ
  outputTokens : ℤ
  meteringSource : String
  occurredAt : Timestamp
  sequence : ℤ
  inputMicrosPer1m : Option ℤ
  outputMicrosPer1m : Option ℤ
  cachedTokens : Option ℤ
  cachedMicrosPer1m : Option ℤ
  launchGeneration : ℤ
  deriving DecidableEq, Repr

/-- A row as a rollup reads it. -/
structure StoredUsage where
  input : ℕ
  output : ℕ
  rateInput : Option ℤ
  rateOutput : Option ℤ
  cached : Option ℕ
  rateCached : Option ℕ
  deriving DecidableEq, Repr

/-- A count written into a signed column. -/
def clampTokens (value : ℕ) : ℤ := min (value : ℤ) i64Max

/-- The columns a rollup folds; a negative count is read as zero. -/
def UsageRow.stored (e : UsageRow) : StoredUsage where
  input := e.inputTokens.toNat
  output := e.outputTokens.toNat
  rateInput := e.inputMicrosPer1m
  rateOutput := e.outputMicrosPer1m
  cached := e.cachedTokens.map Int.toNat
  rateCached := e.cachedMicrosPer1m.map Int.toNat

/-- The cost of a row at its own rate, zero without both directions. -/
def StoredUsage.cost (u : StoredUsage) : Micros :=
  match u.rateInput, u.rateOutput with
  | some ri, some ro =>
      costMicrosWithCached u.input u.output u.cached ⟨ri.toNat, ro.toNat, u.rateCached⟩
  | _, _ => Micros.zero

theorem StoredUsage.cost_nonneg (u : StoredUsage) : 0 ≤ u.cost.val := by
  unfold StoredUsage.cost
  split
  · exact costMicrosWithCached_nonneg _ _ _ _
  · exact le_of_eq Micros.zero_val.symm

/-! ### Rollups -/

/-- The largest unsigned 64-bit integer. -/
def u64Max : ℕ := 2 ^ 64 - 1

/-- An unsigned 64-bit sum. -/
abbrev U64 : Type := {n : ℕ // n ≤ u64Max}

/-- The nearest sum in range. -/
def U64.saturate (n : ℕ) : U64 := ⟨min n u64Max, min_le_right _ _⟩

/-- Addition that stops at the end of the range. -/
def U64.saturatingAdd (a : U64) (n : ℕ) : U64 := U64.saturate (a.val + n)

theorem U64.saturatingAdd_zero (a : U64) : a.saturatingAdd 0 = a :=
  Subtype.ext (min_eq_left a.property)

/-- Saturating after every addition or once at the end is the same. -/
theorem U64.saturate_add (a b : ℕ) :
    U64.saturate (a + b) = (U64.saturate a).saturatingAdd (U64.saturate b).val := by
  refine Subtype.ext ?_
  simp only [U64.saturate, U64.saturatingAdd]
  omega

theorem U64.saturatingAdd_saturate (a : U64) (b : ℕ) :
    a.saturatingAdd b = a.saturatingAdd (U64.saturate b).val := by
  have h := a.property
  refine Subtype.ext ?_
  simp only [U64.saturate, U64.saturatingAdd]
  omega

theorem Micros.ofU128_add (a b : ℕ) :
    Micros.ofU128 (a + b) = (Micros.ofU128 a).saturatingAdd (Micros.ofU128 b) := by
  refine Subtype.ext ?_
  rw [Micros.saturatingAdd_val (Micros.ofU128_nonneg a) (Micros.ofU128_nonneg b),
    Micros.ofU128_val, Micros.ofU128_val, Micros.ofU128_val]
  have hmax : 0 ≤ i64Max := by decide
  push_cast
  omega

/-- A non-negative amount is the image of its own count. -/
theorem Micros.ofU128_toNat {m : Micros} (h : 0 ≤ m.val) : Micros.ofU128 m.val.toNat = m := by
  refine Subtype.ext ?_
  rw [Micros.ofU128_val, Int.toNat_of_nonneg h]
  exact min_eq_left m.property.2

/-- A rollup: saturating sums of counts and of cost. -/
structure RollupRow where
  events : U64
  input : U64
  output : U64
  cached : U64
  cachedUnknown : U64
  cost : Micros
  deriving DecidableEq

namespace RollupRow

/-- The rollup of no rows. -/
def zero : RollupRow :=
  ⟨.saturate 0, .saturate 0, .saturate 0, .saturate 0, .saturate 0, .ofU128 0⟩

/-- Fold one row in. -/
def add (r : RollupRow) (row : StoredUsage) : RollupRow where
  events := r.events.saturatingAdd 1
  input := r.input.saturatingAdd row.input
  output := r.output.saturatingAdd row.output
  cached := match row.cached with
    | some cached => r.cached.saturatingAdd cached
    | none => r.cached
  cachedUnknown := match row.cached with
    | some _ => r.cachedUnknown
    | none => r.cachedUnknown.saturatingAdd 1
  cost := r.cost.saturatingAdd row.cost

/-- Fold another rollup in. -/
def merge (r other : RollupRow) : RollupRow where
  events := r.events.saturatingAdd other.events.val
  input := r.input.saturatingAdd other.input.val
  output := r.output.saturatingAdd other.output.val
  cached := r.cached.saturatingAdd other.cached.val
  cachedUnknown := r.cachedUnknown.saturatingAdd other.cachedUnknown.val
  cost := r.cost.saturatingAdd other.cost

end RollupRow

/-! ### Exact amounts -/

/-- The sums a rollup keeps. -/
inductive RollupField where
  | events
  | input
  | output
  | cached
  | cachedUnknown
  | cost
  deriving DecidableEq, Repr

/-- Exact sums, without a bound. -/
abbrev Amounts : Type := RollupField → ℕ

/-- What one row adds to each sum. -/
def StoredUsage.amounts (u : StoredUsage) : Amounts
  | .events => 1
  | .input => u.input
  | .output => u.output
  | .cached => u.cached.getD 0
  | .cachedUnknown => if u.cached.isNone then 1 else 0
  | .cost => u.cost.val.toNat

/-- The rollup of exact sums: each saturates at the end of its column. -/
def RollupRow.saturate (w : Amounts) : RollupRow where
  events := .saturate (w .events)
  input := .saturate (w .input)
  output := .saturate (w .output)
  cached := .saturate (w .cached)
  cachedUnknown := .saturate (w .cachedUnknown)
  cost := .ofU128 (w .cost)

/-- Merging rollups is the image of adding exact sums: no batching of the additions can change
what is stored. -/
theorem RollupRow.isImage :
    Accumulate.IsImage RollupRow.saturate RollupRow.zero RollupRow.merge where
  map_zero := rfl
  map_add x y := by
    simp only [RollupRow.saturate, RollupRow.merge, Pi.add_apply, U64.saturate_add,
      Micros.ofU128_add]

/-- Folding a row in is merging the rollup of that row. -/
theorem RollupRow.add_eq_merge (r : RollupRow) (u : StoredUsage) :
    r.add u = r.merge (RollupRow.saturate u.amounts) := by
  have hcost : Micros.ofU128 u.cost.val.toNat = u.cost := Micros.ofU128_toNat u.cost_nonneg
  cases h : u.cached with
  | none =>
      simp only [RollupRow.add, RollupRow.merge, RollupRow.saturate, hcost, h,
        StoredUsage.amounts, ← U64.saturatingAdd_saturate, Option.getD_none,
        U64.saturatingAdd_zero, Option.isNone_none, if_true]
  | some c =>
      simp only [RollupRow.add, RollupRow.merge, RollupRow.saturate, hcost, h,
        StoredUsage.amounts, ← U64.saturatingAdd_saturate, Option.getD_some,
        U64.saturatingAdd_zero, Option.isNone_some, Bool.false_eq_true, if_false]

/-! ### Folding -/

/-- The walk above a Run, with the hosting instance of each ancestor; `fuel` is the depth at which
the recursive query is cut. -/
def ancestorsF (s : RunStore) : ℕ → RunId → List (Option InstanceName × RunId)
  | 0, _ => []
  | fuel + 1, id =>
      match s.parentOf id with
      | none => []
      | some parent =>
          match s.runRecord parent with
          | none => []
          | some record => (record.instanceName, parent) :: ancestorsF s fuel parent

/-- The ancestors a row folds into. -/
def ancestorsForFold (s : RunStore) (id : RunId) : List (Option InstanceName × RunId) :=
  ancestorsF s 16 id

/-- The ledger, its rollups and the Run tables beside it.  A rollup without a row reads as
zero. -/
structure Ledger where
  runs : RunStore
  usage : List UsageRow
  foldedThrough : ℕ
  instanceRollup : InstanceName → RollupRow
  runRollup : InstanceName × RunId → RollupRow

/-- What became of an inserted event. -/
inductive RecordOutcome where
  | inserted
  | duplicateReplay
  deriving DecidableEq, Repr

namespace Ledger

/-- The ledger before any event. -/
def empty : Ledger where
  runs := RunStore.empty
  usage := []
  foldedThrough := 0
  instanceRollup := fun _ => RollupRow.zero
  runRollup := fun _ => RollupRow.zero

/-- The rows above the watermark. -/
def unfolded (l : Ledger) : List UsageRow := l.usage.filter fun e => l.foldedThrough < e.id

/-- The rows above the watermark that belong to an instance. -/
def hosted (l : Ledger) : List (InstanceName × UsageRow) :=
  l.unfolded.filterMap fun e => e.instanceName.map fun name => (name, e)

/-- The unfolded amounts of each instance. -/
def byInstance (l : Ledger) : List (InstanceName × RollupRow) :=
  l.hosted.foldl
    (fun m x => Accumulate.upsert m x.1 RollupRow.zero fun r => r.add x.2.stored) []

/-- The unfolded amounts of each Run. -/
def byRun (l : Ledger) : List ((InstanceName × RunId) × RollupRow) :=
  l.hosted.foldl
    (fun m x => Accumulate.upsert m (x.1, x.2.runId) RollupRow.zero fun r => r.add x.2.stored) []

/-- The unfolded amounts of each Run, folded into its ancestors too. -/
def withAncestors (l : Ledger) (ancestors : Bool) : List ((InstanceName × RunId) × RollupRow) :=
  l.byRun.foldl
    (fun m e =>
      let chain := if ancestors then ancestorsForFold l.runs e.1.2 else []
      let m := chain.foldl
        (fun m a =>
          match a.1 with
          | some name => Accumulate.upsert m (name, a.2) RollupRow.zero fun r => r.merge e.2
          | none => m) m
      Accumulate.upsert m e.1 RollupRow.zero fun r => r.merge e.2) []

/-- Fold every row above the watermark into the rollups and advance the watermark. -/
def foldRows (l : Ledger) (ancestors : Bool) : Ledger :=
  { l with
    instanceRollup := Accumulate.addTo RollupRow.merge l.instanceRollup l.byInstance
    runRollup := Accumulate.addTo RollupRow.merge l.runRollup (l.withAncestors ancestors)
    foldedThrough := l.unfolded.foldl (fun h e => max h e.id) l.foldedThrough }

/-- The next row id.  Ids are never reused. -/
def nextId (l : Ledger) : ℕ := l.usage.foldl (fun h e => max h e.id) 0 + 1

/-- The row of an event. -/
def rowOf (l : Ledger) (event : UsageEvent) (rate : Option Rate) (generation : ℕ) : UsageRow where
  id := l.nextId
  instanceName := some event.instanceName
  runId := event.runId
  inputTokens := clampTokens event.inputTokens
  outputTokens := clampTokens event.outputTokens
  meteringSource := event.meteringSource
  occurredAt := event.occurredAt
  sequence := clampTokens event.sequence
  inputMicrosPer1m := rate.map fun r => clampTokens r.inputMicrosPer1m
  outputMicrosPer1m := rate.map fun r => clampTokens r.outputMicrosPer1m
  cachedTokens := event.cachedTokens.map clampTokens
  cachedMicrosPer1m := (rate.bind Rate.cachedMicrosPer1m).map clampTokens
  launchGeneration := clampTokens generation

/-- Two rows have the same deduplication key. -/
def sameKey (e f : UsageRow) : Bool :=
  e.instanceName = f.instanceName && e.runId = f.runId &&
    e.launchGeneration = f.launchGeneration && e.sequence = f.sequence

/-- Insert an event and fold it, with any row another writer left unfolded. -/
def insertUsage (l : Ledger) (event : UsageEvent) (rate : Option Rate) (generation : ℕ) :
    Except StoreError (RecordOutcome × Ledger) :=
  if event.instanceName ∈ l.runs.instances then
    let row := l.rowOf event rate generation
    if l.usage.any (sameKey row) then .ok (.duplicateReplay, l)
    else .ok (.inserted, foldRows { l with usage := l.usage ++ [row] } true)
  else .error (.notFound event.instanceName)

/-- Metering does not touch the Run tables. -/
theorem insertUsage_runs {l l' : Ledger} {event : UsageEvent} {rate : Option Rate}
    {generation : ℕ} {outcome : RecordOutcome}
    (h : l.insertUsage event rate generation = .ok (outcome, l')) : l'.runs = l.runs := by
  unfold insertUsage at h
  split at h
  · dsimp only at h
    split at h
    · rw [← (Prod.mk.inj (Except.ok.inj h)).2]
    · rw [← (Prod.mk.inj (Except.ok.inj h)).2]
      rfl
  · exact absurd h (by simp)

end Ledger

end Hekma
