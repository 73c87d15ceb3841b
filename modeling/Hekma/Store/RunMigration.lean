/-
**The migration to the Run tables** (`store/sqlite.rs`, `store/run_store_sqlite.rs`,
`store/runs_sqlite.rs`).

A database is brought up one version at a time, and the statements of a step and its stamp are one
transaction.  Version 12 rebuilds the ledger, imports the breach files and folds the rollups.
Version 13 gives a row to every Run id that the database names: first to the Run of each spawn
record, with a status that follows the state of its instance, then, ended, to those that only the
ledger, the breaches or the latches name.  The open folds what another writer left unfolded.

Main definitions:

* `Database` — the tables, at any version;
* `statements`, `program`, `openStore` — the code;
* `WellFormed`, `Attributed` — a database before the migration, and after it.

Main results:

* `openStore_cuts` — opens that are cut, and one that is not;
* `migrateV13_attributes` — the backfill of the Runs;
* `migration_attributes` — **what an open makes** of a well-formed database.
-/

import Hekma.Domain.Pipeline
import Hekma.Lib.Transactions
import Hekma.Store.Rollups
import Mathlib.Data.String.Basic

set_option relaxedAutoImplicit false
set_option autoImplicit false

namespace Hekma

namespace RunMigration

/-! ### The tables -/

/-- A row of the instances. -/
structure InstanceRow where
  id : ℕ
  name : InstanceName
  state : LifecycleState
  deriving DecidableEq, Repr

/-- A spawn record: the supervised instance, and its current Run. -/
structure SpawnRow where
  instanceName : InstanceName
  runId : Option RunId
  deriving DecidableEq, Repr

/-- A breach, in the column of the instance whose file it was read from. -/
structure BreachRow where
  instanceName : InstanceName
  event : BudgetBreachEvent
  deriving DecidableEq, Repr

/-- What the breach latches. -/
def BreachRow.latch (b : BreachRow) : Latch :=
  ⟨b.event.runId, ⟨b.event.dimension, b.event.scope⟩, b.event.action⟩

structure LatchRow where
  latch : Latch
  latchedAt : Timestamp
  deriving DecidableEq

/-- The tables.  A table or a column that a version does not have yet is not read, and the order
of the rows means nothing. -/
structure Database where
  version : ℕ
  instances : List InstanceRow
  runtime : List SpawnRow
  usage : List UsageRow
  foldedThrough : ℕ
  instanceRollup : InstanceName → RollupRow
  runRollup : InstanceName × RunId → RollupRow
  breaches : List BreachRow
  latches : List LatchRow
  runs : List RunRecord

/-- The breach files, by instance. -/
abbrev Legacy : Type := InstanceName → List BudgetBreachEvent

abbrev Statement : Type := Database → Option Database

namespace Database

/-- The Run tables of a database. -/
def store (db : Database) : RunStore where
  instances := db.instances.map InstanceRow.name
  spawnRunId name := (db.runtime.find? fun s => s.instanceName = name).bind SpawnRow.runId
  runs := db.runs
  labels := []
  limits := []
  identities := []

/-- The ledger of a database. -/
def ledger (db : Database) : Ledger where
  runs := db.store
  usage := db.usage
  foldedThrough := db.foldedThrough
  instanceRollup := db.instanceRollup
  runRollup := db.runRollup

/-- The instance with the smallest id of those named. -/
def firstInstance (db : Database) (names : List InstanceName) : Option InstanceName :=
  ((db.instances.insertionSort fun i j => i.id ≤ j.id).find? fun i => i.name ∈ names).map
    InstanceRow.name

end Database

/-! ### Columns and indexes -/

/-- The columns a version adds to a ledger row, at their defaults. -/
def column : ℕ → UsageRow → UsageRow
  | 3, e => { e with sequence := 0 }
  | 4, e => { e with inputMicrosPer1m := none, outputMicrosPer1m := none }
  | 7, e => { e with cachedTokens := none, cachedMicrosPer1m := none }
  | 12, e => { e with launchGeneration := 0 }
  | _, e => e

/-- The column a version adds to a spawn record. -/
def spawnColumn : ℕ → SpawnRow → SpawnRow
  | 9, s => { s with runId := none }
  | _, s => s

theorem column_eq_id {v : ℕ} (hv : v ∉ [3, 4, 7, 12]) : column v = id := by
  funext e
  unfold column
  split <;> simp_all

theorem spawnColumn_eq_id {v : ℕ} (hv : v ≠ 9) : spawnColumn v = id := by
  funext s
  unfold spawnColumn
  split <;> simp_all

def alterUsage (v : ℕ) : Statement := fun db => some { db with usage := db.usage.map (column v) }

def alterRuntime (v : ℕ) : Statement :=
  fun db => some { db with runtime := db.runtime.map (spawnColumn v) }

/-- A unique index over the ledger.  A row without an instance never collides. -/
def uniqueIndex {κ : Type} [DecidableEq κ] (key : UsageRow → κ) : Statement := fun db =>
  if ((db.usage.filter fun e => e.instanceName.isSome).map key).Nodup then some db else none

/-- The columns of the index of version 3. -/
def replayKey (e : UsageRow) : Option InstanceName × RunId × ℤ :=
  (e.instanceName, e.runId, e.sequence)

/-- The columns of the index of version 12. -/
def dedupKey (e : UsageRow) : Option InstanceName × RunId × ℤ × ℤ :=
  (e.instanceName, e.runId, e.launchGeneration, e.sequence)

def stamp (v : ℕ) : Statement := fun db => some { db with version := v }

/-! ### Version 12 -/

/-- The rollups, the breaches and the latches are new tables. -/
def createEventTables : Statement := fun db =>
  some { db with
    foldedThrough := 0
    instanceRollup := fun _ => RollupRow.zero
    runRollup := fun _ => RollupRow.zero
    breaches := []
    latches := [] }

/-- The breaches of the files, by instance. -/
def imported (legacy : Legacy) (instances : List InstanceRow) : List BreachRow :=
  (instances.insertionSort fun i j => i.id ≤ j.id).flatMap fun i =>
    (legacy i.name).map fun event => ⟨i.name, event⟩

def importBreaches (legacy : Legacy) : Statement := fun db =>
  some { db with breaches := db.breaches ++ imported legacy db.instances }

/-- The latches, with what the current Run of a spawn record has breached: it does not fire
again. -/
def seeded (now : Timestamp) (db : Database) : List LatchRow :=
  let joined := db.breaches.filter fun b =>
    db.runtime.any fun s => s.instanceName = b.instanceName && s.runId = some b.event.runId
  joined.foldl
    (fun rows b =>
      if rows.any fun row => row.latch = b.latch then rows else rows ++ [⟨b.latch, now⟩])
    db.latches

def seedLatches (now : Timestamp) : Statement := fun db => some { db with latches := seeded now db }

/-- Fold the rows above the watermark. -/
def Database.folded (db : Database) (ancestors : Bool) : Database :=
  let l := db.ledger.foldRows ancestors
  { db with
    foldedThrough := l.foldedThrough
    instanceRollup := l.instanceRollup
    runRollup := l.runRollup }

def foldRows (ancestors : Bool) : Statement := fun db => some (db.folded ancestors)

/-! ### Version 13 -/

/-- `INSERT`: a row must meet the keys and the open-owner index. -/
def insertRow (db : Database) (record : RunRecord) : Option Database :=
  match db.store.insertRun ⟨record, [], RunLimits.empty, none⟩ with
  | .ok s => some { db with runs := s.runs }
  | .error _ => none

/-- `INSERT OR IGNORE`: a row whose key is taken is left out. -/
def insertOrIgnore (db : Database) (record : RunRecord) : Option Database :=
  if (db.store.runRecord record.runId).isSome then some db else insertRow db record

def createRuns : Statement := fun db => some { db with runs := [] }

/-- The status of the Run of a spawn record. -/
def liveStatus : LifecycleState → RunStatus
  | .paused => .held
  | .stopped | .registered | .failed => .ended
  | _ => .active

def engineObserved (e : UsageRow) : Bool := e.meteringSource = "engine-observed"

/-- The Run of a spawn record, joined to its instance. -/
def spawnedRecord (now : Timestamp) (db : Database) (s : SpawnRow) : Option RunRecord :=
  match s.runId, db.instances.find? fun i => i.name = s.instanceName with
  | some id, some i =>
      let status := liveStatus i.state
      let rows := db.usage.filter fun e => e.instanceName = some s.instanceName
      some {
        runId := id
        controlDepth := .supervised
        wirePath := (rows.insertionSort fun e f => f.id ≤ e.id).head?.any engineObserved
        status := status
        anomalies := if i.state = .failed then [.failed] else []
        parentRunId := none
        instanceName := some s.instanceName
        processOwner := true
        endCause := if status = .ended then some "before-runs" else none
        createdAt :=
          ((db.usage.filter fun e => e.runId = id).map UsageRow.occurredAt).min?.getD now
        updatedAt := now
        endedAt := if status = .ended then some now else none }
  | _, _ => none

def backfillSpawned (now : Timestamp) : Statement := fun db =>
  (db.runtime.filterMap (spawnedRecord now db)).foldlM insertRow db

/-- A Run that ended before it had a row. -/
def endedRecord (id : RunId) (name : Option InstanceName) (wirePath : Bool)
    (createdAt updatedAt endedAt : Timestamp) : RunRecord where
  runId := id
  controlDepth := .supervised
  wirePath := wirePath
  status := .ended
  anomalies := []
  parentRunId := none
  instanceName := name
  processOwner := true
  endCause := some "before-runs"
  createdAt := createdAt
  updatedAt := updatedAt
  endedAt := some endedAt

/-- The Runs the ledger names. -/
def ledgerRecords (now : Timestamp) (db : Database) : List RunRecord :=
  (db.usage.map UsageRow.runId).dedup.map fun id =>
    let rows := db.usage.filter fun e => e.runId = id
    let times := rows.map UsageRow.occurredAt
    endedRecord id (db.firstInstance (rows.filterMap UsageRow.instanceName))
      (rows.any engineObserved) (times.min?.getD now) now (times.max?.getD now)

/-- The Runs the breaches name. -/
def breachRecords (now : Timestamp) (db : Database) : List RunRecord :=
  (db.breaches.map fun b => b.event.runId).dedup.map fun id =>
    let rows := db.breaches.filter fun b => b.event.runId = id
    endedRecord id (db.firstInstance (rows.map BreachRow.instanceName)) false now now now

/-- The Runs the latches name. -/
def latchRecords (now : Timestamp) (db : Database) : List RunRecord :=
  (db.latches.map fun l => l.latch.runId).dedup.map fun id =>
    endedRecord id none false now now now

/-- Give a row to the Runs that one table names. -/
def backfillEnded (records : Database → List RunRecord) : Statement := fun db =>
  (records db).foldlM insertOrIgnore db

/-- The latches gain their foreign key. -/
def referenceLatches : Statement := fun db =>
  if db.latches.all fun l => (db.store.runRecord l.latch.runId).isSome then some db else none

/-! ### The steps -/

/-- The statements of a step before its stamp. -/
def statements (now : Timestamp) (legacy : Legacy) : ℕ → List Statement
  | 3 => [alterUsage 3, uniqueIndex replayKey]
  | 4 => [alterUsage 4]
  | 7 => [alterUsage 7]
  | 9 => [alterRuntime 9]
  | 12 => [alterUsage 12, uniqueIndex dedupKey, createEventTables, importBreaches legacy,
      seedLatches now, foldRows false]
  | 13 => [createRuns, backfillSpawned now, backfillEnded (ledgerRecords now),
      backfillEnded (breachRecords now), backfillEnded (latchRecords now), referenceLatches]
  | _ => []

/-- One step.  The last two look at the version again once they hold the lock. -/
def migration (clock : ℕ → Timestamp) (legacy : Legacy) (v : ℕ) : Txn Database where
  aside db := 12 ≤ v && v ≤ db.version
  body := statements (clock v) legacy v ++ [stamp v]

/-- The version of this build. -/
def schemaVersion : ℕ := 13

/-- The outstanding steps. -/
def migrations (clock : ℕ → Timestamp) (legacy : Legacy) (version : ℕ) : List (Txn Database) :=
  (List.range' (version + 1) (schemaVersion - version)).map (migration clock legacy)

/-- The fold of an open. -/
def openFold : Txn Database := ⟨fun _ => false, [foldRows true]⟩

/-- What an open runs. -/
def program (clock : ℕ → Timestamp) (legacy : Legacy) (version : ℕ) : List (Txn Database) :=
  migrations clock legacy version ++ [openFold]

/-- Open a database and migrate it; a newer schema is refused. -/
def openStore (clock : ℕ → Timestamp) (legacy : Legacy) (db : Database) : Option Database :=
  if schemaVersion < db.version then none
  else Txn.runAll (program clock legacy db.version) db

/-- What is durable when the process dies after `n` operations of an open. -/
def cutOpen (clock : ℕ → Timestamp) (legacy : Legacy) (n : ℕ) (db : Database) : Database :=
  if schemaVersion < db.version then db
  else Txn.durableAfter (program clock legacy db.version) n db

/-! ### Opens that are cut -/

variable {clock clock' : ℕ → Timestamp} {legacy : Legacy} {db db' : Database} {v w k n : ℕ}

theorem exec_append (body body' : List Statement) (db : Database) :
    Txn.exec (body ++ body') db = (Txn.exec body db).bind (Txn.exec body') :=
  List.foldlM_append

/-- A step that finds its work undone runs its statements and leaves its stamp. -/
theorem run_outstanding (hlt : db.version < v) :
    (migration clock legacy v).run db =
      (Txn.exec (statements (clock v) legacy v) db).bind (Txn.exec [stamp v]) := by
  have haside : (migration clock legacy v).aside db = false := by
    simp only [migration, Bool.and_eq_false_iff, decide_eq_false_iff_not]
    exact .inr (by omega)
  rw [Txn.run, haside, if_neg (by simp), migration, exec_append]

theorem version_of_run (hlt : db.version < v)
    (hrun : (migration clock legacy v).run db = some db') : db'.version = v := by
  rw [run_outstanding hlt] at hrun
  obtain ⟨mid, -, hstamp⟩ := Option.bind_eq_some_iff.1 hrun
  obtain rfl := Option.some.inj hstamp
  rfl

theorem runAll_cons (t : Txn Database) (ts : List (Txn Database)) (db : Database) :
    Txn.runAll (t :: ts) db = (t.run db).bind (Txn.runAll ts) := rfl

/-- After `k` steps the version is `k` higher. -/
theorem version_of_runAll (hversion : db.version = w)
    (hrun : Txn.runAll ((List.range' (w + 1) k).map (migration clock legacy)) db = some db') :
    db'.version = w + k := by
  induction k generalizing w db with
  | zero =>
      obtain rfl := Option.some.inj hrun
      exact hversion
  | succ k ih =>
      rw [List.range'_succ, List.map_cons, runAll_cons] at hrun
      obtain ⟨mid, hstep, hrest⟩ := Option.bind_eq_some_iff.1 hrun
      have hmid := version_of_run (by omega) hstep
      have := ih hmid hrest
      omega

/-- The clock of a migration that was cut at version `n`. -/
def mixed (n : ℕ) (clock clock' : ℕ → Timestamp) (v : ℕ) : Timestamp :=
  if v ≤ n then clock v else clock' v

/-- A step reads its own time only. -/
theorem migration_congr (h : clock v = clock' v) :
    migration clock legacy v = migration clock' legacy v := by
  rw [migration, migration, h]

theorem map_migration_congr {steps : List ℕ} (h : ∀ v ∈ steps, clock v = clock' v) :
    steps.map (migration clock legacy) = steps.map (migration clock' legacy) :=
  List.map_congr_left fun v hv => migration_congr (h v hv)

/-- The watermark after a fold is not below any row. -/
theorem id_le_foldRows {l : Ledger} {e : UsageRow} (he : e ∈ l.usage) (ancestors : Bool) :
    e.id ≤ (l.foldRows ancestors).foldedThrough := by
  have hmark : (l.foldRows ancestors).foldedThrough =
      l.unfolded.foldl (fun h e => max h e.id) l.foldedThrough := rfl
  have hmem : ∀ (rows : List UsageRow) (h : ℕ), h ≤ rows.foldl (fun h e => max h e.id) h ∧
      ∀ e ∈ rows, e.id ≤ rows.foldl (fun h e => max h e.id) h := by
    intro rows
    induction rows with
    | nil => simp
    | cons f rows ih =>
        intro h
        obtain ⟨hle, hall⟩ := ih (max h f.id)
        rw [List.foldl_cons]
        refine ⟨by omega, fun e he => ?_⟩
        rcases List.mem_cons.1 he with rfl | he
        · omega
        · exact hall e he
  obtain ⟨hle, hall⟩ := hmem l.unfolded l.foldedThrough
  rw [hmark]
  by_cases h : l.foldedThrough < e.id
  · exact hall e (List.mem_filter.2 ⟨he, by simpa using h⟩)
  · omega

theorem unfolded_foldRows (l : Ledger) (ancestors : Bool) :
    (l.foldRows ancestors).unfolded = [] := by
  refine List.filter_eq_nil_iff.2 fun e he => ?_
  have := id_le_foldRows (l := l) he ancestors
  simp only [decide_eq_true_eq]
  omega

/-- Without a row above the watermark a fold does nothing. -/
theorem foldRows_of_unfolded {l : Ledger} (h : l.unfolded = []) (ancestors : Bool) :
    l.foldRows ancestors = l := by
  have hhosted : l.hosted = [] := by rw [Ledger.hosted, h]; rfl
  have hinstance : l.byInstance = [] := by rw [Ledger.byInstance, hhosted]; rfl
  have hrun : l.withAncestors ancestors = [] := by
    rw [Ledger.withAncestors, Ledger.byRun, hhosted]
    rfl
  rw [Ledger.foldRows, hinstance, hrun, h]
  rfl

/-- A fold leaves nothing for the next one. -/
theorem folded_folded (db : Database) : (db.folded true).folded true = db.folded true := by
  have hsame : (db.folded true).ledger.foldRows true = (db.folded true).ledger :=
    foldRows_of_unfolded (unfolded_foldRows db.ledger true) true
  unfold Database.folded at hsame ⊢
  dsimp only
  rw [hsame]
  rfl

/-- An open is the outstanding steps and a fold. -/
theorem openStore_eq (h : db.version ≤ schemaVersion) :
    openStore clock legacy db = (Txn.runAll (migrations clock legacy db.version) db).map
      fun db' => db'.folded true := by
  rw [openStore, if_neg (by omega), program, Txn.runAll_append]
  cases Txn.runAll (migrations clock legacy db.version) db <;> rfl

/-- **An open that is cut** and one that is not make what one open makes. -/
theorem openStore_cut (clock clock' : ℕ → Timestamp) (legacy : Legacy) (n : ℕ) (db : Database) :
    ∃ v, openStore clock' legacy (cutOpen clock legacy n db) =
      openStore (mixed v clock clock') legacy db := by
  unfold cutOpen
  by_cases hnew : schemaVersion < db.version
  · rw [if_pos hnew]
    exact ⟨0, by rw [openStore, openStore, if_pos hnew, if_pos hnew]⟩
  rw [if_neg hnew]
  have hle : db.version ≤ schemaVersion := Nat.le_of_not_lt hnew
  obtain ⟨k, hk, hdone⟩ := Txn.durable_cut (program clock legacy db.version) n db
  generalize Txn.durableAfter (program clock legacy db.version) n db = cut at hdone
  have hlen : (migrations clock legacy db.version).length = schemaVersion - db.version := by
    rw [migrations, List.length_map, List.length_range']
  rw [program, List.length_append, hlen, List.length_singleton] at hk
  rcases Nat.lt_or_ge (schemaVersion - db.version) k with hall | hsome
  · -- everything was done: the second open only folds once more
    refine ⟨schemaVersion, ?_⟩
    rw [List.take_of_length_le (by rw [program, List.length_append, hlen]; exact hall),
      program, Txn.runAll_append] at hdone
    obtain ⟨mid, hmid, hfold⟩ := Option.bind_eq_some_iff.1 hdone
    obtain rfl : mid.folded true = cut := Option.some.inj hfold
    have hversion : mid.version = schemaVersion := by
      have := version_of_runAll rfl hmid
      omega
    have hnone : migrations clock' legacy mid.version = [] := by
      rw [migrations, hversion]
      rfl
    have hsame : migrations (mixed schemaVersion clock clock') legacy db.version =
        migrations clock legacy db.version :=
      map_migration_congr fun v hv => if_pos (by have := List.mem_range'_1.1 hv; omega)
    have hfolded : (mid.folded true).version = mid.version := rfl
    rw [openStore_eq (by omega), openStore_eq hle, hsame, hmid, hfolded, hnone]
    exact congrArg some (folded_folded mid)
  · -- the first `k` steps were done: the second open runs the others
    refine ⟨db.version + k, ?_⟩
    rw [program, List.take_append_of_le_length (by omega), migrations, ← List.map_take,
      List.take_range'_of_length_ge hsome] at hdone
    have hversion := version_of_runAll rfl hdone
    have hsteps : List.range' (db.version + 1) (schemaVersion - db.version) =
        List.range' (db.version + 1) k ++
          List.range' (cut.version + 1) (schemaVersion - cut.version) := by
      rw [List.range'_eq_append_iff]
      refine ⟨k, hsome, rfl, ?_⟩
      congr 1 <;> omega
    have hfirst : (List.range' (db.version + 1) k).map
        (migration (mixed (db.version + k) clock clock') legacy) =
          (List.range' (db.version + 1) k).map (migration clock legacy) :=
      map_migration_congr fun v hv => if_pos (by have := List.mem_range'_1.1 hv; omega)
    have hrest : migrations (mixed (db.version + k) clock clock') legacy cut.version =
        migrations clock' legacy cut.version :=
      map_migration_congr fun v hv => if_neg (by have := List.mem_range'_1.1 hv; omega)
    have hall : Txn.runAll (migrations (mixed (db.version + k) clock clock') legacy db.version) db =
        Txn.runAll (migrations clock' legacy cut.version) cut := by
      rw [← hrest, migrations, hsteps, List.map_append, Txn.runAll_append, hfirst, hdone]
      rfl
    rw [openStore_eq (by omega), openStore_eq hle, hall]

/-- An open that is cut: its clock, and after how many operations. -/
structure Attempt where
  clock : ℕ → Timestamp
  cut : ℕ

/-- The database after opens that are cut, one after the other. -/
def cutOpens (legacy : Legacy) (attempts : List Attempt) (db : Database) : Database :=
  attempts.foldl (fun db a => cutOpen a.clock legacy a.cut db) db

/-- **Opens that are cut** change nothing but the times that the last one would have written. -/
theorem openStore_cuts (clock : ℕ → Timestamp) (legacy : Legacy) (attempts : List Attempt)
    (db : Database) : ∃ clock', (∀ v, clock' v = clock v ∨ ∃ a ∈ attempts, clock' v = a.clock v) ∧
      openStore clock legacy (cutOpens legacy attempts db) = openStore clock' legacy db := by
  induction attempts generalizing db with
  | nil => exact ⟨clock, fun v => .inl rfl, rfl⟩
  | cons a attempts ih =>
      obtain ⟨later, htimes, hlater⟩ := ih (cutOpen a.clock legacy a.cut db)
      obtain ⟨n, hcut⟩ := openStore_cut a.clock later legacy a.cut db
      refine ⟨mixed n a.clock later, fun v => ?_, hlater.trans hcut⟩
      unfold mixed
      split
      · exact .inr ⟨a, List.mem_cons_self, rfl⟩
      · rcases htimes v with hv | ⟨b, hb, hv⟩
        · exact .inl hv
        · exact .inr ⟨b, List.mem_cons_of_mem a hb, hv⟩

/-! ### Rollups without parents -/

/-- Every rollup is the saturated sum of its rows up to the watermark; no Run has a parent. -/
structure Exact (db : Database) : Prop where
  perInstance : db.instanceRollup = fun name =>
    RollupRow.saturate (sumOf db.ledger.folded fun e => e.instanceName = some name)
  perRun : db.runRollup = fun key =>
    RollupRow.saturate (sumOf db.ledger.folded fun e =>
      e.instanceName = some key.1 ∧ e.runId = key.2)

theorem ancestorsForFold_flat {s : RunStore} (h : ∀ r ∈ s.runs, r.parentRunId = none)
    (id : RunId) : ancestorsForFold s id = [] := by
  have hroot : s.parentOf id = none := by
    unfold RunStore.parentOf
    cases hr : s.runRecord id with
    | none => rfl
    | some r => exact h r (RunStore.mem_of_runRecord hr)
  rw [ancestorsForFold, ancestorsF, hroot]

/-- Without a parent the walk upward makes no difference. -/
theorem foldRows_flat {l : Ledger} {ancestors : Bool}
    (h : ancestors = true → ∀ r ∈ l.runs.runs, r.parentRunId = none) :
    (l.foldRows ancestors).runRollup =
      (({ l with runs := RunStore.empty } : Ledger).foldRows true).runRollup := by
  have hempty : ∀ id, ancestorsForFold RunStore.empty id = [] :=
    ancestorsForFold_flat (by simp [RunStore.empty])
  have hsame : l.withAncestors ancestors =
      ({ l with runs := RunStore.empty } : Ledger).withAncestors true := by
    cases ancestors with
    | false =>
        simp only [Ledger.withAncestors, hempty, ite_self]
        rfl
    | true =>
        simp only [Ledger.withAncestors, ancestorsForFold_flat (h rfl), hempty, ite_self]
        rfl
  rw [Ledger.foldRows, hsame]
  rfl

theorem counts_empty (key : InstanceName × RunId) (e : UsageRow) :
    Ledger.Counts RunStore.empty key e ↔ e.instanceName = some key.1 ∧ e.runId = key.2 := by
  have hempty : ancestorsForFold RunStore.empty e.runId = [] :=
    ancestorsForFold_flat (by simp [RunStore.empty]) e.runId
  have hspread : ∀ n, spread RunStore.empty (n, e.runId) = [(n, e.runId)] := by
    intro n
    rw [spread, hempty]
    rfl
  constructor
  · rintro ⟨n, hn, hmem⟩
    rw [hspread, List.mem_singleton] at hmem
    subst hmem
    exact ⟨hn, rfl⟩
  · rintro ⟨hn, hid⟩
    exact ⟨key.1, hn, by rw [hspread, List.mem_singleton, hid]⟩

/-- **A fold keeps the rollups exact** and leaves no row unfolded. -/
theorem Exact.folded (h : Exact db) (ancestors : Bool)
    (hflat : ancestors = true → ∀ r ∈ db.runs, r.parentRunId = none) :
    Exact (db.folded ancestors) ∧ (db.folded ancestors).ledger.folded = db.usage := by
  have hall : (db.folded ancestors).ledger.folded = db.usage :=
    List.filter_eq_self.2 fun e he =>
      decide_eq_true (id_le_foldRows (l := db.ledger) he ancestors)
  have hsplit : ∀ P : UsageRow → Prop,
      sumOf db.ledger.folded P + sumOf db.ledger.unfolded P = sumOf db.usage P :=
    fun P => sumOf_split db.usage db.foldedThrough P
  refine ⟨⟨?_, ?_⟩, hall⟩
  · rw [hall]
    funext name
    rw [← hsplit]
    exact Ledger.foldRows_instance (l := db.ledger) h.perInstance name
  · rw [hall]
    have hrun : (db.folded ancestors).runRollup =
        (({ db.ledger with runs := RunStore.empty } : Ledger).foldRows true).runRollup :=
      foldRows_flat hflat
    funext key
    rw [hrun, Ledger.foldRows_run Runs.treeInv_empty.toTreeShape h.perRun, ← hsplit]
    congr 2
    exact sumOf_congr fun e _ => counts_empty key e

/-! ### Well-formed databases -/

namespace Database

/-- The ledger rows as this build reads them: with the columns of the later versions. -/
def rows (db : Database) : List UsageRow :=
  db.usage.map fun e =>
    (List.range' (db.version + 1) (schemaVersion - db.version)).foldl (fun e v => column v e) e

/-- The spawn records as this build reads them. -/
def spawns (db : Database) : List SpawnRow :=
  db.runtime.map fun s =>
    (List.range' (db.version + 1) (schemaVersion - db.version)).foldl (fun s v => spawnColumn v s) s

/-- The registered names. -/
def names (db : Database) : List InstanceName := db.instances.map InstanceRow.name

end Database

/-- A database of version 12 or before: the keys and the references of its tables hold, no two
spawn records share a Run, and the rollups of version 12 are exact up to their watermark. -/
structure WellFormed (db : Database) : Prop where
  version : db.version < schemaVersion
  named : db.names.Nodup
  supervised : (db.spawns.map SpawnRow.instanceName).Nodup
  spawned : ∀ s ∈ db.spawns, s.instanceName ∈ db.names
  spawnRuns : (db.spawns.filterMap SpawnRow.runId).Nodup
  hosted : ∀ e ∈ db.rows, ∀ name ∈ e.instanceName, name ∈ db.names
  positive : ∀ e ∈ db.rows, 0 < e.id
  dedup : ((db.rows.filter fun e => e.instanceName.isSome).map dedupKey).Nodup
  breached : db.version = 12 → ∀ b ∈ db.breaches, b.instanceName ∈ db.names
  exact_ : db.version = 12 → Exact db

/-- The tables after a step: what it adds to the ledger and to the spawn records, and its stamp. -/
def Database.altered (db : Database) (v : ℕ) : Database :=
  { db with
    usage := db.usage.map (column v)
    runtime := db.runtime.map (spawnColumn v)
    version := v }

theorem rows_altered (db : Database) (hversion : db.version + 1 = v) (hle : v ≤ schemaVersion) :
    (db.altered v).rows = db.rows := by
  subst hversion
  have hsteps : schemaVersion - db.version = schemaVersion - (db.version + 1) + 1 := by omega
  simp only [Database.rows, Database.altered, hsteps, List.range'_succ, List.map_map]
  rfl

theorem spawns_altered (db : Database) (hversion : db.version + 1 = v) (hle : v ≤ schemaVersion) :
    (db.altered v).spawns = db.spawns := by
  subst hversion
  have hsteps : schemaVersion - db.version = schemaVersion - (db.version + 1) + 1 := by omega
  simp only [Database.spawns, Database.altered, hsteps, List.range'_succ, List.map_map]
  rfl

/-- A database that agrees with a well-formed one on the views is well-formed, if its own tables of
version 12 are. -/
theorem WellFormed.congr (h : WellFormed db) (hversion : db'.version < schemaVersion)
    (hinstances : db'.instances = db.instances) (hrows : db'.rows = db.rows)
    (hspawns : db'.spawns = db.spawns)
    (hbreached : db'.version = 12 → ∀ b ∈ db'.breaches, b.instanceName ∈ db.names)
    (hexact : db'.version = 12 → Exact db') : WellFormed db' := by
  have hnames : db'.names = db.names := by rw [Database.names, hinstances]; rfl
  refine ⟨hversion, ?_, ?_, ?_, ?_, ?_, ?_, ?_, ?_, hexact⟩
  · rw [hnames]
    exact h.named
  · rw [hspawns]
    exact h.supervised
  · rw [hspawns, hnames]
    exact h.spawned
  · rw [hspawns]
    exact h.spawnRuns
  · rw [hrows, hnames]
    exact h.hosted
  · rw [hrows]
    exact h.positive
  · rw [hrows]
    exact h.dedup
  · rw [hnames]
    exact hbreached

/-- The index of version 3 is met. -/
theorem WellFormed.replay_nodup (h : WellFormed db) (hversion : db.version = 2) :
    (((db.usage.map (column 3)).filter fun e => e.instanceName.isSome).map replayKey).Nodup := by
  have hkeys : (db.rows.filter fun e => e.instanceName.isSome).map dedupKey =
      (((db.usage.map (column 3)).filter fun e => e.instanceName.isSome).map replayKey).map
        fun k => (k.1, k.2.1, 0, k.2.2) := by
    simp only [Database.rows, hversion, List.filter_map, List.map_map]
    rfl
  have hdedup := h.dedup
  rw [hkeys] at hdedup
  exact List.Nodup.of_map _ hdedup

theorem run_of_exec (hlt : db.version < v)
    (hexec : Txn.exec (statements (clock v) legacy v) db = some db') :
    (migration clock legacy v).run db = some { db' with version := v } := by
  rw [run_outstanding hlt, hexec]
  rfl

/-- **The steps before version 12** add columns. -/
theorem WellFormed.run_altered (h : WellFormed db) (clock : ℕ → Timestamp) (legacy : Legacy)
    (hversion : db.version + 1 = v) (hle : v ≤ 11) :
    (migration clock legacy v).run db = some (db.altered v) := by
  have hexec : Txn.exec (statements (clock v) legacy v) db =
      some { db with
        usage := db.usage.map (column v)
        runtime := db.runtime.map (spawnColumn v) } := by
    by_cases hthree : v = 3
    · subst hthree
      have hindex := h.replay_nodup (by omega)
      simp [Txn.exec, statements, alterUsage, uniqueIndex, hindex, spawnColumn_eq_id]
    by_cases hnine : v = 9
    · subst hnine
      simp [Txn.exec, statements, alterRuntime, column_eq_id]
    rw [spawnColumn_eq_id hnine, List.map_id]
    by_cases hcolumn : v ∈ [3, 4, 7, 12]
    · have hcases : v = 4 ∨ v = 7 := by simp at hcolumn; omega
      rcases hcases with rfl | rfl <;> rfl
    · rw [column_eq_id hcolumn, List.map_id]
      have hnone : statements (clock v) legacy v = [] := by
        unfold statements
        split <;> simp_all
      rw [hnone]
      rfl
  exact run_of_exec (by omega) hexec

/-- From version 12 on the columns are those of this build. -/
theorem rows_of_twelve (hversion : db.version = 12) : db.rows = db.usage := by
  rw [Database.rows, hversion]
  exact List.map_id _

theorem spawns_of_twelve (hversion : db.version = 12) : db.spawns = db.runtime := by
  rw [Database.spawns, hversion]
  exact List.map_id _

/-- The tables of version 12 before the fold. -/
def Database.withEvents (db : Database) (legacy : Legacy) (latches : List LatchRow) : Database :=
  { db with
    usage := db.usage.map (column 12)
    foldedThrough := 0
    instanceRollup := fun _ => RollupRow.zero
    runRollup := fun _ => RollupRow.zero
    breaches := imported legacy db.instances
    latches := latches }

/-- New rollups are exact: no row is below their watermark. -/
theorem exact_withEvents {latches : List LatchRow}
    (hpositive : ∀ e ∈ db.usage.map (column 12), 0 < e.id) :
    Exact (db.withEvents legacy latches) := by
  have hnone : (db.withEvents legacy latches).ledger.folded = [] :=
    List.filter_eq_nil_iff.2 fun e he => by
      have hid := hpositive e he
      have hmark : (db.withEvents legacy latches).ledger.foldedThrough = 0 := rfl
      simp only [hmark, decide_eq_true_eq]
      omega
  constructor
  · rw [hnone]
    rfl
  · rw [hnone]
    rfl

/-- **Version 12** rebuilds the ledger, imports the breaches and folds the rollups. -/
theorem WellFormed.run_v12 (h : WellFormed db) (clock : ℕ → Timestamp) (legacy : Legacy)
    (hversion : db.version = 11) :
    ∃ db', (migration clock legacy 12).run db = some db' ∧ WellFormed db' ∧ db'.version = 12 ∧
      db'.instances = db.instances ∧ db'.rows = db.rows ∧ db'.spawns = db.spawns ∧
      db'.breaches = imported legacy db.instances := by
  have hrows := rows_altered db (by omega : db.version + 1 = 12) (by decide)
  have hspawns := spawns_altered db (by omega : db.version + 1 = 12) (by decide)
  have husage : db.rows = db.usage.map (column 12) := hrows.symm.trans (rows_of_twelve rfl)
  have hindex := h.dedup
  rw [husage] at hindex
  have hexec : Txn.exec (statements (clock 12) legacy 12) db =
      some ((db.withEvents legacy (seeded (clock 12) (db.withEvents legacy []))).folded false) := by
    simp only [Txn.exec, statements, List.foldlM_cons, alterUsage, uniqueIndex, Option.bind_eq_bind,
      Option.bind_some, if_pos hindex, createEventTables, importBreaches, seedLatches, foldRows,
      List.nil_append]
    rfl
  generalize seeded (clock 12) (db.withEvents legacy []) = latches at hexec
  have hruntime : db.runtime.map (spawnColumn 12) = db.runtime := by
    rw [spawnColumn_eq_id (by decide), List.map_id]
  rw [Database.altered, hruntime] at hspawns
  have hexact : Exact ((db.withEvents legacy latches).folded false) := by
    refine (Exact.folded (exact_withEvents ?_) false (by simp)).1
    rw [← husage]
    exact h.positive
  refine ⟨_, run_of_exec (by omega) hexec, ?_, rfl, rfl, hrows, hspawns, rfl⟩
  refine h.congr (by decide : 12 < schemaVersion) rfl hrows hspawns (fun _ b hb => ?_)
    fun _ => ⟨hexact.perInstance, hexact.perRun⟩
  obtain ⟨i, hi, hb⟩ := List.mem_flatMap.1 hb
  obtain ⟨event, -, rfl⟩ := List.mem_map.1 hb
  exact List.mem_map_of_mem ((List.mem_insertionSort _).1 hi)

/-! ### The backfill -/

variable {record r : RunRecord} {records : List RunRecord} {now : Timestamp} {row : SpawnRow}

/-- The ids that have a row. -/
def Database.runIds (db : Database) : List RunId := db.runs.map RunRecord.runId

theorem runRecord_isSome {id : RunId} : (db.store.runRecord id).isSome ↔ id ∈ db.runIds := by
  rw [RunStore.runRecord, List.find?_isSome]
  simp only [decide_eq_true_eq]
  exact List.mem_map.symm

/-- The database with further Runs. -/
def Database.addRuns (db : Database) (new : List RunRecord) : Database :=
  { db with runs := db.runs ++ new }

theorem addRuns_nil (db : Database) : db.addRuns [] = db := by
  rw [Database.addRuns, List.append_nil]

theorem addRuns_addRuns (db : Database) (new new' : List RunRecord) :
    (db.addRuns new).addRuns new' = db.addRuns (new ++ new') := by
  rw [Database.addRuns, Database.addRuns, Database.addRuns, List.append_assoc]

theorem runIds_addRuns (db : Database) (new : List RunRecord) :
    (db.addRuns new).runIds = db.runIds ++ new.map RunRecord.runId :=
  List.map_append

/-- What a row of the backfill is: a root of a registered instance, or of none. -/
structure Rooted (names : List InstanceName) (r : RunRecord) : Prop where
  root : r.parentRunId = none
  stored : Anomaly.normalize r.anomalies = r.anomalies
  named : ∀ name ∈ r.instanceName, name ∈ names

/-- A row with a new key is inserted, unless its instance has an open owner. -/
theorem insertRow_ok (hrooted : Rooted db.names record) (hid : record.runId ∉ db.runIds)
    (howner : record.status = .ended ∨ ∀ q ∈ db.runs, q.instanceName ≠ record.instanceName) :
    insertRow db record = some (db.addRuns [record]) := by
  have hfresh : db.store.runRecord record.runId = none := by
    rw [← runRecord_isSome] at hid
    simpa using hid
  have hconflict : db.store.ownerConflict record = false := by
    unfold RunStore.ownerConflict
    rcases howner with hended | hnone
    · simp [RunRecord.isEnded, hended]
    · have hany : (db.store.runs.any fun q => q.runId ≠ record.runId && q.processOwner &&
          !q.isEnded && q.instanceName = record.instanceName) = false :=
        List.any_eq_false.2 fun q hq => by simp [hnone q hq]
      rw [hany, Bool.and_false]
  have hname : (record.instanceName.all fun name => name ∈ db.store.instances) = true := by
    rw [Option.all_eq_true]
    exact fun name hname => decide_eq_true (hrooted.named name hname)
  have hinsertable : db.store.insertable ⟨record, [], RunLimits.empty, none⟩ = true := by
    simp [RunStore.insertable, hfresh, hrooted.root, hconflict]
  rw [insertRow, RunStore.insertRun, if_pos hname, if_pos hinsertable]
  simp only [hrooted.stored]
  rfl

/-- **A plain backfill** inserts every row, if no two have a key or an instance in common. -/
theorem insertRows_ok (hrooted : ∀ r ∈ records, Rooted db.names r)
    (hids : (db.runIds ++ records.map RunRecord.runId).Nodup)
    (hinstances : ((db.runs ++ records).map RunRecord.instanceName).Nodup) :
    records.foldlM insertRow db = some (db.addRuns records) := by
  induction records generalizing db with
  | nil =>
      rw [addRuns_nil]
      rfl
  | cons r records ih =>
      have hid : r.runId ∉ db.runIds := by
        intro hmem
        rw [List.nodup_append] at hids
        exact hids.2.2 _ hmem _ (by simp) rfl
      have howner : ∀ q ∈ db.runs, q.instanceName ≠ r.instanceName := by
        intro q hq heq
        rw [List.map_append, List.nodup_append] at hinstances
        exact hinstances.2.2 _ (List.mem_map_of_mem hq) _ (by simp) heq
      rw [List.foldlM_cons, insertRow_ok (hrooted r List.mem_cons_self) hid (.inr howner),
        Option.bind_eq_bind, Option.bind_some, ih, addRuns_addRuns, List.singleton_append]
      · exact fun q hq => hrooted q (List.mem_cons_of_mem r hq)
      · rw [runIds_addRuns, List.append_assoc]
        exact hids
      · rw [Database.addRuns, List.append_assoc]
        exact hinstances

/-- What a backfill of ended Runs adds: each of the ids has a row afterwards, and none has two. -/
structure Completes (ids : List RunId) (db : Database) (new : List RunRecord) : Prop where
  ended : ∀ r ∈ new, Rooted db.names r ∧ r.status = .ended
  nodup : (db.addRuns new).runIds.Nodup
  all_ids : ∀ id ∈ ids, id ∈ (db.addRuns new).runIds

theorem Completes.append {ids ids' : List RunId} {new new' : List RunRecord}
    (h : Completes ids db new) (h' : Completes ids' (db.addRuns new) new') :
    Completes (ids ++ ids') db (new ++ new') := by
  have hsame := addRuns_addRuns db new new'
  refine ⟨fun r hr => ?_, hsame ▸ h'.nodup, fun id hid => ?_⟩
  · rcases List.mem_append.1 hr with hr | hr
    · exact h.ended r hr
    · exact h'.ended r hr
  · rw [← hsame]
    rcases List.mem_append.1 hid with hid | hid
    · rw [runIds_addRuns]
      exact List.mem_append_left _ (h.all_ids id hid)
    · exact h'.all_ids id hid

theorem insertOrIgnore_ok (hrooted : Rooted db.names record) (hended : record.status = .ended)
    (hids : db.runIds.Nodup) :
    ∃ new, insertOrIgnore db record = some (db.addRuns new) ∧
      Completes [record.runId] db new := by
  unfold insertOrIgnore
  by_cases hmem : record.runId ∈ db.runIds
  · rw [if_pos (runRecord_isSome.2 hmem)]
    refine ⟨[], by rw [addRuns_nil], by simp, by rwa [addRuns_nil], ?_⟩
    rw [addRuns_nil]
    simpa using hmem
  · rw [if_neg fun hsome => hmem (runRecord_isSome.1 hsome)]
    refine ⟨[record], insertRow_ok hrooted hmem (.inl hended), by simp [hrooted, hended], ?_, ?_⟩
    · rw [runIds_addRuns]
      refine List.Nodup.append hids (List.nodup_singleton _) fun id hid hid' => hmem ?_
      rw [List.map_singleton, List.mem_singleton] at hid'
      rwa [← hid']
    · simp [runIds_addRuns]

/-- **A backfill of ended Runs** leaves each of them a row, and no key twice. -/
theorem insertIgnored_ok (db : Database)
    (hrooted : ∀ r ∈ records, Rooted db.names r ∧ r.status = .ended)
    (hids : db.runIds.Nodup) :
    ∃ new, records.foldlM insertOrIgnore db = some (db.addRuns new) ∧
      Completes (records.map RunRecord.runId) db new := by
  induction records generalizing db with
  | nil => exact ⟨[], by rw [addRuns_nil]; rfl, by simp, by rwa [addRuns_nil], by simp⟩
  | cons r records ih =>
      have hr := hrooted r List.mem_cons_self
      obtain ⟨first, hfirst, hdone⟩ := insertOrIgnore_ok hr.1 hr.2 hids
      obtain ⟨new, hnew, hrest⟩ := ih (db.addRuns first)
        (fun q hq => hrooted q (List.mem_cons_of_mem r hq)) hdone.nodup
      refine ⟨first ++ new, ?_, hdone.append hrest⟩
      rw [List.foldlM_cons, hfirst, Option.bind_eq_bind, Option.bind_some, hnew, addRuns_addRuns]

theorem firstInstance_mem {names : List InstanceName} {name : InstanceName}
    (h : db.firstInstance names = some name) : name ∈ db.names := by
  obtain ⟨i, hi, rfl⟩ := Option.map_eq_some_iff.1 h
  exact List.mem_map_of_mem ((List.mem_insertionSort _).1 (List.mem_of_find?_eq_some hi))

theorem endedRecord_rooted {id : RunId} {name : Option InstanceName} {wirePath : Bool}
    {createdAt updatedAt endedAt : Timestamp} (hname : ∀ n ∈ name, n ∈ db.names) :
    Rooted db.names (endedRecord id name wirePath createdAt updatedAt endedAt) ∧
      (endedRecord id name wirePath createdAt updatedAt endedAt).status = .ended :=
  ⟨⟨rfl, rfl, hname⟩, rfl⟩

theorem ledgerRecords_rooted (now : Timestamp) (db : Database) :
    ∀ r ∈ ledgerRecords now db, Rooted db.names r ∧ r.status = .ended := by
  intro r hr
  obtain ⟨id, -, rfl⟩ := List.mem_map.1 hr
  exact endedRecord_rooted fun n hn => firstInstance_mem hn

theorem breachRecords_rooted (now : Timestamp) (db : Database) :
    ∀ r ∈ breachRecords now db, Rooted db.names r ∧ r.status = .ended := by
  intro r hr
  obtain ⟨id, -, rfl⟩ := List.mem_map.1 hr
  exact endedRecord_rooted fun n hn => firstInstance_mem hn

theorem latchRecords_rooted (now : Timestamp) (db : Database) :
    ∀ r ∈ latchRecords now db, Rooted db.names r ∧ r.status = .ended := by
  intro r hr
  obtain ⟨id, -, rfl⟩ := List.mem_map.1 hr
  exact endedRecord_rooted (by simp)

theorem ledgerRecords_ids (now : Timestamp) {e : UsageRow} (he : e ∈ db.usage) :
    e.runId ∈ (ledgerRecords now db).map RunRecord.runId := by
  rw [ledgerRecords, List.map_map]
  exact List.mem_map.2 ⟨e.runId, List.mem_dedup.2 (List.mem_map_of_mem he), rfl⟩

theorem breachRecords_ids (now : Timestamp) {b : BreachRow} (hb : b ∈ db.breaches) :
    b.event.runId ∈ (breachRecords now db).map RunRecord.runId := by
  rw [breachRecords, List.map_map]
  exact List.mem_map.2 ⟨b.event.runId, List.mem_dedup.2 (List.mem_map.2 ⟨b, hb, rfl⟩), rfl⟩

theorem latchRecords_ids (now : Timestamp) {l : LatchRow} (hl : l ∈ db.latches) :
    l.latch.runId ∈ (latchRecords now db).map RunRecord.runId := by
  rw [latchRecords, List.map_map]
  exact List.mem_map.2 ⟨l.latch.runId, List.mem_dedup.2 (List.mem_map.2 ⟨l, hl, rfl⟩), rfl⟩

/-! ### The Runs of the spawn records -/

/-- The Run of a spawn record. -/
theorem spawnedRecord_spec (now : Timestamp) {id : RunId} {i : InstanceRow}
    (hid : row.runId = some id)
    (hi : db.instances.find? (fun i => i.name = row.instanceName) = some i) :
    ∃ r, spawnedRecord now db row = some r ∧ r.runId = id ∧
      r.instanceName = some row.instanceName ∧ r.status = liveStatus i.state ∧
      Rooted db.names r := by
  have hname : i.name = row.instanceName := by simpa using List.find?_some hi
  have hmem : row.instanceName ∈ db.names :=
    hname ▸ List.mem_map_of_mem (List.mem_of_find?_eq_some hi)
  simp only [spawnedRecord, hid, hi]
  refine ⟨_, rfl, rfl, rfl, rfl, rfl, ?_, by simpa using hmem⟩
  dsimp only
  split <;> rfl

theorem find_instance (db : Database) (hrow : row.instanceName ∈ db.names) :
    ∃ i, db.instances.find? (fun i => i.name = row.instanceName) = some i := by
  obtain ⟨i, hi, hname⟩ := List.mem_map.1 hrow
  refine Option.isSome_iff_exists.1 (List.find?_isSome.2 ⟨i, hi, by simpa using hname⟩)

/-- The keys and the instances of the Runs of spawn records. -/
theorem spawnedRecords_keys (now : Timestamp) (db : Database) {rows : List SpawnRow}
    (hrows : ∀ row ∈ rows, row.instanceName ∈ db.names) :
    (rows.filterMap (spawnedRecord now db)).map RunRecord.runId = rows.filterMap SpawnRow.runId ∧
      ((rows.filterMap (spawnedRecord now db)).map RunRecord.instanceName).Sublist
        ((rows.map SpawnRow.instanceName).map some) := by
  induction rows with
  | nil => exact ⟨rfl, List.Sublist.refl _⟩
  | cons row rows ih =>
      obtain ⟨hids, hnames⟩ := ih fun q hq => hrows q (List.mem_cons_of_mem row hq)
      cases hid : row.runId with
      | none =>
          have hnone : spawnedRecord now db row = none := by simp [spawnedRecord, hid]
          rw [List.filterMap_cons_none hnone, List.filterMap_cons_none hid]
          exact ⟨hids, hnames.cons _⟩
      | some id =>
          obtain ⟨i, hi⟩ := find_instance db (hrows row List.mem_cons_self)
          obtain ⟨r, hr, hrid, hrname, -⟩ := spawnedRecord_spec now hid hi
          rw [List.filterMap_cons_some hr, List.filterMap_cons_some hid, List.map_cons,
            List.map_cons, List.map_cons, List.map_cons, hids, hrid, hrname]
          exact ⟨rfl, hnames.cons_cons _⟩

/-- The database names the Run: in the ledger, a spawn record, a breach or a latch. -/
def Database.NamesRun (db : Database) (id : RunId) : Prop :=
  (∃ e ∈ db.usage, e.runId = id) ∨ (∃ s ∈ db.runtime, s.runId = some id) ∨
    (∃ b ∈ db.breaches, b.event.runId = id) ∨ ∃ l ∈ db.latches, l.latch.runId = id

/-- Every Run that is named has one row: with a status that follows its instance if a spawn record
names it, and ended otherwise. -/
structure Backfilled (db : Database) : Prop where
  one_row : ∀ id, db.NamesRun id → db.runIds.count id = 1
  live : ∀ s ∈ db.runtime, ∀ i ∈ db.instances, i.name = s.instanceName → ∀ id, s.runId = some id →
    ∃ r ∈ db.runs, r.runId = id ∧ r.instanceName = some i.name ∧
      r.status = if i.state = .paused then .held
        else if i.state ∈ [.registered, .stopped, .failed] then .ended else .active
  others : ∀ r ∈ db.runs, (∀ s ∈ db.runtime, s.runId ≠ some r.runId) → r.status = .ended
  roots : ∀ r ∈ db.runs, r.parentRunId = none

theorem liveStatus_eq (state : LifecycleState) : liveStatus state =
    if state = .paused then .held
    else if state ∈ [.registered, .stopped, .failed] then .ended else .active := by
  cases state <;> rfl

/-- A name belongs to one instance. -/
theorem find_of_named {i : InstanceRow} (hnamed : db.names.Nodup) (hi : i ∈ db.instances) :
    db.instances.find? (fun j => j.name = i.name) = some i := by
  have hone : ∀ {rows : List InstanceRow}, (rows.map InstanceRow.name).Nodup → i ∈ rows →
      rows.find? (fun j => j.name = i.name) = some i := by
    intro rows hrows hmem
    induction rows with
    | nil => exact absurd hmem List.not_mem_nil
    | cons j rows ih =>
        rw [List.map_cons, List.nodup_cons] at hrows
        rcases List.mem_cons.1 hmem with rfl | hmem
        · exact List.find?_cons_of_pos (by simp)
        · have hne : j.name ≠ i.name := fun heq => hrows.1 (heq ▸ List.mem_map_of_mem hmem)
          rw [List.find?_cons_of_neg (by simpa using hne)]
          exact ih hrows.2 hmem
  exact hone hnamed hi

/-- The Runs of the spawn records, and ended ones for every other Run that is named. -/
theorem backfilled_addRuns {new : List RunRecord} {ids : List RunId} (h : WellFormed db)
    (hversion : db.version = 12) (hruns : db.runs = [])
    (hnew : Completes ids (db.addRuns (db.runtime.filterMap (spawnedRecord now db))) new)
    (hids : ∀ id, db.NamesRun id → (∃ s ∈ db.runtime, s.runId = some id) ∨ id ∈ ids) :
    Backfilled (db.addRuns (db.runtime.filterMap (spawnedRecord now db) ++ new)) := by
  have hspawns := h.spawned
  rw [spawns_of_twelve hversion] at hspawns
  have hkeys := (spawnedRecords_keys now db hspawns).1
  have hmem : ∀ {r : RunRecord},
      r ∈ (db.addRuns (db.runtime.filterMap (spawnedRecord now db) ++ new)).runs ↔
        (∃ s ∈ db.runtime, spawnedRecord now db s = some r) ∨ r ∈ new := by
    intro r
    rw [Database.addRuns, hruns, List.nil_append, List.mem_append, List.mem_filterMap]
  -- the Run of a spawn record, by its columns
  have hrow : ∀ s ∈ db.runtime, ∀ r, spawnedRecord now db s = some r →
      s.runId = some r.runId ∧ r.parentRunId = none := by
    intro s hs r hr
    obtain ⟨i, hi⟩ := find_instance db (hspawns s hs)
    cases hid : s.runId with
    | none => simp [spawnedRecord, hid] at hr
    | some id =>
        obtain ⟨r', hr', hrid, -, -, hrooted⟩ := spawnedRecord_spec now hid hi
        rw [hr, Option.some.injEq] at hr'
        subst hr'
        exact ⟨by rw [hrid], hrooted.root⟩
  constructor
  · intro id hid
    have hsame := addRuns_addRuns db (db.runtime.filterMap (spawnedRecord now db)) new
    have hnodup := hnew.nodup
    have hall := hnew.all_ids
    rw [hsame] at hnodup hall
    refine List.count_eq_one_of_mem hnodup ?_
    rcases hids id hid with ⟨s, hs, hsid⟩ | hid
    · obtain ⟨i, hi⟩ := find_instance db (hspawns s hs)
      obtain ⟨r, hr, hrid, -⟩ := spawnedRecord_spec now hsid hi
      exact List.mem_map.2 ⟨r, hmem.2 (.inl ⟨s, hs, hr⟩), hrid⟩
    · exact hall id hid
  · intro s hs i hi hname id hid
    have hfind := find_of_named h.named hi
    rw [hname] at hfind
    obtain ⟨r, hr, hrid, hrname, hstatus, -⟩ := spawnedRecord_spec now hid hfind
    refine ⟨r, hmem.2 (.inl ⟨s, hs, hr⟩), hrid, by rw [hrname, hname], ?_⟩
    rw [hstatus, liveStatus_eq]
  · intro r hr hother
    rcases hmem.1 hr with ⟨s, hs, hsr⟩ | hr
    · exact absurd (hrow s hs r hsr).1 (hother s hs)
    · exact (hnew.ended r hr).2
  · intro r hr
    rcases hmem.1 hr with ⟨s, hs, hsr⟩ | hr
    · exact (hrow s hs r hsr).2
    · exact (hnew.ended r hr).1.root

/-- **Version 13** gives a row to every Run that the database names. -/
theorem WellFormed.run_v13 (h : WellFormed db) (clock : ℕ → Timestamp) (legacy : Legacy)
    (hversion : db.version = 12) :
    ∃ runs, (migration clock legacy 13).run db = some { db with runs := runs, version := 13 } ∧
      Backfilled { db with runs := runs, version := 13 } := by
  have hspawns := h.spawned
  have hsupervised := h.supervised
  have hspawnRuns := h.spawnRuns
  rw [spawns_of_twelve hversion] at hspawns hsupervised hspawnRuns
  let base : Database := { db with runs := [] }
  let spawned := db.runtime.filterMap (spawnedRecord (clock 13) base)
  have hbase : WellFormed base :=
    h.congr h.version rfl rfl rfl h.breached
      fun hv => ⟨(h.exact_ hv).perInstance, (h.exact_ hv).perRun⟩
  obtain ⟨hkeys, hnames⟩ := spawnedRecords_keys (clock 13) base hspawns
  have hrooted : ∀ r ∈ spawned, Rooted base.names r := by
    intro r hr
    obtain ⟨s, hs, hsr⟩ := List.mem_filterMap.1 hr
    obtain ⟨i, hi⟩ := find_instance base (hspawns s hs)
    cases hid : s.runId with
    | none => simp [spawnedRecord, hid] at hsr
    | some id =>
        obtain ⟨r', hr', -, -, -, hroot⟩ := spawnedRecord_spec (clock 13) hid hi
        rw [hsr, Option.some.injEq] at hr'
        exact hr' ▸ hroot
  have hids : (base.runIds ++ spawned.map RunRecord.runId).Nodup := by
    change (spawned.map RunRecord.runId).Nodup
    rw [hkeys]
    exact hspawnRuns
  have hfirst : backfillSpawned (clock 13) base = some (base.addRuns spawned) :=
    insertRows_ok hrooted hids
      (hnames.nodup (hsupervised.map fun _ _ heq => Option.some.inj heq))
  -- then the Runs that the other tables name
  rw [← runIds_addRuns] at hids
  obtain ⟨new₁, hnew₁, hdone₁⟩ := insertIgnored_ok (base.addRuns spawned)
    (ledgerRecords_rooted (clock 13) _) hids
  obtain ⟨new₂, hnew₂, hdone₂⟩ := insertIgnored_ok ((base.addRuns spawned).addRuns new₁)
    (breachRecords_rooted (clock 13) _) hdone₁.nodup
  obtain ⟨new₃, hnew₃, hdone₃⟩ :=
    insertIgnored_ok (((base.addRuns spawned).addRuns new₁).addRuns new₂)
      (latchRecords_rooted (clock 13) _) hdone₂.nodup
  have hall := hdone₁.append (hdone₂.append hdone₃)
  have hlatches : referenceLatches
      ((((base.addRuns spawned).addRuns new₁).addRuns new₂).addRuns new₃) =
        some ((((base.addRuns spawned).addRuns new₁).addRuns new₂).addRuns new₃) :=
    if_pos (List.all_eq_true.2 fun l hl =>
      runRecord_isSome.2 (hdone₃.all_ids _ (latchRecords_ids (clock 13) hl)))
  have hexec : Txn.exec (statements (clock 13) legacy 13) db =
      some ((((base.addRuns spawned).addRuns new₁).addRuns new₂).addRuns new₃) := by
    have hcreate : createRuns db = some base := rfl
    simp only [Txn.exec, statements, List.foldlM_cons, List.foldlM_nil, hcreate, hfirst,
      backfillEnded, hnew₁, hnew₂, hnew₃, hlatches, Option.bind_eq_bind, Option.bind_some]
    rfl
  rw [addRuns_addRuns, addRuns_addRuns, addRuns_addRuns] at hexec
  refine ⟨spawned ++ (new₁ ++ (new₂ ++ new₃)), run_of_exec (by omega) hexec, ?_⟩
  have hback := backfilled_addRuns hbase hversion rfl hall fun id hid => ?_
  · exact ⟨hback.one_row, hback.live, hback.others, hback.roots⟩
  · rcases hid with ⟨e, he, rfl⟩ | hspawn | ⟨b, hb, rfl⟩ | ⟨l, hl, rfl⟩
    · exact .inr (List.mem_append_left _ (ledgerRecords_ids (clock 13) he))
    · exact .inl hspawn
    · exact .inr (List.mem_append_right _ (List.mem_append_left _
        (breachRecords_ids (clock 13) hb)))
    · exact .inr (List.mem_append_right _ (List.mem_append_right _
        (latchRecords_ids (clock 13) hl)))

/-! ### The open -/

/-- After the steps and before the fold: the tables of the database, and the Runs. -/
structure Migrated (legacy : Legacy) (db final : Database) : Prop where
  version : final.version = schemaVersion
  instances : final.instances = db.instances
  usage : final.usage = db.rows
  runtime : final.runtime = db.spawns
  imported : db.version < 12 → final.breaches = imported legacy db.instances
  kept : db.version = 12 → final.breaches = db.breaches ∧ final.latches = db.latches
  backfilled : Backfilled final
  exact_ : Exact final

/-- **The steps** of a well-formed database succeed. -/
theorem WellFormed.migrated (h : WellFormed db) (clock : ℕ → Timestamp) (legacy : Legacy) :
    ∃ final, Txn.runAll (migrations clock legacy db.version) db = some final ∧
      Migrated legacy db final := by
  obtain ⟨k, hk⟩ : ∃ k, db.version + k + 1 = schemaVersion :=
    ⟨schemaVersion - db.version - 1, by have := h.version; omega⟩
  -- by induction on the number of steps before version 13
  induction k generalizing db with
  | zero =>
      have hversion : db.version = 12 := by simpa [schemaVersion] using hk
      obtain ⟨runs, hrun, hback⟩ := h.run_v13 clock legacy hversion
      refine ⟨{ db with runs := runs, version := 13 }, ?_, rfl, rfl, (rows_of_twelve hversion).symm,
        (spawns_of_twelve hversion).symm, fun hlt => by omega, fun _ => ⟨rfl, rfl⟩, hback,
        ⟨(h.exact_ hversion).perInstance, (h.exact_ hversion).perRun⟩⟩
      rw [migrations, hversion]
      change (migration clock legacy 13).run db >>= some = _
      rw [hrun]
      rfl
  | succ k ih =>
      have hsteps : migrations clock legacy db.version =
          migration clock legacy (db.version + 1) :: migrations clock legacy (db.version + 1) := by
        have hcount : schemaVersion - db.version = schemaVersion - (db.version + 1) + 1 := by omega
        rw [migrations, migrations, hcount, List.range'_succ, List.map_cons]
      by_cases hversion : db.version = 11
      · obtain ⟨mid, hrun, hmid, hv, hinstances, hrows, hspawns, hbreaches⟩ :=
          h.run_v12 clock legacy hversion
        obtain ⟨final, hfinal, hdone⟩ := ih hmid (by omega)
        refine ⟨final, ?_, hdone.version, hdone.instances.trans hinstances,
          hdone.usage.trans hrows, hdone.runtime.trans hspawns,
          fun _ => (hdone.kept hv).1.trans hbreaches, fun h12 => by omega, hdone.backfilled,
          hdone.exact_⟩
        rw [hv] at hfinal
        rw [hsteps, runAll_cons, hversion, hrun]
        exact hfinal
      · have hle : db.version + 1 ≤ 11 := by
          have : schemaVersion = 13 := rfl
          omega
        have hrun := h.run_altered clock legacy rfl hle
        have hrows := rows_altered db rfl (by omega : db.version + 1 ≤ schemaVersion)
        have hspawns := spawns_altered db rfl (by omega : db.version + 1 ≤ schemaVersion)
        have hv : (db.altered (db.version + 1)).version = db.version + 1 := rfl
        have hmid : WellFormed (db.altered (db.version + 1)) :=
          h.congr (by omega) rfl hrows hspawns (fun h12 => by omega) fun h12 => by omega
        obtain ⟨final, hfinal, hdone⟩ := ih hmid (by omega)
        refine ⟨final, ?_, hdone.version, hdone.instances, hdone.usage.trans hrows,
          hdone.runtime.trans hspawns, fun _ => hdone.imported (by omega), fun h12 => by omega,
          hdone.backfilled, hdone.exact_⟩
        rw [hsteps, runAll_cons, hrun]
        exact hfinal

/-- What an open leaves: the tables of the database with the Runs, and rollups that are those of a
fold from scratch. -/
structure Attributed (legacy : Legacy) (db final : Database) : Prop
    extends Migrated legacy db final where
  perInstance : ∀ name, final.instanceRollup name =
    rescan final.usage fun e => e.instanceName = some name
  perRun : ∀ name id, final.runRollup (name, id) =
    rescan final.usage fun e => e.instanceName = some name ∧ e.runId = id

/-- **What an open makes** of a well-formed database of version 12 or before: every Run that it
names has one row, with the status that its spawn record gives it or ended, and the rollups are
those of the ledger.  Opens that are cut before it change nothing but the times that it writes. -/
theorem migration_attributes (h : WellFormed db) (clock : ℕ → Timestamp) (legacy : Legacy) :
    (∃ final, openStore clock legacy db = some final ∧ Attributed legacy db final) ∧
    ∀ attempts, ∃ clock', (∀ v, clock' v = clock v ∨ ∃ a ∈ attempts, clock' v = a.clock v) ∧
      openStore clock legacy (cutOpens legacy attempts db) = openStore clock' legacy db := by
  refine ⟨?_, fun attempts => openStore_cuts clock legacy attempts db⟩
  obtain ⟨mid, hmid, hdone⟩ := h.migrated clock legacy
  obtain ⟨hexact, hall⟩ := hdone.exact_.folded true fun _ => hdone.backfilled.roots
  have hback := hdone.backfilled
  refine ⟨mid.folded true, ?_, ⟨hdone.version, hdone.instances, hdone.usage, hdone.runtime,
    hdone.imported, hdone.kept, ⟨hback.one_row, hback.live, hback.others, hback.roots⟩, hexact⟩,
    fun name => ?_, fun name id => ?_⟩
  · rw [openStore_eq h.version.le, hmid]
    rfl
  · rw [hexact.perInstance, hall, rescan_eq]
    rfl
  · rw [hexact.perRun, hall, rescan_eq]
    rfl

/-- A database of version 11: a paused instance whose spawn record names the Run 7, a failed one,
and a ledger row of the Run 5. -/
def legacyDatabase : Database where
  version := 11
  instances := [⟨1, "a", .paused⟩, ⟨2, "b", .failed⟩]
  runtime := [⟨"a", some 7⟩, ⟨"b", none⟩]
  usage := [⟨1, some "b", 5, 10, 20, "self-reported", "1", 1, none, none, none, none, 0⟩]
  foldedThrough := 0
  instanceRollup := fun _ => RollupRow.zero
  runRollup := fun _ => RollupRow.zero
  breaches := []
  latches := []
  runs := []

/-- The Run of the paused instance is held, and the Run of the ledger has ended. -/
theorem migration_attributes_legacy : ∃ final,
    openStore (fun _ => "2") (fun _ => []) legacyDatabase = some final ∧
      Attributed (fun _ => []) legacyDatabase final := by
  have h : WellFormed legacyDatabase := by
    refine ⟨by decide, by decide, by decide, by decide, by decide, by decide, by decide, by decide,
      ?_, ?_⟩
    · exact fun hversion => absurd hversion (by decide)
    · exact fun hversion => absurd hversion (by decide)
  exact (migration_attributes h (fun _ => "2") fun _ => []).1

end RunMigration

end Hekma
