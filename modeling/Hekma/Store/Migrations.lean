/-
**The steps of the schema** (`store/sqlite.rs`, `store/run_store_sqlite.rs`,
`store/runs_sqlite.rs`).

The state database has a schema of thirteen versions.  Who opens it reads the version and takes the
steps that are missing, each in one transaction with its stamp.  The first eleven steps do not look
at the version again once they have the write lock; the last two do, and step aside where another
process has been faster.

Of the statements those that change tables, columns and indexes are modelled; what the last two
steps do to the rows is modelled elsewhere.

Main definitions:

* `Migrations.Ddl`, `Migrations.apply` — the statements and what they do to a schema;
* `Migrations.migrateStep`, `Migrations.migrateV12`, `Migrations.migrateV13` — the steps;
* `Migrations.steps` — the database as a store with versions;
* `Migrations.schemaAt` — the schema of a version.

Main results:

* `Migrations.climbs` — which steps go through a second time;
* `Migrations.migrate_alone` — **of opens that do not overlap each one leaves the schema of the
  version it stamps**, wherever it dies;
* `Migrations.migrate_late` — so do overlapping ones, from version 11 on;
* `Migrations.migrate_stuck`, `Migrations.migrate_stamped_back` — a full database under a lower
  stamp is never opened again, and two opens of a new one can leave it so.
-/

import Hekma.Lib.Ladder

set_option relaxedAutoImplicit false
set_option autoImplicit false

namespace Hekma

namespace Migrations

open Ladder (Steps World Opener Event)

/-! ### Schemas and statements -/

structure Index where
  name : String
  table : String
  columns : List String
  deriving DecidableEq

structure Schema where
  tables : List (String × List String)
  indexes : List Index
  deriving DecidableEq

inductive Ddl where
  | createTable (ifNotExists : Bool) (table : String) (columns : List String)
  | addColumn (table column : String)
  | createIndex (ifNotExists : Bool) (index : Index)
  | dropTable (table : String)
  | renameTable (table target : String)

/-- A statement, or its error. -/
def apply (schema : Schema) : Ddl → Option Schema
  | .createTable ifNotExists table columns =>
      if (schema.tables.map Prod.fst).contains table then
        if ifNotExists then some schema else none
      else some { schema with tables := schema.tables ++ [(table, columns)] }
  | .addColumn table column =>
      match schema.tables.find? (fun t => t.1 == table) with
      | none => none
      | some t =>
          if t.2.contains column then none
          else some { schema with
            tables := schema.tables.map fun t =>
              if t.1 == table then (t.1, t.2 ++ [column]) else t }
  | .createIndex ifNotExists index =>
      if (schema.indexes.map Index.name).contains index.name then
        if ifNotExists then some schema else none
      else
        match schema.tables.find? (fun t => t.1 == index.table) with
        | none => none
        | some t =>
            if index.columns.all t.2.contains then
              some { schema with indexes := schema.indexes ++ [index] }
            else none
  | .dropTable table =>
      if (schema.tables.map Prod.fst).contains table then
        some ⟨schema.tables.filter fun t => t.1 != table,
          schema.indexes.filter fun i => i.table != table⟩
      else none
  | .renameTable table target =>
      if (schema.tables.map Prod.fst).contains target then none
      else if (schema.tables.map Prod.fst).contains table then
        some ⟨schema.tables.map fun t => if t.1 == table then (target, t.2) else t,
          schema.indexes.map fun i => if i.table == table then { i with table := target } else i⟩
      else none

/-! ### The statements of the steps -/

def schemaV1 : List Ddl :=
  [.createTable true "agent_instances"
      ["id", "name", "kind", "state", "agent_home", "created_at", "updated_at"],
    .createTable true "usage_events"
      ["id", "instance_id", "run_id", "input_tokens", "output_tokens", "metering_source",
        "occurred_at"],
    .createIndex true ⟨"idx_usage_events_instance", "usage_events", ["instance_id"]⟩]

def schemaV2 : List Ddl :=
  [.createTable true "agent_runtime"
    ["id", "instance_id", "pid", "start_time", "restart_policy", "restart_count",
      "last_known_cause"]]

def schemaV3 : List Ddl :=
  [.addColumn "usage_events" "sequence",
    .createIndex true
      ⟨"idx_usage_events_dedup", "usage_events", ["instance_id", "run_id", "sequence"]⟩]

def schemaV4 : List Ddl :=
  [.addColumn "usage_events" "input_micros_per_1m",
    .addColumn "usage_events" "output_micros_per_1m"]

def schemaV5 : List Ddl :=
  [.createTable true "agent_memory_backing" ["id", "instance_id", "kind", "attached_at"]]

def schemaV6 : List Ddl := [.addColumn "agent_runtime" "detached"]

def schemaV7 : List Ddl :=
  [.addColumn "usage_events" "cached_tokens", .addColumn "usage_events" "cached_micros_per_1m"]

def schemaV8 : List Ddl := [.addColumn "agent_runtime" "acp_session_id"]

def schemaV9 : List Ddl := [.addColumn "agent_runtime" "run_id"]

def schemaV10 : List Ddl :=
  [.addColumn "agent_runtime" "owner_pid", .addColumn "agent_runtime" "owner_start_time"]

def schemaV11 : List Ddl :=
  [.addColumn "agent_runtime" "lease_pid", .addColumn "agent_runtime" "lease_start_time"]

def schemaV12 : List Ddl :=
  [.addColumn "agent_instances" "launch_generation",
    .createTable false "usage_events_v12"
      ["id", "instance_id", "run_id", "input_tokens", "output_tokens", "metering_source",
        "occurred_at", "sequence", "input_micros_per_1m", "output_micros_per_1m", "cached_tokens",
        "cached_micros_per_1m", "launch_generation", "call_id"],
    .dropTable "usage_events",
    .renameTable "usage_events_v12" "usage_events",
    .createIndex false ⟨"idx_usage_events_instance", "usage_events", ["instance_id"]⟩,
    .createIndex false ⟨"idx_usage_events_dedup", "usage_events",
      ["instance_id", "run_id", "launch_generation", "sequence"]⟩,
    .createIndex false ⟨"idx_usage_events_call", "usage_events", ["run_id", "call_id"]⟩,
    .createTable false "usage_rollup_instance"
      ["instance_id", "events", "input_tokens", "output_tokens", "cached_tokens",
        "cached_unknown", "cost_micros"],
    .createTable false "usage_rollup_run"
      ["instance_id", "run_id", "events", "input_tokens", "output_tokens", "cached_tokens",
        "cached_unknown", "cost_micros"],
    .createTable false "usage_rollup_meta" ["id", "folded_through"],
    .createTable false "transition_events" ["id", "instance_id", "event"],
    .createIndex false ⟨"idx_transition_events_instance", "transition_events",
      ["instance_id", "id"]⟩,
    .createTable false "breach_events"
      ["id", "instance_id", "run_id", "dimension", "scope", "action", "event"],
    .createIndex false ⟨"idx_breach_events_instance", "breach_events", ["instance_id", "id"]⟩,
    .createIndex false ⟨"idx_breach_events_run", "breach_events", ["run_id"]⟩,
    .createTable false "run_latches" ["run_id", "dimension", "scope", "action", "latched_at"],
    .createTable false "outbox" ["seq", "event", "bytes"],
    .createTable false "outbox_meta" ["id", "ack_seq", "total_bytes"]]

def schemaV13 : List Ddl :=
  [.createTable false "runs"
      ["run_id", "control_depth", "wire_path", "status", "anomalies", "parent_run_id",
        "instance_id", "process_owner", "end_cause", "lease_expires_at", "created_at",
        "updated_at", "ended_at"],
    .createIndex false ⟨"idx_runs_parent", "runs", ["parent_run_id"]⟩,
    .createIndex false ⟨"idx_runs_instance", "runs", ["instance_id", "status"]⟩,
    .createIndex false ⟨"idx_runs_open_owner", "runs", ["instance_id"]⟩,
    .createIndex false ⟨"idx_runs_anomalous", "runs", ["status"]⟩,
    .createTable false "run_labels" ["run_id", "key", "value", "source"],
    .createIndex false ⟨"idx_run_labels_kv", "run_labels", ["key", "value"]⟩,
    .createTable false "run_limits"
      ["run_id", "dimension", "scope", "limit_value", "action", "source", "set_at"],
    .createTable false "run_identities" ["binding", "external_id", "run_id", "created_at"]]

/-- What the backfill does to the tables. -/
def backfillV13 : List Ddl :=
  [.createTable false "run_latches_v13" ["run_id", "dimension", "scope", "action", "latched_at"],
    .dropTable "run_latches",
    .renameTable "run_latches_v13" "run_latches"]

/-! ### The steps -/

def schemaVersion : ℕ := 13

structure Database where
  userVersion : ℕ
  schema : Schema
  deriving DecidableEq

/-- A step and its stamp in one transaction. -/
def migrateStep (toVersion : ℕ) (ddl : List Ddl) (db : Database) : Option Database :=
  (ddl.foldlM apply db.schema).map fun schema => ⟨toVersion, schema⟩

/-- A step that looks at the version again under the write lock, and steps aside if another process
has taken it. -/
def migrateChecked (toVersion : ℕ) (ddl : List Ddl) (db : Database) : Option Database :=
  if toVersion ≤ db.userVersion then some db else migrateStep toVersion ddl db

def migrateV12 : Database → Option Database := migrateChecked 12 schemaV12

def migrateV13 : Database → Option Database := migrateChecked 13 (schemaV13 ++ backfillV13)

/-- The step to a version. -/
def migrateTo : ℕ → Database → Option Database
  | 1 => migrateStep 1 schemaV1
  | 2 => migrateStep 2 schemaV2
  | 3 => migrateStep 3 schemaV3
  | 4 => migrateStep 4 schemaV4
  | 5 => migrateStep 5 schemaV5
  | 6 => migrateStep 6 schemaV6
  | 7 => migrateStep 7 schemaV7
  | 8 => migrateStep 8 schemaV8
  | 9 => migrateStep 9 schemaV9
  | 10 => migrateStep 10 schemaV10
  | 11 => migrateStep 11 schemaV11
  | 12 => migrateV12
  | 13 => migrateV13
  | _ => fun _ => none

/-- The database, and what an open does: it reads the version once, refuses a database above the
last one, and takes the steps that are missing. -/
def steps : Steps Database := ⟨Database.userVersion, schemaVersion, migrateTo⟩

/-! ### The schema of a version -/

/-- The steps up to a version, one after the other. -/
def buildTo : ℕ → Option Database
  | 0 => some ⟨0, ⟨[], []⟩⟩
  | n + 1 => (buildTo n).bind (migrateTo (n + 1))

/-- The schema of a version. -/
def schemaAt (h : ℕ) : Schema := ((buildTo h).map Database.schema).getD ⟨[], []⟩

/-- The steps that only create what is not there. -/
def goesThroughAgain (k : ℕ) : Bool := k = 1 || k = 2 || k = 5

/-- The steps that look at the version again. -/
def looksAgain (k : ℕ) : Bool := k = 12 || k = 13

def store (v h : ℕ) : Database := ⟨v, schemaAt h⟩

theorem first_of_lt : ∀ h < 13, ∀ v ≤ h,
    migrateTo (h + 1) (store v h) = some (store (h + 1) (h + 1)) := by
  decide +kernel

/-- A step on a schema that has it already. -/
theorem repeated_of_le : ∀ h ≤ 13, ∀ v ≤ h, ∀ k ≤ h, 0 < k → migrateTo k (store v h) =
    if looksAgain k ∧ k ≤ v then some (store v h)
    else if goesThroughAgain k then some (store k h) else none := by
  decide +kernel

/-- Which steps go through a second time. -/
theorem climbs : Ladder.Climbs steps store goesThroughAgain looksAgain where
  version _ _ := rfl
  first v h hv hh := first_of_lt h hh v hv
  repeated v h k hv hk hkh hh := repeated_of_le h hh v hv k hkh hk

/-! ### Runs -/

/-- A database of a version, and nobody on the way. -/
def ofVersion (h : ℕ) : World Database := ⟨store h h, []⟩

/-- The database is built up to the version it carries, and an open that is done has brought it to
the last one.  Whoever opens it next and is let finish takes the steps that are missing. -/
structure Sound (h : ℕ) (w : World Database) : Prop where
  built : w.store = ⟨h, schemaAt h⟩
  done : .done ∈ w.openers → h = schemaVersion
  finishes : Ladder.run steps w
      (.opens :: List.replicate (schemaVersion - h) (.go w.openers.length)) =
    ⟨⟨schemaVersion, schemaAt schemaVersion⟩, w.openers ++ [.done]⟩

theorem Sound.of_at {h : ℕ} {w : World Database} (hat : Ladder.At steps store h h w) : Sound h w :=
  ⟨hat.store, hat.done, Ladder.finishes climbs hat⟩

variable {h : ℕ} {events : List Event} {w : World Database}

/-- **Of opens that do not overlap each one leaves the schema of the version it stamps**, whichever
of its transactions it dies in. -/
theorem migrate_alone (hh : h ≤ schemaVersion)
    (halone : Guarded.Meets (Ladder.act steps) Ladder.Alone (ofVersion h) events)
    (hw : w ∈ Guarded.states (Ladder.act steps) (ofVersion h) events) :
    ∃ h', h ≤ h' ∧ Sound h' w := by
  have hat : Ladder.At steps store h h (ofVersion h) := .fresh le_rfl hh
  obtain ⟨h', hle, hat'⟩ :=
    Ladder.built_run climbs hat (Ladder.alone_meets climbs (.fresh hh) halone) hw
  exact ⟨h', hle, .of_at hat'⟩

/-- **From version 11 on opens may overlap**, in any order of their transactions. -/
theorem migrate_late (hlate : 11 ≤ h) (hh : h ≤ schemaVersion)
    (hw : w ∈ Guarded.states (Ladder.act steps) (ofVersion h) events) :
    ∃ h', h ≤ h' ∧ Sound h' w := by
  have hat : Ladder.At steps store h h (ofVersion h) := .fresh le_rfl hh
  have hagain : ∀ k, goesThroughAgain k → k ≤ 5 := by
    intro k hk
    simp only [goesThroughAgain, Bool.or_eq_true, decide_eq_true_eq] at hk
    omega
  have hpast : Ladder.Past steps store 5 (ofVersion h) :=
    ⟨⟨h, by omega, hat⟩, fun _ hin => absurd hin List.not_mem_nil⟩
  obtain ⟨h', hle, hat'⟩ :=
    Ladder.built_run climbs hat (Ladder.late_meets climbs hagain hpast events) hw
  exact ⟨h', hle, .of_at hat'⟩

/-- Two opens of a new database: the second one has read the version before the first one goes on,
and takes its steps after it. -/
def race : List Event :=
  .opens :: .opens :: (List.replicate 13 (.go 0) ++ List.replicate 3 (.go 1))

theorem schemaAt_full : ∀ h ≤ schemaVersion, schemaAt h = schemaAt schemaVersion →
    h = schemaVersion := by
  decide +kernel

/-- **A database of the full schema that an open has stamped back is never opened again**: no open
that is not done by then is ever done. -/
theorem migrate_stuck {v : ℕ} (hh : h ≤ schemaVersion) (hv : v < schemaVersion)
    (hstamped : (Ladder.run steps (ofVersion h) events).store = ⟨v, schemaAt schemaVersion⟩)
    (later : List Event) {i : ℕ}
    (hi : (Ladder.run steps (ofVersion h) (events ++ later)).openers[i]? = some .done) :
    (Ladder.run steps (ofVersion h) events).openers[i]? = some .done := by
  have hagain : ∀ k, goesThroughAgain k → k < schemaVersion := by
    intro k hk
    simp only [goesThroughAgain, Bool.or_eq_true, decide_eq_true_eq] at hk
    unfold schemaVersion
    omega
  obtain ⟨v', h', hat⟩ := Ladder.at_run climbs (.fresh le_rfl hh) events
  obtain ⟨rfl, hfull⟩ := Database.mk.inj (hat.store.symm.trans hstamped)
  obtain rfl := schemaAt_full h' hat.top hfull
  rw [Ladder.run, List.foldl_append] at hi
  exact (Ladder.stuck_run climbs hagain hv hat later).done i hi

/-- **Two opens of a new database can leave it so.**  The first one ends with the full schema; the
second one stamps it back and dies at a column that is there.  A third one is not done. -/
theorem migrate_stamped_back :
    (Ladder.run steps (ofVersion 0) race).store = ⟨2, schemaAt schemaVersion⟩ ∧
      (Ladder.run steps (ofVersion 0) (race ++ [.opens, .go 2])).openers[2]? ≠ some .done := by
  have hstamped : (Ladder.run steps (ofVersion 0) race).store = ⟨2, schemaAt schemaVersion⟩ := by
    decide +kernel
  refine ⟨hstamped, fun hi => ?_⟩
  have hbefore := migrate_stuck (by decide) (by decide) hstamped _ hi
  revert hbefore
  decide +kernel

/-- An open that dies after its third step, and one that is let finish. -/
theorem migrate_alone_crash : ∃ h', 0 ≤ h' ∧ Sound h' (Ladder.run steps (ofVersion 0)
    (.opens :: (List.replicate 3 (.go 0) ++ .crash 0 :: .opens :: List.replicate 10 (.go 1)))) :=
  migrate_alone (by decide) (by decide +kernel) Guarded.last_mem_states

/-- Two opens that overlap. -/
theorem migrate_late_race : ∃ h', 11 ≤ h' ∧ Sound h' (Ladder.run steps (ofVersion 11)
    [.opens, .opens, .go 0, .go 1, .go 1, .go 0]) :=
  migrate_late le_rfl (by decide) Guarded.last_mem_states

end Migrations

end Hekma
