/-
**The registry behind the facade** (`engine.rs`, `domain/registry.rs`).

What a call on an engine looks at: the state database by the reading connection, the files of the
state directory, the processes, the environment, and what the engine holds in memory.  The reading
connection refuses every statement that would write.

The statements of the database, the readers of the files and what the mutating verbs do are
parameters.

Main definitions:

* `Facade.World`, `Facade.Engine`, `Facade.Parts` — what a call works on;
* `Facade.query`, `Facade.readBytes` — the two ways of looking at the state;
* `Facade.lookup`, `Facade.registryEffectiveConfig`, … — the reads of the registry.
-/

import Hekma.Capture.AttributedLog
import Hekma.Domain.ConfigWrite
import Hekma.Host.ControlApi
import Hekma.Store.OutboxExport
import Hekma.Store.SpawnRecords
import Hekma.Supervisor.FleetView

set_option relaxedAutoImplicit false
set_option autoImplicit false

namespace Hekma.Facade

open Adoption (ProcessFingerprint)
open Backing (MemoryBackingKind)
open Capture (LogLine)
open ControlApi (AdapterRef ChildRunRequest FacadeError RunError Texts)
open Effects (Prog)
open Resync (ResyncBatch ResyncCursor)
open Wire (IoError NameError)

/-! ### The world -/

/-- A path, by its components. -/
abbrev Path : Type := List String

/-- What a path holds. -/
inductive FileState where
  | missing
  | unreadable (err : IoError)
  | file (mode : ℕ) (bytes : List UInt8)

/-- What the calls of an engine work on: the state database, if there is one, the files, the
processes, the environment of the engine, and the time. -/
structure World (δ π : Type) where
  stateDb : Option δ
  files : Path → FileState
  processes : π
  environment : String → Option String
  now : Timestamp

/-! ### The engine -/

/-- What the reading connection is open on. -/
inductive Reader (δ : Type) where
  | stateDb
  /-- The empty database of an engine that found none. -/
  | memory (db : δ)

inductive Writer where
  | spawned
  /-- No thread and no connection. -/
  | closed
  deriving DecidableEq

/-- What the engine keeps of an instance whose process it holds. -/
structure Held (ρ : Type) where
  runId : RunId
  liveCapture : Bool
  acpContextUsage : Option ρ
  sentinelLinesSeen : Bool

inductive LogCaptureMode where
  | full
  | metadata
  | off
  deriving DecidableEq

structure Engine (δ ρ : Type) where
  readOnly : Bool
  reader : Reader δ
  writer : Writer
  held : InstanceName → Option (Held ρ)
  logCapture : LogCaptureMode

/-! ### Values -/

structure AgentInstance where
  name : InstanceName
  kind : String
  state : LifecycleState
  agentHome : String
  createdAt : Timestamp
  updatedAt : Timestamp

/-- The rows of the instances.  A name is there once. -/
abbrev InstanceRows : Type := { rows : List AgentInstance // (rows.map AgentInstance.name).Nodup }

/-- The snapshot of the adapter that an instance was registered with. -/
structure AdapterSnapshot (ρ : Type) where
  kind : String
  manifestPath : Option Path
  meteringSource : String
  declaration : ρ

/-- Which sources of usage an instance could have had, and what they had to say. -/
structure UsageGapNotice where
  observedConfigured : Bool
  sentinelSeen : Bool
  contextUsageReported : Bool
  captureOff : Bool

/-- A row of the Fleet. -/
structure FleetEntry (ρ : Type) where
  name : InstanceName
  kind : String
  state : LifecycleState
  restartCount : ℕ
  restartPolicy : RestartPolicy
  failedCause : Option String
  budget : Option BudgetView
  usage : UsageView
  meteringSource : String
  acpContextUsage : Option ρ
  usageGap : Option UsageGapNotice
  supervision : Option Supervision
  recordedState : Option LifecycleState
  agentHome : String

structure InstanceStatus where
  instance_ : AgentInstance
  restartPolicy : RestartPolicy
  restartCount : ℕ
  failedCause : Option String

/-- What a backing of a kind promises. -/
inductive GuaranteeLevel where
  | managedDirByteDurable
  | homePersistenceOnly

def GuaranteeLevel.forKind : MemoryBackingKind → GuaranteeLevel
  | .filesystem => managedDirByteDurable
  | .native => homePersistenceOnly

structure MemoryBackingStatus where
  kind : MemoryBackingKind
  dir : Path
  declared : Bool
  guarantee : GuaranteeLevel

/-- How the stop of an instance ended. -/
inductive StopResult where
  | graceful
  | forced
  | unverified (detail : String)
  | exitedOnItsOwn (state : LifecycleState)
  | failed (detail : String)

structure DrainOutcome where
  name : InstanceName
  result : StopResult

/-! ### The parts of an engine -/

/-- The statements of the reading connection.  The pages of one read are read together. -/
inductive Select where
  | listInstances
  | getInstance (name : InstanceName)
  | listSpawnRecords
  | getSpawnRecord (name : InstanceName)
  | transitionEvents (name : InstanceName)
  | breachEvents (name : InstanceName)
  | usageEvents (name : InstanceName)
  | usageTotals (name : InstanceName)
  | runUsageTotals (name : InstanceName) (run : RunId)
  | costTotals (name : InstanceName)
  | runCostTotals (name : InstanceName) (run : RunId)
  | memoryBacking (name : InstanceName)
  | outboxBounds
  | outboxPage (after limit : ℕ)
  | runView (run : RunId)

def Select.Answer (ρ : Type) : Select → Type
  | listInstances => InstanceRows
  | getInstance _ => Option AgentInstance
  | listSpawnRecords => List (InstanceName × Adoption.SpawnRecord)
  | getSpawnRecord _ => Option Adoption.SpawnRecord
  | transitionEvents _ => List Resync.Transition
  | breachEvents _ => List BudgetBreachEvent
  | usageEvents _ => List UsageEvent
  | usageTotals _ | runUsageTotals .. => UsageTotals
  | costTotals _ | runCostTotals .. => Micros
  | memoryBacking _ => Option MemoryBackingKind
  | outboxBounds => OutboxBounds
  | outboxPage .. => List OutboxEntry
  | runView _ => Except RunError ρ

/-- A statement: its answer, and the database after it. -/
abbrev Statement (δ ε α : Type) : Type := δ → Except ε α × δ

/-- The statements of the state database. -/
structure Statements (δ ρ : Type) where
  userVersion : δ → Signed64
  /-- A database at the current schema, with no rows. -/
  migrated : δ
  select : (s : Select) → Statement δ Wire.StoreError (s.Answer ρ)
  openChild : ChildRunRequest → RunId → Timestamp → Statement δ RunError RunId
  close : RunId → Timestamp → Statement δ RunError Unit

/-- What is made of texts, and the tables that are part of the code. -/
structure Readers (ρ : Type) where
  pathText : Path → String
  snapshot : String → Except String (AdapterSnapshot ρ)
  /-- A declaration as it holds on this system. -/
  effective : ρ → ρ
  /-- The keys that a manifest maps, and those that a native adapter maps. -/
  manifestKeys : String → Except String (List String)
  nativeKeys : String → List String
  validateKeys : List String → Except (String × String) Unit
  toml : TomlCrate
  secretTable : String → Except String (String → Option String)
  isAcpKind : String → Bool
  resolveAcpMeteringSource : EffectiveConfig Scalar → String
  failedCauseDetail : Resync.Transition → Option String
  logLines : String → Except String (List LogLine)
  mint : Timestamp → RunId

/-- What the mutating verbs do on an engine that writes. -/
structure Verbs (δ π ρ : Type) where
  registerWithAdapter : String → AdapterRef → Prog (World δ π) Wire.RegistryError AgentInstance
  remove : String → ControlApi.RemoveDisposition → Bool → Prog (World δ π) Wire.RegistryError Unit
  start : String → Prog (World δ π) Wire.EngineError AgentInstance
  startDetached : String → Prog (World δ π) Wire.EngineError AgentInstance
  stop : String → Option ℕ → Prog (World δ π) Wire.EngineError AgentInstance
  pause : String → Prog (World δ π) Wire.EngineError AgentInstance
  resume : String → Prog (World δ π) Wire.EngineError AgentInstance
  drain : String → Option ℕ → Prog (World δ π) Wire.EngineError (AgentInstance × ρ)
  sendInput : String → String → Prog (World δ π) Wire.EngineError Unit
  setRestartPolicy : InstanceName → RestartPolicy → Prog (World δ π) Wire.RegistryError Unit
  setConfig : InstanceName → String → String → Prog (World δ π) Wire.ConfigError (List String)
  syncRunLabels : InstanceName → Prog (World δ π) Wire.ConfigError Unit
  attachMemory : String → MemoryBackingKind → Prog (World δ π) Wire.RegistryError Path
  detachMemory : String → Prog (World δ π) Wire.RegistryError Unit
  ackCore : ℕ → Prog (World δ π) Wire.EngineError ℕ

/-- What an engine is built of. -/
structure Parts (δ π ρ : Type) where
  stateBase : Path
  statements : Statements δ ρ
  readers : Readers ρ
  probeAlive : π → ProcessFingerprint → Option Bool
  verbs : Verbs δ π ρ
  texts : Texts

namespace Parts

variable {δ π ρ : Type} (parts : Parts δ π ρ)

def secretsFile : Path := parts.stateBase ++ ["secrets.toml"]

def stateDbPath : Path := parts.stateBase ++ ["state.db"]

def agentHome (name : InstanceName) : Path := parts.stateBase ++ ["agents", name]

def instanceConfig (name : InstanceName) : Path := parts.agentHome name ++ ["config.toml"]

def adapterSnapshotPath (name : InstanceName) : Path := parts.agentHome name ++ ["adapter.json"]

def agentMemoryDir (name : InstanceName) : Path := parts.agentHome name ++ ["memory"]

def agentOutputLogPath (name : InstanceName) : Path := parts.agentHome name ++ ["logs", "agent.log"]

def attributedOutputLogPath (name : InstanceName) : Path :=
  parts.agentHome name ++ ["logs", "output.log"]

def attributedOutputLogGenerationPath (name : InstanceName) (generation : ℕ) : Path :=
  parts.agentHome name ++ ["logs", s!"output.log.{generation}"]

end Parts

/-! ### Names -/

def maxNameLen : ℕ := 128

def isHead (ch : Char) : Bool := ('a' ≤ ch && ch ≤ 'z') || ch.isDigit

def isTail (ch : Char) : Bool := isHead ch || ch = '_' || ch = '-'

def newInstanceName (raw : String) : Except NameError InstanceName :=
  if maxNameLen < raw.toList.length then .error .tooLong
  else
    match raw.toList with
    | [] => .error .empty
    | first :: rest =>
        if !isHead first then .error .badFirstChar
        else if rest.all isTail then .ok raw
        else .error .badChar

/-- The rule that a name breaks. -/
def nameRule : NameError → String
  | .empty => "name must not be empty"
  | .badFirstChar => "name must start with a lowercase letter or digit ([a-z0-9])"
  | .badChar => "name may contain only lowercase letters, digits, '_' or '-' ([a-z0-9_-])"
  | .tooLong => "name must be at most 128 characters"

section

variable {δ π ρ ε α : Type} [DecidableEq δ] (parts : Parts δ π ρ) (e : Engine δ ρ)

/-! ### What a call may look at -/

/-- A statement on a connection with `query_only`: one that would write is refused. -/
def queryOnly (statement : Statement δ Wire.StoreError α) (db : δ) : Except Wire.StoreError α :=
  if (statement db).2 = db then (statement db).1
  else .error (.backend "attempt to write a readonly database")

/-- A statement on the reading connection. -/
def query (s : Select) : Prog (World δ π) Wire.StoreError (s.Answer ρ) := fun w =>
  match e.reader with
  | .memory db => (queryOnly (parts.statements.select s) db, w)
  | .stateDb =>
      match w.stateDb with
      | none => (.error (.backend "unable to open database file"), w)
      | some db => (queryOnly (parts.statements.select s) db, w)

def notFoundError : IoError := ⟨"not_found", "No such file or directory (os error 2)"⟩

/-- The bytes at a path. -/
def readBytes (path : Path) : Prog (World δ π) IoError (List UInt8) := fun w =>
  match w.files path with
  | .missing => (.error notFoundError, w)
  | .unreadable err => (.error err, w)
  | .file _ bytes => (.ok bytes, w)

/-- The text at a path. -/
def readToString (path : Path) : Prog (World δ π) IoError String := do
  let bytes ← readBytes path
  .ofOption ⟨"invalid_data", "stream did not contain valid UTF-8"⟩
    ((Utf8.fromUtf8 bytes).map String.ofList)

/-- What a read answers, and a value in place of a file that is not there. -/
def orMissing (a : α) (asError : IoError → ε) (p : Prog (World δ π) IoError α) :
    Prog (World δ π) ε α := do
  let result ← p.attempt
  match result with
  | .ok a => pure a
  | .error err => if err.kind = notFoundError.kind then pure a else .fail (asError err)

/-! ### The reads of the registry -/

def validName (asError : NameError → ε) (name : String) : Prog (World δ π) ε InstanceName :=
  .ofExcept ((newInstanceName name).mapError asError)

def registryList : Prog (World δ π) Wire.RegistryError (List AgentInstance) := do
  let rows ← (query parts e .listInstances).mapError .store
  pure rows.1

def lookup (name : InstanceName) : Prog (World δ π) Wire.RegistryError AgentInstance := do
  let row ← (query parts e (.getInstance name)).mapError .store
  .ofOption (.notFound name) row

def spawnRecord (name : InstanceName) :
    Prog (World δ π) Wire.RegistryError (Option Adoption.SpawnRecord) :=
  (query parts e (.getSpawnRecord name)).mapError .store

def listSpawnRecords :
    Prog (World δ π) Wire.RegistryError (List (InstanceName × Adoption.SpawnRecord)) :=
  (query parts e .listSpawnRecords).mapError .store

def usageTotals (name : InstanceName) : Prog (World δ π) Wire.RegistryError UsageTotals :=
  (query parts e (.usageTotals name)).mapError .store

def runUsageTotals (name : InstanceName) (run : RunId) :
    Prog (World δ π) Wire.RegistryError UsageTotals :=
  (query parts e (.runUsageTotals name run)).mapError .store

def costTotals (name : InstanceName) : Prog (World δ π) Wire.RegistryError Micros :=
  (query parts e (.costTotals name)).mapError .store

def runCostTotals (name : InstanceName) (run : RunId) :
    Prog (World δ π) Wire.RegistryError Micros :=
  (query parts e (.runCostTotals name run)).mapError .store

/-- The error of a read of the adapter's snapshot. -/
def snapshotError (name : InstanceName) (source : IoError) : Wire.RegistryError :=
  .io name (parts.readers.pathText (parts.adapterSnapshotPath name)) source

def readAdapterSnapshot (name : InstanceName) :
    Prog (World δ π) Wire.RegistryError (AdapterSnapshot ρ) := do
  let text ← (readToString (parts.adapterSnapshotPath name)).mapError (snapshotError parts name)
  .ofExcept ((parts.readers.snapshot text).mapError fun detail =>
    snapshotError parts name ⟨"invalid_data", detail⟩)

def registryMeteringSource (name : InstanceName) : Prog (World δ π) Wire.RegistryError String := do
  let snapshot ← readAdapterSnapshot parts name
  pure snapshot.meteringSource

def registryEffectiveCapabilities (name : String) : Prog (World δ π) Wire.RegistryError ρ := do
  let name ← validName (.invalidName name) name
  let _ ← lookup parts e name
  let snapshot ← readAdapterSnapshot parts name
  pure (parts.readers.effective snapshot.declaration)

/-- The keys that an adapter maps: those of its manifest, or those of the table of natives. -/
def adapterKeys (kind : String) (manifestPath : Option Path) :
    Prog (World δ π) String (List String) :=
  match manifestPath with
  | some path => do
      let unreadable := fun detail : String =>
        "could not read the adapter manifest at " ++ parts.readers.pathText path ++ ": " ++ detail
      let text ← (readToString path).mapError fun err => unreadable err.message
      .ofExcept ((parts.readers.manifestKeys text).mapError unreadable)
  | none => pure (parts.readers.nativeKeys kind)

def resolveConfigMapping (kind : String) (manifestPath : Option Path) :
    Prog (World δ π) String (List String) := do
  let keys ← adapterKeys parts kind manifestPath
  .ofExcept ((parts.readers.validateKeys keys).mapError fun (key, detail) =>
    "adapter '" ++ kind ++ "' has an invalid config mapping for key '" ++ key ++ "': " ++ detail)
  pure keys

def memoryKeyDeclared (name : InstanceName) : Prog (World δ π) Wire.RegistryError Bool := do
  let snapshot ← readAdapterSnapshot parts name
  let path := (snapshot.manifestPath.map parts.readers.pathText).getD
    ("<native adapter '" ++ snapshot.kind ++ "'>")
  let keys ← (resolveConfigMapping parts snapshot.kind snapshot.manifestPath).mapError fun detail =>
    .io name path (.other detail)
  pure (decide (memoryDirKey ∈ keys))

def registryMemoryStatus (name : String) :
    Prog (World δ π) Wire.RegistryError (Option MemoryBackingStatus) := do
  let name ← validName (.invalidName name) name
  let _ ← lookup parts e name
  let backing ← (query parts e (.memoryBacking name)).mapError .store
  match backing with
  | none => pure none
  | some kind => do
      let declared ← if kind = .filesystem then memoryKeyDeclared parts name else pure false
      pure (some ⟨kind, parts.agentMemoryDir name, declared, .forKind kind⟩)

/-- One Run, read in one snapshot. -/
def runView (run : RunId) : Prog (World δ π) RunError ρ := do
  let view ← (query parts e (.runView run)).mapError .store
  .ofExcept view

/-! ### The configuration -/

def requireInstance (name : InstanceName) : Prog (World δ π) Wire.ConfigError AgentInstance := do
  let row ← (query parts e (.getInstance name)).mapError fun err =>
    .store name (parts.texts.store err)
  .ofOption (.notFound name) row

/-- The layer of an instance.  A file that is not there is an empty layer. -/
def instanceConfigLayer (name : InstanceName) :
    Prog (World δ π) Wire.ConfigError (ConfigLayer Scalar) := do
  let path := parts.readers.pathText (parts.instanceConfig name)
  let text ← orMissing none (fun err => .malformedLayer .instance_ path
    ("could not read the instance config: " ++ err.message))
    (some <$> readToString (parts.instanceConfig name))
  match text with
  | none => pure ⟨.nil, trivial⟩
  | some text => .ofExcept ((parts.readers.toml.parse text).mapError fun detail =>
      .malformedLayer .instance_ path detail)

def registryEffectiveConfig (name : InstanceName) (overrides : ConfigLayer Scalar) :
    Prog (World δ π) Wire.ConfigError (EffectiveConfig Scalar) := do
  let _ ← requireInstance parts e name
  let layer ← instanceConfigLayer parts name
  pure ⟨(resolve (ConfigWorld.layersOf layer overrides)).leaves.erase
    ConfigWorld.reservedIdentityKey⟩

/-- The name of the secret that a value refers to. -/
def secretName : Scalar → Option String
  | .string s => (afterStart secretMark s).filter fun name => !name.isEmpty
  | _ => none

def modeIsOwnerOnly (mode : ℕ) : Bool := mode &&& 0o077 = 0

/-- The secrets file: it may be absent, and is refused if others can read it. -/
def fileSecret (name : String) : Prog (World δ π) String (Option String) := do
  let path := parts.readers.pathText parts.secretsFile
  let unreadable := fun detail : String =>
    "the engine secrets file at '" ++ path ++ "' could not be read/parsed: " ++ detail
  let state ← .ask fun w => w.files parts.secretsFile
  match state with
  | .missing => pure none
  | .file mode _ =>
      if !modeIsOwnerOnly mode then
        .fail ("the engine secrets file at '" ++ path ++ "' is not owner-only (mode 0o" ++
          String.ofList (Nat.toDigits 8 (mode % 0o1000)) ++
          " grants group/other access); fix it with: chmod 600 '" ++ path ++ "'")
      else do
        let text ← (readToString parts.secretsFile).mapError fun err => unreadable err.message
        let table ← .ofExcept ((parts.readers.secretTable text).mapError unreadable)
        pure (table name)
  | .unreadable err => .fail (unreadable err.message)

/-- A secret, from the environment or else from the file. -/
def requireSecret (name : String) : Prog (World δ π) String String := do
  let held ← .ask fun w => w.environment name
  match held with
  | some value => pure value
  | none => do
      let value ← fileSecret parts name
      .ofOption ("secret '" ++ name ++ "' could not be resolved (tried: environment, secrets " ++
        "file); set the environment variable " ++ name ++ ", or add " ++ name ++
        " to the engine secrets file (mode 0600)") value

def resolveSecrets (effective : EffectiveConfig Scalar) :
    Prog (World δ π) String (List (String × String)) :=
  (effective.leaves.toList.filterMap fun leaf =>
    (secretName leaf.2.value).map fun name => (leaf.1, name)).mapM fun (key, name) => do
      let value ← requireSecret parts name
      pure (key, value)

def registryRevealSecrets (name : InstanceName) (overrides : ConfigLayer Scalar) :
    Prog (World δ π) Wire.ConfigError (List (String × String)) := do
  let effective ← registryEffectiveConfig parts e name overrides
  (resolveSecrets parts effective).mapError .secretReveal

/-! ### The errors of the lifecycle -/

/-- An error of the registry as one of the engine. -/
def registryToEngine : Wire.RegistryError → Wire.EngineError
  | .notFound name => .notFound name
  | .invalidName name reason => .invalidName name reason
  | .io name path source => .log name path source.message
  | .store err => .store err
  | other => .adapterUnresolved "<unknown>" (parts.texts.registry other)

def engineLookup (name : InstanceName) : Prog (World δ π) Wire.EngineError AgentInstance :=
  (lookup parts e name).mapError (registryToEngine parts)

/-- The transitions of an instance, in the order of their commits. -/
def readEvents (name : String) : Prog (World δ π) Wire.EngineError (List Resync.Transition) := do
  let iname ← validName (.invalidName name) name
  (query parts e (.transitionEvents iname)).mapError fun err => registryToEngine parts (.store err)

def readBreachEvents (name : String) :
    Prog (World δ π) Wire.EngineError (List BudgetBreachEvent) := do
  let iname ← validName (.invalidName name) name
  (query parts e (.breachEvents iname)).mapError fun err => registryToEngine parts (.store err)

end

end Hekma.Facade
