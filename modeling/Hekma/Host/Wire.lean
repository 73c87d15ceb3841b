/-
**The wire codec of the engine's errors** (`hekma-host/src/wire.rs`).

The host answers a request that failed with the engine's own error, as a JSON object that names its
family, its variant and its fields.  The client decodes it and acts on the error as a caller inside
the process would.  Encoder and decoder are written apart, variant by variant.

Main definitions:

* `Wire.StoreError`, `Wire.BackendError`, `Wire.EngineError`, `Wire.RegistryError`,
  `Wire.ConfigError` — the families of errors, with all their fields;
* `Wire.engineParts`, `Wire.registryParts`, `Wire.configParts`, `Wire.encode` — the encoder;
* `Wire.decodeEngine`, `Wire.decodeRegistry`, `Wire.decodeConfig`, `Wire.decode` — the decoder.

Main results:

* `Wire.decodeEngine_eq_some`, `Wire.decodeRegistry_eq_some`, `Wire.decodeConfig_eq_some` — what the
  decoder of a family answers to;
* `Wire.decode_eq_some` — an envelope decodes to an error exactly when it carries its encoding;
* `Wire.decode_faithful` — every error survives the wire, and nothing else decodes.
-/

import Hekma.Domain.Lifecycle
import Hekma.Lib.Json

set_option relaxedAutoImplicit false
set_option autoImplicit false

namespace Hekma

namespace Wire

open Json

/-! ### The errors -/

/-- Why a name is refused. -/
inductive NameError where
  | empty
  | badFirstChar
  | badChar
  | tooLong
  deriving DecidableEq, Repr

/-- A layer of the configuration. -/
inductive SourceLayer where
  | engineDefault
  | kindDefault
  | instance_
  | invocationOverride
  deriving DecidableEq, Repr

/-- A failure of the operating system: its kind, and the message it is displayed with. -/
structure IoError where
  kind : String
  message : String
  deriving DecidableEq, Repr

/-- The error that has a message and nothing else. -/
def IoError.other (message : String) : IoError := ⟨"other", message⟩

/-- What the state store reports. -/
inductive StoreError where
  | duplicateName (name : String)
  | notFound (name : String)
  | corruptRow (name detail : String)
  | schemaTooNew (found supported : Signed64)
  | needsMigration (found current : Signed64)
  | memoryBackingKindConflict (name attached requested : String)
  | memoryBackingHotSwap (name state : String)
  | memoryBackingChangedUnderStart (name precheck snapshot : String)
  | stateConflict (name expected found : String)
  | busy (waitedMs : Unsigned64)
  | backend (detail : String)

/-- What a process backend reports.  `op` names the control operation. -/
inductive BackendError where
  | spawn (exec detail : String)
  | immediateExit (exec : String) (code : Signed32)
  | control (op detail : String)
  | stdinTimedOut (timeoutSecs : Unsigned64)
  | stopUnconfirmed (timeoutSecs : Unsigned64)

/-- What a lifecycle verb, an interaction or a drain reports. -/
inductive EngineError where
  | notFound (name : String)
  | invalidName (name : String) (reason : NameError)
  | invalidTransition (from_ : LifecycleState) (command : LifecycleCommand)
  | capabilityUnsupported (name capability os level : String)
  | resumeUnsupported (name os level : String)
  | launchFailed (name detail : String)
  | adapterUnresolved (name detail : String)
  | snapshot (name path detail : String)
  | secret (name detail : String)
  | observedMetering (name detail : String)
  | detachRefused (name detail : String)
  | log (name path detail : String)
  | backend (name : String) (source : BackendError)
  | notRunning (name state : String)
  | interactionUnavailable (name detail : String)
  | interactionTimedOut (name : String) (timeoutSecs : Unsigned64)
  | acpTurnInFlight (name : String)
  | stopUnconfirmed (name : String) (timeoutSecs : Unsigned64)
  | memoryBackingChangedUnderStart (name precheck snapshot : String)
  | pauseCommandFailed (name direction command detail : String)
  | drainRefused (name state : String)
  | drainBoundInvalid (boundMs : Unsigned64)
  | store (store : StoreError)

/-- What a registration, a removal or a read of the fleet reports. -/
inductive RegistryError where
  | serveOptionsOpenTimeOnly (detail : String)
  | duplicateName (name : String)
  | invalidName (name : String) (reason : NameError)
  | notFound (name : String)
  | runningRequiresForce (name : String)
  | memoryBackingHotSwap (name state : String)
  | memoryBackingKindConflict (name attached requested : String)
  | memoryBackingRowCommittedDirFailed (name path detail : String)
  | outboxOpenRefused (detail : String)
  | io (name path : String) (source : IoError)
  | removeLeftoverHome (name path detail : String)
  | registerOrphanRow (name homeError rollbackError : String)
  | snapshotWrite (name path detail : String)
  | unknownAdapterKind (kind : String)
  | manifestNotFound (path : String)
  | manifestUnreadable (path detail : String)
  | manifestInvalid (path detail : String)
  | contractIncompatible (path detail : String)
  | noMeteringSource (adapter : String)
  | noCapabilities (adapter : String)
  | store (store : StoreError)

/-- What a read or a write of the configuration reports. -/
inductive ConfigError where
  | unknownKey (key : String) (suggestion : Option String)
  | writeShapeConflict (key conflictingAncestor : String)
  | invalidValue (key value reason : String)
  | malformedLayer (layer : SourceLayer) (path detail : String)
  | invalidName (name reason : String)
  | notFound (name : String)
  | store (name detail : String)
  | secretReveal (detail : String)

/-- An error of one of the three families a request can raise. -/
inductive WireError where
  | engine (err : EngineError)
  | registry (err : RegistryError)
  | config (err : ConfigError)

/-! ### The encoder -/

/-- The version of the codec. -/
def wireSchemaVersion : Unsigned64 := ⟨1, by decide⟩

def nameErrorWire : NameError → String
  | .empty => "empty"
  | .badFirstChar => "bad_first_char"
  | .badChar => "bad_char"
  | .tooLong => "too_long"

/-- The wire form of a state. -/
def lifecycleText : LifecycleState → String
  | .registered => "registered"
  | .starting => "starting"
  | .running => "running"
  | .paused => "paused"
  | .stopping => "stopping"
  | .stopped => "stopped"
  | .failed => "failed"

/-- The label of a verb. -/
def commandText : LifecycleCommand → String
  | .start => "start"
  | .stop => "stop"
  | .pause => "pause"
  | .resume => "resume"

/-- The label of a layer. -/
def SourceLayer.text : SourceLayer → String
  | .engineDefault => "engine-default"
  | .kindDefault => "kind-default"
  | .instance_ => "instance"
  | .invocationOverride => "invocation-override"

/-- No close match is written as `null`. -/
def suggestionWire : Option String → Json
  | none => .null
  | some nearest => .string nearest

/-- An error inside another one. -/
def nested (parts : String × Fields) : Json :=
  .object [("variant", .string parts.1), ("fields", .object parts.2)]

def storeParts : StoreError → String × Fields
  | .duplicateName name => ("DuplicateName", [("name", .string name)])
  | .notFound name => ("NotFound", [("name", .string name)])
  | .corruptRow name detail => ("CorruptRow", [("name", .string name), ("detail", .string detail)])
  | .schemaTooNew found supported =>
      ("SchemaTooNew", [("found", .number (.ofI64 found)),
        ("supported", .number (.ofI64 supported))])
  | .needsMigration found current =>
      ("NeedsMigration", [("found", .number (.ofI64 found)), ("current", .number (.ofI64 current))])
  | .memoryBackingKindConflict name attached requested =>
      ("MemoryBackingKindConflict", [("name", .string name), ("attached", .string attached),
        ("requested", .string requested)])
  | .memoryBackingHotSwap name state =>
      ("MemoryBackingHotSwap", [("name", .string name), ("state", .string state)])
  | .memoryBackingChangedUnderStart name precheck snapshot =>
      ("MemoryBackingChangedUnderStart", [("name", .string name), ("precheck", .string precheck),
        ("snapshot", .string snapshot)])
  | .stateConflict name expected found =>
      ("StateConflict", [("name", .string name), ("expected", .string expected),
        ("found", .string found)])
  | .busy waitedMs => ("Busy", [("waited_ms", .number (.ofU64 waitedMs))])
  | .backend detail => ("Backend", [("detail", .string detail)])

def storeWire (err : StoreError) : Json := nested (storeParts err)

def backendParts : BackendError → String × Fields
  | .spawn exec detail => ("Spawn", [("exec", .string exec), ("detail", .string detail)])
  | .immediateExit exec code =>
      ("ImmediateExit", [("exec", .string exec), ("code", .number (.ofI64 code.widen))])
  | .control op detail => ("Control", [("op", .string op), ("detail", .string detail)])
  | .stdinTimedOut timeoutSecs =>
      ("StdinTimedOut", [("timeout_secs", .number (.ofU64 timeoutSecs))])
  | .stopUnconfirmed timeoutSecs =>
      ("StopUnconfirmed", [("timeout_secs", .number (.ofU64 timeoutSecs))])

def backendWire (err : BackendError) : Json := nested (backendParts err)

def engineParts : EngineError → String × Fields
  | .notFound name => ("NotFound", [("name", .string name)])
  | .invalidName name reason =>
      ("InvalidName", [("name", .string name), ("reason", .string (nameErrorWire reason))])
  | .invalidTransition from_ command =>
      ("InvalidTransition", [("from", .string (lifecycleText from_)),
        ("command", .string (commandText command))])
  | .capabilityUnsupported name capability os level =>
      ("CapabilityUnsupported", [("name", .string name), ("capability", .string capability),
        ("os", .string os), ("level", .string level)])
  | .resumeUnsupported name os level =>
      ("ResumeUnsupported", [("name", .string name), ("os", .string os), ("level", .string level)])
  | .launchFailed name detail =>
      ("LaunchFailed", [("name", .string name), ("detail", .string detail)])
  | .adapterUnresolved name detail =>
      ("AdapterUnresolved", [("name", .string name), ("detail", .string detail)])
  | .snapshot name path detail =>
      ("Snapshot", [("name", .string name), ("path", .string path), ("detail", .string detail)])
  | .secret name detail => ("Secret", [("name", .string name), ("detail", .string detail)])
  | .observedMetering name detail =>
      ("ObservedMetering", [("name", .string name), ("detail", .string detail)])
  | .detachRefused name detail =>
      ("DetachRefused", [("name", .string name), ("detail", .string detail)])
  | .log name path detail =>
      ("Log", [("name", .string name), ("path", .string path), ("detail", .string detail)])
  | .backend name source => ("Backend", [("name", .string name), ("source", backendWire source)])
  | .notRunning name state => ("NotRunning", [("name", .string name), ("state", .string state)])
  | .interactionUnavailable name detail =>
      ("InteractionUnavailable", [("name", .string name), ("detail", .string detail)])
  | .interactionTimedOut name timeoutSecs =>
      ("InteractionTimedOut", [("name", .string name),
        ("timeout_secs", .number (.ofU64 timeoutSecs))])
  | .acpTurnInFlight name => ("AcpTurnInFlight", [("name", .string name)])
  | .stopUnconfirmed name timeoutSecs =>
      ("StopUnconfirmed", [("name", .string name), ("timeout_secs", .number (.ofU64 timeoutSecs))])
  | .memoryBackingChangedUnderStart name precheck snapshot =>
      ("MemoryBackingChangedUnderStart", [("name", .string name), ("precheck", .string precheck),
        ("snapshot", .string snapshot)])
  | .pauseCommandFailed name direction command detail =>
      ("PauseCommandFailed", [("name", .string name), ("direction", .string direction),
        ("command", .string command), ("detail", .string detail)])
  | .drainRefused name state => ("DrainRefused", [("name", .string name), ("state", .string state)])
  | .drainBoundInvalid boundMs => ("DrainBoundInvalid", [("bound_ms", .number (.ofU64 boundMs))])
  | .store store => ("Store", [("store", storeWire store)])

def registryParts : RegistryError → String × Fields
  | .serveOptionsOpenTimeOnly detail => ("ServeOptionsOpenTimeOnly", [("detail", .string detail)])
  | .duplicateName name => ("DuplicateName", [("name", .string name)])
  | .invalidName name reason =>
      ("InvalidName", [("name", .string name), ("reason", .string (nameErrorWire reason))])
  | .notFound name => ("NotFound", [("name", .string name)])
  | .runningRequiresForce name => ("RunningRequiresForce", [("name", .string name)])
  | .memoryBackingHotSwap name state =>
      ("MemoryBackingHotSwap", [("name", .string name), ("state", .string state)])
  | .memoryBackingKindConflict name attached requested =>
      ("MemoryBackingKindConflict", [("name", .string name), ("attached", .string attached),
        ("requested", .string requested)])
  | .memoryBackingRowCommittedDirFailed name path detail =>
      ("MemoryBackingRowCommittedDirFailed", [("name", .string name), ("path", .string path),
        ("detail", .string detail)])
  | .outboxOpenRefused detail => ("OutboxOpenRefused", [("detail", .string detail)])
  | .io name path source =>
      ("Io", [("name", .string name), ("path", .string path), ("source", .string source.message)])
  | .removeLeftoverHome name path detail =>
      ("RemoveLeftoverHome", [("name", .string name), ("path", .string path),
        ("detail", .string detail)])
  | .registerOrphanRow name homeError rollbackError =>
      ("RegisterOrphanRow", [("name", .string name), ("home_error", .string homeError),
        ("rollback_error", .string rollbackError)])
  | .snapshotWrite name path detail =>
      ("SnapshotWrite", [("name", .string name), ("path", .string path),
        ("detail", .string detail)])
  | .unknownAdapterKind kind => ("UnknownAdapterKind", [("kind", .string kind)])
  | .manifestNotFound path => ("ManifestNotFound", [("path", .string path)])
  | .manifestUnreadable path detail =>
      ("ManifestUnreadable", [("path", .string path), ("detail", .string detail)])
  | .manifestInvalid path detail =>
      ("ManifestInvalid", [("path", .string path), ("detail", .string detail)])
  | .contractIncompatible path detail =>
      ("ContractIncompatible", [("path", .string path), ("detail", .string detail)])
  | .noMeteringSource adapter => ("NoMeteringSource", [("adapter", .string adapter)])
  | .noCapabilities adapter => ("NoCapabilities", [("adapter", .string adapter)])
  | .store store => ("Store", [("store", storeWire store)])

def configParts : ConfigError → String × Fields
  | .unknownKey key suggestion =>
      ("UnknownKey", [("key", .string key), ("suggestion", suggestionWire suggestion)])
  | .writeShapeConflict key conflictingAncestor =>
      ("WriteShapeConflict", [("key", .string key),
        ("conflicting_ancestor", .string conflictingAncestor)])
  | .invalidValue key value reason =>
      ("InvalidValue", [("key", .string key), ("value", .string value), ("reason", .string reason)])
  | .malformedLayer layer path detail =>
      ("MalformedLayer", [("layer", .string layer.text), ("path", .string path),
        ("detail", .string detail)])
  | .invalidName name reason =>
      ("InvalidName", [("name", .string name), ("reason", .string reason)])
  | .notFound name => ("NotFound", [("name", .string name)])
  | .store name detail => ("Store", [("name", .string name), ("detail", .string detail)])
  | .secretReveal detail => ("SecretReveal", [("detail", .string detail)])

/-- The envelope of an error. -/
def top (family : String) (parts : String × Fields) : Json :=
  .object [("schema_version", .number (.ofU64 wireSchemaVersion)), ("family", .string family),
    ("variant", .string parts.1), ("fields", .object parts.2)]

/-- Encode an error. -/
def encode : WireError → Json
  | .engine err => top "engine" (engineParts err)
  | .registry err => top "registry" (registryParts err)
  | .config err => top "config" (configParts err)

/-! ### The decoder -/

def text (f : Fields) (key : String) : Option String := (f.lookup key).bind asStr

def unsigned (f : Fields) (key : String) : Option Unsigned64 := (f.lookup key).bind Json.asU64

def signed (f : Fields) (key : String) : Option Signed64 := (f.lookup key).bind Json.asI64

def nameError (f : Fields) (key : String) : Option NameError :=
  match text f key with
  | some "empty" => some .empty
  | some "bad_first_char" => some .badFirstChar
  | some "bad_char" => some .badChar
  | some "too_long" => some .tooLong
  | _ => none

def fromWire : String → Option LifecycleState
  | "registered" => some .registered
  | "starting" => some .starting
  | "running" => some .running
  | "paused" => some .paused
  | "stopping" => some .stopping
  | "stopped" => some .stopped
  | "failed" => some .failed
  | _ => none

def lifecycleCommand (value : String) : Option LifecycleCommand :=
  [.start, .stop, .pause, .resume].find? fun command => commandText command = value

/-- A state under a key. -/
def stateField (f : Fields) (key : String) : Option LifecycleState := (text f key).bind fromWire

/-- A verb under a key. -/
def commandField (f : Fields) (key : String) : Option LifecycleCommand :=
  (text f key).bind lifecycleCommand

/-- The layers, the weakest first. -/
def SourceLayer.order : List SourceLayer :=
  [.engineDefault, .kindDefault, .instance_, .invocationOverride]

def sourceLayer (value : String) : Option SourceLayer :=
  SourceLayer.order.find? fun layer => layer.text = value

/-- A layer under a key. -/
def layerField (f : Fields) (key : String) : Option SourceLayer := (text f key).bind sourceLayer

/-- An exit code under a key. -/
def codeField (f : Fields) (key : String) : Option Signed32 := (signed f key).bind Signed32.tryFrom

/-- The control operations this build knows. -/
def knownOps : List String :=
  ["poll", "resume", "signal", "stdin", "stop", "terminate", "wait", "pause"]

/-- The name of a control operation.  One that is not known is kept as it is. -/
def staticOp (op : String) : String := (knownOps.find? fun known => known = op).getD op

def suggestionOf : Json → Option (Option String)
  | .null => some none
  | .string nearest => some (some nearest)
  | _ => none

/-- A suggestion under a key. -/
def suggestionField (f : Fields) (key : String) : Option (Option String) :=
  (f.lookup key).bind suggestionOf

def nestedParts (value : Json) : Option (String × Fields) := do
  let object ← value.asObject
  return (← text object "variant", ← (← object.lookup "fields").asObject)

/-- The store error of a variant. -/
def storeOf (variant : String) (f : Fields) : Option StoreError :=
  match variant with
  | "DuplicateName" => do return .duplicateName (← text f "name")
  | "NotFound" => do return .notFound (← text f "name")
  | "CorruptRow" => do return .corruptRow (← text f "name") (← text f "detail")
  | "SchemaTooNew" => do return .schemaTooNew (← signed f "found") (← signed f "supported")
  | "NeedsMigration" => do return .needsMigration (← signed f "found") (← signed f "current")
  | "MemoryBackingKindConflict" => do
      return .memoryBackingKindConflict (← text f "name") (← text f "attached")
        (← text f "requested")
  | "MemoryBackingHotSwap" => do return .memoryBackingHotSwap (← text f "name") (← text f "state")
  | "MemoryBackingChangedUnderStart" => do
      return .memoryBackingChangedUnderStart (← text f "name") (← text f "precheck")
        (← text f "snapshot")
  | "StateConflict" => do
      return .stateConflict (← text f "name") (← text f "expected") (← text f "found")
  | "Busy" => do return .busy (← unsigned f "waited_ms")
  | "Backend" => do return .backend (← text f "detail")
  | _ => none

def decodeStore (value : Json) : Option StoreError :=
  (nestedParts value).bind fun parts => storeOf parts.1 parts.2

/-- A store error under a key. -/
def storeField (f : Fields) (key : String) : Option StoreError := (f.lookup key).bind decodeStore

/-- The backend error of a variant. -/
def backendOf (variant : String) (f : Fields) : Option BackendError :=
  match variant with
  | "Spawn" => do return .spawn (← text f "exec") (← text f "detail")
  | "ImmediateExit" => do return .immediateExit (← text f "exec") (← codeField f "code")
  | "Control" => do return .control (staticOp (← text f "op")) (← text f "detail")
  | "StdinTimedOut" => do return .stdinTimedOut (← unsigned f "timeout_secs")
  | "StopUnconfirmed" => do return .stopUnconfirmed (← unsigned f "timeout_secs")
  | _ => none

def decodeBackend (value : Json) : Option BackendError :=
  (nestedParts value).bind fun parts => backendOf parts.1 parts.2

/-- A backend error under a key. -/
def backendField (f : Fields) (key : String) : Option BackendError :=
  (f.lookup key).bind decodeBackend

def decodeEngine (variant : String) (f : Fields) : Option EngineError :=
  match variant with
  | "NotFound" => do return .notFound (← text f "name")
  | "InvalidName" => do return .invalidName (← text f "name") (← nameError f "reason")
  | "InvalidTransition" => do
      return .invalidTransition (← stateField f "from") (← commandField f "command")
  | "CapabilityUnsupported" => do
      return .capabilityUnsupported (← text f "name") (← text f "capability") (← text f "os")
        (← text f "level")
  | "ResumeUnsupported" => do
      return .resumeUnsupported (← text f "name") (← text f "os") (← text f "level")
  | "LaunchFailed" => do return .launchFailed (← text f "name") (← text f "detail")
  | "AdapterUnresolved" => do return .adapterUnresolved (← text f "name") (← text f "detail")
  | "Snapshot" => do return .snapshot (← text f "name") (← text f "path") (← text f "detail")
  | "Secret" => do return .secret (← text f "name") (← text f "detail")
  | "ObservedMetering" => do return .observedMetering (← text f "name") (← text f "detail")
  | "DetachRefused" => do return .detachRefused (← text f "name") (← text f "detail")
  | "Log" => do return .log (← text f "name") (← text f "path") (← text f "detail")
  | "Backend" => do return .backend (← text f "name") (← backendField f "source")
  | "NotRunning" => do return .notRunning (← text f "name") (← text f "state")
  | "InteractionUnavailable" => do
      return .interactionUnavailable (← text f "name") (← text f "detail")
  | "InteractionTimedOut" => do
      return .interactionTimedOut (← text f "name") (← unsigned f "timeout_secs")
  | "AcpTurnInFlight" => do return .acpTurnInFlight (← text f "name")
  | "StopUnconfirmed" => do return .stopUnconfirmed (← text f "name") (← unsigned f "timeout_secs")
  | "MemoryBackingChangedUnderStart" => do
      return .memoryBackingChangedUnderStart (← text f "name") (← text f "precheck")
        (← text f "snapshot")
  | "PauseCommandFailed" => do
      return .pauseCommandFailed (← text f "name") (← text f "direction") (← text f "command")
        (← text f "detail")
  | "DrainRefused" => do return .drainRefused (← text f "name") (← text f "state")
  | "DrainBoundInvalid" => do return .drainBoundInvalid (← unsigned f "bound_ms")
  | "Store" => do return .store (← storeField f "store")
  | _ => none

def decodeRegistry (variant : String) (f : Fields) : Option RegistryError :=
  match variant with
  | "ServeOptionsOpenTimeOnly" => do return .serveOptionsOpenTimeOnly (← text f "detail")
  | "DuplicateName" => do return .duplicateName (← text f "name")
  | "InvalidName" => do return .invalidName (← text f "name") (← nameError f "reason")
  | "NotFound" => do return .notFound (← text f "name")
  | "RunningRequiresForce" => do return .runningRequiresForce (← text f "name")
  | "MemoryBackingHotSwap" => do return .memoryBackingHotSwap (← text f "name") (← text f "state")
  | "MemoryBackingKindConflict" => do
      return .memoryBackingKindConflict (← text f "name") (← text f "attached")
        (← text f "requested")
  | "MemoryBackingRowCommittedDirFailed" => do
      return .memoryBackingRowCommittedDirFailed (← text f "name") (← text f "path")
        (← text f "detail")
  | "OutboxOpenRefused" => do return .outboxOpenRefused (← text f "detail")
  | "Io" => do return .io (← text f "name") (← text f "path") (.other (← text f "source"))
  | "RemoveLeftoverHome" => do
      return .removeLeftoverHome (← text f "name") (← text f "path") (← text f "detail")
  | "RegisterOrphanRow" => do
      return .registerOrphanRow (← text f "name") (← text f "home_error")
        (← text f "rollback_error")
  | "SnapshotWrite" => do
      return .snapshotWrite (← text f "name") (← text f "path") (← text f "detail")
  | "UnknownAdapterKind" => do return .unknownAdapterKind (← text f "kind")
  | "ManifestNotFound" => do return .manifestNotFound (← text f "path")
  | "ManifestUnreadable" => do return .manifestUnreadable (← text f "path") (← text f "detail")
  | "ManifestInvalid" => do return .manifestInvalid (← text f "path") (← text f "detail")
  | "ContractIncompatible" => do return .contractIncompatible (← text f "path") (← text f "detail")
  | "NoMeteringSource" => do return .noMeteringSource (← text f "adapter")
  | "NoCapabilities" => do return .noCapabilities (← text f "adapter")
  | "Store" => do return .store (← storeField f "store")
  | _ => none

def decodeConfig (variant : String) (f : Fields) : Option ConfigError :=
  match variant with
  | "UnknownKey" => do return .unknownKey (← text f "key") (← suggestionField f "suggestion")
  | "WriteShapeConflict" => do
      return .writeShapeConflict (← text f "key") (← text f "conflicting_ancestor")
  | "InvalidValue" => do
      return .invalidValue (← text f "key") (← text f "value") (← text f "reason")
  | "MalformedLayer" => do
      return .malformedLayer (← layerField f "layer") (← text f "path") (← text f "detail")
  | "InvalidName" => do return .invalidName (← text f "name") (← text f "reason")
  | "NotFound" => do return .notFound (← text f "name")
  | "Store" => do return .store (← text f "name") (← text f "detail")
  | "SecretReveal" => do return .secretReveal (← text f "detail")
  | _ => none

/-- Decode an envelope. -/
def decode (value : Json) : Option WireError := do
  let object ← value.asObject
  if (← unsigned object "schema_version") ≠ wireSchemaVersion then none
  else
    let variant ← text object "variant"
    let f ← (← object.lookup "fields").asObject
    match ← text object "family" with
    | "engine" => (decodeEngine variant f).map .engine
    | "registry" => (decodeRegistry variant f).map .registry
    | "config" => (decodeConfig variant f).map .config
    | _ => none

/-! ### What the readers accept -/

variable {f : Fields} {key variant : String} {v : Json}

/-- An object carries a field. -/
abbrev Carried (f : Fields) (p : String × Json) : Prop := Has (fun _ => Eq) f p

theorem carried_of_leaf {w : Json} (hw : w.kind ≠ .object) :
    Carried f (key, w) ↔ f.lookup key = some w := by
  unfold Carried Has
  simp only [fits_of_leaf hw, exists_eq_right]

theorem text_eq_some {s : String} : text f key = some s ↔ Carried f (key, .string s) := by
  rw [carried_of_leaf (by simp [kind]), text, Option.bind_eq_some_iff]
  simp only [asStr_eq_some, exists_eq_right]

theorem unsigned_eq_some {n : Unsigned64} :
    unsigned f key = some n ↔ Carried f (key, .number (.ofU64 n)) := by
  rw [carried_of_leaf (by simp [kind]), unsigned, Option.bind_eq_some_iff]
  simp only [asU64_eq_some, exists_eq_right]

theorem signed_eq_some {n : Signed64} :
    signed f key = some n ↔ Carried f (key, .number (.ofI64 n)) := by
  rw [carried_of_leaf (by simp [kind]), signed, Option.bind_eq_some_iff]
  simp only [asI64_eq_some, exists_eq_right]

theorem nameError_eq_some {reason : NameError} :
    nameError f key = some reason ↔ Carried f (key, .string (nameErrorWire reason)) := by
  rw [← text_eq_some]
  unfold nameError
  constructor
  · intro h
    split at h <;> cases h <;> assumption
  · intro h
    rw [h]
    cases reason <;> rfl

theorem fromWire_eq_some {value : String} {state : LifecycleState} :
    fromWire value = some state ↔ value = lifecycleText state := by
  constructor
  · intro h
    unfold fromWire at h
    split at h <;> cases h <;> rfl
  · rintro rfl
    cases state <;> rfl

/-- A label that is looked for among different labels is found where it stands. -/
theorem find_label {α : Type} {label : α → String} (hlabel : Function.Injective label)
    {all : List α} {value : String} {x : α} (hx : x ∈ all) :
    (all.find? fun y => label y = value) = some x ↔ value = label x := by
  constructor
  · intro h
    have hfound := List.find?_some h
    exact (of_decide_eq_true hfound).symm
  · rintro rfl
    induction all with
    | nil => simp at hx
    | cons y rest ih =>
        by_cases hy : label y = label x
        · simp [List.find?, hlabel hy]
        · have hne : x ≠ y := fun h => hy (by rw [h])
          simp only [List.find?, hy, decide_false]
          exact ih ((List.mem_cons.1 hx).resolve_left hne)

theorem lifecycleCommand_eq_some {value : String} {command : LifecycleCommand} :
    lifecycleCommand value = some command ↔ value = commandText command := by
  refine find_label (fun a b h => ?_) (by cases command <;> simp)
  cases a <;> cases b <;> first | rfl | simp [commandText] at h

theorem sourceLayer_eq_some {value : String} {layer : SourceLayer} :
    sourceLayer value = some layer ↔ value = layer.text := by
  refine find_label (fun a b h => ?_) (by cases layer <;> simp [SourceLayer.order])
  cases a <;> cases b <;> first | rfl | simp [SourceLayer.text] at h

/-- The name of a control operation is kept, known or not. -/
theorem staticOp_eq (op : String) : staticOp op = op := by
  unfold staticOp
  cases h : knownOps.find? fun known => known = op with
  | none => rfl
  | some known =>
      have hfound := List.find?_some h
      exact of_decide_eq_true hfound

theorem suggestionOf_eq_some {suggestion : Option String} :
    suggestionOf v = some suggestion ↔ v = suggestionWire suggestion := by
  cases suggestion <;> cases v <;> simp [suggestionOf, suggestionWire]

theorem suggestionField_eq_some {suggestion : Option String} :
    suggestionField f key = some suggestion ↔ Carried f (key, suggestionWire suggestion) := by
  rw [carried_of_leaf (by cases suggestion <;> simp [suggestionWire, kind]), suggestionField,
    Option.bind_eq_some_iff]
  simp only [suggestionOf_eq_some, exists_eq_right]

theorem stateField_eq_some {state : LifecycleState} :
    stateField f key = some state ↔ Carried f (key, .string (lifecycleText state)) := by
  rw [stateField, Option.bind_eq_some_iff]
  simp only [fromWire_eq_some, exists_eq_right, text_eq_some]

theorem commandField_eq_some {command : LifecycleCommand} :
    commandField f key = some command ↔ Carried f (key, .string (commandText command)) := by
  rw [commandField, Option.bind_eq_some_iff]
  simp only [lifecycleCommand_eq_some, exists_eq_right, text_eq_some]

theorem layerField_eq_some {layer : SourceLayer} :
    layerField f key = some layer ↔ Carried f (key, .string layer.text) := by
  rw [layerField, Option.bind_eq_some_iff]
  simp only [sourceLayer_eq_some, exists_eq_right, text_eq_some]

theorem codeField_eq_some {code : Signed32} :
    codeField f key = some code ↔ Carried f (key, .number (.ofI64 code.widen)) := by
  rw [codeField, Option.bind_eq_some_iff]
  simp only [Signed32.tryFrom_eq_some, exists_eq_right, signed_eq_some]

/-! ### What the decoders accept -/

theorem storeOf_eq_some {err : StoreError} :
    storeOf variant f = some err ↔
      variant = (storeParts err).1 ∧ ∀ p ∈ (storeParts err).2, Carried f p := by
  constructor
  · intro h
    unfold storeOf at h
    split at h
    all_goals
      simp only [Option.bind_eq_bind, Option.pure_def, Option.bind_eq_some_iff, text_eq_some,
        signed_eq_some, unsigned_eq_some, Option.some.injEq, reduceCtorEq] at h
    all_goals grind [storeParts]
  · rintro ⟨rfl, h⟩
    cases err <;>
      simpa [storeParts, storeOf, Option.bind_eq_some_iff, text_eq_some, signed_eq_some,
        unsigned_eq_some] using h

theorem backendOf_eq_some {err : BackendError} :
    backendOf variant f = some err ↔
      variant = (backendParts err).1 ∧ ∀ p ∈ (backendParts err).2, Carried f p := by
  constructor
  · intro h
    unfold backendOf at h
    split at h
    all_goals
      simp only [Option.bind_eq_bind, Option.pure_def, Option.bind_eq_some_iff, text_eq_some,
        unsigned_eq_some, codeField_eq_some, staticOp_eq, Option.some.injEq, reduceCtorEq] at h
    all_goals grind [backendParts]
  · rintro ⟨rfl, h⟩
    cases err <;>
      simpa [backendParts, backendOf, Option.bind_eq_some_iff, text_eq_some, unsigned_eq_some,
        codeField_eq_some, staticOp_eq] using h

theorem carried_object {g : Fields} :
    Carried f (key, .object g) ↔
      ∃ h, f.lookup key = some (.object h) ∧ ∀ p ∈ g, Carried h p := by
  constructor
  · rintro ⟨y, hy, hfit⟩
    obtain ⟨h, rfl, hg⟩ := fits_object.1 hfit
    exact ⟨h, hy, hg⟩
  · rintro ⟨h, hy, hg⟩
    exact ⟨_, hy, fits_object.2 ⟨h, rfl, hg⟩⟩

theorem nestedParts_eq_some :
    nestedParts v = some (variant, f) ↔ ∃ o, v = .object o ∧
      Carried o ("variant", .string variant) ∧ o.lookup "fields" = some (.object f) := by
  unfold nestedParts
  simp only [Option.bind_eq_bind, Option.pure_def, Option.bind_eq_some_iff, asObject_eq_some,
    text_eq_some, Option.some.injEq, Prod.mk.injEq]
  constructor
  · rintro ⟨o, rfl, name, hname, y, hy, g, rfl, rfl, rfl⟩
    exact ⟨o, rfl, hname, hy⟩
  · rintro ⟨o, rfl, hname, hy⟩
    exact ⟨o, rfl, variant, hname, _, hy, f, rfl, rfl, rfl⟩

/-- An error inside another one is decoded just when it is carried. -/
theorem bind_nestedParts {α : Type} {variantOf : String → Fields → Option α}
    {parts : α → String × Fields}
    (hof : ∀ {variant f err}, variantOf variant f = some err ↔
      variant = (parts err).1 ∧ ∀ p ∈ (parts err).2, Carried f p) {err : α} :
    ((nestedParts v).bind fun p => variantOf p.1 p.2) = some err ↔
      Fits (fun _ => Eq) key v (nested (parts err)) := by
  rw [Option.bind_eq_some_iff, nested, fits_object]
  simp only [List.forall_mem_cons, List.not_mem_nil, false_implies, implies_true, and_true]
  change _ ↔ ∃ o, v = .object o ∧ Carried o _ ∧ Carried o _
  simp only [carried_object]
  constructor
  · rintro ⟨⟨variant, f⟩, hparts, h⟩
    obtain ⟨o, rfl, hname, hy⟩ := nestedParts_eq_some.1 hparts
    obtain ⟨rfl, hf⟩ := hof.1 h
    exact ⟨o, rfl, hname, f, hy, hf⟩
  · rintro ⟨o, rfl, hname, f, hy, hf⟩
    exact ⟨_, nestedParts_eq_some.2 ⟨o, rfl, hname, hy⟩, hof.2 ⟨rfl, hf⟩⟩

theorem storeField_eq_some {err : StoreError} :
    storeField f key = some err ↔ Carried f (key, storeWire err) := by
  rw [storeField, Option.bind_eq_some_iff]
  exact exists_congr fun y => and_congr_right fun _ => bind_nestedParts storeOf_eq_some

theorem backendField_eq_some {err : BackendError} :
    backendField f key = some err ↔ Carried f (key, backendWire err) := by
  rw [backendField, Option.bind_eq_some_iff]
  exact exists_congr fun y => and_congr_right fun _ => bind_nestedParts backendOf_eq_some

theorem decodeEngine_eq_some {err : EngineError} :
    decodeEngine variant f = some err ↔
      variant = (engineParts err).1 ∧ ∀ p ∈ (engineParts err).2, Carried f p := by
  constructor
  · intro h
    unfold decodeEngine at h
    split at h
    all_goals
      simp only [Option.bind_eq_bind, Option.pure_def, Option.bind_eq_some_iff, text_eq_some,
        unsigned_eq_some, nameError_eq_some, stateField_eq_some, commandField_eq_some,
        storeField_eq_some, backendField_eq_some, Option.some.injEq, reduceCtorEq] at h
    all_goals grind [engineParts]
  · rintro ⟨rfl, h⟩
    cases err <;>
      simpa [engineParts, decodeEngine, Option.bind_eq_some_iff, text_eq_some, unsigned_eq_some,
        nameError_eq_some, stateField_eq_some, commandField_eq_some, storeField_eq_some,
        backendField_eq_some] using h

theorem decodeConfig_eq_some {err : ConfigError} :
    decodeConfig variant f = some err ↔
      variant = (configParts err).1 ∧ ∀ p ∈ (configParts err).2, Carried f p := by
  constructor
  · intro h
    unfold decodeConfig at h
    split at h
    all_goals
      simp only [Option.bind_eq_bind, Option.pure_def, Option.bind_eq_some_iff, text_eq_some,
        suggestionField_eq_some, layerField_eq_some, Option.some.injEq, reduceCtorEq] at h
    all_goals grind [configParts]
  · rintro ⟨rfl, h⟩
    cases err <;>
      simpa [configParts, decodeConfig, Option.bind_eq_some_iff, text_eq_some,
        suggestionField_eq_some, layerField_eq_some] using h

/-- The error as the wire leaves it: the source of an `Io` is known by its message. -/
def RegistryError.rewired : RegistryError → RegistryError
  | .io name path source => .io name path (.other source.message)
  | err => err

theorem decodeRegistry_eq_some {err : RegistryError} :
    decodeRegistry variant f = some err ↔
      (variant = (registryParts err).1 ∧ ∀ p ∈ (registryParts err).2, Carried f p) ∧
        err.rewired = err := by
  constructor
  · intro h
    unfold decodeRegistry at h
    split at h
    all_goals
      simp only [Option.bind_eq_bind, Option.pure_def, Option.bind_eq_some_iff, text_eq_some,
        nameError_eq_some, storeField_eq_some, Option.some.injEq, reduceCtorEq] at h
    all_goals grind [registryParts, RegistryError.rewired, IoError.other]
  · rintro ⟨⟨rfl, h⟩, hwired⟩
    cases err with
    | io name path source =>
        obtain ⟨kind, message⟩ := source
        simp only [RegistryError.rewired, IoError.other, RegistryError.io.injEq, IoError.mk.injEq,
          true_and, and_true] at hwired
        subst hwired
        simpa [registryParts, decodeRegistry, Option.bind_eq_some_iff, text_eq_some,
          IoError.other] using h
    | _ =>
        simpa [registryParts, decodeRegistry, Option.bind_eq_some_iff, text_eq_some,
          nameError_eq_some, storeField_eq_some] using h

/-! ### The wire -/

/-- The error as the wire leaves it. -/
def WireError.rewired : WireError → WireError
  | .registry err => .registry err.rewired
  | err => err

theorem carries_top {family : String} {parts : String × Fields} :
    v.Carries (top family parts) ↔ ∃ o, v = .object o ∧
      unsigned o "schema_version" = some wireSchemaVersion ∧ text o "family" = some family ∧
        text o "variant" = some parts.1 ∧
        ∃ f, o.lookup "fields" = some (.object f) ∧ ∀ p ∈ parts.2, Carried f p := by
  rw [Carries, top, fits_object]
  simp only [List.forall_mem_cons, List.not_mem_nil, false_implies, implies_true, and_true,
    unsigned_eq_some, text_eq_some]
  change (∃ o, v = .object o ∧ Carried o _ ∧ Carried o _ ∧ Carried o _ ∧ Carried o _) ↔ _
  simp only [carried_object]

/-- What the decoder makes of the parts of an envelope. -/
def familyOf (family variant : String) (f : Fields) : Option WireError :=
  match family with
  | "engine" => (decodeEngine variant f).map .engine
  | "registry" => (decodeRegistry variant f).map .registry
  | "config" => (decodeConfig variant f).map .config
  | _ => none

theorem decode_eq_some_iff {err : WireError} :
    decode v = some err ↔ ∃ o, v = .object o ∧
      unsigned o "schema_version" = some wireSchemaVersion ∧
        ∃ family variant f, text o "family" = some family ∧ text o "variant" = some variant ∧
          o.lookup "fields" = some (.object f) ∧ familyOf family variant f = some err := by
  unfold decode
  simp only [Option.bind_eq_bind, Option.bind_eq_some_iff, asObject_eq_some]
  constructor
  · rintro ⟨o, rfl, version, hversion, h⟩
    split at h
    · simp at h
    · rename_i hsame
      rw [not_not] at hsame
      subst hsame
      simp only [Option.bind_eq_some_iff, asObject_eq_some] at h
      obtain ⟨variant, hvariant, y, hy, f, rfl, family, hfamily, h⟩ := h
      exact ⟨o, rfl, hversion, family, variant, f, hfamily, hvariant, hy, h⟩
  · rintro ⟨o, rfl, hversion, family, variant, f, hfamily, hvariant, hy, h⟩
    refine ⟨o, rfl, _, hversion, ?_⟩
    simp only [ne_eq, not_true_eq_false, if_false, Option.bind_eq_some_iff, asObject_eq_some]
    exact ⟨variant, hvariant, _, hy, f, rfl, family, hfamily, h⟩

/-- The family and the parts of an error. -/
def WireError.family : WireError → String
  | .engine _ => "engine"
  | .registry _ => "registry"
  | .config _ => "config"

def WireError.parts : WireError → String × Fields
  | .engine err => engineParts err
  | .registry err => registryParts err
  | .config err => configParts err

theorem familyOf_eq_some {family : String} {err : WireError} :
    familyOf family variant f = some err ↔
      (family = err.family ∧ variant = err.parts.1 ∧ ∀ p ∈ err.parts.2, Carried f p) ∧
        err.rewired = err := by
  constructor
  · intro h
    unfold familyOf at h
    split at h
    · obtain ⟨e, he, rfl⟩ := Option.map_eq_some_iff.1 h
      exact ⟨⟨rfl, decodeEngine_eq_some.1 he⟩, rfl⟩
    · obtain ⟨e, he, rfl⟩ := Option.map_eq_some_iff.1 h
      obtain ⟨hparts, hwired⟩ := decodeRegistry_eq_some.1 he
      exact ⟨⟨rfl, hparts⟩, congrArg _ hwired⟩
    · obtain ⟨e, he, rfl⟩ := Option.map_eq_some_iff.1 h
      exact ⟨⟨rfl, decodeConfig_eq_some.1 he⟩, rfl⟩
    · simp at h
  · rintro ⟨⟨rfl, hparts⟩, hwired⟩
    cases err with
    | engine e => exact congrArg (Option.map _) (decodeEngine_eq_some.2 hparts)
    | registry e =>
        exact congrArg (Option.map _) (decodeRegistry_eq_some.2
          ⟨hparts, WireError.registry.inj hwired⟩)
    | config e => exact congrArg (Option.map _) (decodeConfig_eq_some.2 hparts)

theorem encode_eq (err : WireError) : encode err = top err.family err.parts := by
  cases err <;> rfl

/-- **An envelope decodes to an error exactly when it carries its encoding.** -/
theorem decode_eq_some {err : WireError} :
    decode v = some err ↔ v.Carries (encode err) ∧ err.rewired = err := by
  rw [decode_eq_some_iff, encode_eq, carries_top]
  constructor
  · rintro ⟨o, rfl, hversion, family, variant, f, hfamily, hvariant, hy, h⟩
    obtain ⟨⟨rfl, rfl, hf⟩, hwired⟩ := familyOf_eq_some.1 h
    exact ⟨⟨o, rfl, hversion, hfamily, hvariant, f, hy, hf⟩, hwired⟩
  · rintro ⟨⟨o, rfl, hversion, hfamily, hvariant, f, hy, hf⟩, hwired⟩
    exact ⟨o, rfl, hversion, _, _, f, hfamily, hvariant, hy,
      familyOf_eq_some.2 ⟨⟨rfl, rfl, hf⟩, hwired⟩⟩

/-! ### Every error survives -/

theorem plain_storeWire (err : StoreError) : Plain (storeWire err) := by
  cases err <;> simp [storeWire, nested, storeParts]

theorem plain_backendWire (err : BackendError) : Plain (backendWire err) := by
  cases err <;> simp [backendWire, nested, backendParts]

theorem plain_suggestionWire (suggestion : Option String) : Plain (suggestionWire suggestion) := by
  cases suggestion <;> simp [suggestionWire]

theorem plain_parts (err : WireError) : Plain (.object err.parts.2) := by
  cases err with
  | engine e =>
      cases e <;>
        simp [WireError.parts, engineParts, plain_storeWire, plain_backendWire]
  | registry e => cases e <;> simp [WireError.parts, registryParts, plain_storeWire]
  | config e => cases e <;> simp [WireError.parts, configParts, plain_suggestionWire]

/-- No object of an encoding has a key twice. -/
theorem plain_encode (err : WireError) : Plain (encode err) := by
  rw [encode_eq, top, plain_object]
  simpa using plain_object.1 (plain_parts err)

/-- What the wire forgets of an error is not encoded. -/
theorem encode_rewired (err : WireError) : encode err.rewired = encode err := by
  cases err with
  | engine e => rfl
  | registry e => cases e <;> rfl
  | config e => rfl

theorem rewired_rewired (err : WireError) : err.rewired.rewired = err.rewired := by
  cases err with
  | engine e => rfl
  | registry e => cases e <;> rfl
  | config e => rfl

/-- The keys that say what an object is. -/
def wireTags : List String := ["schema_version", "family", "variant"]

/-- **Every error survives the wire, and nothing else decodes**: an encoded error decodes to itself,
the source of an `Io` being known by its message; an envelope decodes to an error exactly when it
carries all that the error is encoded as; and an envelope whose version, family, variant or kinds of
fields are those of no error decodes to nothing. -/
theorem decode_faithful :
    (∀ err, decode (encode err) = some err.rewired) ∧
      (∀ v err, decode v = some err ↔ v.Carries (encode err) ∧ err.rewired = err) ∧
      ∀ v, (∀ err, ¬ v.Like wireTags (encode err)) → decode v = none := by
  refine ⟨fun err => ?_, fun v err => decode_eq_some, fun v hnone => ?_⟩
  · rw [decode_eq_some, encode_rewired]
    exact ⟨(plain_encode err).fits_self (fun _ _ => rfl) "", rewired_rewired err⟩
  · cases h : decode v with
    | none => rfl
    | some err => exact absurd (decode_eq_some.1 h).1.like (hnone err)

end Wire

end Hekma
