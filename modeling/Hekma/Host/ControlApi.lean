/-
**The Control API** (`control/mod.rs`, `control/routes.rs`, `control/auth.rs`).

A request is authenticated, its route is found, and the handler of the route reads what the request
carries and calls the engine.  Three kinds of readers stand side by side: the extractors of the web
framework, which answer a rejection with a plain text; a JSON extractor of the API's own, which
answers it in the envelope of every error; and bytes and texts that a handler parses by hand.

Main definitions:

* `ControlApi.Framework` — the web framework and the JSON reader;
* `ControlApi.Op`, `ControlApi.Engine` — the operations of the engine, whatever they do;
* `ControlApi.route` — the table of routes;
* `ControlApi.handle`, `ControlApi.serve` — the handlers, and the answer to a request.
-/

import Hekma.Domain.ConfigValue
import Hekma.Domain.Budget
import Hekma.Host.ApiError
import Hekma.Host.Notes
import Hekma.Lib.Effects
import Hekma.Lib.LexPath
import Hekma.Lib.Text
import Hekma.Lib.Utf8
import Hekma.Supervisor.State
import Hekma.Store.MemoryBacking
import Hekma.Domain.Resync

set_option relaxedAutoImplicit false
set_option autoImplicit false

namespace Hekma.ControlApi

open Effects (Prog)
open Backing (MemoryBackingKind)
open Resync (ResyncCursor)

/-! ### Requests and answers -/

inductive Method where
  | get
  | head
  | post
  | put
  | delete
  | other (name : String)
  deriving DecidableEq

def Method.display : Method → String
  | get => "GET"
  | head => "HEAD"
  | post => "POST"
  | put => "PUT"
  | delete => "DELETE"
  | other name => name

/-- A request.  The values of its authorization headers are texts where they are visible. -/
structure Request where
  method : Method
  path : List Char
  query : Option (List Char)
  authorization : List (Option (List Char))
  headers : List (String × List UInt8)
  body : List UInt8

/-- The answer of an extractor that rejects a request. -/
structure Rejection where
  status : { status : ℕ // Refuses status }
  bodyText : String

/-- The bodies of the Control API. -/
inductive Shape where
  | register
  | configPut
  | send
  | memoryPut
  | restartPolicy
  | start
  | stop
  | drain
  | exportAck
  | runOpen

structure RegisterRequest where
  name : String
  kind : Option String
  manifest : Option String

structure ConfigPutRequest where
  key : String
  value : String

structure RunOpenRequest where
  parentRunId : Option String
  parentInstance : Option String
  labels : List (String × String)
  tokenBudget : Option ℕ
  dollarCap : Option String
  breachAction : Option String
  externalId : Option String

/-- What a body holds; a body with one field is its value. -/
abbrev Shape.Value : Shape → Type
  | register => RegisterRequest
  | configPut => ConfigPutRequest
  | send => String
  | memoryPut => String
  | restartPolicy => String
  | start => Bool
  | stop => Option ℕ
  | drain => Option ℕ
  | exportAck => ℕ
  | runOpen => RunOpenRequest

/-- The extractors of the web framework and the JSON reader. -/
structure Framework where
  /-- The parameter of a path. -/
  path : List Char → Except Rejection String
  /-- The parameters of a query with these names, each there at most once. -/
  query : List String → Request → Except Rejection (String → Option String)
  bytes : Request → Except Rejection (List UInt8)
  json : (shape : Shape) → Request → Except Rejection shape.Value
  fromSlice : (shape : Shape) → List UInt8 → Except String shape.Value
  resyncCursor : String → Except String ResyncCursor
  outboxCursor : String → Except String ℕ
  /-- A text as it is shown for debugging. -/
  debug : String → String
  paths : LexPath.PathRules

inductive AdapterRef where
  | native (kind : String)
  | manifest (path : String)

inductive RemoveDisposition where
  | retain
  | delete

inductive RunParent where
  | run (runId : String)
  | instance_ (name : String)

structure RunLimits where
  tokenPerRun : Option ℕ
  dollarPerRunMicros : Option Micros
  breachAction : Option BreachAction

structure ChildRunRequest where
  parent : RunParent
  labels : List (String × String)
  limits : RunLimits
  externalId : Option String

/-- The operations of the engine that the handlers call. -/
inductive Op where
  | fleet
  | fleetEntry (name : String)
  | instanceStatus (name : String)
  | hasLiveCapture (name : String)
  | effectiveCapabilities (name : String)
  | effectiveConfig (name : String)
  | setConfig (name key value : String)
  | registerWithAdapter (name : String) (reference : AdapterRef)
  | remove (name : String) (disposition : RemoveDisposition) (force : Bool)
  | start (name : String)
  | startDetached (name : String)
  | sendInput (name text : String)
  | attachMemory (name : String) (kind : MemoryBackingKind)
  | memoryStatus (name : String)
  | detachMemory (name : String)
  | setRestartPolicy (name : String) (policy : RestartPolicy)
  | pause (name : String)
  | resume (name : String)
  | stop (name : String) (windowSecs : Option ℕ)
  | drain (name : String) (boundMs : Option ℕ)
  | resyncEvents (name : String) (cursor : ResyncCursor)
  | exportEvents (cursor : Option ℕ) (max : ℕ)
  | ackExport (seq : ℕ)
  | openChildRun (request : ChildRunRequest)
  | run (runId : String)
  | closeRun (runId : String)
  | subscribe

/-! ### The engine -/

/-- The attachment of a memory backing, read back. -/
structure MemoryStatus where
  kind : String
  guarantee : String
  declared : Bool

/-- A text that can stand in a header. -/
def IsHeaderText (text : String) : Prop := ∀ c ∈ text.toList, 0x20 ≤ c.toNat ∧ c.toNat < 0x7F

/-- A Run as the engine answers it.  Run ids are minted by the engine. -/
structure RunView (ρ : Type) where
  runId : { text : String // IsHeaderText text }
  view : ρ

/-- What an operation answers when it succeeds.  The values that are only passed on are those of
the engine. -/
def Op.Answer (ρ : Type) : Op → Type
  | fleet => List ρ
  | hasLiveCapture _ => Bool
  | effectiveConfig _ => List ρ
  | setConfig .. => List String
  | attachMemory .. => String
  | memoryStatus _ => Option MemoryStatus
  | drain .. => Bool × ℕ
  | ackExport _ => ℕ
  | openChildRun _ | run _ | closeRun _ => RunView ρ
  | remove .. | sendInput .. | detachMemory _ | setRestartPolicy .. | subscribe => Unit
  | start _ | startDetached _ | stop .. | pause _ | resume _ => Unit
  | registerWithAdapter .. => Unit
  | fleetEntry _ | instanceStatus _ | effectiveCapabilities _ => ρ
  | resyncEvents .. | exportEvents .. => ρ

/-- The rule of names: a letter or digit first, then these with dashes and underscores. -/
def isInstanceName (name : String) : Bool :=
  let allowed := fun c : Char => ('a' ≤ c && c ≤ 'z') || c.isDigit
  match name.toList with
  | [] => false
  | c :: rest => (c :: rest).length ≤ 128 && allowed c &&
      rest.all fun c => allowed c || c = '_' || c = '-'

/-- The engine, over whatever state it keeps.  What is registered has the name of an instance. -/
structure Engine (σ ρ : Type) where
  perform : (op : Op) → σ → Except FacadeError (op.Answer ρ) × σ
  hasLiveCapture : String → σ → Bool
  named : ∀ name reference s s' u,
    perform (.registerWithAdapter name reference) s = (.ok u, s') → isInstanceName name = true

/-- The state of the engine, and the operations executed so far. -/
structure World (σ : Type) where
  state : σ
  ops : List Op

/-! ### Answers -/

structure EngineVersions where
  event : ℕ
  fleet : ℕ
  usage : ℕ
  budget : ℕ
  log : ℕ
  run : ℕ

def engineVersions : EngineVersions := ⟨1, 2, 1, 1, 1, 1⟩

/-- The documents that answer a request that succeeds. -/
inductive Document (ρ : Type) where
  | version (api version stability : String) (schemaVersion : ℕ) (hostVersion : String)
      (engine : EngineVersions) (logCapture : String)
  | listing (entries : List ρ)
  | show (schemaVersion : ℕ) (entry : ρ)
  | status (schemaVersion : ℕ) (status : ρ) (liveCapture : Option Bool)
  | capabilities (schemaVersion : ℕ) (capabilities : ρ)
  | config (schemaVersion : ℕ) (entries : List ρ)
  | configPut (schemaVersion : ℕ) (entries : List ρ) (warnings : List String)
  | drain (schemaVersion : ℕ) (entry : ρ) (completed : Bool) (waitedMs : ℕ)
  | memory (schemaVersion : ℕ) (name dir : String) (kind guarantee : Option String)
      (declared : Option Bool) (readbackError : Option String)
  | batch (batch : ρ)
  | ack (schemaVersion seq : ℕ)
  | run (schemaVersion : ℕ) (view : ρ)

inductive Body (ρ : Type) where
  | empty
  | plain (text : String)
  | json (value : Json)
  | document (document : Document ρ)
  | events

structure Response (ρ : Type) where
  status : ℕ
  headers : List (String × String)
  body : Body ρ

/-- Why a handler ends without its answer: with an error of the API, or by an extractor. -/
inductive Refusal where
  | api (err : ApiError)
  | bare (rejection : Rejection)

section

variable {σ ρ : Type}

def ApiError.intoResponse (err : ApiError) : Response ρ where
  status := err.intoStatus
  headers := if err.kind = .unauthorized then [("www-authenticate", "Bearer")] else []
  body := .json err.bodyJson

/-- The framework answers a rejection of its own with the text of the rejection. -/
def Rejection.intoResponse (rejection : Rejection) : Response ρ :=
  ⟨rejection.status.1, [], .plain rejection.bodyText⟩

def Refusal.intoResponse : Refusal → Response ρ
  | api err => err.intoResponse
  | bare rejection => rejection.intoResponse

def ok (document : Document ρ) : Response ρ := ⟨200, [], .document document⟩

def noContent : Response ρ := ⟨204, [], .empty⟩

instance (text : String) : Decidable (IsHeaderText text) :=
  List.decidableBAll (fun c : Char => 0x20 ≤ c.toNat ∧ c.toNat < 0x7F) text.toList

/-- A creation with its location.  The framework answers with a plain text if the location cannot
stand in a header. -/
def created (location : String) (body : Body ρ) : Response ρ :=
  if IsHeaderText location then ⟨201, [("location", location)], body⟩
  else ⟨500, [], .plain "failed to parse header value"⟩

end

/-! ### The handlers -/

/-- The API: the framework, the engine, and what its answers show. -/
structure Api (σ ρ : Type) where
  framework : Framework
  engine : Engine σ ρ
  texts : Texts
  hostVersion : String
  logCapture : String

def apiVersion : ℕ := 1

def configGetVersion : ℕ := 1

def minStopWindowSecs : ℕ := 1

def maxStopWindowSecs : ℕ := 86400

def maxDrainMs : ℕ := 600000

def restartPolicyFromWire (value : String) : Option RestartPolicy :=
  if value = "never" then some .never
  else if value = "on-failure" then some .onFailure
  else none

/-- A text as an unsigned 32-bit number. -/
def parseU32 (text : String) : Except String ℕ :=
  let digits := match text.toList with
    | '+' :: rest => rest
    | cs => cs
  if text = "" then .error "cannot parse integer from empty string"
  else if digits = [] ∨ digits.any (fun c => !c.isDigit) then
    .error "invalid digit found in string"
  else
    let n := digits.foldl (fun n c => 10 * n + (c.toNat - 48)) 0
    if n < 2 ^ 32 then .ok n else .error "number too large to fit in target type"

section

variable {σ ρ α : Type} (api : Api σ ρ) (req : Request)

/-- The handlers, and their parts. -/
abbrev Handler (σ : Type) : Type → Type := Prog (World σ) Refusal

/-- An extractor of the framework as it is. -/
def bare (x : Except Rejection α) : Handler σ α := .ofExcept (x.mapError .bare)

/-- The JSON extractor of the API: a rejection keeps its status and is an error of the API. -/
def apiJson (shape : Shape) : Handler σ shape.Value :=
  .ofExcept ((api.framework.json shape req).mapError fun rejection => .api
    { kind := .invalidBody, message := rejection.bodyText, statusOverride := some rejection.status
      code := none, engineError := none })

/-- An error of the API, or the value. -/
def orInvalid (x : Except String α) : Handler σ α :=
  .ofExcept (x.mapError fun message => .api (.invalidBody message))

/-- An operation of the engine. -/
def perform (op : Op) : Prog (World σ) FacadeError (op.Answer ρ) := fun w =>
  ((api.engine.perform op w.state).1, ⟨(api.engine.perform op w.state).2, w.ops ++ [op]⟩)

/-- An operation whose error ends the handler. -/
def call (op : Op) : Handler σ (op.Answer ρ) :=
  (perform api op).mapError fun err => .api (.ofFacade api.texts err)

def hasLiveCapture (name : String) : Handler σ Bool := fun w =>
  (.ok (api.engine.hasLiveCapture name w.state), ⟨w.state, w.ops ++ [.hasLiveCapture name]⟩)

def version : Handler σ (Response ρ) :=
  pure (ok (.version "hekma-control-api" "v0" "unstable" apiVersion api.hostVersion engineVersions
    api.logCapture))

def fleet : Handler σ (Response ρ) := do
  let entries ← call api .fleet
  pure (ok (.listing entries))

def «show» (raw : List Char) : Handler σ (Response ρ) := do
  let name ← bare (api.framework.path raw)
  let entry ← call api (.fleetEntry name)
  pure (ok (.show engineVersions.fleet entry))

def status (raw : List Char) : Handler σ (Response ρ) := do
  let name ← bare (api.framework.path raw)
  let status ← call api (.instanceStatus name)
  let liveCapture ← hasLiveCapture api name
  pure (ok (.status apiVersion status (some liveCapture)))

def capabilities (raw : List Char) : Handler σ (Response ρ) := do
  let name ← bare (api.framework.path raw)
  let capabilities ← call api (.effectiveCapabilities name)
  pure (ok (.capabilities apiVersion capabilities))

def configGet (raw : List Char) : Handler σ (Response ρ) := do
  let name ← bare (api.framework.path raw)
  let entries ← call api (.effectiveConfig name)
  pure (ok (.config configGetVersion entries))

def configPut (raw : List Char) : Handler σ (Response ρ) := do
  let name ← bare (api.framework.path raw)
  let request ← apiJson api req .configPut
  let warnings ← call api (.setConfig name request.key request.value)
  let entries ← call api (.effectiveConfig name)
  pure (ok (.configPut configGetVersion entries warnings))

/-- The adapter of a registration, from exactly one source. -/
def adapterOf (request : RegisterRequest) : Except String AdapterRef :=
  match request.kind, request.manifest with
  | some _, some _ =>
      .error ("exactly one adapter source is required: pass \"kind\" (a native kind) or " ++
        "\"manifest\" (an adapter.toml path), never both")
  | none, none =>
      .error ("exactly one adapter source is required: pass \"kind\" (a native kind) or " ++
        "\"manifest\" (an adapter.toml path)")
  | some kind, none => .ok (.native kind)
  | none, some manifest =>
      if LexPath.isAbsolute api.framework.paths manifest.toList then .ok (.manifest manifest)
      else
        .error ("manifest must be an ABSOLUTE path (a relative path would resolve against the " ++
          "host's working directory, which the API contract does not define): " ++ manifest)

def register : Handler σ (Response ρ) := do
  let request ← apiJson api req .register
  let reference ← orInvalid (adapterOf api request)
  call api (.registerWithAdapter request.name reference)
  let location := "/v0/instances/" ++ request.name
  -- the registration stands, whatever the read-back says
  match ← (perform api (.fleetEntry request.name)).attempt with
  | .ok entry => pure (created location (.document (.show engineVersions.fleet entry)))
  | .error (.registry (.notFound _)) => pure (created location .empty)
  | .error err => .fail (.api (.ofFacade api.texts err))

def dispositionOf (value : Option String) : Except String RemoveDisposition :=
  match value with
  | none => .ok .retain
  | some value =>
      if value = "retain" then .ok .retain
      else if value = "delete" then .ok .delete
      else
        .error ("the disposition query parameter must be \"retain\" or \"delete\": " ++ value)

def forceOf (value : Option String) : Except String Bool :=
  match value with
  | none => .ok false
  | some value =>
      if value = "false" then .ok false
      else if value = "true" then .ok true
      else .error ("the force query parameter must be \"true\" or \"false\": " ++ value)

def remove (raw : List Char) : Handler σ (Response ρ) := do
  let name ← bare (api.framework.path raw)
  let query ← bare (api.framework.query ["disposition", "force"] req)
  let disposition ← orInvalid (dispositionOf (query "disposition"))
  let force ← orInvalid (forceOf (query "force"))
  call api (.remove name disposition force)
  pure noContent

def readBackShow (name : String) : Handler σ (Response ρ) := do
  let entry ← call api (.fleetEntry name)
  pure (ok (.show engineVersions.fleet entry))

/-- A body that may be absent, and must parse if it is there. -/
def optionalBody (shape : Shape) (absent : shape.Value) (what : String) (body : List UInt8) :
    Except String shape.Value :=
  if body = [] then .ok absent
  else (api.framework.fromSlice shape body).mapError fun err => what ++ err

def startBody (body : List UInt8) : Except String Bool :=
  optionalBody api .start false
    ("the start body must be a JSON object like \x7b\"detach\":true\x7d, or no body at all for " ++
      "a supervised start: ") body

def start (raw : List Char) : Handler σ (Response ρ) := do
  let name ← bare (api.framework.path raw)
  let body ← bare (api.framework.bytes req)
  let detach ← orInvalid (startBody api body)
  if detach then
    call api (.startDetached name)
  else
    call api (.start name)
  readBackShow api name

def send (raw : List Char) : Handler σ (Response ρ) := do
  let name ← bare (api.framework.path raw)
  let text ← apiJson api req .send
  call api (.sendInput name text)
  pure noContent

def backingKindOf (kind : String) : Except String MemoryBackingKind :=
  match MemoryBackingKind.fromWire kind with
  | some kind => .ok kind
  | none =>
      .error ("unknown Memory Backing kind " ++ api.framework.debug kind ++
        ": this release accepts \"filesystem\" or \"native\"")

def FacadeError.display (texts : Texts) : FacadeError → String
  | .engine err => texts.engine err
  | .registry err => texts.registry err
  | .config err => texts.config err
  | .run err => err.display texts

def memoryPut (raw : List Char) : Handler σ (Response ρ) := do
  let name ← bare (api.framework.path raw)
  let kind ← apiJson api req .memoryPut
  let kind ← orInvalid (backingKindOf api kind)
  let dir ← call api (.attachMemory name kind)
  let readback ← (perform api (.memoryStatus name)).attempt
  let (status, readbackError) := match readback with
    | .ok (some status) => (some status, none)
    | .ok none => (none, some "the engine reports no attachment after the attach")
    | .error err => (none, some (err.display api.texts))
  pure (ok (.memory apiVersion name dir (status.map MemoryStatus.kind)
    (status.map MemoryStatus.guarantee) (status.map MemoryStatus.declared) readbackError))

def memoryDelete (raw : List Char) : Handler σ (Response ρ) := do
  let name ← bare (api.framework.path raw)
  call api (.detachMemory name)
  pure noContent

def restartPolicyOf (policy : String) : Except String RestartPolicy :=
  match restartPolicyFromWire policy with
  | some policy => .ok policy
  | none =>
      .error ("unknown Restart Policy " ++ api.framework.debug policy ++
        ": this release accepts \"never\" or \"on-failure\"")

def restartPolicyPut (raw : List Char) : Handler σ (Response ρ) := do
  let name ← bare (api.framework.path raw)
  let policy ← apiJson api req .restartPolicy
  let policy ← orInvalid (restartPolicyOf api policy)
  call api (.setRestartPolicy name policy)
  let status ← call api (.instanceStatus name)
  pure (ok (.status apiVersion status none))

def pause (raw : List Char) : Handler σ (Response ρ) := do
  let name ← bare (api.framework.path raw)
  call api (.pause name)
  readBackShow api name

def resume (raw : List Char) : Handler σ (Response ρ) := do
  let name ← bare (api.framework.path raw)
  call api (.resume name)
  readBackShow api name

def windowOf (window : Option ℕ) : Except String (Option ℕ) :=
  match window with
  | none => .ok none
  | some secs =>
      if minStopWindowSecs ≤ secs ∧ secs ≤ maxStopWindowSecs then .ok (some secs)
      else
        .error (s!"window_secs must be a whole number of seconds from {minStopWindowSecs} to " ++
          s!"{maxStopWindowSecs}")

def stopBody (body : List UInt8) : Except String (Option ℕ) :=
  optionalBody api .stop none
    ("the stop body must be a JSON object like \x7b\"window_secs\":30\x7d, or no body at all " ++
      "for the engine's default window: ") body

def stop (raw : List Char) : Handler σ (Response ρ) := do
  let name ← bare (api.framework.path raw)
  let body ← bare (api.framework.bytes req)
  let window ← orInvalid (stopBody api body)
  let window ← orInvalid (windowOf window)
  call api (.stop name window)
  readBackShow api name

def boundOf (bound : Option ℕ) : Except String (Option ℕ) :=
  match bound with
  | none => .ok none
  | some ms =>
      if ms = 0 ∨ maxDrainMs < ms then
        .error "timeout_ms must be a whole number of milliseconds from 1 to 600000"
      else .ok (some ms)

def drainBody (body : List UInt8) : Except String (Option ℕ) :=
  optionalBody api .drain none
    ("the drain body must be a JSON object like \x7b\"timeout_ms\":1500\x7d, or no body at all " ++
      "for the manifest tier: ") body

def drain (raw : List Char) : Handler σ (Response ρ) := do
  let name ← bare (api.framework.path raw)
  let body ← bare (api.framework.bytes req)
  let bound ← orInvalid (drainBody api body)
  let bound ← orInvalid (boundOf bound)
  let (completed, waitedMs) ← call api (.drain name bound)
  let entry ← call api (.fleetEntry name)
  pure (ok (.drain engineVersions.fleet entry completed waitedMs))

def resyncCursorOf (value : Option String) : Except String ResyncCursor :=
  match value with
  | none => .ok .start
  | some text => (api.framework.resyncCursor text).mapError fun err =>
      "the cursor query parameter must be a JSON-encoded resync cursor " ++
        "(\x7b\"transitions\":n,\"breaches\":n,\"usage\":n\x7d): " ++ err

def eventsPull (raw : List Char) : Handler σ (Response ρ) := do
  let name ← bare (api.framework.path raw)
  let query ← bare (api.framework.query ["cursor"] req)
  let cursor ← orInvalid (resyncCursorOf api (query "cursor"))
  let batch ← call api (.resyncEvents name cursor)
  pure (ok (.batch batch))

def outboxCursorOf (value : Option String) : Except String (Option ℕ) :=
  match value with
  | none => .ok none
  | some text => (api.framework.outboxCursor text).map some |>.mapError fun err =>
      "the cursor query parameter must be a JSON-encoded export cursor (\x7b\"seq\":n\x7d): " ++ err

def limitOf (value : Option String) : Except String ℕ :=
  match value with
  | none => .ok 0
  | some text =>
      match parseU32 text with
      | .ok 0 =>
          .error ("the limit query parameter must be >= 1 (omit it for the engine's default " ++
            "batch size)")
      | .ok n => .ok n
      | .error err =>
          .error ("the limit query parameter must be a positive whole number (u32): " ++ err)

def exportPull : Handler σ (Response ρ) := do
  let query ← bare (api.framework.query ["cursor", "limit"] req)
  let cursor ← orInvalid (outboxCursorOf api (query "cursor"))
  let max ← orInvalid (limitOf (query "limit"))
  let batch ← call api (.exportEvents cursor max)
  pure (ok (.batch batch))

/-- The one body that is read by the framework's own extractor. -/
def exportAck : Handler σ (Response ρ) := do
  let seq ← bare (api.framework.json .exportAck req)
  let persisted ← call api (.ackExport seq)
  pure (ok (.ack apiVersion persisted))

def parentOf (request : RunOpenRequest) : Except String RunParent :=
  match request.parentRunId, request.parentInstance with
  | some runId, none => .ok (.run runId)
  | none, some name => .ok (.instance_ name)
  | _, _ =>
      .error ("exactly one parent is required: pass \"parent_run_id\" (a Run) or " ++
        "\"parent_instance\" (an Agent Instance's open Run)")

def breachActionOf (value : Option String) : Except String (Option BreachAction) :=
  match value with
  | none => .ok none
  | some text => (BreachAction.fromStr text).map some |>.mapError fun value =>
      "breach_action: '" ++ value ++
        "' is not a valid breach action (expected one of: pause, stop, warn, block)"

def dollarCapOf (value : Option String) : Except String (Option Micros) :=
  match value with
  | none => .ok none
  | some text => (parseDollarsToMicros text).map some |>.mapError fun reason =>
      "dollar_cap: " ++ reason

/-- What a request opens. -/
def childRunOf (request : RunOpenRequest) : Except String ChildRunRequest := do
  let parent ← parentOf request
  let breachAction ← breachActionOf request.breachAction
  let dollarCap ← dollarCapOf request.dollarCap
  return ⟨parent, request.labels, ⟨request.tokenBudget, dollarCap, breachAction⟩,
    request.externalId⟩

def runOpen : Handler σ (Response ρ) := do
  let request ← apiJson api req .runOpen
  let request ← orInvalid (childRunOf request)
  let view ← call api (.openChildRun request)
  pure (created ("/v0/runs/" ++ view.runId.1) (.document (.run apiVersion view.view)))

def runShow (raw : List Char) : Handler σ (Response ρ) := do
  let runId ← bare (api.framework.path raw)
  let view ← call api (.run runId)
  pure (ok (.run apiVersion view.view))

def runClose (raw : List Char) : Handler σ (Response ρ) := do
  let runId ← bare (api.framework.path raw)
  let view ← call api (.closeRun runId)
  pure (ok (.run apiVersion view.view))

def liveEvents : Handler σ (Response ρ) := fun w =>
  (.ok ⟨200, [], .events⟩, ⟨w.state, w.ops ++ [.subscribe]⟩)

def fallbackNotFound : Handler σ (Response ρ) :=
  .fail (.api (.new .notFound ("no such route: " ++ String.ofList req.path)))

def methodNotAllowed : Handler σ (Response ρ) :=
  .fail (.api (.new .methodNotAllowed
    (req.method.display ++ " is not supported on " ++ String.ofList req.path)))

end

/-! ### The routes -/

/-- The handler of a request, with the parameter of its path as it stands there. -/
inductive Route where
  | version
  | fleet
  | register
  | showInstance (raw : List Char)
  | remove (raw : List Char)
  | status (raw : List Char)
  | capabilities (raw : List Char)
  | configGet (raw : List Char)
  | configPut (raw : List Char)
  | eventsPull (raw : List Char)
  | start (raw : List Char)
  | stop (raw : List Char)
  | drain (raw : List Char)
  | pause (raw : List Char)
  | resume (raw : List Char)
  | send (raw : List Char)
  | memoryPut (raw : List Char)
  | memoryDelete (raw : List Char)
  | restartPolicyPut (raw : List Char)
  | runOpen
  | runShow (raw : List Char)
  | runClose (raw : List Char)
  | liveEvents
  | exportPull
  | exportAck
  | notFound
  | methodNotAllowed

/-- The methods of a path.  A read answers to `HEAD` too. -/
def on (method : Method) (table : List (Method × Route)) : Route :=
  (table.lookup (if method = .head then .get else method)).getD .methodNotAllowed

/-- A path with a parameter, which is not empty. -/
def onParam (raw : String) (method : Method) (table : List Char → List (Method × Route)) : Route :=
  if raw = "" then .notFound else on method (table raw.toList)

def route (method : Method) (path : List Char) : Route :=
  match (path.splitOn '/').map String.ofList with
  | ["", "v0", "version"] => on method [(.get, .version)]
  | ["", "v0", "fleet"] => on method [(.get, .fleet)]
  | ["", "v0", "instances"] => on method [(.post, .register)]
  | ["", "v0", "instances", name] =>
      onParam name method fun raw => [(.get, .showInstance raw), (.delete, .remove raw)]
  | ["", "v0", "instances", name, "status"] =>
      onParam name method fun raw => [(.get, .status raw)]
  | ["", "v0", "instances", name, "capabilities"] =>
      onParam name method fun raw => [(.get, .capabilities raw)]
  | ["", "v0", "instances", name, "config"] =>
      onParam name method fun raw => [(.get, .configGet raw), (.put, .configPut raw)]
  | ["", "v0", "instances", name, "events"] =>
      onParam name method fun raw => [(.get, .eventsPull raw)]
  | ["", "v0", "instances", name, "start"] => onParam name method fun raw => [(.post, .start raw)]
  | ["", "v0", "instances", name, "stop"] => onParam name method fun raw => [(.post, .stop raw)]
  | ["", "v0", "instances", name, "drain"] => onParam name method fun raw => [(.post, .drain raw)]
  | ["", "v0", "instances", name, "pause"] => onParam name method fun raw => [(.post, .pause raw)]
  | ["", "v0", "instances", name, "resume"] =>
      onParam name method fun raw => [(.post, .resume raw)]
  | ["", "v0", "instances", name, "send"] => onParam name method fun raw => [(.post, .send raw)]
  | ["", "v0", "instances", name, "memory"] =>
      onParam name method fun raw => [(.put, .memoryPut raw), (.delete, .memoryDelete raw)]
  | ["", "v0", "instances", name, "restart-policy"] =>
      onParam name method fun raw => [(.put, .restartPolicyPut raw)]
  | ["", "v0", "runs"] => on method [(.post, .runOpen)]
  | ["", "v0", "runs", id] => onParam id method fun raw => [(.get, .runShow raw)]
  | ["", "v0", "runs", id, "close"] => onParam id method fun raw => [(.post, .runClose raw)]
  | ["", "v0", "events"] => on method [(.get, .liveEvents)]
  | ["", "v0", "export"] => on method [(.get, .exportPull)]
  | ["", "v0", "export", "ack"] => on method [(.post, .exportAck)]
  | _ => .notFound

section

variable {σ ρ : Type} (api : Api σ ρ) (req : Request)

def Route.handler : Route → Handler σ (Response ρ)
  | version => ControlApi.version api
  | fleet => ControlApi.fleet api
  | register => ControlApi.register api req
  | showInstance raw => «show» api raw
  | remove raw => ControlApi.remove api req raw
  | status raw => ControlApi.status api raw
  | capabilities raw => ControlApi.capabilities api raw
  | configGet raw => ControlApi.configGet api raw
  | configPut raw => ControlApi.configPut api req raw
  | eventsPull raw => ControlApi.eventsPull api req raw
  | start raw => ControlApi.start api req raw
  | stop raw => ControlApi.stop api req raw
  | drain raw => ControlApi.drain api req raw
  | pause raw => ControlApi.pause api raw
  | resume raw => ControlApi.resume api raw
  | send raw => ControlApi.send api req raw
  | memoryPut raw => ControlApi.memoryPut api req raw
  | memoryDelete raw => ControlApi.memoryDelete api raw
  | restartPolicyPut raw => ControlApi.restartPolicyPut api req raw
  | runOpen => ControlApi.runOpen api req
  | runShow raw => ControlApi.runShow api raw
  | runClose raw => ControlApi.runClose api raw
  | liveEvents => ControlApi.liveEvents
  | exportPull => ControlApi.exportPull api req
  | exportAck => ControlApi.exportAck api req
  | notFound => fallbackNotFound req
  | methodNotAllowed => ControlApi.methodNotAllowed req

/-! ### The credentials -/

inductive CredentialClass where
  | operatorBearer

inductive Surface where
  | controlApi

/-- The authority matrix. -/
def CredentialClass.allows : CredentialClass → Surface → Bool
  | operatorBearer, .controlApi => true

/-- The digests of the credentials, with their classes. -/
structure CredentialResolver where
  sha256 : List UInt8 → List UInt8
  entries : List (List UInt8 × CredentialClass)

def CredentialResolver.resolve (resolver : CredentialResolver) (presented : Option (List Char)) :
    Option CredentialClass :=
  presented.bind fun presented =>
    (resolver.entries.find? fun entry =>
      resolver.sha256 (Utf8.encode presented) = entry.1).map Prod.snd

/-- The token of the one authorization header, if it is a bearer token. -/
def presentedBearer (authorization : List (Option (List Char))) : Option (List Char) :=
  match authorization with
  | [some value] =>
      match Text.splitOnce ' ' value with
      | none => none
      | some (scheme, rest) =>
          let token := rest.dropWhile (· = ' ')
          if scheme.map Char.toLower ≠ "bearer".toList then none
          else if token = [] then none
          else some token
  | _ => none

/-! ### The answer to a request -/

/-- The notes of the engine ride back with the answer to whatever is no `GET`. -/
def captureEngineNotes (method : Method) (notes : List UInt8) (response : Response ρ) :
    Response ρ :=
  if method = .get ∨ notes = [] then response
  else
    let value := String.ofList ((Notes.boundedHeader notes).map fun b => Char.ofNat b.toNat)
    { response with headers := response.headers ++ [("x-hekma-engine-notes", value)] }

/-- The answer of the handler of a request. -/
def answer (w : World σ) : Response ρ × World σ :=
  match (route req.method req.path).handler api req w with
  | (.ok response, w) => (response, w)
  | (.error refusal, w) => (refusal.intoResponse, w)

/-- The answer to a request.  The body of an answer to `HEAD` is left out. -/
def serve (resolver : CredentialResolver) (notes : List UInt8) (w : World σ) :
    Response ρ × World σ :=
  match resolver.resolve (presentedBearer req.authorization) with
  | none => (ApiError.unauthorized.intoResponse, w)
  | some credential =>
      if !credential.allows .controlApi then (ApiError.forbidden.intoResponse, w)
      else
        let (response, w) := answer api req w
        let response := captureEngineNotes req.method notes response
        (if req.method = .head then { response with body := .empty } else response, w)

end

end Hekma.ControlApi
