/-
**The error of a request** (`control/error.rs`).

What a handler of the Control API answers when it fails: a kind that never changes its name, a
message, and for an error of the engine its code or its encoding.  The kind decides the status,
unless the error comes with a status of its own.  The answer is a JSON object with the version of
its schema.

Main definitions:

* `ControlApi.ApiErrorKind`, `ControlApi.ApiError` — the error and its status;
* `ControlApi.ApiError.ofFacade` — the tables from the errors of the engine;
* `ControlApi.ApiError.bodyJson` — the answer;
* `ControlApi.IsEnvelope` — what every refusal promises to be.

Main results:

* `ControlApi.isEnvelope_bodyJson` — **every error is answered in the envelope**;
* `ControlApi.refuses_intoStatus` — an error is a refusal.
-/

import Hekma.Host.Wire

set_option relaxedAutoImplicit false
set_option autoImplicit false

namespace Hekma.ControlApi

open Json (Fields)

/-- Why an operation on Runs was refused. -/
inductive RunError where
  | notFound (runId : String)
  | noOpenRun (instance_ : String)
  | parentEnded (runId : String)
  | nestingTooDeep (parent : String) (depth max : ℕ)
  | actionUnavailable (action depth meteringSource reason : String)
  | ownsProcess (runId instance_ : String)
  | invalid (field reason : String)
  | store (err : Wire.StoreError)

/-- An error of one of the families that the facade of the engine returns. -/
inductive FacadeError where
  | engine (err : Wire.EngineError)
  | registry (err : Wire.RegistryError)
  | config (err : Wire.ConfigError)
  | run (err : RunError)

/-- The texts of the engine's errors. -/
structure Texts where
  engine : Wire.EngineError → String
  registry : Wire.RegistryError → String
  config : Wire.ConfigError → String
  store : Wire.StoreError → String

def RunError.display (texts : Texts) : RunError → String
  | notFound runId => "no Run has the id `" ++ runId ++ "`"
  | noOpenRun name =>
      "Agent Instance `" ++ name ++ "` has no open Run — start it before opening a child Run " ++
        "under it"
  | parentEnded runId =>
      "Run `" ++ runId ++ "` has ended, so a child Run cannot be opened under it"
  | nestingTooDeep parent depth max =>
      "a child Run under `" ++ parent ++
        s!"` would nest {depth} levels deep (at most {max})"
  | actionUnavailable action depth meteringSource reason =>
      "Breach Action `" ++ action ++ "` cannot be set on a " ++ depth ++
        " Run (Metering Source `" ++ meteringSource ++ "`): " ++ reason
  | ownsProcess runId name =>
      "Run `" ++ runId ++ "` owns the supervised process of `" ++ name ++
        "` — stop the instance instead of closing the Run"
  | invalid field reason => field ++ ": " ++ reason
  | store err => texts.store err

/-- A stable code for the wire. -/
def RunError.code : RunError → String
  | notFound .. => "run-not-found"
  | noOpenRun .. => "no-open-run"
  | parentEnded .. => "parent-ended"
  | nestingTooDeep .. => "nesting-too-deep"
  | actionUnavailable .. => "action-unavailable"
  | ownsProcess .. => "owns-process"
  | invalid .. => "invalid-request"
  | store .. => "store"

/-! ### The error -/

inductive ApiErrorKind where
  | invalidBody
  | invalidName
  | notFound
  | conflict
  | cursorInvalid
  | internal
  | methodNotAllowed
  | unauthorized
  | forbidden
  deriving DecidableEq

namespace ApiErrorKind

def asStr : ApiErrorKind → String
  | invalidBody => "invalid_body"
  | invalidName => "invalid_name"
  | notFound => "not_found"
  | conflict => "conflict"
  | cursorInvalid => "cursor_invalid"
  | internal => "internal"
  | methodNotAllowed => "method_not_allowed"
  | unauthorized => "unauthorized"
  | forbidden => "forbidden"

def status : ApiErrorKind → ℕ
  | invalidBody | invalidName => 400
  | notFound => 404
  | conflict | cursorInvalid => 409
  | internal => 500
  | methodNotAllowed => 405
  | unauthorized => 401
  | forbidden => 403

end ApiErrorKind

/-- A status that refuses a request. -/
def Refuses (status : ℕ) : Prop := ¬ (200 ≤ status ∧ status < 300)

instance (status : ℕ) : Decidable (Refuses status) :=
  inferInstanceAs (Decidable (¬ (200 ≤ status ∧ status < 300)))

/-- The error.  A status of its own is one that refuses. -/
structure ApiError where
  kind : ApiErrorKind
  message : String
  statusOverride : Option { status : ℕ // Refuses status }
  code : Option String
  engineError : Option Json

namespace ApiError

def new (kind : ApiErrorKind) (message : String) : ApiError := ⟨kind, message, none, none, none⟩

def withEngineError (err : ApiError) (encoded : Json) : ApiError :=
  { err with engineError := some encoded }

def forbidden : ApiError :=
  new .forbidden "this credential's class is not allowed on this surface"

def invalidBody (message : String) : ApiError := new .invalidBody message

def unauthorized : ApiError := new .unauthorized "missing or invalid bearer token"

def resyncTruncationSentence : String := "is past this family's committed count"

def outboxBelowFloorSentence : String := "below the journal's retained floor"

def outboxPastTailSentence : String := "past the journal's committed tail"

def contains (text sentence : String) : Bool :=
  text.toList.tails.any sentence.toList.isPrefixOf

def isCursorPastFamily (detail : String) : Bool := contains detail resyncTruncationSentence

def isOutboxCursorRefusal (detail : String) : Bool :=
  contains detail outboxBelowFloorSentence || contains detail outboxPastTailSentence

def classifyEngine : Wire.EngineError → ApiErrorKind
  | .notFound .. => .notFound
  | .invalidName .. => .invalidName
  | .invalidTransition .. => .conflict
  | .notRunning .. | .capabilityUnsupported .. | .resumeUnsupported .. | .acpTurnInFlight ..
  | .drainRefused .. | .pauseCommandFailed .. => .conflict
  | .drainBoundInvalid .. => .invalidBody
  | .log _ _ detail =>
      if isCursorPastFamily detail then .cursorInvalid
      else if isOutboxCursorRefusal detail then .cursorInvalid
      else .internal
  | _ => .internal

def classifyRegistry : Wire.RegistryError → ApiErrorKind
  | .notFound .. => .notFound
  | .invalidName .. => .invalidName
  | .duplicateName .. | .runningRequiresForce .. | .memoryBackingHotSwap ..
  | .memoryBackingKindConflict .. => .conflict
  | .unknownAdapterKind .. | .manifestNotFound .. | .manifestUnreadable .. | .manifestInvalid ..
  | .contractIncompatible .. | .noMeteringSource .. | .noCapabilities .. => .invalidBody
  | _ => .internal

def classifyConfig : Wire.ConfigError → ApiErrorKind
  | .unknownKey .. | .invalidValue .. | .writeShapeConflict .. => .invalidBody
  | .invalidName .. => .invalidName
  | .notFound .. => .notFound
  | .malformedLayer .. | .store .. | .secretReveal .. => .internal

def classifyRun : RunError → ApiErrorKind
  | .notFound .. => .notFound
  | .noOpenRun .. | .parentEnded .. | .ownsProcess .. => .conflict
  | .nestingTooDeep .. | .actionUnavailable .. | .invalid .. => .invalidBody
  | .store .. => .internal

def ofFacade (texts : Texts) : FacadeError → ApiError
  | .engine err =>
      (new (classifyEngine err) (texts.engine err)).withEngineError (Wire.encode (.engine err))
  | .registry err =>
      (new (classifyRegistry err) (texts.registry err)).withEngineError
        (Wire.encode (.registry err))
  | .config err =>
      (new (classifyConfig err) (texts.config err)).withEngineError (Wire.encode (.config err))
  | .run err => { new (classifyRun err) (err.display texts) with code := some err.code }

/-! ### The answer -/

def schemaVersion : Unsigned64 := ⟨1, Unsigned64.one_lt⟩

/-- The body.  The code and the error of the engine are left out where there is none. -/
def bodyJson (err : ApiError) : Json :=
  .object [("schema_version", .number (.ofU64 schemaVersion)),
    ("error", .object ([("kind", .string err.kind.asStr), ("message", .string err.message)] ++
      err.code.toList.map (fun code => ("code", .string code)) ++
      err.engineError.toList.map (fun encoded => ("engine_error", encoded))))]

def intoStatus (err : ApiError) : ℕ :=
  match err.statusOverride with
  | some status => status.1
  | none => err.kind.status

end ApiError

/-- The versioned envelope: an object with the version of its schema, and an error with its kind and
its message. -/
def IsEnvelope (body : Json) : Prop :=
  ∃ fields detail, body = .object fields ∧
    fields.lookup "schema_version" = some (.number (.ofU64 ApiError.schemaVersion)) ∧
    fields.lookup "error" = some (.object detail) ∧
    (∃ kind : ApiErrorKind, detail.lookup "kind" = some (.string kind.asStr)) ∧
    ∃ message, detail.lookup "message" = some (.string message)

/-- **Every error is answered in the envelope.** -/
theorem isEnvelope_bodyJson (err : ApiError) : IsEnvelope err.bodyJson :=
  ⟨_, _, rfl, rfl, rfl, ⟨err.kind, rfl⟩, err.message, rfl⟩

/-- An error refuses its request. -/
theorem refuses_intoStatus (err : ApiError) : Refuses err.intoStatus := by
  unfold ApiError.intoStatus
  split
  · next status _ => exact status.2
  · have hall : ∀ kind : ApiErrorKind, Refuses kind.status := by
      intro kind
      cases kind <;> decide
    exact hall err.kind

end Hekma.ControlApi
