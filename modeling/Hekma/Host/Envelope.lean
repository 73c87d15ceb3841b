/-
**Refusals in the envelope** (`control/routes.rs`, `control/error.rs`).

Every refusal of the Control API is a JSON envelope, the promise says, and what a request carries is
read before the engine is called.  A handler first reads, by extractors and by hand, and then calls
the engine; an error of the engine or of a reading by hand is in the envelope.  What is not is the
plain text of the framework's own extractors, and these stand in front of handlers: for the
parameter of every path, for three queries, for the bytes of three bodies and for the body of the
acknowledgement.

Main definitions:

* `ControlApi.Route.reading` — what a handler reads, and how it refuses it;
* `ControlApi.WellFormed` — what the body and the parameters of a request must be;
* `ControlApi.BareRejects` — an extractor of the framework rejects the request;
* `ControlApi.Enveloping` — the promise, for one request.

Main results:

* `ControlApi.handler_begins` — every handler reads first, and fails in the envelope afterwards;
* `ControlApi.wellFormed_iff` — a reading succeeds if the request is well formed;
* `ControlApi.enveloping_iff` — **a refusal is in the envelope unless an extractor of the framework
  rejects the request**.
-/

import Hekma.Capture.Sha256
import Hekma.Host.ControlApi
import Hekma.Lib.Checks

set_option relaxedAutoImplicit false
set_option autoImplicit false

namespace Hekma.ControlApi

open Checks (bind_eq_ok)
open Effects (Prog)

/-! ### What a handler reads -/

section

variable {σ ρ α β : Type} (api : Api σ ρ) (req : Request)

def readBare (x : Except Rejection α) : Except Refusal α := x.mapError .bare

def readJson (shape : Shape) : Except Refusal shape.Value :=
  (api.framework.json shape req).mapError fun rejection => .api
    { kind := .invalidBody, message := rejection.bodyText, statusOverride := some rejection.status
      code := none, engineError := none }

def readText (x : Except String α) : Except Refusal α :=
  x.mapError fun message => .api (.invalidBody message)

/-- The parameter of the path, and nothing else. -/
def readPath (raw : List Char) : Except Refusal Unit := do
  let _ ← readBare (api.framework.path raw)

/-- What the handler of a route reads before it calls the engine. -/
def Route.reading : Route → Except Refusal Unit
  | version | fleet | liveEvents => .ok ()
  | notFound => .error (.api (.new .notFound ("no such route: " ++ String.ofList req.path)))
  | methodNotAllowed => .error (.api (.new .methodNotAllowed
      (req.method.display ++ " is not supported on " ++ String.ofList req.path)))
  | showInstance raw | status raw | capabilities raw | configGet raw | pause raw | resume raw
  | memoryDelete raw | runShow raw | runClose raw => readPath api raw
  | register => do
      let request ← readJson api req .register
      let _ ← readText (adapterOf api request)
  | remove raw => do
      let _ ← readBare (api.framework.path raw)
      let query ← readBare (api.framework.query ["disposition", "force"] req)
      let _ ← readText (dispositionOf (query "disposition"))
      let _ ← readText (forceOf (query "force"))
  | configPut raw => do
      let _ ← readBare (api.framework.path raw)
      let _ ← readJson api req .configPut
  | eventsPull raw => do
      let _ ← readBare (api.framework.path raw)
      let query ← readBare (api.framework.query ["cursor"] req)
      let _ ← readText (resyncCursorOf api (query "cursor"))
  | start raw => do
      let _ ← readBare (api.framework.path raw)
      let body ← readBare (api.framework.bytes req)
      let _ ← readText (startBody api body)
  | stop raw => do
      let _ ← readBare (api.framework.path raw)
      let body ← readBare (api.framework.bytes req)
      let window ← readText (stopBody api body)
      let _ ← readText (windowOf window)
  | drain raw => do
      let _ ← readBare (api.framework.path raw)
      let body ← readBare (api.framework.bytes req)
      let bound ← readText (drainBody api body)
      let _ ← readText (boundOf bound)
  | send raw => do
      let _ ← readBare (api.framework.path raw)
      let _ ← readJson api req .send
  | memoryPut raw => do
      let _ ← readBare (api.framework.path raw)
      let kind ← readJson api req .memoryPut
      let _ ← readText (backingKindOf api kind)
  | restartPolicyPut raw => do
      let _ ← readBare (api.framework.path raw)
      let policy ← readJson api req .restartPolicy
      let _ ← readText (restartPolicyOf api policy)
  | runOpen => do
      let request ← readJson api req .runOpen
      let _ ← readText (childRunOf request)
  | exportPull => do
      let query ← readBare (api.framework.query ["cursor", "limit"] req)
      let _ ← readText (outboxCursorOf api (query "cursor"))
      let _ ← readText (limitOf (query "limit"))
  | exportAck => do
      let _ ← readBare (api.framework.json .exportAck req)

/-! ### A handler reads first -/

def Refusal.InEnvelope : Refusal → Prop
  | .api _ => True
  | .bare _ => False

/-- The program begins with a reading: if that fails the program fails so and leaves the world as
it is, and otherwise the errors of the program are in the envelope. -/
def Begins (reading : Except Refusal Unit) (p : Handler σ α) : Prop :=
  match reading with
  | .error refusal => ∀ w, p w = (.error refusal, w)
  | .ok _ => p.FailsOnly Refusal.InEnvelope

theorem Begins.bind {x : Except Refusal β} {rest : β → Except Refusal Unit}
    {f : β → Handler σ α} (h : ∀ b, Begins (rest b) (f b)) :
    Begins (x >>= rest) (Prog.ofExcept x >>= f) := by
  cases x with
  | error refusal => exact fun w => rfl
  | ok b => exact h b

theorem begins_of_failsOnly {p : Handler σ α} (h : p.FailsOnly Refusal.InEnvelope) :
    Begins (.ok ()) p := h

variable {api}

theorem failsOnly_call (op : Op) : (call api op).FailsOnly Refusal.InEnvelope :=
  Prog.failsOnly_mapError (fun _ => trivial) _

theorem failsOnly_hasLiveCapture (name : String) :
    (hasLiveCapture api name).FailsOnly Refusal.InEnvelope := by
  intro w e h
  cases h

theorem failsOnly_readBackShow (name : String) :
    (readBackShow api name).FailsOnly Refusal.InEnvelope :=
  (failsOnly_call _).bind fun _ => Prog.failsOnly_pure _

theorem failsOnly_show (op : Op) (f : op.Answer ρ → Response ρ) :
    (call api op >>= fun answer => pure (f answer)).FailsOnly Refusal.InEnvelope :=
  (failsOnly_call op).bind fun _ => Prog.failsOnly_pure _

variable (api)

/-- **Every handler reads first, and fails in the envelope afterwards.** -/
theorem handler_begins (route : Route) :
    Begins (route.reading api req) (route.handler api req) := by
  cases route with
  | version => exact begins_of_failsOnly (Prog.failsOnly_pure _)
  | fleet => exact begins_of_failsOnly (failsOnly_show _ _)
  | liveEvents =>
      refine begins_of_failsOnly fun w e h => ?_
      cases h
  | notFound => exact fun w => rfl
  | methodNotAllowed => exact fun w => rfl
  | showInstance raw => exact Begins.bind fun name => failsOnly_show _ _
  | status raw =>
      refine Begins.bind fun name => (failsOnly_call _).bind fun _ => ?_
      exact (failsOnly_hasLiveCapture name).bind fun _ => Prog.failsOnly_pure _
  | capabilities raw => exact Begins.bind fun name => failsOnly_show _ _
  | configGet raw => exact Begins.bind fun name => failsOnly_show _ _
  | pause raw =>
      exact Begins.bind fun name => (failsOnly_call _).bind fun _ => failsOnly_readBackShow name
  | resume raw =>
      exact Begins.bind fun name => (failsOnly_call _).bind fun _ => failsOnly_readBackShow name
  | memoryDelete raw => exact Begins.bind fun name => failsOnly_show _ _
  | runShow raw => exact Begins.bind fun runId => failsOnly_show _ _
  | runClose raw => exact Begins.bind fun runId => failsOnly_show _ _
  | register =>
      refine Begins.bind fun request => Begins.bind fun reference => ?_
      refine (failsOnly_call _).bind fun _ => (Prog.failsOnly_attempt _).bind fun entry => ?_
      split
      · exact Prog.failsOnly_pure _
      · exact Prog.failsOnly_pure _
      · exact Prog.failsOnly_fail trivial
  | remove raw =>
      refine Begins.bind fun name => Begins.bind fun query => Begins.bind fun disposition => ?_
      exact Begins.bind fun force => failsOnly_show _ _
  | configPut raw =>
      refine Begins.bind fun name => Begins.bind fun request => ?_
      exact (failsOnly_call _).bind fun _ => failsOnly_show _ _
  | eventsPull raw =>
      refine Begins.bind fun name => Begins.bind fun query => Begins.bind fun cursor => ?_
      exact failsOnly_show _ _
  | start raw =>
      refine Begins.bind fun name => Begins.bind fun body => Begins.bind fun detach => ?_
      cases detach with
      | true => exact (failsOnly_call _).bind fun _ => failsOnly_readBackShow name
      | false => exact (failsOnly_call _).bind fun _ => failsOnly_readBackShow name
  | stop raw =>
      refine Begins.bind fun name => Begins.bind fun body => Begins.bind fun window => ?_
      exact Begins.bind fun window => (failsOnly_call _).bind fun _ => failsOnly_readBackShow name
  | drain raw =>
      refine Begins.bind fun name => Begins.bind fun body => Begins.bind fun bound => ?_
      refine Begins.bind fun bound => (failsOnly_call _).bind fun report => ?_
      exact failsOnly_show _ _
  | send raw =>
      exact Begins.bind fun name => Begins.bind fun text => failsOnly_show _ _
  | memoryPut raw =>
      refine Begins.bind fun name => Begins.bind fun kind => Begins.bind fun kind => ?_
      refine (failsOnly_call _).bind fun dir => (Prog.failsOnly_attempt _).bind fun readback => ?_
      exact Prog.failsOnly_pure _
  | restartPolicyPut raw =>
      refine Begins.bind fun name => Begins.bind fun policy => Begins.bind fun policy => ?_
      exact (failsOnly_call _).bind fun _ => failsOnly_show _ _
  | runOpen =>
      exact Begins.bind fun request => Begins.bind fun request => failsOnly_show _ _
  | exportPull =>
      refine Begins.bind fun query => Begins.bind fun cursor => Begins.bind fun max => ?_
      exact failsOnly_show _ _
  | exportAck => exact Begins.bind fun seq => failsOnly_show _ _

end

/-! ### What a request must be -/

section

variable (f : Framework) (req : Request)

/-- The parameter of the path can be read. -/
def GoodPath (raw : List Char) : Prop := ∃ name, f.path raw = .ok name

/-- Exactly one adapter source, and a manifest by its absolute path. -/
def GoodRegistration (request : RegisterRequest) : Prop :=
  (request.kind = none ↔ request.manifest ≠ none) ∧
    ∀ manifest, request.manifest = some manifest →
      LexPath.isAbsolute f.paths manifest.toList = true

/-- Exactly one parent, a known Breach Action, an amount of dollars. -/
def GoodChildRun (request : RunOpenRequest) : Prop :=
  (request.parentRunId = none ↔ request.parentInstance ≠ none) ∧
    (∀ action, request.breachAction = some action →
      action ∈ ["pause", "stop", "warn", "block"]) ∧
    ∀ cap, request.dollarCap = some cap → ∃ micros, parseDollarsToMicros cap = .ok micros

/-- What the body and the parameters of a request to a route must be. -/
def WellFormed : Route → Prop
  | .version | .fleet | .liveEvents | .notFound | .methodNotAllowed => True
  | .showInstance raw | .status raw | .capabilities raw | .configGet raw | .pause raw
  | .resume raw | .memoryDelete raw | .runShow raw | .runClose raw => GoodPath f raw
  | .register => ∃ request, f.json .register req = .ok request ∧ GoodRegistration f request
  | .remove raw => GoodPath f raw ∧ ∃ query, f.query ["disposition", "force"] req = .ok query ∧
      (∀ value, query "disposition" = some value → value = "retain" ∨ value = "delete") ∧
      ∀ value, query "force" = some value → value = "true" ∨ value = "false"
  | .configPut raw => GoodPath f raw ∧ ∃ request, f.json .configPut req = .ok request
  | .eventsPull raw => GoodPath f raw ∧ ∃ query, f.query ["cursor"] req = .ok query ∧
      ∀ value, query "cursor" = some value → ∃ cursor, f.resyncCursor value = .ok cursor
  | .start raw => GoodPath f raw ∧ ∃ body, f.bytes req = .ok body ∧
      (body ≠ [] → ∃ detach, f.fromSlice .start body = .ok detach)
  | .stop raw => GoodPath f raw ∧ ∃ body, f.bytes req = .ok body ∧
      (body ≠ [] → ∃ window, f.fromSlice .stop body = .ok window ∧
        ∀ secs, window = some secs → 1 ≤ secs ∧ secs ≤ 86400)
  | .drain raw => GoodPath f raw ∧ ∃ body, f.bytes req = .ok body ∧
      (body ≠ [] → ∃ bound, f.fromSlice .drain body = .ok bound ∧
        ∀ ms, bound = some ms → 1 ≤ ms ∧ ms ≤ 600000)
  | .send raw => GoodPath f raw ∧ ∃ text, f.json .send req = .ok text
  | .memoryPut raw => GoodPath f raw ∧ ∃ kind, f.json .memoryPut req = .ok kind ∧
      (kind = "filesystem" ∨ kind = "native")
  | .restartPolicyPut raw => GoodPath f raw ∧ ∃ policy, f.json .restartPolicy req = .ok policy ∧
      (policy = "never" ∨ policy = "on-failure")
  | .runOpen => ∃ request, f.json .runOpen req = .ok request ∧ GoodChildRun request
  | .exportPull => ∃ query, f.query ["cursor", "limit"] req = .ok query ∧
      (∀ value, query "cursor" = some value → ∃ seq, f.outboxCursor value = .ok seq) ∧
      ∀ value, query "limit" = some value → ∃ n, parseU32 value = .ok n ∧ 1 ≤ n
  | .exportAck => ∃ seq, f.json .exportAck req = .ok seq

/-- An extractor of the framework stands in front of the handler of a route and rejects. -/
def BareRejects : Route → Prop
  | .version | .fleet | .liveEvents | .notFound | .methodNotAllowed | .register | .runOpen => False
  | .showInstance raw | .status raw | .capabilities raw | .configGet raw | .configPut raw
  | .pause raw | .resume raw | .send raw | .memoryPut raw | .memoryDelete raw
  | .restartPolicyPut raw | .runShow raw | .runClose raw => ∃ r, f.path raw = .error r
  | .remove raw => (∃ r, f.path raw = .error r) ∨
      ∃ r, f.query ["disposition", "force"] req = .error r
  | .eventsPull raw => (∃ r, f.path raw = .error r) ∨ ∃ r, f.query ["cursor"] req = .error r
  | .start raw | .stop raw | .drain raw =>
      (∃ r, f.path raw = .error r) ∨ ∃ r, f.bytes req = .error r
  | .exportPull => ∃ r, f.query ["cursor", "limit"] req = .error r
  | .exportAck => ∃ r, f.json .exportAck req = .error r

end

/-! ### The readings, one by one -/

section

variable {σ ρ α : Type} {api : Api σ ρ} {req : Request}

theorem readBare_and {x : Except Rejection α} {k : α → Except Refusal Unit} {P : α → Prop}
    (h : ∀ a, k a = .ok () ↔ P a) : (readBare x >>= k) = .ok () ↔ ∃ a, x = .ok a ∧ P a := by
  cases x with
  | error r => simp [readBare, Except.mapError, bind, Except.bind]
  | ok a => simp [readBare, Except.mapError, bind, Except.bind, h]

theorem readPath_and {raw : List Char} {k : String → Except Refusal Unit} {P : Prop}
    (h : ∀ name, k name = .ok () ↔ P) :
    (readBare (api.framework.path raw) >>= k) = .ok () ↔ GoodPath api.framework raw ∧ P := by
  rw [readBare_and h, GoodPath, exists_and_right]

theorem readJson_and {shape : Shape} {k : shape.Value → Except Refusal Unit}
    {P : shape.Value → Prop} (h : ∀ v, k v = .ok () ↔ P v) :
    (readJson api req shape >>= k) = .ok () ↔
      ∃ v, api.framework.json shape req = .ok v ∧ P v := by
  unfold readJson
  cases api.framework.json shape req with
  | error r => simp [Except.mapError, bind, Except.bind]
  | ok v => simp [Except.mapError, bind, Except.bind, h]

theorem readText_and {x : Except String α} {k : α → Except Refusal Unit} {P : α → Prop}
    (h : ∀ a, k a = .ok () ↔ P a) : (readText x >>= k) = .ok () ↔ ∃ a, x = .ok a ∧ P a := by
  cases x with
  | error e => simp [readText, Except.mapError, bind, Except.bind]
  | ok a => simp [readText, Except.mapError, bind, Except.bind, h]

theorem readJson_last {shape : Shape} :
    (readJson api req shape >>= fun _ => .ok ()) = .ok () ↔
      ∃ v, api.framework.json shape req = .ok v :=
  (readJson_and fun _ => Iff.rfl).trans (exists_congr fun _ => and_iff_left rfl)

theorem readText_last {x : Except String α} {P : Prop} (h : (∃ a, x = .ok a) ↔ P) :
    (readText x >>= fun _ => .ok ()) = .ok () ↔ P := by
  rw [readText_and fun _ => iff_of_true rfl trivial]
  simpa only [and_true] using h

theorem adapterOf_ok {request : RegisterRequest} :
    (∃ reference, adapterOf api request = .ok reference) ↔
      GoodRegistration api.framework request := by
  unfold adapterOf GoodRegistration
  cases request.kind with
  | none =>
      cases request.manifest with
      | none => simp
      | some manifest =>
          by_cases habsolute : LexPath.isAbsolute api.framework.paths manifest.toList = true
          · simp [habsolute]
          · simp [habsolute]
  | some kind => cases request.manifest <;> simp

theorem dispositionOf_ok {value : Option String} :
    (∃ disposition, dispositionOf value = .ok disposition) ↔
      ∀ v, value = some v → v = "retain" ∨ v = "delete" := by
  unfold dispositionOf
  cases value with
  | none => simp
  | some v =>
      dsimp only
      split_ifs with hretain hdelete
      · simp [hretain]
      · simp [hdelete]
      · simp [hretain, hdelete]

theorem forceOf_ok {value : Option String} :
    (∃ force, forceOf value = .ok force) ↔
      ∀ v, value = some v → v = "true" ∨ v = "false" := by
  unfold forceOf
  cases value with
  | none => simp
  | some v =>
      dsimp only
      split_ifs with hfalse htrue
      · simp [hfalse]
      · simp [htrue]
      · simp [hfalse, htrue]

/-- A body that may be absent, with what its value must be. -/
theorem exists_optionalBody {shape : Shape} {absent : shape.Value} {what : String}
    {body : List UInt8} (P : shape.Value → Prop) (habsent : P absent) :
    (∃ value, optionalBody api shape absent what body = .ok value ∧ P value) ↔
      (body ≠ [] → ∃ value, api.framework.fromSlice shape body = .ok value ∧ P value) := by
  unfold optionalBody
  by_cases hbody : body = []
  · simp [hbody, habsent]
  · rw [if_neg hbody]
    cases api.framework.fromSlice shape body with
    | error err => simp [hbody, Except.mapError]
    | ok value => simp [hbody, Except.mapError]

theorem optionalBody_ok {shape : Shape} {absent : shape.Value} {what : String}
    {body : List UInt8} : (∃ value, optionalBody api shape absent what body = .ok value) ↔
      (body ≠ [] → ∃ value, api.framework.fromSlice shape body = .ok value) := by
  simpa only [and_true] using exists_optionalBody (fun _ => True) trivial

theorem startBody_ok {body : List UInt8} : (∃ detach, startBody api body = .ok detach) ↔
    (body ≠ [] → ∃ detach, api.framework.fromSlice .start body = .ok detach) :=
  @optionalBody_ok σ ρ api .start false _ body

theorem windowOf_ok {window : Option ℕ} : (∃ w, windowOf window = .ok w) ↔
    ∀ secs, window = some secs → 1 ≤ secs ∧ secs ≤ 86400 := by
  unfold windowOf minStopWindowSecs maxStopWindowSecs
  cases window with
  | none => simp
  | some secs =>
      dsimp only
      split_ifs with h
      · simp [h]
      · simpa using h

theorem boundOf_ok {bound : Option ℕ} : (∃ b, boundOf bound = .ok b) ↔
    ∀ ms, bound = some ms → 1 ≤ ms ∧ ms ≤ 600000 := by
  unfold boundOf maxDrainMs
  cases bound with
  | none => simp
  | some ms =>
      dsimp only
      split_ifs with h
      · simp only [exists_false, Option.some.injEq, forall_eq', false_iff]
        omega
      · simp only [Except.ok.injEq, exists_eq', Option.some.injEq, forall_eq', true_iff]
        omega

theorem stopBody_ok {body : List UInt8} :
    (∃ window, stopBody api body = .ok window ∧
      ∀ secs, window = some secs → 1 ≤ secs ∧ secs ≤ 86400) ↔
    (body ≠ [] → ∃ window, api.framework.fromSlice .stop body = .ok window ∧
      ∀ secs, window = some secs → 1 ≤ secs ∧ secs ≤ 86400) :=
  @exists_optionalBody σ ρ api .stop none _ body
    (fun window : Option ℕ => ∀ secs, window = some secs → 1 ≤ secs ∧ secs ≤ 86400)
    fun _ h => nomatch h

theorem drainBody_ok {body : List UInt8} :
    (∃ bound, drainBody api body = .ok bound ∧
      ∀ ms, bound = some ms → 1 ≤ ms ∧ ms ≤ 600000) ↔
    (body ≠ [] → ∃ bound, api.framework.fromSlice .drain body = .ok bound ∧
      ∀ ms, bound = some ms → 1 ≤ ms ∧ ms ≤ 600000) :=
  @exists_optionalBody σ ρ api .drain none _ body
    (fun bound : Option ℕ => ∀ ms, bound = some ms → 1 ≤ ms ∧ ms ≤ 600000)
    fun _ h => nomatch h

theorem backingKindOf_ok {kind : String} : (∃ k, backingKindOf api kind = .ok k) ↔
    kind = "filesystem" ∨ kind = "native" := by
  unfold backingKindOf Backing.MemoryBackingKind.fromWire
  split_ifs with hfilesystem hnative
  · simp [hfilesystem]
  · simp [hnative]
  · simp [hfilesystem, hnative]

theorem restartPolicyOf_ok {policy : String} : (∃ p, restartPolicyOf api policy = .ok p) ↔
    policy = "never" ∨ policy = "on-failure" := by
  unfold restartPolicyOf restartPolicyFromWire
  split_ifs with hnever honFailure
  · simp [hnever]
  · simp [honFailure]
  · simp [hnever, honFailure]

theorem resyncCursorOf_ok {value : Option String} :
    (∃ cursor, resyncCursorOf api value = .ok cursor) ↔
      ∀ v, value = some v → ∃ cursor, api.framework.resyncCursor v = .ok cursor := by
  unfold resyncCursorOf
  cases value with
  | none => simp
  | some v => cases h : api.framework.resyncCursor v <;> simp [h, Except.mapError]

theorem outboxCursorOf_ok {value : Option String} :
    (∃ cursor, outboxCursorOf api value = .ok cursor) ↔
      ∀ v, value = some v → ∃ seq, api.framework.outboxCursor v = .ok seq := by
  unfold outboxCursorOf
  cases value with
  | none => simp
  | some v => cases h : api.framework.outboxCursor v <;> simp [h, Except.mapError, Except.map]

theorem limitOf_ok {value : Option String} : (∃ max, limitOf value = .ok max) ↔
    ∀ v, value = some v → ∃ n, parseU32 v = .ok n ∧ 1 ≤ n := by
  unfold limitOf
  cases value with
  | none => simp
  | some v =>
      cases h : parseU32 v with
      | error err => simp [h]
      | ok n =>
          cases n with
          | zero => simp [h]
          | succ n => simp [h]

theorem childRunOf_ok {request : RunOpenRequest} :
    (∃ child, childRunOf request = .ok child) ↔ GoodChildRun request := by
  have hparent : (∃ parent, parentOf request = .ok parent) ↔
      (request.parentRunId = none ↔ request.parentInstance ≠ none) := by
    unfold parentOf
    cases request.parentRunId <;> cases request.parentInstance <;> simp
  have haction : (∃ action, breachActionOf request.breachAction = .ok action) ↔
      ∀ action, request.breachAction = some action →
        action ∈ ["pause", "stop", "warn", "block"] := by
    unfold breachActionOf BreachAction.fromStr
    cases request.breachAction with
    | none => simp
    | some action =>
        dsimp only
        split_ifs with hpause hstop hwarn hblock
        · simp [hpause, Except.map, Except.mapError]
        · simp [hstop, Except.map, Except.mapError]
        · simp [hwarn, Except.map, Except.mapError]
        · simp [hblock, Except.map, Except.mapError]
        · simp [hpause, hstop, hwarn, hblock, Except.map, Except.mapError]
  have hcap : (∃ cap, dollarCapOf request.dollarCap = .ok cap) ↔
      ∀ cap, request.dollarCap = some cap → ∃ micros, parseDollarsToMicros cap = .ok micros := by
    unfold dollarCapOf
    cases request.dollarCap with
    | none => simp
    | some cap =>
        cases h : parseDollarsToMicros cap with
        | error reason => simp [h, Except.mapError, Except.map]
        | ok micros =>
            refine iff_of_true ⟨some micros, by simp [h, Except.map, Except.mapError]⟩ ?_
            intro cap' heq
            cases heq
            exact ⟨micros, h⟩
  rw [GoodChildRun, ← hparent, ← haction, ← hcap]
  simp only [childRunOf, bind_eq_ok]
  constructor
  · rintro ⟨child, parent, hparent, action, haction, cap, hcap, -⟩
    exact ⟨⟨parent, hparent⟩, ⟨action, haction⟩, cap, hcap⟩
  · rintro ⟨⟨parent, hparent⟩, ⟨action, haction⟩, cap, hcap⟩
    exact ⟨_, parent, hparent, action, haction, cap, hcap, rfl⟩

theorem readPath_eq_ok {raw : List Char} :
    readPath api raw = .ok () ↔ GoodPath api.framework raw :=
  (readPath_and fun _ => Iff.rfl).trans (and_iff_left rfl)

/-- **A reading succeeds if the request is well formed.** -/
theorem wellFormed_iff {route : Route} (hfound : route ≠ .notFound ∧ route ≠ .methodNotAllowed) :
    route.reading api req = .ok () ↔ WellFormed api.framework req route := by
  cases route with
  | version => exact iff_of_true rfl trivial
  | fleet => exact iff_of_true rfl trivial
  | liveEvents => exact iff_of_true rfl trivial
  | notFound => exact absurd rfl hfound.1
  | methodNotAllowed => exact absurd rfl hfound.2
  | showInstance raw => exact readPath_eq_ok
  | status raw => exact readPath_eq_ok
  | capabilities raw => exact readPath_eq_ok
  | configGet raw => exact readPath_eq_ok
  | pause raw => exact readPath_eq_ok
  | resume raw => exact readPath_eq_ok
  | memoryDelete raw => exact readPath_eq_ok
  | runShow raw => exact readPath_eq_ok
  | runClose raw => exact readPath_eq_ok
  | register => exact readJson_and fun request => readText_last adapterOf_ok
  | remove raw =>
      refine readPath_and fun name => readBare_and fun query => ?_
      rw [← dispositionOf_ok]
      refine (readText_and fun _ => readText_last forceOf_ok).trans ?_
      rw [exists_and_right]
  | configPut raw =>
      exact readPath_and fun name => readJson_last
  | eventsPull raw =>
      exact readPath_and fun name => readBare_and fun query => readText_last resyncCursorOf_ok
  | start raw =>
      exact readPath_and fun name => readBare_and fun body => readText_last startBody_ok
  | stop raw =>
      refine readPath_and fun name => readBare_and fun body => ?_
      exact (readText_and fun window => readText_last windowOf_ok).trans stopBody_ok
  | drain raw =>
      refine readPath_and fun name => readBare_and fun body => ?_
      exact (readText_and fun bound => readText_last boundOf_ok).trans drainBody_ok
  | send raw => exact readPath_and fun name => readJson_last
  | memoryPut raw =>
      exact readPath_and fun name => readJson_and fun kind => readText_last backingKindOf_ok
  | restartPolicyPut raw =>
      exact readPath_and fun name => readJson_and fun policy => readText_last restartPolicyOf_ok
  | runOpen => exact readJson_and fun request => readText_last childRunOf_ok
  | exportPull =>
      refine readBare_and fun query => ?_
      rw [← outboxCursorOf_ok]
      refine (readText_and fun _ => readText_last limitOf_ok).trans ?_
      rw [exists_and_right]
  | exportAck =>
      exact (readBare_and fun _ => Iff.rfl).trans (exists_congr fun _ => and_iff_left rfl)

/-! ### Who rejects -/

/-- The reading ends with the rejection of an extractor of the framework. -/
def IsBare (x : Except Refusal Unit) : Prop := ∃ r, x = .error (.bare r)

theorem not_isBare_ok : ¬ IsBare (.ok ()) := by
  rintro ⟨r, h⟩
  cases h

theorem isBare_readBare {x : Except Rejection α} {k : α → Except Refusal Unit} {Q : Prop}
    (h : ∀ a, IsBare (k a) ↔ Q) : IsBare (readBare x >>= k) ↔ (∃ r, x = .error r) ∨ Q := by
  cases x with
  | error r => exact iff_of_true ⟨r, rfl⟩ (.inl ⟨r, rfl⟩)
  | ok a =>
      refine (h a).trans (or_iff_right ?_).symm
      rintro ⟨r, hr⟩
      cases hr

theorem isBare_readBare_only {x : Except Rejection α} {k : α → Except Refusal Unit}
    (h : ∀ a, ¬ IsBare (k a)) : IsBare (readBare x >>= k) ↔ ∃ r, x = .error r :=
  (isBare_readBare fun a => iff_of_false (h a) not_false).trans (or_iff_left not_false)

theorem not_isBare_readText {x : Except String α} {k : α → Except Refusal Unit}
    (h : ∀ a, ¬ IsBare (k a)) : ¬ IsBare (readText x >>= k) := by
  cases x with
  | error e =>
      rintro ⟨r, hr⟩
      cases hr
  | ok a => exact h a

theorem not_isBare_readJson {shape : Shape} {k : shape.Value → Except Refusal Unit}
    (h : ∀ v, ¬ IsBare (k v)) : ¬ IsBare (readJson api req shape >>= k) := by
  unfold readJson
  cases api.framework.json shape req with
  | error e =>
      rintro ⟨r, hr⟩
      cases hr
  | ok v => exact h v

/-- What an extractor of the framework rejects is what it stands in front of. -/
theorem bareRejects_iff {route : Route} :
    IsBare (route.reading api req) ↔ BareRejects api.framework req route := by
  cases route with
  | version => exact iff_of_false not_isBare_ok not_false
  | fleet => exact iff_of_false not_isBare_ok not_false
  | liveEvents => exact iff_of_false not_isBare_ok not_false
  | notFound => exact iff_of_false (fun ⟨r, h⟩ => nomatch h) not_false
  | methodNotAllowed => exact iff_of_false (fun ⟨r, h⟩ => nomatch h) not_false
  | showInstance raw => exact isBare_readBare_only fun _ => not_isBare_ok
  | status raw => exact isBare_readBare_only fun _ => not_isBare_ok
  | capabilities raw => exact isBare_readBare_only fun _ => not_isBare_ok
  | configGet raw => exact isBare_readBare_only fun _ => not_isBare_ok
  | pause raw => exact isBare_readBare_only fun _ => not_isBare_ok
  | resume raw => exact isBare_readBare_only fun _ => not_isBare_ok
  | memoryDelete raw => exact isBare_readBare_only fun _ => not_isBare_ok
  | runShow raw => exact isBare_readBare_only fun _ => not_isBare_ok
  | runClose raw => exact isBare_readBare_only fun _ => not_isBare_ok
  | register =>
      refine iff_of_false (not_isBare_readJson fun _ => ?_) not_false
      exact not_isBare_readText fun _ => not_isBare_ok
  | remove raw =>
      refine isBare_readBare fun _ => isBare_readBare_only fun query => ?_
      exact not_isBare_readText fun _ => not_isBare_readText fun _ => not_isBare_ok
  | configPut raw =>
      exact isBare_readBare_only fun _ => not_isBare_readJson fun _ => not_isBare_ok
  | eventsPull raw =>
      refine isBare_readBare fun _ => isBare_readBare_only fun query => ?_
      exact not_isBare_readText fun _ => not_isBare_ok
  | start raw =>
      refine isBare_readBare fun _ => isBare_readBare_only fun body => ?_
      exact not_isBare_readText fun _ => not_isBare_ok
  | stop raw =>
      refine isBare_readBare fun _ => isBare_readBare_only fun body => ?_
      exact not_isBare_readText fun _ => not_isBare_readText fun _ => not_isBare_ok
  | drain raw =>
      refine isBare_readBare fun _ => isBare_readBare_only fun body => ?_
      exact not_isBare_readText fun _ => not_isBare_readText fun _ => not_isBare_ok
  | send raw =>
      exact isBare_readBare_only fun _ => not_isBare_readJson fun _ => not_isBare_ok
  | memoryPut raw =>
      refine isBare_readBare_only fun _ => not_isBare_readJson fun kind => ?_
      exact not_isBare_readText fun _ => not_isBare_ok
  | restartPolicyPut raw =>
      refine isBare_readBare_only fun _ => not_isBare_readJson fun policy => ?_
      exact not_isBare_readText fun _ => not_isBare_ok
  | runOpen =>
      refine iff_of_false (not_isBare_readJson fun _ => ?_) not_false
      exact not_isBare_readText fun _ => not_isBare_ok
  | exportPull =>
      refine isBare_readBare_only fun query => ?_
      exact not_isBare_readText fun _ => not_isBare_readText fun _ => not_isBare_ok
  | exportAck => exact isBare_readBare_only fun _ => not_isBare_ok

end

/-! ### Answers that succeed -/

section

variable {σ ρ : Type} {api : Api σ ρ} {req : Request}

/-- The answer of a handler that succeeds. -/
def Succeeds (response : Response ρ) : Prop := ¬ Refuses response.status

theorem succeeds_ok (document : Document ρ) : Succeeds (ok document) := by
  change ¬ Refuses 200
  decide

theorem succeeds_noContent : Succeeds (noContent : Response ρ) := by
  change ¬ Refuses 204
  decide

theorem succeeds_created {location : String} (h : IsHeaderText location) (body : Body ρ) :
    Succeeds (created location body) := by
  rw [created, if_pos h]
  change ¬ Refuses 201
  decide

theorem isHeaderText_append {s t : String} (hs : IsHeaderText s) (ht : IsHeaderText t) :
    IsHeaderText (s ++ t) := by
  intro c hc
  rw [String.toList_append, List.mem_append] at hc
  exact hc.elim (hs c) (ht c)

/-- The characters of names. -/
def IsNameChar (c : Char) : Prop := ('a' ≤ c ∧ c ≤ 'z') ∨ c.isDigit = true ∨ c = '_' ∨ c = '-'

theorem isNameChar_of_name {name : String} (h : isInstanceName name = true) :
    ∀ c ∈ name.toList, IsNameChar c := by
  unfold isInstanceName at h
  dsimp only at h
  split at h
  · cases h
  · next first rest hname =>
      simp only [Bool.and_eq_true, Bool.or_eq_true, decide_eq_true_eq, List.all_eq_true] at h
      obtain ⟨⟨-, hfirst⟩, hrest⟩ := h
      intro c hc
      rw [hname] at hc
      unfold IsNameChar
      rcases List.mem_cons.1 hc with rfl | hc
      · exact hfirst.imp_right .inl
      · rcases hrest c hc with (hc | hc) | hc
        · exact hc.imp_right .inl
        · exact .inr (.inr (.inl hc))
        · exact .inr (.inr (.inr hc))

theorem IsNameChar.visible {c : Char} (h : IsNameChar c) : 0x20 ≤ c.toNat ∧ c.toNat < 0x7F := by
  rcases h with ⟨ha, hz⟩ | hdigit | rfl | rfl
  · have ha' : 97 ≤ c.toNat := ha
    have hz' : c.toNat ≤ 122 := hz
    omega
  · simp only [Char.isDigit, Bool.and_eq_true, decide_eq_true_eq] at hdigit
    have h0 : 48 ≤ c.toNat := hdigit.1
    have h9 : c.toNat ≤ 57 := hdigit.2
    omega
  · decide
  · decide

/-- A name can stand in a header. -/
theorem isHeaderText_of_name {name : String} (h : isInstanceName name = true) :
    IsHeaderText name := fun c hc => (isNameChar_of_name h c hc).visible

theorem answersOnly_register (name : String) (reference : AdapterRef) :
    (call api (.registerWithAdapter name reference)).AnswersOnly fun _ =>
      isInstanceName name = true := by
  intro w u h
  cases hstep : api.engine.perform (.registerWithAdapter name reference) w.state with
  | mk result state =>
      cases result with
      | ok u => exact api.engine.named name reference w.state state u hstep
      | error err =>
          simp [call, perform, Prog.mapError, hstep, Except.mapError] at h

/-- A handler that answers, succeeds. -/
theorem handler_succeeds (route : Route) : (route.handler api req).AnswersOnly Succeeds := by
  have hok : ∀ document : Document ρ, Prog.AnswersOnly Succeeds
      (pure (ok document) : Handler σ (Response ρ)) := fun document =>
    Prog.answersOnly_pure (succeeds_ok document)
  have hnone : Prog.AnswersOnly Succeeds (pure noContent : Handler σ (Response ρ)) :=
    Prog.answersOnly_pure succeeds_noContent
  have hshow : ∀ name, (readBackShow api name).AnswersOnly Succeeds := fun name =>
    Prog.answersOnly_after fun _ => hok _
  cases route with
  | version => exact hok _
  | fleet => exact Prog.answersOnly_after fun _ => hok _
  | liveEvents =>
      intro w response h
      cases h
      change ¬ Refuses 200
      decide
  | notFound => exact Prog.answersOnly_fail _
  | methodNotAllowed => exact Prog.answersOnly_fail _
  | showInstance raw =>
      exact Prog.answersOnly_after fun _ => Prog.answersOnly_after fun _ => hok _
  | status raw =>
      refine Prog.answersOnly_after fun _ => Prog.answersOnly_after fun _ => ?_
      exact Prog.answersOnly_after fun _ => hok _
  | capabilities raw =>
      exact Prog.answersOnly_after fun _ => Prog.answersOnly_after fun _ => hok _
  | configGet raw =>
      exact Prog.answersOnly_after fun _ => Prog.answersOnly_after fun _ => hok _
  | pause raw =>
      exact Prog.answersOnly_after fun _ => Prog.answersOnly_after fun _ => hshow _
  | resume raw =>
      exact Prog.answersOnly_after fun _ => Prog.answersOnly_after fun _ => hshow _
  | memoryDelete raw =>
      exact Prog.answersOnly_after fun _ => Prog.answersOnly_after fun _ => hnone
  | runShow raw =>
      exact Prog.answersOnly_after fun _ => Prog.answersOnly_after fun _ => hok _
  | runClose raw =>
      exact Prog.answersOnly_after fun _ => Prog.answersOnly_after fun _ => hok _
  | register =>
      refine Prog.answersOnly_after fun request => Prog.answersOnly_after fun reference => ?_
      refine (answersOnly_register _ _).bind fun _ hname => Prog.answersOnly_after fun entry => ?_
      have hlocation : IsHeaderText ("/v0/instances/" ++ request.name) :=
        isHeaderText_append (by decide) (isHeaderText_of_name hname)
      split
      · exact Prog.answersOnly_pure (succeeds_created hlocation _)
      · exact Prog.answersOnly_pure (succeeds_created hlocation _)
      · exact Prog.answersOnly_fail _
  | remove raw =>
      refine Prog.answersOnly_after fun _ => Prog.answersOnly_after fun _ => ?_
      refine Prog.answersOnly_after fun _ => Prog.answersOnly_after fun _ => ?_
      exact Prog.answersOnly_after fun _ => hnone
  | configPut raw =>
      refine Prog.answersOnly_after fun _ => Prog.answersOnly_after fun _ => ?_
      exact Prog.answersOnly_after fun _ => Prog.answersOnly_after fun _ => hok _
  | eventsPull raw =>
      refine Prog.answersOnly_after fun _ => Prog.answersOnly_after fun _ => ?_
      exact Prog.answersOnly_after fun _ => Prog.answersOnly_after fun _ => hok _
  | start raw =>
      refine Prog.answersOnly_after fun _ => Prog.answersOnly_after fun _ => ?_
      refine Prog.answersOnly_after fun detach => ?_
      cases detach with
      | true => exact Prog.answersOnly_after fun _ => hshow _
      | false => exact Prog.answersOnly_after fun _ => hshow _
  | stop raw =>
      refine Prog.answersOnly_after fun _ => Prog.answersOnly_after fun _ => ?_
      refine Prog.answersOnly_after fun _ => Prog.answersOnly_after fun _ => ?_
      exact Prog.answersOnly_after fun _ => hshow _
  | drain raw =>
      refine Prog.answersOnly_after fun _ => Prog.answersOnly_after fun _ => ?_
      refine Prog.answersOnly_after fun _ => Prog.answersOnly_after fun _ => ?_
      exact Prog.answersOnly_after fun _ => Prog.answersOnly_after fun _ => hok _
  | send raw =>
      refine Prog.answersOnly_after fun _ => Prog.answersOnly_after fun _ => ?_
      exact Prog.answersOnly_after fun _ => hnone
  | memoryPut raw =>
      refine Prog.answersOnly_after fun _ => Prog.answersOnly_after fun _ => ?_
      refine Prog.answersOnly_after fun _ => Prog.answersOnly_after fun _ => ?_
      exact Prog.answersOnly_after fun _ => hok _
  | restartPolicyPut raw =>
      refine Prog.answersOnly_after fun _ => Prog.answersOnly_after fun _ => ?_
      refine Prog.answersOnly_after fun _ => Prog.answersOnly_after fun _ => ?_
      exact Prog.answersOnly_after fun _ => hok _
  | runOpen =>
      refine Prog.answersOnly_after fun _ => Prog.answersOnly_after fun _ => ?_
      refine Prog.answersOnly_after fun view => Prog.answersOnly_pure ?_
      exact succeeds_created (isHeaderText_append (by decide) view.runId.2) _
  | exportPull =>
      refine Prog.answersOnly_after fun _ => Prog.answersOnly_after fun _ => ?_
      exact Prog.answersOnly_after fun _ => Prog.answersOnly_after fun _ => hok _
  | exportAck => exact Prog.answersOnly_after fun _ => Prog.answersOnly_after fun _ => hok _

end

/-! ### The promise -/

section

variable {σ ρ : Type} (api : Api σ ρ) (req : Request) (resolver : CredentialResolver)
  (notes : List UInt8) (w : World σ)

def Authenticated : Prop := resolver.resolve (presentedBearer req.authorization) ≠ none

/-- A response is a refusal with its envelope. -/
def Response.InEnvelope (response : Response ρ) : Prop :=
  ∃ value, response.body = .json value ∧ IsEnvelope value

/-- The promise for one request: a response that refuses is an envelope, and a request that is not
well formed is refused so, with no operation of the engine executed. -/
structure Enveloping (served : Response ρ × World σ) : Prop where
  envelope : Refuses served.1.status → served.1.InEnvelope
  malformed : ¬ WellFormed api.framework req (route req.method req.path) →
    Refuses served.1.status ∧ served.1.InEnvelope ∧ served.2 = w

variable {api req resolver notes w}

theorem captureEngineNotes_status (method : Method) (response : Response ρ) :
    (captureEngineNotes method notes response).status = response.status := by
  unfold captureEngineNotes
  split <;> rfl

theorem captureEngineNotes_body (method : Method) (response : Response ρ) :
    (captureEngineNotes method notes response).body = response.body := by
  unfold captureEngineNotes
  split <;> rfl

/-- An authenticated request is answered by its handler, and the notes ride along. -/
theorem serve_eq (hauth : Authenticated req resolver) (hhead : req.method ≠ .head) :
    serve api req resolver notes w =
      (captureEngineNotes req.method notes (answer api req w).1, (answer api req w).2) := by
  unfold serve
  cases hresolve : resolver.resolve (presentedBearer req.authorization) with
  | none => exact absurd hresolve hauth
  | some credential =>
      cases credential
      simp [CredentialClass.allows, hhead]

theorem inEnvelope_intoResponse (err : ApiError) :
    (err.intoResponse : Response ρ).InEnvelope := ⟨_, rfl, isEnvelope_bodyJson err⟩

/-- The plain text of an extractor is no envelope. -/
theorem not_inEnvelope_rejection (rejection : Rejection) :
    ¬ (rejection.intoResponse : Response ρ).InEnvelope := by
  rintro ⟨value, hbody, -⟩
  cases hbody

/-- The promise looks at the status, the body and the world only. -/
theorem Enveloping.congr {response response' : Response ρ} {w' : World σ}
    (hstatus : response'.status = response.status) (hbody : response'.body = response.body) :
    Enveloping api req w (response', w') ↔ Enveloping api req w (response, w') := by
  have henvelope : response'.InEnvelope ↔ response.InEnvelope := by
    unfold Response.InEnvelope
    rw [hbody]
  constructor
  · intro h
    refine ⟨fun hrefuses => henvelope.1 (h.envelope ?_), fun hbad => ?_⟩
    · rwa [← hstatus] at hrefuses
    · obtain ⟨hrefuses, hin, hworld⟩ := h.malformed hbad
      rw [hstatus] at hrefuses
      exact ⟨hrefuses, henvelope.1 hin, hworld⟩
  · intro h
    refine ⟨fun hrefuses => henvelope.2 (h.envelope ?_), fun hbad => ?_⟩
    · rwa [hstatus] at hrefuses
    · obtain ⟨hrefuses, hin, hworld⟩ := h.malformed hbad
      rw [← hstatus] at hrefuses
      exact ⟨hrefuses, henvelope.2 hin, hworld⟩

/-- A reading that fails is the answer, and nothing is executed. -/
theorem answer_of_error {refusal : Refusal}
    (hreading : (route req.method req.path).reading api req = .error refusal) :
    answer api req w = (refusal.intoResponse, w) := by
  have hbegins := handler_begins api req (route req.method req.path)
  rw [hreading] at hbegins
  unfold answer
  rw [hbegins w]

/-- A request that could be read is answered with success or in the envelope. -/
theorem answer_of_ok (hreading : (route req.method req.path).reading api req = .ok ())
    (hrefuses : Refuses (answer api req w).1.status) : (answer api req w).1.InEnvelope := by
  have hbegins := handler_begins api req (route req.method req.path)
  rw [hreading] at hbegins
  unfold answer at hrefuses ⊢
  cases hrun : (route req.method req.path).handler api req w with
  | mk result w' =>
      rw [hrun] at hrefuses
      cases result with
      | ok response =>
          exact absurd hrefuses (handler_succeeds _ w response (by rw [hrun]))
      | error refusal =>
          have hin := hbegins w refusal (by rw [hrun])
          cases refusal with
          | api err => exact inEnvelope_intoResponse err
          | bare rejection => exact hin.elim

/-- What could be read was well formed. -/
theorem wellFormed_of_reading {route : Route} (hreading : route.reading api req = .ok ()) :
    WellFormed api.framework req route := by
  refine (wellFormed_iff ⟨?_, ?_⟩).1 hreading
  · rintro rfl
    cases hreading
  · rintro rfl
    cases hreading

theorem enveloping_answer :
    Enveloping api req w (answer api req w) ↔
      ¬ BareRejects api.framework req (route req.method req.path) := by
  rw [← bareRejects_iff]
  cases hreading : (route req.method req.path).reading api req with
  | ok u =>
      refine iff_of_true ⟨answer_of_ok hreading, fun hbad => ?_⟩ not_isBare_ok
      exact absurd (wellFormed_of_reading hreading) hbad
  | error refusal =>
      rw [answer_of_error hreading]
      cases refusal with
      | api err =>
          refine iff_of_true ?_ (fun ⟨r, h⟩ => nomatch h)
          exact ⟨fun _ => inEnvelope_intoResponse err,
            fun _ => ⟨refuses_intoStatus err, inEnvelope_intoResponse err, rfl⟩⟩
      | bare rejection =>
          refine iff_of_false (fun h => ?_) (fun h => h ⟨rejection, rfl⟩)
          exact not_inEnvelope_rejection rejection (h.envelope rejection.status.2)

/-- **A refusal is in the envelope, and what is not well formed is refused so before any operation
of the engine, unless an extractor of the framework rejects the request.** -/
theorem enveloping_iff (hauth : Authenticated req resolver) (hhead : req.method ≠ .head) :
    Enveloping api req w (serve api req resolver notes w) ↔
      ¬ BareRejects api.framework req (route req.method req.path) := by
  rw [serve_eq hauth hhead, ← enveloping_answer (w := w)]
  exact Enveloping.congr (captureEngineNotes_status _ _) (captureEngineNotes_body _ _)

end

/-! ### An acknowledgement without its content type -/

/-- A framework that reads a JSON body under its content type only. -/
def sampleFramework : Framework where
  path raw := .ok (String.ofList raw)
  query _ _ := .ok fun _ => none
  bytes req := .ok req.body
  json _ req :=
    if req.headers.any (fun header => header.1 = "content-type") then
      .error ⟨⟨400, by decide⟩, "Failed to parse the request body as JSON"⟩
    else .error ⟨⟨415, by decide⟩, "Expected request with `Content-Type: application/json`"⟩
  fromSlice _ _ := .error "expected value at line 1 column 1"
  resyncCursor _ := .error "expected value at line 1 column 1"
  outboxCursor _ := .error "expected value at line 1 column 1"
  debug text := "\x22" ++ text ++ "\x22"
  paths := ⟨(· = '/'), fun _ => none, false⟩

/-- An engine without an instance. -/
def emptyEngine : Engine Unit Unit where
  perform _ s := (.error (.engine (.notFound "sample")), s)
  hasLiveCapture _ _ := false
  named := by
    intro name reference s s' u h
    cases h

def sampleApi : Api Unit Unit where
  framework := sampleFramework
  engine := emptyEngine
  texts := ⟨fun _ => "engine", fun _ => "registry", fun _ => "config", fun _ => "store"⟩
  hostVersion := "0.1.0"
  logCapture := "full"

def sampleResolver : CredentialResolver where
  sha256 := Digest.digest
  entries := [(Digest.digest (Utf8.encode "token".toList), .operatorBearer)]

def sampleRequest (method : Method) (path : String) : Request where
  method := method
  path := path.toList
  query := none
  authorization := [some "Bearer token".toList]
  headers := []
  body := "\x7b\x22seq\x22:1\x7d".toUTF8.toList

theorem authenticated_sampleRequest (method : Method) (path : String) :
    Authenticated (sampleRequest method path) sampleResolver := by
  have hbearer : presentedBearer (sampleRequest method path).authorization =
      some "token".toList := by
    change presentedBearer [some "Bearer token".toList] = _
    decide
  unfold Authenticated
  rw [hbearer]
  simp [sampleResolver, CredentialResolver.resolve]

/-- A path without a route is answered in the envelope. -/
theorem enveloping_iff_nowhere :
    Enveloping sampleApi (sampleRequest .get "/v0/nowhere") ⟨(), []⟩
      (serve sampleApi (sampleRequest .get "/v0/nowhere") sampleResolver [] ⟨(), []⟩) := by
  have hhead : Method.get ≠ .head := by decide
  have hroute : route .get "/v0/nowhere".toList = .notFound := rfl
  refine (enveloping_iff (authenticated_sampleRequest _ _) hhead).2 ?_
  change ¬ BareRejects _ _ (route .get "/v0/nowhere".toList)
  rw [hroute]
  exact not_false

/-- The body of an acknowledgement is refused with a plain text. -/
theorem not_enveloping_ack :
    Authenticated (sampleRequest .post "/v0/export/ack") sampleResolver ∧
      ¬ Enveloping sampleApi (sampleRequest .post "/v0/export/ack") ⟨(), []⟩
        (serve sampleApi (sampleRequest .post "/v0/export/ack") sampleResolver [] ⟨(), []⟩) := by
  refine ⟨authenticated_sampleRequest _ _, fun h => ?_⟩
  have hhead : (sampleRequest .post "/v0/export/ack").method ≠ .head := by
    change Method.post ≠ .head
    decide
  have hroute : route .post "/v0/export/ack".toList = .exportAck := rfl
  rw [serve_eq (authenticated_sampleRequest _ _) hhead,
    Enveloping.congr (captureEngineNotes_status _ _) (captureEngineNotes_body _ _)] at h
  have hreading : (route .post "/v0/export/ack".toList).reading sampleApi
      (sampleRequest .post "/v0/export/ack") = .error (.bare ⟨⟨415, by decide⟩,
        "Expected request with `Content-Type: application/json`"⟩) := by
    rw [hroute]
    rfl
  rw [answer_of_error hreading] at h
  exact not_inEnvelope_rejection _ (h.envelope (by decide))

end Hekma.ControlApi
