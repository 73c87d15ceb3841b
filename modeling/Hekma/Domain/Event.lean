/-
**Event documents.**

The events of the engine as the documents that the lifecycle log, the outbox, the event stream and
the command line share: a transition with its cause, a breach of a budget, a committed usage event,
and a change of a Run.  A document says which event it is in its field `kind`, and so does a cause.

The documents grow: a later engine may add fields anywhere.  A reader of an event passes over the
fields it does not know, wherever they stand, and reads the event that was written.

Main definitions:

* `EventFormat.TransitionCause`, `EventFormat.TransitionEvent`, `EventFormat.BudgetBreachEvent`,
  `EventFormat.UsageUpdateEvent`, `EventFormat.RunEvent`, `EventFormat.EngineEvent` — the events;
* `EventFormat.EngineEvent.format` — their documents.

Main results:

* `EventFormat.read_wider_event` — **a document with further fields, in any order and at any
  depth, is read as the event that was written**.
-/

import Hekma.Lib.Serde
import Hekma.Domain.Governance
import Hekma.Domain.Runs.Record
import Hekma.Store.MemoryBacking
import Hekma.Store.RunRows

set_option relaxedAutoImplicit false
set_option autoImplicit false

namespace Hekma

namespace EventFormat

open Serde

/-! ### Numbers and names -/

abbrev U32 : Type := { n : ℕ // n < 2 ^ 32 }

abbrev U16 : Type := { n : ℕ // n < 2 ^ 16 }

/-- Micro-dollars. -/
abbrev Micros : Type := Signed64

theorem bits32 : 32 ≤ 64 := by decide

theorem bits16 : 16 ≤ 64 := by decide

theorem one_lt_u32 : 1 < 2 ^ 32 := by decide

def u32 : Format U32 := .narrow 32 bits32

def u16 : Format U16 := .narrow 16 bits16

/-- What a dollar figure is. -/
inductive EstimateLabel where
  | estimated
  | reconciled
  deriving DecidableEq, Repr

def EstimateLabel.asStr : EstimateLabel → String
  | estimated => "estimated"
  | reconciled => "reconciled"

def BreachScope.wireName : BreachScope → String
  | .perRun => "per-run"
  | .cumulative => "cumulative"

def BreachDimension.asStr : Governance.BreachDimension → String
  | .tokens => "tokens"
  | .dollars => "dollars"

def RunEventKind.asStr : RunEventKind → String
  | .created => "created"
  | .depthChanged => "depth-changed"
  | .statusChanged => "status-changed"
  | .anomaliesChanged => "anomalies-changed"
  | .labelsChanged => "labels-changed"
  | .ended => "ended"

theorem states : Names LifecycleState.asStr
    [.registered, .starting, .running, .paused, .stopping, .stopped, .failed] where
  complete a := by cases a <;> simp
  distinct := by decide

def lifecycleState : Format LifecycleState := .names states

theorem scopes : Names BreachScope.wireName [.perRun, .cumulative] where
  complete a := by cases a <;> simp
  distinct := by decide

def breachScope : Format BreachScope := .names scopes

theorem dimensions : Names BreachDimension.asStr [.tokens, .dollars] where
  complete a := by cases a <;> simp
  distinct := by decide

def breachDimension : Format Governance.BreachDimension := .names dimensions

theorem actions : Names BreachAction.asStr [.pause, .stop, .warn, .block] where
  complete a := by cases a <;> simp
  distinct := by decide

def breachAction : Format BreachAction := .names actions

theorem estimates : Names EstimateLabel.asStr [.estimated, .reconciled] where
  complete a := by cases a <;> simp
  distinct := by decide

def estimateLabel : Format EstimateLabel := .names estimates

theorem depths : Names ControlDepth.asStr [.observed, .wire, .announced, .supervised] where
  complete a := by cases a <;> simp
  distinct := by decide

def controlDepth : Format ControlDepth := .names depths

theorem statuses : Names RunStatus.asStr [.active, .held, .silent, .stale, .ended] where
  complete a := by cases a <;> simp
  distinct := by decide

def runStatus : Format RunStatus := .names statuses

theorem anomalies : Names Anomaly.asStr Anomaly.all where
  complete a := by cases a <;> simp [Anomaly.all]
  distinct := by decide

def anomaly : Format Anomaly := .names anomalies

theorem sources : Names LabelSource.asStr [.bound, .caller] where
  complete a := by cases a <;> simp
  distinct := by decide

def labelSource : Format LabelSource := .names sources

theorem changes : Names RunEventKind.asStr
    [.created, .depthChanged, .statusChanged, .anomaliesChanged, .labelsChanged, .ended] where
  complete a := by cases a <;> simp
  distinct := by decide

def runEventKind : Format RunEventKind := .names changes

/-! ### Why a state changed -/

/-- Why an instance changed its state. -/
inductive TransitionCause where
  | command (command : String)
  | adapterReady
  | launchError (detail : String)
  | stopGraceful
  | stopForced (detail : String)
  | pauseBestEffort (detail : String)
  | resumeBestEffort (detail : String)
  | detachedResumed (detail : String)
  | crashed (detail : String)
  | restarted (count : U32) (waitedMs : Unsigned64)
  | readinessTimeout (probe : String) (waitedMs : Unsigned64)
  | unresponsive (check : String) (failingForMs : Unsigned64) (detail : Option String)
  | restartRequested (code : U16) (detail : Option String)
  | cleanExit (code : U16)
  | pauseCooperative (command : String)
  | resumeCooperative (command : String)
  | drainStopped (completed : Bool) (waitedMs : Unsigned64)
  | budgetExceeded (scope : BreachScope) (dimension : Governance.BreachDimension)
      (limit observed : Unsigned64) (dollarLimit dollarObserved : Option Micros)
      (estimateLabel : Option EstimateLabel)
  deriving DecidableEq

theorem text_ne_null (s : String) : Format.text.write s ≠ .null := Json.noConfusion

theorem micros_ne_null (n : Micros) : Format.i64.write n ≠ .null := Json.noConfusion

theorem estimateLabel_ne_null (e : EstimateLabel) : estimateLabel.write e ≠ .null :=
  Json.noConfusion

/-- The dollar figures of a breach: what was reached, what reached it, and what they are. -/
def dollarFigures : Record ((Option Micros × Option Micros) × Option EstimateLabel) :=
  ((Record.omitted "dollar_limit" .i64 micros_ne_null).and
    (.omitted "dollar_observed" .i64 micros_ne_null) (by decide)).and
    (.omitted "estimate_label" estimateLabel estimateLabel_ne_null) (by decide)

/-- The ceiling of a breach and the total that reached it.  A breach that does not say what it is
about is one of tokens. -/
def breachFigures : Record (((BreachScope × Governance.BreachDimension) × Unsigned64) ×
    Unsigned64) :=
  (((Record.field "scope" breachScope).and
    (.defaulted "dimension" breachDimension .tokens) (by decide)).and
    (.field "limit" .u64) (by decide)).and
    (.field "observed" .u64) (by decide)

namespace TransitionCause

/-- The causes, by their names. -/
def variants : List (Variant TransitionCause) :=
  [⟨"command", _, .field "command" .text,
      command,
      fun | command c => some c | _ => none,
      by rintro s p h; cases s <;> cases h; rfl⟩,
    ⟨"adapter-ready", _, .empty,
      fun _ => adapterReady,
      fun | adapterReady => some () | _ => none,
      by rintro s p h; cases s <;> cases h; rfl⟩,
    ⟨"launch-error", _, .field "detail" .text,
      launchError,
      fun | launchError d => some d | _ => none,
      by rintro s p h; cases s <;> cases h; rfl⟩,
    ⟨"stop-graceful", _, .empty,
      fun _ => stopGraceful,
      fun | stopGraceful => some () | _ => none,
      by rintro s p h; cases s <;> cases h; rfl⟩,
    ⟨"stop-forced", _, .field "detail" .text,
      stopForced,
      fun | stopForced d => some d | _ => none,
      by rintro s p h; cases s <;> cases h; rfl⟩,
    ⟨"pause-best-effort", _, .field "detail" .text,
      pauseBestEffort,
      fun | pauseBestEffort d => some d | _ => none,
      by rintro s p h; cases s <;> cases h; rfl⟩,
    ⟨"resume-best-effort", _, .field "detail" .text,
      resumeBestEffort,
      fun | resumeBestEffort d => some d | _ => none,
      by rintro s p h; cases s <;> cases h; rfl⟩,
    ⟨"detached-resumed", _, .field "detail" .text,
      detachedResumed,
      fun | detachedResumed d => some d | _ => none,
      by rintro s p h; cases s <;> cases h; rfl⟩,
    ⟨"crashed", _, .field "detail" .text,
      crashed,
      fun | crashed d => some d | _ => none,
      by rintro s p h; cases s <;> cases h; rfl⟩,
    ⟨"restarted", _, (Record.field "count" u32).and (.field "waited_ms" .u64) (by decide),
      fun p => restarted p.1 p.2,
      fun | restarted n w => some (n, w) | _ => none,
      by rintro s p h; cases s <;> cases h; rfl⟩,
    ⟨"readiness-timeout", _, (Record.field "probe" .text).and (.field "waited_ms" .u64) (by decide),
      fun p => readinessTimeout p.1 p.2,
      fun | readinessTimeout t w => some (t, w) | _ => none,
      by rintro s p h; cases s <;> cases h; rfl⟩,
    ⟨"unresponsive", _,
      ((Record.field "check" .text).and (.field "failing_for_ms" .u64) (by decide)).and
        (.omitted "detail" .text text_ne_null) (by decide),
      fun p => unresponsive p.1.1 p.1.2 p.2,
      fun | unresponsive t w d => some ((t, w), d) | _ => none,
      by rintro s p h; cases s <;> cases h; rfl⟩,
    ⟨"restart-requested", _,
      (Record.field "code" u16).and (.omitted "detail" .text text_ne_null) (by decide),
      fun p => restartRequested p.1 p.2,
      fun | restartRequested n d => some (n, d) | _ => none,
      by rintro s p h; cases s <;> cases h; rfl⟩,
    ⟨"clean-exit", _, .field "code" u16,
      cleanExit,
      fun | cleanExit n => some n | _ => none,
      by rintro s p h; cases s <;> cases h; rfl⟩,
    ⟨"pause-cooperative", _, .field "command" .text,
      pauseCooperative,
      fun | pauseCooperative c => some c | _ => none,
      by rintro s p h; cases s <;> cases h; rfl⟩,
    ⟨"resume-cooperative", _, .field "command" .text,
      resumeCooperative,
      fun | resumeCooperative c => some c | _ => none,
      by rintro s p h; cases s <;> cases h; rfl⟩,
    ⟨"drain-stopped", _, (Record.field "completed" .bool).and (.field "waited_ms" .u64) (by decide),
      fun p => drainStopped p.1 p.2,
      fun | drainStopped done w => some (done, w) | _ => none,
      by rintro s p h; cases s <;> cases h; rfl⟩,
    ⟨"budget-exceeded", _, breachFigures.and dollarFigures (by decide),
      fun p => budgetExceeded p.1.1.1.1 p.1.1.1.2 p.1.1.2 p.1.2 p.2.1.1 p.2.1.2 p.2.2,
      fun | budgetExceeded s d l o dl du e =>
          some ((((s, d), l), o), ((dl, du), e)) | _ => none,
      by rintro s p h; cases s <;> cases h; rfl⟩]

theorem covered (c : TransitionCause) : (variants.any fun v => (v.proj c).isSome) = true := by
  cases c <;> rfl

theorem tags_nodup : (variants.map Variant.tag).Nodup := by
  decide

theorem kind_not_part : ∀ v ∈ variants, "kind" ∉ v.record.keys := by
  decide

def format : Format TransitionCause := tagged "kind" variants covered tags_nodup kind_not_part

end TransitionCause

/-! ### The events -/

/-- A committed change of state. -/
structure TransitionEvent where
  schemaVersion : U32
  instanceName : String
  priorState : LifecycleState
  newState : LifecycleState
  cause : TransitionCause
  at_ : String
  deriving DecidableEq

def TransitionEvent.record : Record TransitionEvent :=
  ((((((Record.field "schema_version" u32).and
    (.field "instance" .text) (by decide)).and
    (.field "prior_state" lifecycleState) (by decide)).and
    (.field "new_state" lifecycleState) (by decide)).and
    (.field "cause" TransitionCause.format) (by decide)).and
    (.field "at" .text) (by decide)).via
    (fun p => ⟨p.1.1.1.1.1, p.1.1.1.1.2, p.1.1.1.2, p.1.1.2, p.1.2, p.2⟩)
    (fun e => (((((e.schemaVersion, e.instanceName), e.priorState), e.newState), e.cause), e.at_))
    (fun _ => rfl)

/-- A ceiling that was reached. -/
structure BudgetBreachEvent where
  schemaVersion : U32
  instanceName : String
  runId : String
  scope : BreachScope
  dimension : Governance.BreachDimension
  limit : Unsigned64
  observed : Unsigned64
  dollarLimit : Option Micros
  dollarObserved : Option Micros
  estimateLabel : Option EstimateLabel
  action : BreachAction
  meteringSource : String
  at_ : String
  deriving DecidableEq

def BudgetBreachEvent.record : Record BudgetBreachEvent :=
  ((((((((Record.field "schema_version" u32).and
    (.field "instance" .text) (by decide)).and
    (.field "run_id" .text) (by decide)).and
    breachFigures (by decide)).and
    dollarFigures (by decide)).and
    (.field "action" breachAction) (by decide)).and
    (.field "metering_source" .text) (by decide)).and
    (.field "at" .text) (by decide)).via
    (fun (((((((v, name), run), (((s, d), l), o)), ((dl, du), e)), a), m), t) =>
      ⟨v, name, run, s, d, l, o, dl, du, e, a, m, t⟩)
    (fun e => (((((((e.schemaVersion, e.instanceName), e.runId),
      (((e.scope, e.dimension), e.limit), e.observed)),
      ((e.dollarLimit, e.dollarObserved), e.estimateLabel)), e.action), e.meteringSource), e.at_))
    (fun _ => rfl)

theorem u64_ne_null (n : Unsigned64) : Format.u64.write n ≠ .null := Json.noConfusion

/-- What an agent used. -/
structure UsageEvent where
  instanceName : String
  runId : String
  inputTokens : Unsigned64
  outputTokens : Unsigned64
  cachedTokens : Option Unsigned64
  meteringSource : String
  sequence : Unsigned64
  occurredAt : String
  deriving DecidableEq

def UsageEvent.record : Record UsageEvent :=
  ((((((((Record.field "instance" .text).and
    (.field "run_id" .text) (by decide)).and
    (.field "input_tokens" .u64) (by decide)).and
    (.field "output_tokens" .u64) (by decide)).and
    (.nullable "cached_tokens" .u64 u64_ne_null) (by decide)).and
    (.field "metering_source" .text) (by decide)).and
    (.field "sequence" .u64) (by decide)).and
    (.field "occurred_at" .text) (by decide)).via
    (fun (((((((name, run), i), o), c), m), s), t) => ⟨name, run, i, o, c, m, s, t⟩)
    (fun e => (((((((e.instanceName, e.runId), e.inputTokens), e.outputTokens), e.cachedTokens),
      e.meteringSource), e.sequence), e.occurredAt))
    (fun _ => rfl)

/-- A committed usage event. -/
structure UsageUpdateEvent where
  schemaVersion : U32
  event : UsageEvent
  deriving DecidableEq

def UsageUpdateEvent.record : Record UsageUpdateEvent :=
  ((Record.field "schema_version" u32).and
    (.field "event" UsageEvent.record.toFormat) (by decide)).via
    (fun p => ⟨p.1, p.2⟩) (fun e => (e.schemaVersion, e.event)) (fun _ => rfl)

def labelRecord : Record Label :=
  (((Record.field "key" .text).and
    (.field "value" .text) (by decide)).and
    (.field "source" labelSource) (by decide)).via
    (fun p => ⟨p.1.1, p.1.2, p.2⟩) (fun l => ((l.key, l.value), l.source))
    (fun _ => rfl)

theorem runStatus_ne_null (s : RunStatus) : runStatus.write s ≠ .null := Json.noConfusion

theorem controlDepth_ne_null (d : ControlDepth) : controlDepth.write d ≠ .null := Json.noConfusion

theorem bool_ne_null (b : Bool) : Format.bool.write b ≠ .null := Json.noConfusion

/-- A change of a Run. -/
structure RunEvent where
  schemaVersion : U32
  change : RunEventKind
  runId : String
  parentRunId : Option String
  instanceName : Option String
  controlDepth : ControlDepth
  wirePath : Bool
  status : RunStatus
  priorStatus : Option RunStatus
  priorControlDepth : Option ControlDepth
  priorWirePath : Option Bool
  anomalies : List Anomaly
  labels : List Label
  cause : Option String
  at_ : String
  deriving DecidableEq

def RunEvent.record : Record RunEvent :=
  (((((((((((((((Record.field "schema_version" u32).and
    (.field "change" runEventKind) (by decide)).and
    (.field "run_id" .text) (by decide)).and
    (.omitted "parent_run_id" .text text_ne_null) (by decide)).and
    (.omitted "instance" .text text_ne_null) (by decide)).and
    (.field "control_depth" EventFormat.controlDepth) (by decide)).and
    (.field "wire_path" .bool) (by decide)).and
    (.field "status" runStatus) (by decide)).and
    (.omitted "prior_status" runStatus runStatus_ne_null) (by decide)).and
    (.omitted "prior_control_depth" EventFormat.controlDepth controlDepth_ne_null) (by decide)).and
    (.omitted "prior_wire_path" .bool bool_ne_null) (by decide)).and
    (.field "anomalies" (.list anomaly)) (by decide)).and
    (.field "labels" (.list labelRecord.toFormat)) (by decide)).and
    (.omitted "cause" .text text_ne_null) (by decide)).and
    (.field "at" .text) (by decide)).via
    (fun ((((((((((((((v, k), run), parent), name), d), w), s), ps), pd), pw), a), l), c), t) =>
      ⟨v, k, run, parent, name, d, w, s, ps, pd, pw, a, l, c, t⟩)
    (fun e => ((((((((((((((e.schemaVersion, e.change), e.runId), e.parentRunId), e.instanceName),
      e.controlDepth), e.wirePath), e.status), e.priorStatus), e.priorControlDepth),
      e.priorWirePath), e.anomalies), e.labels), e.cause), e.at_))
    (fun _ => rfl)

/-- An event of the bus. -/
inductive EngineEvent where
  | transition (event : TransitionEvent)
  | budgetBreach (event : BudgetBreachEvent)
  | usageUpdate (event : UsageUpdateEvent)
  | run (event : RunEvent)
  deriving DecidableEq

namespace EngineEvent

/-- The events, by their names. -/
def variants : List (Variant EngineEvent) :=
  [⟨"transition", _, TransitionEvent.record, transition,
      fun | transition e => some e | _ => none,
      by rintro s p h; cases s <;> cases h; rfl⟩,
    ⟨"budget_breach", _, BudgetBreachEvent.record, budgetBreach,
      fun | budgetBreach e => some e | _ => none,
      by rintro s p h; cases s <;> cases h; rfl⟩,
    ⟨"usage_update", _, UsageUpdateEvent.record, usageUpdate,
      fun | usageUpdate e => some e | _ => none,
      by rintro s p h; cases s <;> cases h; rfl⟩,
    ⟨"run", _, RunEvent.record, run,
      fun | run e => some e | _ => none,
      by rintro s p h; cases s <;> cases h; rfl⟩]

theorem covered (e : EngineEvent) : (variants.any fun v => (v.proj e).isSome) = true := by
  cases e <;> rfl

theorem tags_nodup : (variants.map Variant.tag).Nodup := by
  decide

theorem kind_not_part : ∀ v ∈ variants, "kind" ∉ v.record.keys := by
  decide

def format : Format EngineEvent := tagged "kind" variants covered tags_nodup kind_not_part

end EngineEvent

/-! ### Reading -/

/-- **A document with further fields, in any order and at any depth, is read as the event that was
written.** -/
theorem read_wider_event (e : EngineEvent) (v : Json)
    (h : Wider EngineEvent.format.keys (EngineEvent.format.write e) v) :
    EngineEvent.format.read v = some e :=
  EngineEvent.format.read_wider h

/-- A crash. -/
def crash : EngineEvent :=
  .transition ⟨⟨1, one_lt_u32⟩, "a", .running, .failed, .crashed "d", "t"⟩

/-- What the engine writes of its cause, and what a later one may write. -/
def crashCauseFields : Json.Fields := [("kind", .string "crashed"), ("detail", .string "d")]

def laterCauseFields : Json.Fields := (crashCauseFields ++ [("signal", Json.null)]).reverse

def laterFields : Json.Fields :=
  [("kind", .string "transition"), ("schema_version", .number (.ofU64 ⟨1, Unsigned64.one_lt⟩)),
    ("instance", .string "a"), ("prior_state", .string "running"), ("new_state", .string "failed"),
    ("cause", .object laterCauseFields), ("at", .string "t")]

theorem laterCause_wider : Wider EngineEvent.format.keys
    (TransitionCause.format.write (.crashed "d")) (.object laterCauseFields) :=
  .object (f := crashCauseFields) rfl
    (.cons (.string _) (.cons (.string _) .nil)) (by decide) (List.reverse_perm _)

theorem crash_wider : Wider EngineEvent.format.keys (EngineEvent.format.write crash)
    (.object (laterFields ++ [("machine", Json.string "m")]).reverse) :=
  .object (g := laterFields) rfl
    (.cons (.string _) (.cons (.number _) (.cons (.string _) (.cons (.string _) (.cons (.string _)
      (.cons laterCause_wider (.cons (.string _) .nil))))))) (by decide) (List.reverse_perm _)

/-- A later engine may write more, in another order. -/
theorem read_wider_crash : EngineEvent.format.read
    (.object (laterFields ++ [("machine", Json.string "m")]).reverse) = some crash :=
  read_wider_event crash _ crash_wider

end EventFormat

end Hekma
