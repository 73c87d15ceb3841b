/-
**Run records, labels, limits and events** (`domain/runs/mod.rs`, `domain/runs/verbs.rs`).

A Run is one row of the Run registry: the process-owning Run of a supervised launch, or a child
that shares the process of its owner.  This module holds the data of the registry and the small
functions on it.

Main definitions:

* `RunStatus`, `Anomaly`, `ControlDepth`, `Label`, `RunLimits`, `RunRecord` — a Run and what is
  stored beside it;
* `RunEvent`, `RunEntry`, `RunChanges` — what an operation hands to its commit;
* `verbCell`, `actionRefusal` — whether a Breach Action can be executed on a Run by itself.

Main results:

* `RunRecord.EndMarked` — the end columns are set exactly on an ended Run.
-/

import Hekma.Domain.Cost
import Hekma.Domain.Lifecycle

set_option relaxedAutoImplicit false
set_option autoImplicit false

namespace Hekma

/-- A Run id.  Ids are 128-bit ULIDs whose text sorts as the numbers do. -/
abbrev RunId : Type := ℕ

/-- A point of time, in its text form. -/
abbrev Timestamp : Type := String

/-- The deepest a Run tree may nest, the root being level 1. -/
def maxRunNesting : ℕ := 8

/-- How far a Run is controlled. -/
inductive ControlDepth where
  | observed
  | wire
  | announced
  | supervised
  deriving DecidableEq, Repr

/-- The wire form of a depth. -/
def ControlDepth.asStr : ControlDepth → String
  | observed => "observed"
  | wire => "wire"
  | announced => "announced"
  | supervised => "supervised"

/-- The status of a Run. -/
inductive RunStatus where
  | active
  | held
  | silent
  | stale
  | ended
  deriving DecidableEq, Repr

/-- A mark raised on a Run. -/
inductive Anomaly where
  | breach
  | failed
  | depthFallback
  deriving DecidableEq, Repr

/-- Every anomaly, in the order in which a stored set is sorted. -/
def Anomaly.all : List Anomaly := [.breach, .failed, .depthFallback]

/-- A list of anomalies as the sorted set it is stored as. -/
def Anomaly.normalize (set : List Anomaly) : List Anomaly := Anomaly.all.filter (· ∈ set)

@[simp] theorem Anomaly.mem_normalize (set : List Anomaly) (a : Anomaly) :
    a ∈ Anomaly.normalize set ↔ a ∈ set := by
  cases a <;> simp [Anomaly.normalize, Anomaly.all]

/-- Storing a stored set changes nothing. -/
theorem Anomaly.normalize_normalize (set : List Anomaly) :
    Anomaly.normalize (Anomaly.normalize set) = Anomaly.normalize set :=
  List.filter_congr fun a _ => by simp

/-- Whether a label is the instance's or was given by the caller. -/
inductive LabelSource where
  | bound
  | caller
  deriving DecidableEq, Repr

/-- A label of a Run. -/
structure Label where
  key : String
  value : String
  source : LabelSource
  deriving DecidableEq, Repr

/-- A lowercase ASCII letter. -/
def isAsciiLowercase (c : Char) : Bool := 'a' ≤ c && c ≤ 'z'

/-- An ASCII digit. -/
def isAsciiDigit (c : Char) : Bool := '0' ≤ c && c ≤ '9'

/-- An ASCII letter or digit. -/
def isAsciiAlphanumeric (c : Char) : Bool :=
  isAsciiLowercase c || isAsciiDigit c || ('A' ≤ c && c ≤ 'Z')

/-- Why a label key is refused: it starts with a lowercase letter, has at most 63 bytes, and holds
lowercase letters, digits and three signs. -/
def validateLabelKey (key : String) : Option String :=
  match key.toList with
  | [] => some "a label key cannot be empty"
  | first :: rest =>
      if !isAsciiLowercase first then
        some ("label key `" ++ key ++ "` must start with a lowercase letter")
      else if 63 < key.utf8ByteSize then
        some ("label key `" ++ key ++ "` is longer than 63 characters")
      else
        match rest.find? fun c =>
          !(isAsciiLowercase c || isAsciiDigit c || c ∈ ['_', '.', '-']) with
        | some bad =>
            some ("label key `" ++ key ++ "` contains `" ++ bad.toString ++
              "` (allowed: a-z, 0-9, `_`, `.`, `-`)")
        | none => none

/-- Why a label value is refused: it has 1 to 128 bytes, is no secret reference, and holds
letters, digits and seven signs. -/
def validateLabelValue (value : String) : Option String :=
  if value = "" then some "a label value cannot be empty"
  else if 128 < value.utf8ByteSize then some "label value is longer than 128 characters"
  else if "secret:".toList.isPrefixOf value.toList then
    some "a label value cannot be a `secret:` reference"
  else
    match value.toList.find? fun c =>
      !(isAsciiAlphanumeric c || c ∈ ['_', '.', ':', '/', '@', '+', '-']) with
    | some bad =>
        some ("label value `" ++ value ++ "` contains `" ++ bad.toString ++
          "` (allowed: letters, digits, `_ . : / @ + -`)")
    | none => none

/-- The ceilings a child Run was opened with. -/
structure RunLimits where
  tokenPerRun : Option ℕ
  dollarPerRunMicros : Option Micros
  breachAction : Option BreachAction
  deriving DecidableEq

/-- Whether a ceiling is set. -/
def RunLimits.isArmed (l : RunLimits) : Bool := l.tokenPerRun.isSome || l.dollarPerRunMicros.isSome

/-- The Breach Action, `warn` unless one is set. -/
def RunLimits.action (l : RunLimits) : BreachAction := l.breachAction.getD .warn

/-- No ceiling. -/
def RunLimits.empty : RunLimits := ⟨none, none, none⟩

/-- A Run row. -/
structure RunRecord where
  runId : RunId
  controlDepth : ControlDepth
  wirePath : Bool
  status : RunStatus
  anomalies : List Anomaly
  parentRunId : Option RunId
  instanceName : Option InstanceName
  processOwner : Bool
  endCause : Option String
  createdAt : Timestamp
  updatedAt : Timestamp
  endedAt : Option Timestamp
  deriving DecidableEq, Repr

/-- The Run has ended. -/
def RunRecord.isEnded (r : RunRecord) : Bool := r.status = .ended

/-- The end columns are both set exactly on an ended Run. -/
def RunRecord.EndMarked (r : RunRecord) : Prop :=
  (r.status = .ended ↔ r.endedAt.isSome) ∧ (r.status = .ended ↔ r.endCause.isSome)

/-! ### Events -/

/-- What changed in a Run. -/
inductive RunEventKind where
  | created
  | depthChanged
  | statusChanged
  | anomaliesChanged
  | labelsChanged
  | ended
  deriving DecidableEq, Repr

/-- The columns a change replaced. -/
structure Prior where
  status : Option RunStatus
  depth : Option ControlDepth
  wirePath : Option Bool
  deriving DecidableEq, Repr

/-- Nothing was replaced. -/
def Prior.none : Prior := ⟨.none, .none, .none⟩

/-- One event of the Run stream. -/
structure RunEvent where
  change : RunEventKind
  runId : RunId
  parentRunId : Option RunId
  instanceName : Option InstanceName
  controlDepth : ControlDepth
  wirePath : Bool
  status : RunStatus
  prior : Prior
  anomalies : List Anomaly
  labels : List Label
  cause : Option String
  at_ : Timestamp
  deriving DecidableEq, Repr

/-- The published form of a Run. -/
structure RunEntry where
  record : RunRecord
  labels : List Label
  limits : RunLimits
  deriving DecidableEq

/-- What an operation hands to its commit: the events for the outbox and the entries for the
published snapshot. -/
structure RunChanges where
  events : List RunEvent
  entries : List RunEntry
  deriving DecidableEq

/-- Nothing changed. -/
def RunChanges.empty : RunChanges := ⟨[], []⟩

/-! ### Executing a Breach Action on a Run -/

/-- How a verb behaves at a depth. -/
inductive CellBehavior where
  | honored
  | refused
  deriving DecidableEq, Repr

/-- A cell of the verb table: how the verb behaves, and whether it is delivered today. -/
structure VerbCell where
  behavior : CellBehavior
  available : Bool
  deriving DecidableEq, Repr

/-- The row of the verb table for executing a pause, stop or block on a Run. -/
def verbCell (depth : ControlDepth) (wirePath : Bool) : VerbCell :=
  match depth with
  | .observed => ⟨.refused, false⟩
  | .supervised => ⟨.honored, true⟩
  | .announced => if wirePath then ⟨.honored, false⟩ else ⟨.refused, true⟩
  | .wire => ⟨.honored, false⟩

/-- Why a Breach Action cannot be executed on a Run by itself. -/
def actionRefusal (action : BreachAction) (depth : ControlDepth) (wirePath : Bool) :
    Option String :=
  if action = .warn then none
  else if !wirePath then
    some "the hosting process's model traffic does not pass through the Metering Proxy, so a child Run cannot be paused, stopped or blocked on its own"
  else if !(verbCell depth wirePath).available then
    some ("holding and rejecting a " ++ depth.asStr ++
      " Run's calls is not available yet — use `warn`, or set the ceiling on the process-owning Run")
  else none

end Hekma
