/-
**The codec of an ACP connection** (`acp/codec.rs`, `acp/updates.rs`, `acp/client.rs`).

A line of the agent is one message: a response to a request of the engine, a notification, or a
request of the agent.  The members it has and their types tell which.  A request of the agent is
answered with its id: a permission request is denied, with the first option that rejects or as
cancelled, and any other method is not supported.  Ids are unsigned integers.

The reader of JSON texts and their printer are parameters.

Main definitions:

* `Acp.Codec.parseLine`, `Acp.Codec.Inbound` — what a line decodes to;
* `Acp.Codec.permissionDenialResult`, `Acp.Codec.answer` — what a request is answered;
* `Acp.Codec.Request`, `Acp.Codec.requestOf` — the requests of JSON-RPC;
* `Acp.Codec.Denied`, `Acp.Codec.Request.AnsweredBy` — what an answer has to say;
* `Acp.Codec.Deniable` — the first option that rejects is named, and no option that allows is named
  the same.

Main results:

* `Acp.Codec.reply_eq` — what a line is answered depends on the request it is;
* `Acp.Codec.Request.answeredBy_iff` — an answer is right where the request is deniable.
-/

import Hekma.Acp.Connection
import Hekma.Lib.Text

set_option relaxedAutoImplicit false
set_option autoImplicit false

namespace Hekma

namespace Acp.Codec

/-! ### Messages of the agent -/

/-- A decoded message of the agent. -/
inductive Inbound where
  | response (id : Unsigned64) (result : Json)
  | responseError (id : Unsigned64) (code : Signed64) (message : String)
  | notification (method : String) (params : Json)
  | agentRequest (id : Unsigned64) (method : String) (params : Json)

/-- Why a line is no message. -/
inductive CodecError where
  | notJson
  | notAnObject
  | unclassifiable
  | unusableId
  deriving DecidableEq, Repr

def CodecError.display : CodecError → String
  | .notJson => "line is not valid JSON"
  | .notAnObject => "line is valid JSON but not an object"
  | .unclassifiable => "line is neither a JSON-RPC response nor a notification"
  | .unusableId => "response id is not an unsigned integer"

/-- The message an object is. -/
def classify (object : Json.Fields) : Except CodecError Inbound :=
  match object.lookup "method" with
  | some method =>
      match method.asStr with
      | none => .error .unclassifiable
      | some method =>
          match object.lookup "id" with
          | some id =>
              match id.asU64 with
              | none => .error .unusableId
              | some id => .ok (.agentRequest id method ((object.lookup "params").getD .null))
          | none => .ok (.notification method ((object.lookup "params").getD .null))
  | none =>
      match object.lookup "id" with
      | none => .error .unclassifiable
      | some id =>
          match id.asU64 with
          | none => .error .unusableId
          | some id =>
              match object.lookup "error" with
              | some error =>
                  .ok (.responseError id (((error.get "code").bind Json.asI64).getD ⟨0, by decide⟩)
                    (((error.get "message").bind Json.asStr).getD ""))
              | none => .ok (.response id ((object.lookup "result").getD .null))

/-- The message a line is.  A blank line is none. -/
def parseLine (read : List Char → Option Json) (line : List Char) :
    Except CodecError (Option Inbound) :=
  if Text.trim line = [] then .ok none
  else
    match read line with
    | none => .error .notJson
    | some value =>
        match value.asObject with
        | none => .error .notAnObject
        | some object => (classify object).map some

/-- What the update of a session is. -/
def parseSessionUpdate (print : Json → String) (params : Json) : SessionUpdate :=
  let update := params.get "update"
  match (update.bind fun u => u.get "sessionUpdate").bind Json.asStr with
  | none => .unhandled "<missing>"
  | some "usage_update" =>
      let count (key : String) : Option ℕ :=
        ((update.bind fun u => u.get key).bind Json.asU64).map Subtype.val
      let cost : Option (String × String) := do
        let cost ← update.bind fun u => u.get "cost"
        let amount ← cost.get "amount"
        let currency ← (cost.get "currency").bind Json.asStr
        some (print amount, currency)
      .usageUpdate (count "used") (count "size") cost
  | some discriminator =>
      if discriminator ∈ ["agent_message_chunk", "agent_thought_chunk", "tool_call",
          "tool_call_update", "plan", "available_commands_update", "current_mode_update"] then
        .content
      else .unhandled discriminator

/-! ### Answers -/

/-- The options of a permission request. -/
def options (params : Json) : List Json := ((params.get "options").bind Json.asArray).getD []

/-- The kind of an option begins so. -/
def kindStartsWith (pre : String) (option : Json) : Bool :=
  pre.toList.isPrefixOf (((option.get "kind").bind Json.asStr).getD "").toList

def selected (identity : Json) : Json :=
  .object [("outcome", .object [("outcome", .string "selected"), ("optionId", identity)])]

def cancelled : Json := .object [("outcome", .object [("outcome", .string "cancelled")])]

/-- The denial of a permission request: the first option that rejects, by its `id` or else by its
`name`. -/
def permissionDenialResult (params : Json) : Json :=
  match (options params).find? (kindStartsWith "reject") with
  | some option => selected (((option.get "id").or (option.get "name")).getD .null)
  | none => cancelled

def encodeResponse (id : Unsigned64) (result : Json) : Json :=
  .object [("jsonrpc", .string "2.0"), ("id", .number (.ofU64 id)), ("result", result)]

/-- The answer to a request with another method. -/
def agentRequestUnsupportedLine (id : Unsigned64) : Json :=
  .object [("jsonrpc", .string "2.0"), ("id", .number (.ofU64 id)),
    ("error", .object [("code", .number (.ofI64 ⟨-32601, by decide⟩)),
      ("message", .string "method not supported by this client")])]

def requestPermission : String := "session/request_permission"

/-- The answer to a request. -/
def answer (id : Unsigned64) (method : String) (params : Json) : Json :=
  if method = requestPermission then encodeResponse id (permissionDenialResult params)
  else agentRequestUnsupportedLine id

/-- How the denial of a permission request is told to the supervisor. -/
def denialOutcome (denial : Json) : String :=
  match ((denial.get "outcome").bind fun o => o.get "optionId").bind Json.asStr with
  | some option => "denied via option '" ++ option ++ "'"
  | none => "cancelled (no denial option offered)"

/-- The message as the connection routes it. -/
def Inbound.routed (print : Json → String) : Inbound → Acp.Inbound
  | .response id result => .response id.1 result
  | .responseError id code _ => .responseError id.1 code.1
  | .notification method params => .notification method (parseSessionUpdate print params)
  | .agentRequest _ method params =>
      .agentRequest method (denialOutcome (permissionDenialResult params))

/-- The line as the connection takes it. -/
def routedLine (print : Json → String) : Except CodecError (Option Inbound) → Acp.Line
  | .ok none => .blank
  | .ok (some inbound) => .message (inbound.routed print)
  | .error e => .malformed e.display

/-- The line that is written to the agent for a decoded one. -/
def replyTo : Except CodecError (Option Inbound) → Option Json
  | .ok (some (.agentRequest id method params)) => some (answer id method params)
  | _ => none

/-! ### Requests -/

/-- A request of JSON-RPC. -/
structure Request where
  id : Json
  method : String
  params : Json

/-- The request a value is: it has a method that is a text, and an id that is a text or a number. -/
def requestOf (value : Json) : Option Request := do
  let method ← (value.get "method").bind Json.asStr
  let id ← value.get "id"
  if id.kind = .string ∨ id.kind = .number then
    some ⟨id, method, (value.get "params").getD .null⟩
  else none

/-- What names an option: its `id`, or else its `name`.  A null names nothing. -/
def identity (option : Json) : Option Json :=
  ((option.get "id").or (option.get "name")).filter fun v => v.kind ≠ .null

/-- The response selects an option that rejects and no option that allows, or it cancels. -/
def Denied (params response : Json) : Prop :=
  ∃ outcome, ((response.get "result").bind fun r => r.get "outcome") = some outcome ∧
    (outcome.get "outcome" = some (.string "cancelled") ∨
      outcome.get "outcome" = some (.string "selected") ∧
        ∃ chosen, outcome.get "optionId" = some chosen ∧
          (∃ option ∈ options params, kindStartsWith "reject" option ∧
            identity option = some chosen) ∧
          ∀ option ∈ options params, kindStartsWith "allow" option → identity option ≠ some chosen)

/-- The response answers the request: it has the id of the request, and either a result or an error;
a permission request is denied. -/
structure Request.AnsweredBy (r : Request) (response : Json) : Prop where
  version : response.get "jsonrpc" = some (.string "2.0")
  echoes : response.get "id" = some r.id
  shape : response.get "method" = none ∧
    ((response.get "result").isSome ↔ response.get "error" = none)
  denied : r.method = requestPermission → Denied r.params response

/-- The first option that rejects is named, and no option that allows is named the same. -/
def Deniable (params : Json) : Prop :=
  ∀ option, (options params).find? (kindStartsWith "reject") = some option →
    ∃ chosen, identity option = some chosen ∧
      ∀ other ∈ options params, kindStartsWith "allow" other → identity other ≠ some chosen

/-! ### Answering -/

/-- The request a line is. -/
def request (read : List Char → Option Json) (line : List Char) : Option Request :=
  (read line).bind requestOf

/-- What a request is answered.  An id that is no unsigned integer is not answered. -/
def Request.reply (r : Request) : Option Json :=
  r.id.asU64.map fun id => answer id r.method r.params

variable {read : List Char → Option Json} {line : List Char} {params : Json} {id : Unsigned64}

theorem replyTo_classify (object : Json.Fields) :
    replyTo ((classify object).map some) = (requestOf (.object object)).bind Request.reply := by
  have hget : ∀ key, (Json.object object).get key = object.lookup key := fun _ => rfl
  unfold classify requestOf
  rw [hget, hget, hget]
  cases object.lookup "method" with
  | none =>
      -- a response, or nothing
      dsimp only
      repeat' split
      all_goals rfl
  | some method =>
      cases hmethod : method.asStr with
      | none => simp [hmethod, replyTo, Except.map]
      | some method =>
          cases object.lookup "id" with
          | none => simp [hmethod, replyTo, Except.map]
          | some id =>
              cases hid : id.asU64 with
              | none =>
                  simp only [hmethod, hid, Option.bind_some, Option.bind_eq_bind]
                  split
                  · simp [Request.reply, replyTo, Except.map, hid]
                  · rfl
              | some n =>
                  obtain rfl := Json.asU64_eq_some.1 hid
                  simp [hmethod, hid, replyTo, Except.map, Request.reply, Json.kind]

/-- **What a line is answered depends on the request it is.** -/
theorem reply_eq (hblank : ∀ line, Text.trim line = [] → read line = none) (line : List Char) :
    replyTo (parseLine read line) = (request read line).bind Request.reply := by
  unfold parseLine request
  split
  · rename_i htrim
    rw [hblank line htrim]
    rfl
  · cases read line with
    | none => rfl
    | some value =>
        cases value with
        | object f => exact replyTo_classify f
        | null | bool | number | string | array => rfl

theorem identity_eq_some {option chosen : Json} :
    identity option = some chosen ↔
      (option.get "id").or (option.get "name") = some chosen ∧ chosen.kind ≠ .null := by
  simp [identity, Option.filter_eq_some_iff]

/-- What the first option that rejects is selected by names it, if it names an option at all. -/
theorem identity_selected {option other : Json}
    (h : identity other = some (((option.get "id").or (option.get "name")).getD .null)) :
    identity option = identity other := by
  rw [h]
  have hkind := (identity_eq_some.1 h).2
  cases hname : (option.get "id").or (option.get "name") with
  | none =>
      rw [hname] at hkind
      exact absurd rfl hkind
  | some chosen =>
      rw [hname] at hkind
      exact identity_eq_some.2 ⟨hname, hkind⟩

theorem denied_iff :
    Denied params (encodeResponse id (permissionDenialResult params)) ↔ Deniable params := by
  have houtcome : ∀ outcome : Json,
      Denied params (encodeResponse id (.object [("outcome", outcome)])) ↔
        (outcome.get "outcome" = some (.string "cancelled") ∨
          outcome.get "outcome" = some (.string "selected") ∧
            ∃ chosen, outcome.get "optionId" = some chosen ∧
              (∃ option ∈ options params, kindStartsWith "reject" option ∧
                identity option = some chosen) ∧
              ∀ option ∈ options params, kindStartsWith "allow" option →
                identity option ≠ some chosen) := by
    intro outcome
    refine ⟨fun ⟨outcome', heq, h⟩ => ?_, fun h => ⟨outcome, rfl, h⟩⟩
    obtain rfl : outcome = outcome' := Option.some.inj heq
    exact h
  unfold permissionDenialResult Deniable
  cases hfind : (options params).find? (kindStartsWith "reject") with
  | none =>
      refine iff_of_true ((houtcome _).2 (.inl rfl)) fun _ h => ?_
      cases h
  | some option =>
      have hmem := List.mem_of_find?_eq_some hfind
      have hkind := List.find?_some hfind
      refine (houtcome _).trans ⟨fun h => ?_, fun h => .inr ⟨rfl, _, rfl, ?_⟩⟩
      · intro option' heq
        obtain rfl := Option.some.inj heq
        rcases h with h | ⟨-, chosen, hchosen, ⟨other, -, -, hother⟩, hallow⟩
        · simp [Json.get, Json.asObject, List.lookup_cons] at h
        · obtain rfl := Option.some.inj hchosen
          exact ⟨_, (identity_selected hother).trans hother, hallow⟩
      · obtain ⟨chosen, hchosen, hallow⟩ := h option rfl
        rw [(identity_eq_some.1 hchosen).1]
        exact ⟨⟨option, hmem, hkind, hchosen⟩, hallow⟩

/-- **An answer is right where the request is deniable.** -/
theorem Request.answeredBy_iff {method : String} :
    Request.AnsweredBy ⟨.number (.ofU64 id), method, params⟩ (answer id method params) ↔
      (method = requestPermission → Deniable params) := by
  unfold answer
  split
  · rename_i hmethod
    refine ⟨fun h hm => denied_iff.1 (h.denied hm), fun h => ?_⟩
    exact ⟨rfl, rfl, ⟨rfl, by simp [encodeResponse, Json.get, Json.asObject, List.lookup_cons]⟩,
      fun hm => denied_iff.2 (h hm)⟩
  · rename_i hmethod
    refine iff_of_true ⟨rfl, rfl, ⟨rfl, ?_⟩, fun hm => absurd hm hmethod⟩ fun hm => absurd hm hmethod
    simp [agentRequestUnsupportedLine, Json.get, Json.asObject, List.lookup_cons]

end Acp.Codec

end Hekma
