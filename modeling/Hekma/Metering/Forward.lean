/-
**The relay of a call** (`metering/listener.rs`, `metering/fence.rs`).

The proxy serves every connection on its own.  A request is first held against the fence of the
Run.  Then its body is collected, it goes to the upstream, the body of the answer is collected, and
with the answer the usage it reports enters the queue.  In between the task of the request waits:
other requests go on, the pipeline raises the fence, and the reaper takes the queue.

A task is a step function on what it waits for; `forward` says what it does with the whole of its
bodies at once.

Main definitions:

* `Metering.forward` — a request, its body and the upstream;
* `Metering.Exchange.hear` — the task of a request goes on;
* `Metering.Proxy.step` — the events of the proxy;
* `Metering.Proxy.Faithful` — what holds of a run.

Main results:

* `Metering.Proxy.faithful_run` — **every answer is the one `forward` gives under the fence the
  request has met**, what goes to the upstream goes there once, and the queue gets the usage of
  every answered request, in the order of the answers;
* `Metering.Proxy.refused_run` — after a reason has been raised no call gets through.
-/

import Hekma.Lib.Slots
import Hekma.Metering.Fence
import Hekma.Metering.Inject
import Mathlib.Tactic

set_option relaxedAutoImplicit false
set_option autoImplicit false

namespace Hekma

namespace Metering

open Governance (LatchKey)

/-! ### Bodies -/

/-- A frame of a body, or the failure of the connection it comes over. -/
inductive Frame where
  | data (bytes : Bytes)
  | trailers
  | failed

def maxRelayBodyBytes : ℕ := 64 * 1024 * 1024

/-- Collect one more frame, up to the limit. -/
def collectFrame (read : Bytes) : Frame → Option Bytes
  | .data bytes =>
      if read.length + bytes.length ≤ maxRelayBodyBytes then some (read ++ bytes) else none
  | .trailers => some read
  | .failed => none

/-- Collect a body. -/
def collect (frames : List Frame) : Option Bytes := frames.foldlM collectFrame []

/-! ### Requests and answers -/

structure Request (Map Uri : Type) where
  method : Method
  uri : Uri
  headers : Map

/-- What goes to the upstream. -/
structure Outbound (Map Uri : Type) where
  method : Method
  uri : Uri
  headers : Map
  body : Bytes

structure Head (Map : Type) where
  status : ℕ
  headers : Map

structure Response (Map : Type) where
  status : ℕ
  headers : Map
  body : Bytes

/-- What the listener works with: header maps, addresses, the parsers of JSON texts, and the
address of the upstream. -/
structure Listener (Name Value Map Uri Number : Type) where
  http : Http Name Value Map
  contentType : Name
  expect : Name
  xShouldRetry : Name
  fromStatic : String → Value
  serde : Serde Number
  fromSlice : Bytes → Option Json
  /-- The path of an address with its query, where it has one. -/
  pathAndQuery : Uri → Option (List Char)
  path : Uri → List Char
  parse : List Char → Option Uri
  upstream : List Char

/-- What comes of a request: the answer, what has gone to the upstream, and the usage that has been
put into the queue. -/
structure Outcome (Map Uri : Type) where
  answer : Response Map
  sent : Option (Outbound Map Uri)
  metered : Option UsageCounts

section

variable {Name Value Map Uri Number : Type} [DecidableEq Name]
  (listener : Listener Name Value Map Uri Number)

/-- The safe methods pass the fence. -/
def isFenceExempt (method : Method) : Bool :=
  method = .get || method = .head || method = .options

def refusalResponse (refusal : FenceRefusal) : Response Map where
  status := refusal.status
  headers := listener.http.append
    (listener.http.append listener.http.empty listener.contentType
      (listener.fromStatic "application/json"))
    listener.xShouldRetry (listener.fromStatic "false")
  body := Utf8.encode (refusalBody refusal).toList

/-- The answer to a call that could not be relayed. -/
def badGateway : Response Map :=
  ⟨502, listener.http.empty,
    Utf8.encode "ktesio engine-observed proxy: upstream request failed".toList⟩

def buildUpstreamUri (uri : Uri) : Option Uri :=
  let base := (Text.trim listener.upstream).rdropWhile (· = '/')
  let pathAndQuery := (listener.pathAndQuery uri).getD ['/']
  -- The asterisk form has no path to join onto the base.
  if pathAndQuery = ['*'] then none else listener.parse (base ++ pathAndQuery)

/-- The headers declare a stream of events. -/
def isSse (headers : Map) : Bool :=
  match (listener.http.getAll headers listener.contentType).head?.bind listener.http.toStr with
  | none => false
  | some text => decide ("text/event-stream".toList <:+: text.map Char.toLower)

/-- The client has not sent the body of the request yet. -/
def awaitsContinue (headers : Map) : Bool :=
  match (listener.http.getAll headers listener.expect).head?.bind listener.http.toStr with
  | none => false
  | some text => text.map Char.toLower = "100-continue".toList

/-- What the fence says to a request. -/
def fenceCheck (fence : WireFence) (request : Request Map Uri) : Option FenceRefusal :=
  if isFenceExempt request.method then none else fence.refusal

/-- What goes to the upstream for a request whose body has been collected. -/
def outboundOf (request : Request Map Uri) (uri : Uri) (collected : Bytes) : Outbound Map Uri where
  method := request.method
  uri := uri
  headers := requestHeaders listener.http request.headers
  body := injectIncludeUsage listener.http listener.contentType listener.serde request.method
    (listener.path request.uri) request.headers collected

/-- The usage of an answer. -/
def skim (head : Head Map) (collected : Bytes) : Option UsageCounts :=
  if isSse listener head.headers then parseOpenaiSseUsage listener.fromSlice collected
  else parseOpenaiUsage listener.fromSlice collected

/-- The answer of the upstream as the agent gets it. -/
def relayed (head : Head Map) (collected : Bytes) : Response Map :=
  ⟨head.status, stripHopByHop listener.http head.headers, collected⟩

/-- Relay a request. -/
def forward (fence : WireFence) (request : Request Map Uri) (body : List Frame)
    (client : Outbound Map Uri → Option (Head Map × List Frame)) : Outcome Map Uri :=
  match fenceCheck fence request with
  | some refusal => ⟨refusalResponse listener refusal, none, none⟩
  | none =>
      match buildUpstreamUri listener request.uri with
      | none => ⟨badGateway listener, none, none⟩
      | some uri =>
          match collect body with
          | none => ⟨badGateway listener, none, none⟩
          | some collected =>
              let outbound := outboundOf listener request uri collected
              match client outbound with
              | none => ⟨badGateway listener, some outbound, none⟩
              | some (head, resBody) =>
                  match collect resBody with
                  | none => ⟨badGateway listener, some outbound, none⟩
                  | some resCollected =>
                      ⟨relayed listener head resCollected, some outbound,
                        skim listener head resCollected⟩

/-! ### The task of a request -/

/-- Where the task of a request waits. -/
inductive Phase (Map Uri : Type) where
  /-- The body of a refused request is read and thrown away. -/
  | draining (refusal : FenceRefusal) (seen : ℕ)
  | reading (uri : Uri) (read : Bytes)
  | awaiting
  | relaying (head : Head Map) (read : Bytes)
  | answered (response : Response Map)
  /-- The agent has hung up. -/
  | dropped

/-- What the task of a request waits for. -/
inductive Heard (Map : Type) where
  | frame (frame : Frame)
  | endOfBody
  /-- The head of the answer, or none where the upstream could not be asked. -/
  | upstream (reply : Option (Head Map))

/-- What a task does to the others. -/
inductive Effect (Map Uri : Type) where
  | send (outbound : Outbound Map Uri)
  | answer (metered : Option UsageCounts)

/-- A request, what it has met, and what its task has read and done so far. -/
structure Exchange (Map Uri : Type) where
  request : Request Map Uri
  /-- The reasons that had been raised when the request arrived. -/
  raised : List LatchKey
  fence : WireFence
  body : List Frame
  reply : Option (Option (Head Map))
  resBody : List Frame
  sent : Option (Outbound Map Uri)
  metered : Option UsageCounts
  phase : Phase Map Uri

namespace Exchange

/-- A request arrives. -/
def arrive (raised : List LatchKey) (fence : WireFence) (request : Request Map Uri) :
    Exchange Map Uri where
  request := request
  raised := raised
  fence := fence
  body := []
  reply := none
  resBody := []
  sent := none
  metered := none
  phase :=
    match fenceCheck fence request with
    | some refusal =>
        if awaitsContinue listener request.headers then
          .answered (refusalResponse listener refusal)
        else .draining refusal 0
    | none =>
        match buildUpstreamUri listener request.uri with
        | none => .answered (badGateway listener)
        | some uri => .reading uri []

/-- The task is done. -/
def finish (x : Exchange Map Uri) (response : Response Map) (metered : Option UsageCounts) :
    Exchange Map Uri × Option (Effect Map Uri) :=
  ({ x with metered := metered, phase := .answered response }, some (.answer metered))

/-- The task goes on, and what it does then.  What does not belong to where it waits does not reach
it. -/
def hear (x : Exchange Map Uri) (heard : Heard Map) : Exchange Map Uri × Option (Effect Map Uri) :=
  match x.phase, heard with
  | .draining refusal seen, .frame frame =>
      let x := { x with body := x.body ++ [frame] }
      match frame with
      | .data bytes =>
          let seen := seen + bytes.length
          if seen > maxRelayBodyBytes then x.finish (refusalResponse listener refusal) none
          else ({ x with phase := .draining refusal seen }, none)
      | .trailers => (x, none)
      | .failed => x.finish (refusalResponse listener refusal) none
  | .draining refusal _, .endOfBody => x.finish (refusalResponse listener refusal) none
  | .reading uri read, .frame frame =>
      let x := { x with body := x.body ++ [frame] }
      match collectFrame read frame with
      | none => x.finish (badGateway listener) none
      | some read => ({ x with phase := .reading uri read }, none)
  | .reading uri read, .endOfBody =>
      let outbound := outboundOf listener x.request uri read
      ({ x with sent := some outbound, phase := .awaiting }, some (.send outbound))
  | .awaiting, .upstream none =>
      { x with reply := some none }.finish (badGateway listener) none
  | .awaiting, .upstream (some head) =>
      ({ x with reply := some (some head), phase := .relaying head [] }, none)
  | .relaying head read, .frame frame =>
      let x := { x with resBody := x.resBody ++ [frame] }
      match collectFrame read frame with
      | none => x.finish (badGateway listener) none
      | some read => ({ x with phase := .relaying head read }, none)
  | .relaying head read, .endOfBody =>
      x.finish (relayed listener head read) (skim listener head read)
  | _, _ => (x, none)

/-- The agent hangs up: a task that has not answered is dropped. -/
def hangUp (x : Exchange Map Uri) : Exchange Map Uri :=
  match x.phase with
  | .answered _ => x
  | _ => { x with phase := .dropped }

def isAnswered (x : Exchange Map Uri) : Bool :=
  match x.phase with
  | .answered _ => true
  | _ => false

/-- The upstream, as far as the task has heard of it. -/
def client (x : Exchange Map Uri) : Outbound Map Uri → Option (Head Map × List Frame) :=
  fun _ => x.reply.join.map fun head => (head, x.resBody)

end Exchange

/-! ### The proxy -/

/-- The proxy of a Run: the fence, the requests in the order they arrived, and the queue.  Of the
run it keeps what has been raised, what has gone to the upstream, which requests have been
answered, and what the reaper has taken. -/
structure Proxy (Map Uri : Type) where
  fence : WireFence
  exchanges : List (Exchange Map Uri)
  queue : List UsageCounts
  raised : List LatchKey
  sent : List (ℕ × Outbound Map Uri)
  completed : List ℕ
  taken : List UsageCounts

inductive ProxyEvent (Map Uri : Type) where
  | arrive (request : Request Map Uri)
  | hear (i : ℕ) (heard : Heard Map)
  | hangUp (i : ℕ)
  /-- The pipeline raises the fence. -/
  | raise (reason : LatchKey)
  /-- The reaper takes the queue. -/
  | take

namespace Proxy

/-- The proxy of a new Run. -/
def start : Proxy Map Uri := ⟨.default, [], [], [], [], [], []⟩

/-- What the task of a request does: a request to the upstream, or an answer, whose usage enters
the queue. -/
def perform (p : Proxy Map Uri) (i : ℕ) : Option (Effect Map Uri) → Proxy Map Uri
  | none => p
  | some (.send outbound) => { p with sent := p.sent ++ [(i, outbound)] }
  | some (.answer metered) =>
      { p with queue := p.queue ++ metered.toList, completed := p.completed ++ [i] }

def step (p : Proxy Map Uri) : ProxyEvent Map Uri → Proxy Map Uri
  | .arrive request =>
      let x := Exchange.arrive listener p.raised p.fence request
      { p with
        exchanges := p.exchanges ++ [x]
        completed :=
          if x.isAnswered then p.completed ++ [p.exchanges.length] else p.completed }
  | .hear i heard =>
      match p.exchanges[i]? with
      | none => p
      | some x =>
          let (y, effect) := x.hear listener heard
          { p with exchanges := p.exchanges.set i y }.perform i effect
  | .hangUp i =>
      match p.exchanges[i]? with
      | none => p
      | some x => { p with exchanges := p.exchanges.set i x.hangUp }
  | .raise reason => { p with fence := p.fence.raise reason, raised := p.raised ++ [reason] }
  | .take => { p with queue := [], taken := p.taken ++ p.queue }

/-- The proxy after some events. -/
def run (events : List (ProxyEvent Map Uri)) : Proxy Map Uri := events.foldl (step listener) start

end Proxy

/-! ### What holds of a run -/

/-- The request has gone to the upstream, with the whole of its body. -/
def Exchange.Sent (x : Exchange Map Uri) : Prop :=
  ∃ uri collected, fenceCheck x.fence x.request = none ∧
    buildUpstreamUri listener x.request.uri = some uri ∧ collect x.body = some collected ∧
    x.sent = some (outboundOf listener x.request uri collected)

/-- What holds of a run of the proxy. -/
structure Proxy.Faithful (p : Proxy Map Uri) : Prop where
  /-- An answer is the one `forward` gives, and the rest is what `forward` does. -/
  answered : ∀ x ∈ p.exchanges, ∀ response, x.phase = .answered response →
    forward listener x.fence x.request x.body x.client = ⟨response, x.sent, x.metered⟩
  /-- A request that is not answered has no usage. -/
  waiting : ∀ x ∈ p.exchanges, x.isAnswered = false →
    x.metered = none ∧ (x.sent = none ∨ x.Sent listener)
  /-- The fence a request meets is that of the reasons raised so far. -/
  fence : ∀ x ∈ p.exchanges, x.fence.refusal = fenceRefusal x.raised ∧ x.raised <+: p.raised
  /-- A request goes to the upstream once. -/
  sent : ∀ i x, p.exchanges[i]? = some x →
    (p.sent.filter fun e => e.1 = i).map Prod.snd = x.sent.toList
  completed : p.completed.Nodup ∧
    ∀ i, i ∈ p.completed ↔ ∃ x, p.exchanges[i]? = some x ∧ x.isAnswered
  /-- The queue has the usage of every answered request, in the order of the answers. -/
  queue : p.taken ++ p.queue =
    p.completed.filterMap fun i => p.exchanges[i]?.bind Exchange.metered

end

section

variable {Name Value Map Uri Number : Type} [DecidableEq Name]
  {listener : Listener Name Value Map Uri Number}

/-! ### Collecting a body -/

theorem collect_append (frames : List Frame) (frame : Frame) :
    collect (frames ++ [frame]) = (collect frames).bind fun read => collectFrame read frame := by
  rw [collect, List.foldlM_append]
  refine Option.bind_congr fun read _ => ?_
  cases h : collectFrame read frame <;> simp [h]

theorem collect_append_of_some {frames : List Frame} {read : Bytes}
    (h : collect frames = some read) (frame : Frame) :
    collect (frames ++ [frame]) = collectFrame read frame := by
  rw [collect_append, h, Option.bind_some]

/-! ### What `forward` does -/

section Forward

variable {fence : WireFence} {request : Request Map Uri} {body resBody : List Frame}
  {client : Outbound Map Uri → Option (Head Map × List Frame)} {refusal : FenceRefusal} {uri : Uri}
  {collected resCollected : Bytes} {head : Head Map}

theorem forward_of_refused (h : fenceCheck fence request = some refusal) :
    forward listener fence request body client =
      ⟨refusalResponse listener refusal, none, none⟩ := by
  rw [forward, h]

theorem forward_of_no_uri (h : fenceCheck fence request = none)
    (huri : buildUpstreamUri listener request.uri = none) :
    forward listener fence request body client = ⟨badGateway listener, none, none⟩ := by
  rw [forward, h, huri]

theorem forward_of_no_body (h : fenceCheck fence request = none)
    (huri : buildUpstreamUri listener request.uri = some uri) (hbody : collect body = none) :
    forward listener fence request body client = ⟨badGateway listener, none, none⟩ := by
  rw [forward, h, huri, hbody]

theorem forward_of_no_reply (h : fenceCheck fence request = none)
    (huri : buildUpstreamUri listener request.uri = some uri)
    (hbody : collect body = some collected)
    (hclient : client (outboundOf listener request uri collected) = none) :
    forward listener fence request body client =
      ⟨badGateway listener, some (outboundOf listener request uri collected), none⟩ := by
  rw [forward, h, huri, hbody]
  simp only [hclient]

theorem forward_of_no_answer (h : fenceCheck fence request = none)
    (huri : buildUpstreamUri listener request.uri = some uri)
    (hbody : collect body = some collected)
    (hclient : client (outboundOf listener request uri collected) = some (head, resBody))
    (hres : collect resBody = none) :
    forward listener fence request body client =
      ⟨badGateway listener, some (outboundOf listener request uri collected), none⟩ := by
  rw [forward, h, huri, hbody]
  simp only [hclient, hres]

theorem forward_of_answer (h : fenceCheck fence request = none)
    (huri : buildUpstreamUri listener request.uri = some uri)
    (hbody : collect body = some collected)
    (hclient : client (outboundOf listener request uri collected) = some (head, resBody))
    (hres : collect resBody = some resCollected) :
    forward listener fence request body client =
      ⟨relayed listener head resCollected, some (outboundOf listener request uri collected),
        skim listener head resCollected⟩ := by
  rw [forward, h, huri, hbody]
  simp only [hclient, hres]

end Forward

/-! ### What a task has done so far -/

namespace Exchange

/-- Nothing has come of the request so far. -/
structure Fresh (x : Exchange Map Uri) : Prop where
  sent : x.sent = none
  reply : x.reply = none
  resBody : x.resBody = []
  metered : x.metered = none

/-- What a task has done, from where it waits. -/
def Explained (listener : Listener Name Value Map Uri Number) (x : Exchange Map Uri) : Prop :=
  match x.phase with
  | .draining refusal _ => fenceCheck x.fence x.request = some refusal ∧ x.Fresh
  | .reading uri read =>
      fenceCheck x.fence x.request = none ∧ buildUpstreamUri listener x.request.uri = some uri ∧
        collect x.body = some read ∧ x.Fresh
  | .awaiting => x.Sent listener ∧ x.reply = none ∧ x.resBody = [] ∧ x.metered = none
  | .relaying head read =>
      x.Sent listener ∧ x.reply = some (some head) ∧ collect x.resBody = some read ∧
        x.metered = none
  | .answered response =>
      forward listener x.fence x.request x.body x.client = ⟨response, x.sent, x.metered⟩
  | .dropped => x.metered = none ∧ (x.sent = none ∨ x.Sent listener)

/-- What a task may do to the others, and what it then knows of it. -/
inductive Does (x y : Exchange Map Uri) : Option (Effect Map Uri) → Prop where
  | quiet (sent : y.sent = x.sent) (metered : y.metered = x.metered)
      (answered : y.isAnswered = x.isAnswered) : Does x y none
  | send (outbound : Outbound Map Uri) (unsent : x.sent = none) (sent : y.sent = some outbound)
      (metered : y.metered = x.metered) (answered : y.isAnswered = x.isAnswered) :
      Does x y (some (.send outbound))
  | answer (metered : Option UsageCounts) (sent : y.sent = x.sent) (counts : y.metered = metered)
      (open_ : x.isAnswered = false) (answered : y.isAnswered = true) :
      Does x y (some (.answer metered))

/-- How a task goes on. -/
structure Goes (listener : Listener Name Value Map Uri Number) (x : Exchange Map Uri)
    (p : Exchange Map Uri × Option (Effect Map Uri)) : Prop where
  explained : p.1.Explained listener
  does : x.Does p.1 p.2
  raised : p.1.raised = x.raised
  fence : p.1.fence = x.fence

variable {x : Exchange Map Uri} {refusal : FenceRefusal} {seen : ℕ} {uri : Uri} {read : Bytes}
  {head : Head Map}

theorem Goes.same (h : x.Explained listener) : x.Goes listener (x, none) :=
  ⟨h, .quiet rfl rfl rfl, rfl, rfl⟩

theorem goes_draining (h : x.Explained listener) (hphase : x.phase = .draining refusal seen)
    (heard : Heard Map) : x.Goes listener (x.hear listener heard) := by
  have hopen : x.isAnswered = false := by rw [isAnswered, hphase]
  simp only [Explained, hphase] at h
  obtain ⟨hcheck, hfresh⟩ := h
  -- What is read of the body makes no difference to a refusal.
  have hfinish : ∀ body, x.Goes listener
      ({ x with body := body }.finish (refusalResponse listener refusal) none) := by
    intro body
    refine ⟨?_, .answer none rfl rfl hopen rfl, rfl, rfl⟩
    rw [Explained]
    simp only [finish, forward_of_refused hcheck, hfresh.sent]
  have hdrain : ∀ body seen, x.Goes listener
      ({ x with body := body, phase := .draining refusal seen }, none) := by
    intro body seen
    exact ⟨⟨hcheck, hfresh.1, hfresh.2, hfresh.3, hfresh.4⟩, .quiet rfl rfl hopen.symm, rfl, rfl⟩
  unfold hear
  rw [hphase]
  cases heard with
  | upstream reply => exact Goes.same (by simpa only [Explained, hphase] using ⟨hcheck, hfresh⟩)
  | endOfBody => exact hfinish x.body
  | frame frame =>
      cases frame with
      | trailers => exact hdrain _ _
      | failed => exact hfinish _
      | data bytes =>
          dsimp only
          split
          · exact hfinish _
          · exact hdrain _ _

theorem goes_reading (h : x.Explained listener) (hphase : x.phase = .reading uri read)
    (heard : Heard Map) : x.Goes listener (x.hear listener heard) := by
  have hopen : x.isAnswered = false := by rw [isAnswered, hphase]
  have hsame := h
  simp only [Explained, hphase] at h
  obtain ⟨hcheck, huri, hread, hfresh⟩ := h
  unfold hear
  rw [hphase]
  cases heard with
  | upstream reply => exact Goes.same hsame
  | endOfBody =>
      exact ⟨⟨⟨uri, read, hcheck, huri, hread, rfl⟩, hfresh.reply, hfresh.resBody, hfresh.metered⟩,
        .send _ hfresh.sent rfl rfl hopen.symm, rfl, rfl⟩
  | frame frame =>
      dsimp only
      have hmore := collect_append_of_some hread frame
      split
      · next hnone =>
          refine ⟨?_, .answer none rfl rfl hopen rfl, rfl, rfl⟩
          rw [hnone] at hmore
          rw [Explained]
          simp only [finish, forward_of_no_body hcheck huri hmore, hfresh.sent]
      · next more hsome =>
          rw [hsome] at hmore
          exact ⟨⟨hcheck, huri, hmore, hfresh.1, hfresh.2, hfresh.3, hfresh.4⟩,
            .quiet rfl rfl hopen.symm, rfl, rfl⟩

theorem goes_awaiting (h : x.Explained listener) (hphase : x.phase = .awaiting)
    (heard : Heard Map) : x.Goes listener (x.hear listener heard) := by
  have hopen : x.isAnswered = false := by rw [isAnswered, hphase]
  have hsame := h
  simp only [Explained, hphase] at h
  obtain ⟨hsent, hreply, hres, hmetered⟩ := h
  unfold hear
  rw [hphase]
  cases heard with
  | frame frame => exact Goes.same hsame
  | endOfBody => exact Goes.same hsame
  | upstream reply =>
      cases reply with
      | none =>
          obtain ⟨uri, collected, hcheck, huri, hbody, hsent⟩ := hsent
          refine ⟨?_, .answer none rfl rfl hopen rfl, rfl, rfl⟩
          rw [Explained]
          simp only [finish, hsent]
          exact forward_of_no_reply hcheck huri hbody rfl
      | some head =>
          refine ⟨⟨hsent, rfl, ?_, hmetered⟩, .quiet rfl rfl hopen.symm, rfl, rfl⟩
          rw [hres]
          rfl

theorem goes_relaying (h : x.Explained listener) (hphase : x.phase = .relaying head read)
    (heard : Heard Map) : x.Goes listener (x.hear listener heard) := by
  have hopen : x.isAnswered = false := by rw [isAnswered, hphase]
  have hsame := h
  simp only [Explained, hphase] at h
  obtain ⟨hsent, hreply, hread, hmetered⟩ := h
  obtain ⟨uri, collected, hcheck, huri, hbody, hout⟩ := hsent
  have hclient : ∀ resBody, { x with resBody := resBody }.client
      (outboundOf listener x.request uri collected) = some (head, resBody) := by
    intro resBody
    rw [client, hreply]
    rfl
  unfold hear
  rw [hphase]
  cases heard with
  | upstream reply => exact Goes.same hsame
  | endOfBody =>
      refine ⟨?_, .answer _ rfl rfl hopen rfl, rfl, rfl⟩
      rw [Explained]
      simp only [finish, hout]
      exact forward_of_answer hcheck huri hbody (hclient x.resBody) hread
  | frame frame =>
      dsimp only
      have hmore := collect_append_of_some hread frame
      split
      · next hnone =>
          rw [hnone] at hmore
          refine ⟨?_, .answer none rfl rfl hopen rfl, rfl, rfl⟩
          rw [Explained]
          simp only [finish, hout]
          exact forward_of_no_answer hcheck huri hbody (hclient _) hmore
      · next more hsome =>
          rw [hsome] at hmore
          exact ⟨⟨⟨uri, collected, hcheck, huri, hbody, hout⟩, hreply, hmore, hmetered⟩,
            .quiet rfl rfl hopen.symm, rfl, rfl⟩

/-- What a task does when it goes on. -/
theorem goes (h : x.Explained listener) (heard : Heard Map) :
    x.Goes listener (x.hear listener heard) := by
  cases hphase : x.phase with
  | draining refusal seen => exact goes_draining h hphase heard
  | reading uri read => exact goes_reading h hphase heard
  | awaiting => exact goes_awaiting h hphase heard
  | relaying head read => exact goes_relaying h hphase heard
  | answered response =>
      unfold hear
      rw [hphase]
      exact Goes.same h
  | dropped =>
      unfold hear
      rw [hphase]
      exact Goes.same h

theorem explained_arrive (raised : List LatchKey) (fence : WireFence) (request : Request Map Uri) :
    (arrive listener raised fence request).Explained listener := by
  cases hcheck : fenceCheck fence request with
  | some refusal =>
      by_cases hwaits : awaitsContinue listener request.headers = true
      · simp only [Explained, arrive, hcheck, if_pos hwaits]
        exact forward_of_refused hcheck
      · simp only [Explained, arrive, hcheck, if_neg hwaits, true_and]
        exact ⟨rfl, rfl, rfl, rfl⟩
  | none =>
      cases huri : buildUpstreamUri listener request.uri with
      | none =>
          simp only [Explained, arrive, hcheck, huri]
          exact forward_of_no_uri hcheck huri
      | some uri =>
          simp only [Explained, arrive, hcheck, huri, true_and]
          exact ⟨rfl, rfl, rfl, rfl, rfl⟩

/-- A task that has not answered. -/
theorem Explained.open (h : x.Explained listener) (hopen : x.isAnswered = false) :
    x.metered = none ∧ (x.sent = none ∨ x.Sent listener) := by
  cases hphase : x.phase with
  | answered response =>
      rw [isAnswered, hphase] at hopen
      cases hopen
  | draining refusal seen =>
      simp only [Explained, hphase] at h
      exact ⟨h.2.metered, .inl h.2.sent⟩
  | reading uri read =>
      simp only [Explained, hphase] at h
      exact ⟨h.2.2.2.metered, .inl h.2.2.2.sent⟩
  | awaiting =>
      simp only [Explained, hphase] at h
      exact ⟨h.2.2.2, .inr h.1⟩
  | relaying head read =>
      simp only [Explained, hphase] at h
      exact ⟨h.2.2.2, .inr h.1⟩
  | dropped =>
      simp only [Explained, hphase] at h
      exact h

theorem hangUp_cases :
    x.hangUp = x ∨ x.isAnswered = false ∧ x.hangUp = { x with phase := .dropped } := by
  cases hphase : x.phase <;> simp [hangUp, isAnswered, hphase]

theorem explained_hangUp (h : x.Explained listener) : x.hangUp.Explained listener := by
  obtain hsame | ⟨hopen, hdropped⟩ := x.hangUp_cases
  · rwa [hsame]
  · rw [hdropped]
    exact h.open hopen

theorem hangUp_kept (x : Exchange Map Uri) :
    x.hangUp.sent = x.sent ∧ x.hangUp.metered = x.metered ∧ x.hangUp.raised = x.raised ∧
      x.hangUp.fence = x.fence ∧ x.hangUp.isAnswered = x.isAnswered := by
  obtain hsame | ⟨hopen, hdropped⟩ := x.hangUp_cases
  · rw [hsame]
    exact ⟨rfl, rfl, rfl, rfl, rfl⟩
  · rw [hdropped]
    exact ⟨rfl, rfl, rfl, rfl, hopen.symm⟩

end Exchange

/-! ### The proxy -/

namespace Proxy

/-- What the proxy keeps of the request at a place. -/
structure Keeps (listener : Listener Name Value Map Uri Number) (p : Proxy Map Uri) (i : ℕ)
    (x : Exchange Map Uri) : Prop where
  explained : x.Explained listener
  fence : x.fence = x.raised.foldl WireFence.raise .default
  raised : x.raised <+: p.raised
  sent : (p.sent.filter fun e => e.1 = i).map Prod.snd = x.sent.toList
  completed : i ∈ p.completed ↔ x.isAnswered = true

/-- The invariant of a run. -/
structure Inv (listener : Listener Name Value Map Uri Number) (p : Proxy Map Uri) : Prop where
  fence : p.fence = p.raised.foldl WireFence.raise .default
  exchanges : Slots.All (p.Keeps listener) p.exchanges
  nodup : p.completed.Nodup
  completed_lt : ∀ i ∈ p.completed, i < p.exchanges.length
  sent_lt : ∀ e ∈ p.sent, e.1 < p.exchanges.length
  queue : p.taken ++ p.queue =
    p.completed.filterMap fun i => p.exchanges[i]?.bind Exchange.metered

variable {p : Proxy Map Uri} {i : ℕ} {x y : Exchange Map Uri}

theorem inv_start : (start : Proxy Map Uri).Inv listener :=
  ⟨rfl, .nil, List.nodup_nil, fun _ h => absurd h List.not_mem_nil,
    fun _ h => absurd h List.not_mem_nil, rfl⟩

/-- The usages of the answered requests, after one task has gone on. -/
theorem metered_set (hx : p.exchanges[i]? = some x)
    (hkeep : i ∈ p.completed → y.metered = x.metered) :
    (p.completed.filterMap fun j => (p.exchanges.set i y)[j]?.bind Exchange.metered) =
      p.completed.filterMap fun j => p.exchanges[j]?.bind Exchange.metered := by
  refine List.filterMap_congr fun j hj => ?_
  by_cases hij : i = j
  · subst hij
    rw [List.getElem?_set_self (List.getElem?_eq_some_iff.1 hx).1, hx, Option.bind_some,
      Option.bind_some, hkeep hj]
  · rw [List.getElem?_set_ne hij]

/-- A task has gone on and has done nothing to the others. -/
theorem inv_quiet (h : p.Inv listener) (hx : p.exchanges[i]? = some x)
    (hy : y.Explained listener) (hsent : y.sent = x.sent) (hmetered : y.metered = x.metered)
    (hanswered : y.isAnswered = x.isAnswered) (hraised : y.raised = x.raised)
    (hfence : y.fence = x.fence) :
    Inv listener { p with exchanges := p.exchanges.set i y } := by
  have hkeeps := h.exchanges i x hx
  refine ⟨h.fence, Slots.All.set (fun j z hz _ => ?_) ?_, h.nodup, ?_, ?_, ?_⟩
  · obtain ⟨h1, h2, h3, h4, h5⟩ := h.exchanges j z hz
    exact ⟨h1, h2, h3, h4, h5⟩
  · refine ⟨hy, ?_, ?_, ?_, ?_⟩
    · rw [hfence, hraised, hkeeps.fence]
    · rw [hraised]
      exact hkeeps.raised
    · rw [hsent]
      exact hkeeps.sent
    · rw [hanswered]
      exact hkeeps.completed
  · simpa only [List.length_set] using h.completed_lt
  · simpa only [List.length_set] using h.sent_lt
  · exact h.queue.trans (metered_set hx fun _ => hmetered).symm

/-- The body of a request has been read, and it goes to the upstream. -/
theorem inv_send (h : p.Inv listener) (hx : p.exchanges[i]? = some x)
    {outbound : Outbound Map Uri} (hy : y.Explained listener) (hunsent : x.sent = none)
    (hsent : y.sent = some outbound) (hmetered : y.metered = x.metered)
    (hanswered : y.isAnswered = x.isAnswered) (hraised : y.raised = x.raised)
    (hfence : y.fence = x.fence) :
    Inv listener { p with
      exchanges := p.exchanges.set i y, sent := p.sent ++ [(i, outbound)] } := by
  have hkeeps := h.exchanges i x hx
  have hlt := (List.getElem?_eq_some_iff.1 hx).1
  refine ⟨h.fence, Slots.All.set (fun j z hz hji => ?_) ?_, h.nodup, ?_, ?_, ?_⟩
  · obtain ⟨h1, h2, h3, h4, h5⟩ := h.exchanges j z hz
    refine ⟨h1, h2, h3, ?_, h5⟩
    have hother : decide (i = j) = false := decide_eq_false fun hij => hji hij.symm
    rw [List.filter_append, List.filter_singleton, hother, ← h4]
    simp
  · refine ⟨hy, ?_, ?_, ?_, ?_⟩
    · rw [hfence, hraised, hkeeps.fence]
    · rw [hraised]
      exact hkeeps.raised
    · have hnone := hkeeps.sent
      rw [hunsent, Option.toList_none, List.map_eq_nil_iff] at hnone
      rw [List.filter_append, hnone, hsent]
      simp
    · rw [hanswered]
      exact hkeeps.completed
  · simpa only [List.length_set] using h.completed_lt
  · intro e he
    rw [List.length_set]
    rcases List.mem_append.1 he with hold | hnew
    · exact h.sent_lt e hold
    · rw [List.mem_singleton.1 hnew]
      exact hlt
  · exact h.queue.trans (metered_set hx fun _ => hmetered).symm

/-- A request has been answered. -/
theorem inv_answer (h : p.Inv listener) (hx : p.exchanges[i]? = some x)
    (hy : y.Explained listener) (hsent : y.sent = x.sent) (hopen : x.isAnswered = false)
    (hanswered : y.isAnswered = true) (hraised : y.raised = x.raised) (hfence : y.fence = x.fence) :
    Inv listener { p with
      exchanges := p.exchanges.set i y, queue := p.queue ++ y.metered.toList,
      completed := p.completed ++ [i] } := by
  have hkeeps := h.exchanges i x hx
  have hlt := (List.getElem?_eq_some_iff.1 hx).1
  have hfresh : i ∉ p.completed := by
    rw [hkeeps.completed, hopen]
    exact Bool.false_ne_true
  refine ⟨h.fence, Slots.All.set (fun j z hz hji => ?_) ?_, ?_, ?_, ?_, ?_⟩
  · obtain ⟨h1, h2, h3, h4, h5⟩ := h.exchanges j z hz
    refine ⟨h1, h2, h3, h4, ?_⟩
    rw [← h5, List.mem_append, List.mem_singleton]
    exact or_iff_left hji
  · refine ⟨hy, ?_, ?_, ?_, ?_⟩
    · rw [hfence, hraised, hkeeps.fence]
    · rw [hraised]
      exact hkeeps.raised
    · rw [hsent]
      exact hkeeps.sent
    · simp [hanswered]
  · exact List.nodup_append.2 ⟨h.nodup, List.nodup_singleton i, by
      rintro j hj k hk rfl
      rw [List.mem_singleton.1 hk] at hj
      exact hfresh hj⟩
  · intro j hj
    rw [List.length_set]
    rcases List.mem_append.1 hj with hold | hnew
    · exact h.completed_lt j hold
    · rw [List.mem_singleton.1 hnew]
      exact hlt
  · simpa only [List.length_set] using h.sent_lt
  · have hself : (p.exchanges.set i y)[i]?.bind Exchange.metered = y.metered := by
      rw [List.getElem?_set_self hlt, Option.bind_some]
    calc p.taken ++ (p.queue ++ y.metered.toList)
        = (p.taken ++ p.queue) ++ y.metered.toList := (List.append_assoc _ _ _).symm
      _ = _ := by
          rw [h.queue, List.filterMap_append,
            metered_set hx fun hin => absurd hin hfresh]
          cases hm : y.metered <;> simp [hself, hm]

theorem inv_hear (h : p.Inv listener) (i : ℕ) (heard : Heard Map) :
    (p.step listener (.hear i heard)).Inv listener := by
  cases hx : p.exchanges[i]? with
  | none => simpa only [step, hx] using h
  | some x =>
      have hgoes := Exchange.goes (h.exchanges i x hx).explained heard
      simp only [step, hx]
      generalize x.hear listener heard = went at hgoes
      obtain ⟨y, effect⟩ := went
      obtain ⟨hy, hdoes, hraised, hfence⟩ := hgoes
      cases hdoes with
      | quiet hsent hmetered hanswered =>
          exact inv_quiet h hx hy hsent hmetered hanswered hraised hfence
      | send outbound hunsent hsent hmetered hanswered =>
          exact inv_send h hx hy hunsent hsent hmetered hanswered hraised hfence
      | answer metered hsent hcounts hopen hanswered =>
          have hdone := inv_answer h hx hy hsent hopen hanswered hraised hfence
          rw [show y.metered = metered from hcounts] at hdone
          exact hdone

theorem inv_hangUp (h : p.Inv listener) (i : ℕ) : (p.step listener (.hangUp i)).Inv listener := by
  cases hx : p.exchanges[i]? with
  | none => simpa only [step, hx] using h
  | some x =>
      simp only [step, hx]
      obtain ⟨hsent, hmetered, hraised, hfence, hanswered⟩ := x.hangUp_kept
      exact inv_quiet h hx (Exchange.explained_hangUp (h.exchanges i x hx).explained) hsent
        hmetered hanswered hraised hfence

theorem inv_arrive (h : p.Inv listener) (request : Request Map Uri) :
    (p.step listener (.arrive request)).Inv listener := by
  simp only [step]
  generalize hx : Exchange.arrive listener p.raised p.fence request = x
  have hexplained : x.Explained listener := hx ▸ Exchange.explained_arrive _ _ _
  have hraised : x.raised = p.raised := hx ▸ rfl
  have hfence : x.fence = p.fence := hx ▸ rfl
  have hsent : x.sent = none := hx ▸ rfl
  have hmetered : x.metered = none := hx ▸ rfl
  generalize hcompleted :
    (if x.isAnswered then p.completed ++ [p.exchanges.length] else p.completed) = completed
  have hmem : ∀ j, j ∈ completed ↔ j ∈ p.completed ∨ j = p.exchanges.length ∧ x.isAnswered := by
    intro j
    rw [← hcompleted]
    split <;> simp [*]
  have hnew : p.exchanges.length ∉ p.completed := fun hin =>
    absurd (h.completed_lt _ hin) (lt_irrefl _)
  refine ⟨h.fence, Slots.All.append (fun j z hz => ?_) ?_, ?_, ?_, ?_, ?_⟩
  · obtain ⟨h1, h2, h3, h4, h5⟩ := h.exchanges j z hz
    refine ⟨h1, h2, h3, h4, ?_⟩
    rw [← h5, hmem]
    exact or_iff_left fun hj => absurd (List.getElem?_eq_some_iff.1 hz).1 (by omega)
  · refine ⟨hexplained, ?_, ?_, ?_, ?_⟩
    · rw [hfence, hraised, h.fence]
    · rw [hraised]
    · have hnone : p.sent.filter (fun e => e.1 = p.exchanges.length) = [] :=
        List.filter_eq_nil_iff.2 fun e he heq =>
          absurd (h.sent_lt e he) (by rw [of_decide_eq_true heq]; exact lt_irrefl _)
      rw [hnone, hsent]
      rfl
    · rw [hmem]
      simp [hnew]
  · rw [← hcompleted]
    split
    · exact List.nodup_append.2 ⟨h.nodup, List.nodup_singleton _, by
        rintro j hj k hk rfl
        rw [List.mem_singleton.1 hk] at hj
        exact hnew hj⟩
    · exact h.nodup
  · intro j hj
    rw [List.length_append, List.length_singleton]
    rcases (hmem j).1 hj with hold | ⟨rfl, -⟩
    · exact Nat.lt_succ_of_lt (h.completed_lt j hold)
    · exact Nat.lt_succ_self _
  · intro e he
    rw [List.length_append, List.length_singleton]
    exact Nat.lt_succ_of_lt (h.sent_lt e he)
  · have hold : (p.completed.filterMap fun j => (p.exchanges ++ [x])[j]?.bind Exchange.metered) =
        p.completed.filterMap fun j => p.exchanges[j]?.bind Exchange.metered :=
      List.filterMap_congr fun j hj => by rw [List.getElem?_append_left (h.completed_lt j hj)]
    rw [h.queue, ← hold, ← hcompleted]
    split
    · rw [List.filterMap_append]
      simp [hmetered]
    · rfl

theorem inv_step (h : p.Inv listener) (event : ProxyEvent Map Uri) :
    (p.step listener event).Inv listener := by
  cases event with
  | arrive request => exact inv_arrive h request
  | hear i heard => exact inv_hear h i heard
  | hangUp i => exact inv_hangUp h i
  | raise reason =>
      refine ⟨?_, h.exchanges.imp fun i x _ hx => ?_, h.nodup, h.completed_lt, h.sent_lt, h.queue⟩
      · simp only [step, h.fence, List.foldl_append, List.foldl_cons, List.foldl_nil]
      · exact ⟨hx.explained, hx.fence, hx.raised.trans (List.prefix_append _ _), hx.sent,
          hx.completed⟩
  | take =>
      refine ⟨h.fence, h.exchanges.imp fun i x _ hx => ?_, h.nodup, h.completed_lt, h.sent_lt, ?_⟩
      · exact ⟨hx.explained, hx.fence, hx.raised, hx.sent, hx.completed⟩
      · simpa only [step, List.append_nil] using h.queue

theorem inv_foldl (h : p.Inv listener) (events : List (ProxyEvent Map Uri)) :
    (events.foldl (step listener) p).Inv listener := by
  induction events generalizing p with
  | nil => exact h
  | cons event events ih => exact ih (inv_step h event)

theorem Inv.faithful (h : p.Inv listener) : p.Faithful listener := by
  have hkeeps : ∀ x ∈ p.exchanges, ∃ i, p.Keeps listener i x := by
    intro x hx
    obtain ⟨i, hi⟩ := List.getElem?_of_mem hx
    exact ⟨i, h.exchanges i x hi⟩
  refine ⟨fun x hx response hphase => ?_, fun x hx hopen => ?_, fun x hx => ?_,
    fun i x hx => (h.exchanges i x hx).sent, ⟨h.nodup, fun i => ⟨fun hi => ?_, ?_⟩⟩, h.queue⟩
  · obtain ⟨i, hi⟩ := hkeeps x hx
    have hexplained := hi.explained
    simpa only [Exchange.Explained, hphase] using hexplained
  · obtain ⟨i, hi⟩ := hkeeps x hx
    exact hi.explained.open hopen
  · obtain ⟨i, hi⟩ := hkeeps x hx
    rw [hi.fence, WireFence.refusal_raiseAll]
    exact ⟨rfl, hi.raised⟩
  · have hlt := h.completed_lt i hi
    refine ⟨p.exchanges[i], List.getElem?_eq_getElem hlt, ?_⟩
    exact (h.exchanges i _ (List.getElem?_eq_getElem hlt)).completed.1 hi
  · rintro ⟨x, hx, hanswered⟩
    exact (h.exchanges i x hx).completed.2 hanswered

/-- **Every answer is the one `forward` gives**, whatever the other requests, the pipeline and the
reaper do in between. -/
theorem faithful_run (events : List (ProxyEvent Map Uri)) :
    (run listener events).Faithful listener :=
  (inv_foldl inv_start events).faithful

/-! ### After a reason has been raised -/

/-- The requests that arrive later meet the reasons that have been raised by now. -/
structure Later (p q : Proxy Map Uri) : Prop where
  length : p.exchanges.length ≤ q.exchanges.length
  raised : p.raised <+: q.raised
  met : Slots.All (fun i x => p.exchanges.length ≤ i → p.raised <+: x.raised) q.exchanges

theorem Later.refl (p : Proxy Map Uri) : p.Later p :=
  ⟨le_rfl, List.prefix_rfl, fun _ _ hx hi =>
    absurd (List.getElem?_eq_some_iff.1 hx).1 (by omega)⟩

variable {q : Proxy Map Uri}

theorem Later.set (h : p.Later q) (hx : q.exchanges[i]? = some x) (hraised : y.raised = x.raised) :
    p.Later { q with exchanges := q.exchanges.set i y } := by
  refine ⟨by simpa only [List.length_set] using h.length, h.raised,
    Slots.All.set (fun j z hz _ => h.met j z hz) ?_⟩
  rw [hraised]
  exact h.met i x hx

theorem later_step (hq : q.Inv listener) (h : p.Later q) (event : ProxyEvent Map Uri) :
    p.Later (q.step listener event) := by
  cases event with
  | arrive request =>
      refine ⟨?_, h.raised, h.met.append fun _ => h.raised⟩
      simp only [step, List.length_append, List.length_singleton]
      exact Nat.le_succ_of_le h.length
  | hear i heard =>
      cases hx : q.exchanges[i]? with
      | none => simpa only [step, hx] using h
      | some x =>
          have hgoes := Exchange.goes (hq.exchanges i x hx).explained heard
          simp only [step, hx]
          generalize x.hear listener heard = went at hgoes
          obtain ⟨y, effect⟩ := went
          have hset := h.set hx hgoes.raised
          rcases effect with _ | _ | _ <;> exact ⟨hset.length, hset.raised, hset.met⟩
  | hangUp i =>
      cases hx : q.exchanges[i]? with
      | none => simpa only [step, hx] using h
      | some x =>
          simp only [step, hx]
          exact h.set hx x.hangUp_kept.2.2.1
  | raise reason => exact ⟨h.length, h.raised.trans (List.prefix_append _ _), h.met⟩
  | take => exact ⟨h.length, h.raised, h.met⟩

theorem later_foldl (hq : q.Inv listener) (h : p.Later q) (events : List (ProxyEvent Map Uri)) :
    p.Later (events.foldl (step listener) q) := by
  induction events generalizing q with
  | nil => exact h
  | cons event events ih => exact ih (inv_step hq event) (later_step hq h event)

/-- A reason that has been raised stays raised. -/
theorem mem_raised {events : List (ProxyEvent Map Uri)} {reason : LatchKey}
    (h : .raise reason ∈ events) : reason ∈ (run listener events).raised := by
  obtain ⟨before, after, rfl⟩ := List.append_of_mem h
  rw [run, List.foldl_append, List.foldl_cons]
  have hinv : (run listener before).Inv listener := inv_foldl inv_start before
  have hraise := inv_step hinv (.raise reason)
  refine (later_foldl hraise (Later.refl _) after).raised.subset ?_
  exact List.mem_append_right _ (List.mem_singleton_self reason)

/-- **After a reason has been raised no call gets through.**  A request that arrives later, and that
the fence applies to, does not go to the upstream and has no usage; its answer is the refusal for
the reasons raised before it. -/
theorem refused_run {before : List (ProxyEvent Map Uri)} {reason : LatchKey}
    (hraise : .raise reason ∈ before) (after : List (ProxyEvent Map Uri))
    (hlate : (run listener before).exchanges.length ≤ i)
    (hx : (run listener (before ++ after)).exchanges[i]? = some x)
    (hmethod : isFenceExempt x.request.method = false) :
    ∃ refusal, fenceRefusal x.raised = some refusal ∧ reason ∈ x.raised ∧ x.sent = none ∧
      x.metered = none ∧
      ∀ response, x.phase = .answered response → response = refusalResponse listener refusal := by
  have hinv : (run listener before).Inv listener := inv_foldl inv_start before
  have hafter : run listener (before ++ after) =
      after.foldl (step listener) (run listener before) := List.foldl_append
  rw [hafter] at hx
  have hmet := (later_foldl hinv (Later.refl _) after).met i x hx hlate
  have hin : reason ∈ x.raised := hmet.subset (mem_raised hraise)
  have hkeeps := (inv_foldl hinv after).exchanges i x hx
  have hrefusal : x.fence.refusal = fenceRefusal x.raised := by
    rw [hkeeps.fence, WireFence.refusal_raiseAll]
  obtain ⟨refusal, hsome⟩ : ∃ refusal, fenceRefusal x.raised = some refusal := by
    refine Option.ne_none_iff_exists'.1 fun hnone => ?_
    rw [fenceRefusal_eq_none.1 hnone] at hin
    cases hin
  have hcheck : fenceCheck x.fence x.request = some refusal := by
    rw [fenceCheck, hmethod, hrefusal, hsome]
    rfl
  have hunsent : ¬ x.Sent listener := by
    rintro ⟨uri, collected, hnone, -⟩
    rw [hcheck] at hnone
    cases hnone
  refine ⟨refusal, hsome, hin, ?_⟩
  cases hanswered : x.isAnswered with
  | false =>
      obtain ⟨hmetered, hsent⟩ := hkeeps.explained.open hanswered
      refine ⟨hsent.resolve_right hunsent, hmetered, fun response hphase => ?_⟩
      rw [Exchange.isAnswered, hphase] at hanswered
      cases hanswered
  | true =>
      cases hphase : x.phase with
      | answered response =>
          have hexplained := hkeeps.explained
          simp only [Exchange.Explained, hphase, forward_of_refused hcheck, Outcome.mk.injEq]
            at hexplained
          obtain ⟨hresponse, hsent, hmetered⟩ := hexplained
          refine ⟨hsent.symm, hmetered.symm, fun other hother => ?_⟩
          rw [← Phase.answered.inj hother, hresponse]
      | _ => simp [Exchange.isAnswered, hphase] at hanswered

end Proxy

end

/-! ### A run -/

/-- A listener in front of an upstream, whose addresses are their paths. -/
def plainListener : Listener String String HeaderMap (List Char) ℤ where
  http := HeaderMap.entryMap
  contentType := "content-type"
  expect := "expect"
  xShouldRetry := "x-should-retry"
  fromStatic := id
  serde := twoBodiesSerde
  fromSlice := fun _ => none
  pathAndQuery := some
  path := id
  parse := some
  upstream := "http://127.0.0.1:9/".toList

/-- A call for a completion. -/
def call : Request HeaderMap (List Char) :=
  ⟨.post, "/v1/chat/completions".toList, ⟨[], List.nodup_nil⟩⟩

theorem refused_call : ∃ x refusal,
    (Proxy.run plainListener ([.raise ⟨.tokens, .perRun⟩] ++ [.arrive call])).exchanges[0]? =
        some x ∧
      fenceRefusal x.raised = some refusal ∧ x.sent = none := by
  have hraise : (.raise ⟨.tokens, .perRun⟩ : ProxyEvent HeaderMap (List Char)) ∈
      [.raise ⟨.tokens, .perRun⟩] := List.mem_singleton_self _
  have hlate : (Proxy.run plainListener [.raise ⟨.tokens, .perRun⟩]).exchanges.length ≤ 0 := by
    decide
  obtain ⟨refusal, hrefusal, -, hsent, -⟩ :=
    Proxy.refused_run hraise [.arrive call] hlate rfl rfl
  exact ⟨_, refusal, rfl, hrefusal, hsent⟩

end Metering

end Hekma
