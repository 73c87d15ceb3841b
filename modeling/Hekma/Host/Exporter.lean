/-
**The exporter task** (`hekma-host/src/otlp/task.rs`, `client.rs`).

The task takes the events of the engine from a bus into a bounded queue, folds the queue into the
series of the exporter, and posts a snapshot of them now and then, and once more when it is stopped.
Events go missing when the bus overruns the task or the queue is full, a batch when it is not
delivered, and points when the collector rejects them; a counter counts all of these.  The number of
rejected points is read as a JSON number only, though the mapping of the format writes a 64-bit
number as a string of its digits.

The engine publishes while the task receives, drains or posts, so each of these is a step of its
own.

Main definitions:

* `Otlp.Reply`, `Otlp.deliver` — the answer of a collector, and the delivery of a batch;
* `Otlp.Task`, `Otlp.Act`, `Otlp.Task.step` — the task, and what happens to it;
* `Otlp.Reply.reported` — the points an answer reports as rejected;
* `Otlp.Task.Accounted` — every event, batch and point is accounted for.

Main results:

* `Otlp.Task.sound_run` — what every run keeps;
* `Otlp.Task.accounted_iff` — everything is accounted for just when the answers give their numbers
  as JSON numbers, and the counters have not reached their end.
-/

import Hekma.Host.Otlp
import Hekma.Metering.Parse

set_option relaxedAutoImplicit false
set_option autoImplicit false

namespace Hekma

namespace Otlp

open Metering (Bytes)

/-! ### Deliveries -/

/-- How one attempt to post a batch ends.  The body of an answer may not be read in time. -/
inductive Reply where
  | unbuilt (reason : String)
  | failed (reason : String)
  | timedOut
  | answered (status : ℕ) (text : String) (body : Option Bytes)
  deriving DecidableEq, Repr

/-- The outcome of one attempt. -/
inductive PostOutcome where
  | delivered
  | deliveredWithRejections (rejectedPoints : Unsigned64) (errorMessage : String)
  | retryable (reason : String)
  | terminal (reason : String)
  deriving DecidableEq, Repr

/-- How often a batch is posted at most. -/
def retryAttempts : ℕ := 3

section Client

variable (fromSlice : Bytes → Option Json)

/-- What an answer says of a batch that was taken in part: how many points were rejected, and
why. -/
def parsePartialSuccess (body : Bytes) : Option (Unsigned64 × String) := do
  let value ← fromSlice body
  let success ← value.get "partialSuccess"
  let rejectedPoints : Unsigned64 :=
    ((success.get "rejectedMetricPoints").bind Json.asU64).getD ⟨0, Unsigned64.zero_lt⟩
  let errorMessage := ((success.get "errorMessage").bind Json.asStr).getD ""
  if 0 < rejectedPoints.1 ∨ errorMessage ≠ "" then some (rejectedPoints, errorMessage) else none

/-- One attempt to post a batch. -/
def postOnce : Reply → PostOutcome
  | .unbuilt reason => .terminal s!"could not build the POST: {reason}"
  | .failed reason => .terminal s!"the POST failed: {reason}"
  | .timedOut => .retryable "the POST timed out (retryable within the bounded budget)"
  | .answered status text body =>
      if status = 200 then
        match parsePartialSuccess fromSlice (body.getD []) with
        | some (rejectedPoints, errorMessage) =>
            .deliveredWithRejections rejectedPoints errorMessage
        | none => .delivered
      else if status = 429 ∨ status = 503 ∨ status = 504 then
        .retryable s!"the collector answered {text} (retryable)"
      else .terminal s!"the collector answered {text} (terminal for this batch)"

/-- The attempt was transient, and another one may follow. -/
def PostOutcome.isRetryable : PostOutcome → Bool
  | .retryable _ => true
  | _ => false

/-- Deliver a batch, whose attempts end so. -/
def deliver (replies : ℕ → Reply) : PostOutcome :=
  (List.range' 1 (retryAttempts - 1)).foldl
    (fun outcome attempt =>
      if outcome.isRetryable then postOnce fromSlice (replies attempt) else outcome)
    (postOnce fromSlice (replies 0))

/-- The reply that decides a delivery. -/
def decidingReply (replies : ℕ → Reply) : Reply :=
  (List.range' 1 (retryAttempts - 1)).foldl
    (fun reply attempt =>
      if (postOnce fromSlice reply).isRetryable then replies attempt else reply)
    (replies 0)

theorem deliver_eq (replies : ℕ → Reply) :
    deliver fromSlice replies = postOnce fromSlice (decidingReply fromSlice replies) := by
  have hfold : ∀ (attempts : List ℕ) (reply : Reply),
      attempts.foldl (fun outcome attempt =>
          if outcome.isRetryable then postOnce fromSlice (replies attempt) else outcome)
        (postOnce fromSlice reply)
      = postOnce fromSlice (attempts.foldl (fun reply attempt =>
          if (postOnce fromSlice reply).isRetryable then replies attempt else reply) reply) := by
    intro attempts
    induction attempts with
    | nil => intro reply; rfl
    | cons attempt attempts ih =>
        intro reply
        rw [List.foldl_cons, List.foldl_cons, ← ih]
        split
        · rfl
        · rfl
  exact hfold _ _

end Client

/-! ### The task -/

/-- The capacity of the queue of the task. -/
def queueCapacity : ℕ := 1024

/-- What the task announces. -/
inductive Note where
  | lagged (n : ℕ)
  | queueFull
  | windowFull (name : InstanceName) (count : ℕ)
  | rejected (points : Unsigned64) (errorMessage : String)
  | notDelivered (reason : String)
  | finalFlushTimedOut (inFlight : ℕ)
  | finalFlushFailed (inFlight : ℕ)
  | stopped (dropped : ℕ)
  deriving DecidableEq, Repr

/-- The counters of the exporter, which stop at the end of their range. -/
structure Counters where
  dropped : Unsigned64
  inFlight : Unsigned64
  deriving DecidableEq, Repr

/-- The end of the range of a counter. -/
def counterMax : ℕ := 2 ^ 64 - 1

/-- Count some more. -/
def countMore (a : Unsigned64) (n : ℕ) : Unsigned64 :=
  ⟨min (a.1 + n) counterMax, by unfold counterMax; omega⟩

/-- What a command does to the counters. -/
def Counters.apply (c : Counters) : Command → Counters
  | .observe _ => { c with inFlight := countMore c.inFlight 1 }
  | .noteDroppedEvents n => { c with dropped := countMore c.dropped n }
  | .noteDroppedBatch => { c with dropped := countMore c.dropped 1 }
  | .noteRejectedPoints n => { c with dropped := countMore c.dropped n }
  | .markDelivered => { c with inFlight := ⟨0, Unsigned64.zero_lt⟩ }
  | .takeEvictedRunSeries => c

/-- Where the task is: at its wake-up sources, draining the bus, or posting a batch; for the last
time once it is stopped.  It ends with the number of observations that were not delivered. -/
inductive Phase where
  | waiting
  | draining (final : Bool)
  | posting (final : Bool) (inFlightAtStop : ℕ)
  | ended (undelivered : ℕ)
  deriving DecidableEq, Repr

/-- The task, with what it has yet to receive from the bus, and its history: the events that were
published, observed and lost, how many had been observed when a batch was last delivered, the
batches that failed, and the answers to those that did not.  Nothing reads the history. -/
structure Task where
  bus : List EngineEvent
  closed : Bool
  queue : List EngineEvent
  state : MetricState
  counters : Counters
  overflowNoted : Bool
  phase : Phase
  notes : List Note
  published : List EngineEvent
  observed : List EngineEvent
  lost : List EngineEvent
  deliveredUpTo : ℕ
  failedBatches : ℕ
  answers : List Reply

namespace Task

/-- The task when it has subscribed to the bus. -/
def start (startTimeUnixNano : ℕ) (serviceInstanceId : String) : Task where
  bus := []
  closed := false
  queue := []
  state := .new startTimeUnixNano serviceInstanceId
  counters := ⟨⟨0, Unsigned64.zero_lt⟩, ⟨0, Unsigned64.zero_lt⟩⟩
  overflowNoted := false
  phase := .waiting
  notes := []
  published := []
  observed := []
  lost := []
  deliveredUpTo := 0
  failedBatches := 0
  answers := []

/-- Act on the series and the counters. -/
def command (t : Task) (c : Command) : Task :=
  { t with state := t.state.apply c, counters := t.counters.apply c }

/-- Announce something. -/
def note (t : Task) (n : Note) : Task := { t with notes := t.notes ++ [n] }

/-- Drop the oldest event of the queue. -/
def dropOldest (t : Task) : Task :=
  { t.command (.noteDroppedEvents 1) with
    queue := t.queue.tail
    lost := t.lost ++ t.queue.head?.toList }

/-- Announce that the queue is full, once in a cycle. -/
def noteFull (t : Task) : Task :=
  if t.overflowNoted then t else { t with overflowNoted := true }.note .queueFull

/-- Put an event into the queue.  If the queue is full, its oldest event makes room. -/
def push (t : Task) (event : EngineEvent) : Task :=
  let t := if queueCapacity ≤ t.queue.length then t.dropOldest.noteFull else t
  { t with queue := t.queue ++ [event] }

/-- What the receiver of the bus gives: the number of events it was overrun by, or the next event.
It has none if it has received everything. -/
inductive Received where
  | event (event : EngineEvent)
  | lagged (n : ℕ)
  | empty

/-- Skip events of the bus. -/
def skip (t : Task) (n : ℕ) : Task :=
  { t with bus := t.bus.drop n, lost := t.lost ++ t.bus.take n }

/-- Ask the receiver.  The bus keeps so many events; what it has overwritten is skipped. -/
def receive (capacity : ℕ) (t : Task) : Received × Task :=
  if capacity < t.bus.length then
    (.lagged (t.bus.length - capacity), t.skip (t.bus.length - capacity))
  else
    match t.bus with
    | [] => (.empty, t)
    | event :: rest => (.event event, { t with bus := rest })

/-- The receiver has been overrun. -/
def noteLagged (t : Task) (n : ℕ) : Task := (t.command (.noteDroppedEvents n)).note (.lagged n)

/-- Observe the events of the queue. -/
def observeQueue (t : Task) : Task :=
  t.queue.foldl
    (fun t event => { t.command (.observe event) with observed := t.observed ++ [event] })
    { t with queue := [] }

/-- Announce the Runs that fell out of the window. -/
def noteEvicted (t : Task) : Task :=
  let notes := t.state.evictedRunsThisCycle.entries.map fun e => Note.windowFull e.1 e.2
  { t.command .takeEvictedRunSeries with notes := t.notes ++ notes }

/-- Fold the queue and begin to post the batch. -/
def beginPost (t : Task) (final : Bool) : Task :=
  let t := t.observeQueue
  let inFlightAtStop := t.counters.inFlight.1
  { t.noteEvicted with phase := .posting final inFlightAtStop }

/-- A batch was delivered: everything observed is delivered, and the answer is kept. -/
def markDelivered (t : Task) (reply : Reply) : Task :=
  { t.command .markDelivered with
    deliveredUpTo := t.observed.length
    answers := t.answers ++ [reply] }

/-- Take in the outcome of a delivery, which was decided by a reply. -/
def takeOutcome (t : Task) (reply : Reply) : PostOutcome → Task
  | .delivered => t.markDelivered reply
  | .deliveredWithRejections rejectedPoints errorMessage =>
      ((t.markDelivered reply).command (.noteRejectedPoints rejectedPoints.1)).note
        (.rejected rejectedPoints errorMessage)
  | .retryable reason | .terminal reason =>
      ({ t.command .noteDroppedBatch with failedBatches := t.failedBatches + 1 }).note
        (.notDelivered reason)

/-- The flush has ended: another cycle begins, or the task ends. -/
def afterFlush (t : Task) (final : Bool) : Task :=
  if final then
    let undelivered := t.counters.inFlight.1
    { t.note (if 0 < undelivered then .finalFlushFailed undelivered
        else .stopped t.counters.dropped.1) with phase := .ended undelivered }
  else { t with overflowNoted := false, phase := .waiting }

end Task

/-! ### What happens to the task -/

/-- The engine publishes an event or goes; the receiver is asked; the interval elapses; the task is
shut down; a delivery ends; the bound of the final flush elapses. -/
inductive Act where
  | publish (event : EngineEvent)
  | close
  | receive
  | tick
  | shutdown
  | settle (replies : ℕ → Reply)
  | expire

namespace Task

section Steps

variable (fromSlice : Bytes → Option Json) (capacity : ℕ)

/-- The wake-up of a waiting task by the receiver. -/
def onReceive (t : Task) : Task :=
  match t.receive capacity with
  | (.event event, t) => t.push event
  | (.lagged n, t) => t.noteLagged n
  | (.empty, t) => if t.closed then { t with phase := .draining true } else t

/-- A turn of the loop that drains the bus. -/
def onDrain (t : Task) (final : Bool) : Task :=
  match t.receive capacity with
  | (.event event, t) => t.push event
  | (.lagged n, t) => t.noteLagged n
  | (.empty, t) => t.beginPost final

/-- One step.  What the phase has no use for leaves the task as it is. -/
def step (t : Task) (act : Act) : Task :=
  match act, t.phase with
  | .publish event, _ =>
      if t.closed then t
      else { t with bus := t.bus ++ [event], published := t.published ++ [event] }
  | .close, _ => { t with closed := true }
  | .receive, .waiting => t.onReceive capacity
  | .receive, .draining final => t.onDrain capacity final
  | .tick, .waiting => { t with phase := .draining false }
  | .shutdown, .waiting => { t with phase := .draining true }
  | .settle replies, .posting final _ =>
      (t.takeOutcome (decidingReply fromSlice replies) (deliver fromSlice replies)).afterFlush final
  | .expire, .posting true inFlightAtStop =>
      { t.note (.finalFlushTimedOut inFlightAtStop) with phase := .ended inFlightAtStop }
  | _, _ => t

/-- A run. -/
def run (t : Task) (acts : List Act) : Task := acts.foldl (step fromSlice capacity) t

theorem run_append (t : Task) (acts more : List Act) :
    t.run fromSlice capacity (acts ++ more) =
      (t.run fromSlice capacity acts).run fromSlice capacity more :=
  List.foldl_append

end Steps

end Task

/-! ### What is reported, and what is read -/

/-- A 64-bit number written in decimal digits. -/
def decimalU64 (digits : List Char) : Option Unsigned64 :=
  if digits ≠ [] ∧ digits.all Char.isDigit then
    if h : Nat.ofDigitChars 10 digits 0 < 2 ^ 64 then some ⟨_, h⟩ else none
  else none

/-- A 64-bit number in the mapping of the format: a JSON number, or the string of its digits. -/
def count64 : Json → Option Unsigned64
  | .number n => n.asU64
  | .string s => decimalU64 s.toList
  | _ => none

namespace Reply

variable (fromSlice : Bytes → Option Json)

/-- What an answer has under the key for the rejected points. -/
def rejectedField : Reply → Option Json
  | .answered _ _ body => do
      let value ← fromSlice (body.getD [])
      let success ← value.get "partialSuccess"
      success.get "rejectedMetricPoints"
  | _ => none

/-- **The points an answer reports as rejected**, in either encoding of their number. -/
def reported (reply : Reply) : ℕ :=
  (((reply.rejectedField fromSlice).bind count64).map Subtype.val).getD 0

/-- The points an answer is read to report. -/
def read (reply : Reply) : ℕ :=
  (((reply.rejectedField fromSlice).bind Json.asU64).map Subtype.val).getD 0

/-- An answer gives the number of rejected points, if there are any, as a JSON number. -/
def CountAsNumber (reply : Reply) : Prop :=
  ∀ s n, reply.rejectedField fromSlice = some (.string s) → decimalU64 s.toList = some n → n.1 = 0

variable {fromSlice} {reply : Reply}

theorem read_le_reported (reply : Reply) : reply.read fromSlice ≤ reply.reported fromSlice := by
  unfold read reported
  cases reply.rejectedField fromSlice with
  | none => exact le_refl _
  | some v =>
      cases v with
      | number n => exact le_refl _
      | string s => exact Nat.zero_le _
      | _ => exact le_refl _

/-- The points are read as they are reported just when their number is a JSON number. -/
theorem read_eq_reported_iff :
    reply.read fromSlice = reply.reported fromSlice ↔ reply.CountAsNumber fromSlice := by
  unfold read reported CountAsNumber
  cases reply.rejectedField fromSlice with
  | none => simp
  | some v =>
      cases v with
      | string s =>
          have hread : (Json.string s).asU64 = none := rfl
          have hcount : count64 (.string s) = decimalU64 s.toList := rfl
          simp only [Option.bind_some, hread, hcount, Option.map_none, Option.getD_none,
            Option.some.injEq, Json.string.injEq]
          constructor
          · rintro h _ n rfl hn
            rw [hn] at h
            exact h.symm
          · intro h
            cases hn : decimalU64 s.toList with
            | none => rfl
            | some n => exact (h s n rfl hn).symm
      | number n => simp [count64, Json.asU64]
      | _ => simp [count64, Json.asU64]

end Reply

/-! ### The series a command leaves alone -/

namespace MetricState

/-- The gauge and the counters are the same. -/
structure SameCounts (s s' : MetricState) : Prop where
  agentState : s'.agentState = s.agentState
  dropped : s'.dropped = s.dropped
  inFlight : s'.inFlight = s.inFlight

theorem SameCounts.trans {s s' s'' : MetricState} (h : SameCounts s s') (h' : SameCounts s' s'') :
    SameCounts s s'' :=
  ⟨h'.agentState.trans h.agentState, h'.dropped.trans h.dropped, h'.inFlight.trans h.inFlight⟩

theorem sameCounts_observeTokens (s : MetricState) (event : UsageUpdateEvent) (type : TokenType) :
    SameCounts s (s.observeTokens event type) := by
  unfold observeTokens
  split
  · exact ⟨rfl, rfl, rfl⟩
  · exact ⟨rfl, rfl, rfl⟩

theorem sameCounts_enforceRunWindow (s : MetricState) (name : InstanceName) :
    SameCounts s (s.enforceRunWindow name) := by
  have hfold : ∀ (runs : List (RunId × ℕ)) (s : MetricState),
      SameCounts s (runs.foldl (fun s r => s.evict name r.1) s) := by
    intro runs
    induction runs with
    | nil => exact fun s => ⟨rfl, rfl, rfl⟩
    | cons r runs ih =>
        intro s
        have hevict : SameCounts s (s.evict name r.1) := ⟨rfl, rfl, rfl⟩
        exact hevict.trans (ih _)
  unfold enforceRunWindow
  dsimp only
  split
  · exact ⟨rfl, rfl, rfl⟩
  · exact hfold _ s

/-- A transition sets the series of the state that was left to zero, and then the series of the
state that was entered to one. -/
def noteTransition (gauge : Table (InstanceName × LifecycleState) ℕ) :
    EngineEvent → Table (InstanceName × LifecycleState) ℕ
  | .transition e => (gauge.insert (e.instanceName, e.priorState) 0).insert
      (e.instanceName, e.newState) 1
  | _ => gauge

/-- An observation counts itself, and only a transition changes the gauge. -/
theorem observe_counts (s : MetricState) (event : EngineEvent) :
    (s.observe event).agentState = noteTransition s.agentState event ∧
      (s.observe event).dropped = s.dropped ∧ (s.observe event).inFlight = s.inFlight + 1 := by
  cases event with
  | transition e => exact ⟨rfl, rfl, rfl⟩
  | budgetBreach e =>
      unfold observe
      dsimp only
      split
      · exact ⟨rfl, rfl, rfl⟩
      · exact ⟨rfl, rfl, rfl⟩
  | usageUpdate e =>
      have hstamp : ∀ s : MetricState, SameCounts s
          ([TokenType.input, .output, .cached].foldl (fun s type => s.observeTokens e type) s) :=
        fun s => ((sameCounts_observeTokens s e .input).trans
          (sameCounts_observeTokens _ e .output)).trans (sameCounts_observeTokens _ e .cached)
      have h := (hstamp { s with
        inFlight := s.inFlight + 1
        runLastSeen := s.runLastSeen.insert (e.instanceName, e.runId) s.nextRunSeq
        nextRunSeq := s.nextRunSeq + 1 }).trans (sameCounts_enforceRunWindow _ e.instanceName)
      exact ⟨h.agentState, h.dropped, h.inFlight⟩
  | run => exact ⟨rfl, rfl, rfl⟩

end MetricState

/-! ### What every run keeps -/

namespace Task

/-- The gauge of some observed events. -/
def gaugeOf (observed : List EngineEvent) : Table (InstanceName × LifecycleState) ℕ :=
  observed.foldl MetricState.noteTransition ∅

/-- The events that are observed or waiting, in their order: some may be in hand between the queue
and the bus. -/
def held (t : Task) (hand : List EngineEvent) : List EngineEvent :=
  t.observed ++ t.queue ++ hand ++ t.bus

/-- The books of the task, with events in hand, and with so many losses that are not counted yet:
each event that was published is held or lost, the held ones in their order; the counters count
what they should, as far as the answers are read. -/
structure Sound (fromSlice : Bytes → Option Json) (hand : List EngineEvent) (uncounted : ℕ)
    (t : Task) : Prop where
  events : t.published.Perm (t.held hand ++ t.lost)
  order : (t.held hand).Sublist t.published
  gauge : t.state.agentState = gaugeOf t.observed
  dropped : t.state.dropped + uncounted =
    t.lost.length + t.failedBatches + (t.answers.map (Reply.read fromSlice)).sum
  inFlight : t.state.inFlight + t.deliveredUpTo = t.observed.length
  droppedCounter : t.counters.dropped.1 = min t.state.dropped counterMax
  inFlightCounter : t.counters.inFlight.1 = min t.state.inFlight counterMax

variable {fromSlice : Bytes → Option Json} {capacity : ℕ} {t : Task} {hand : List EngineEvent}
  {uncounted n : ℕ} {event : EngineEvent}

theorem countMore_val (a : Unsigned64) (n m : ℕ) (h : a.1 = min m counterMax) :
    (countMore a n).1 = min (m + n) counterMax := by
  simp only [countMore, h]
  omega

/-- Counting losses. -/
theorem Sound.noteDropped (h : Sound fromSlice hand (uncounted + n) t) :
    Sound fromSlice hand uncounted (t.command (.noteDroppedEvents n)) where
  events := h.events
  order := h.order
  gauge := h.gauge
  dropped := by
    have hd := h.dropped
    simp only [command, MetricState.apply]
    omega
  inFlight := h.inFlight
  droppedCounter := countMore_val _ _ _ h.droppedCounter
  inFlightCounter := h.inFlightCounter

/-- What the books rest on. -/
structure SameBooks (t t' : Task) : Prop where
  bus : t'.bus = t.bus
  queue : t'.queue = t.queue
  state : t'.state = t.state
  counters : t'.counters = t.counters
  published : t'.published = t.published
  observed : t'.observed = t.observed
  lost : t'.lost = t.lost
  deliveredUpTo : t'.deliveredUpTo = t.deliveredUpTo
  failedBatches : t'.failedBatches = t.failedBatches
  answers : t'.answers = t.answers

theorem Sound.of_same {t' : Task} (h : Sound fromSlice hand uncounted t) (hs : SameBooks t t') :
    Sound fromSlice hand uncounted t' := by
  have hheld : t'.held hand = t.held hand := by
    rw [held, held, hs.observed, hs.queue, hs.bus]
  constructor
  · rw [hheld, hs.published, hs.lost]
    exact h.events
  · rw [hheld, hs.published]
    exact h.order
  · rw [hs.state, hs.observed]
    exact h.gauge
  · rw [hs.state, hs.lost, hs.failedBatches, hs.answers]
    exact h.dropped
  · rw [hs.state, hs.deliveredUpTo, hs.observed]
    exact h.inFlight
  · rw [hs.counters, hs.state]
    exact h.droppedCounter
  · rw [hs.counters, hs.state]
    exact h.inFlightCounter

/-- Losing some of the events that are held, which are yet to be counted. -/
theorem Sound.lose {t' : Task} {hand' gone : List EngineEvent}
    (h : Sound fromSlice hand uncounted t)
    (hheld : (t'.held hand' ++ gone).Perm (t.held hand))
    (hsub : (t'.held hand').Sublist (t.held hand)) (hlost : t'.lost = t.lost ++ gone) (hstate : t'.state = t.state)
    (hcounters : t'.counters = t.counters) (hpublished : t'.published = t.published)
    (hobserved : t'.observed = t.observed) (hdelivered : t'.deliveredUpTo = t.deliveredUpTo)
    (hfailed : t'.failedBatches = t.failedBatches) (hanswers : t'.answers = t.answers) :
    Sound fromSlice hand' (uncounted + gone.length) t' where
  events := by
    rw [hpublished, hlost]
    calc t.published.Perm (t.held hand ++ t.lost) := h.events
      List.Perm _ ((t'.held hand' ++ gone) ++ t.lost) := hheld.symm.append_right _
      List.Perm _ (t'.held hand' ++ (t.lost ++ gone)) := by
        rw [List.append_assoc]
        exact List.perm_append_comm.append_left _
  order := hpublished ▸ hsub.trans h.order
  gauge := by
    rw [hstate, hobserved]
    exact h.gauge
  dropped := by
    have hd := h.dropped
    rw [hstate, hlost, hfailed, hanswers, List.length_append]
    omega
  inFlight := by
    rw [hstate, hdelivered, hobserved]
    exact h.inFlight
  droppedCounter := by
    rw [hcounters, hstate]
    exact h.droppedCounter
  inFlightCounter := by
    rw [hcounters, hstate]
    exact h.inFlightCounter

theorem sameBooks_note (t : Task) (n : Note) : SameBooks t (t.note n) :=
  ⟨rfl, rfl, rfl, rfl, rfl, rfl, rfl, rfl, rfl, rfl⟩

/-- Putting the event in hand into the queue. -/
theorem Sound.enqueue (h : Sound fromSlice [event] uncounted t) :
    Sound fromSlice [] uncounted { t with queue := t.queue ++ [event] } := by
  have hheld : held { t with queue := t.queue ++ [event] } [] = t.held [event] := by
    simp [held]
  exact ⟨hheld ▸ h.events, hheld ▸ h.order, h.gauge, h.dropped, h.inFlight, h.droppedCounter,
    h.inFlightCounter⟩

theorem sameBooks_noteFull (t : Task) : SameBooks t t.noteFull := by
  unfold noteFull
  split
  · exact ⟨rfl, rfl, rfl, rfl, rfl, rfl, rfl, rfl, rfl, rfl⟩
  · exact ⟨rfl, rfl, rfl, rfl, rfl, rfl, rfl, rfl, rfl, rfl⟩

/-- The oldest event is lost, and counted. -/
theorem Sound.dropOldest (h : Sound fromSlice hand 0 t) (hne : t.queue ≠ []) :
    Sound fromSlice hand 0 t.dropOldest := by
  obtain ⟨oldest, rest, hqueue⟩ := List.exists_cons_of_ne_nil hne
  have hlost : Sound fromSlice hand (0 + [oldest].length)
      { t with queue := t.queue.tail, lost := t.lost ++ t.queue.head?.toList } := by
    refine h.lose ?_ ?_ (by rw [hqueue]; rfl) rfl rfl rfl rfl rfl rfl rfl
    · have hperm : (rest ++ hand ++ t.bus ++ [oldest]).Perm (oldest :: rest ++ hand ++ t.bus) :=
        List.perm_append_comm
      simpa only [held, hqueue, List.tail_cons, List.append_assoc] using
        hperm.append_left t.observed
    · have hsub : (rest ++ hand ++ t.bus).Sublist (oldest :: rest ++ hand ++ t.bus) :=
        List.sublist_cons_self _ _
      simpa only [held, hqueue, List.tail_cons, List.append_assoc] using
        hsub.append_left t.observed
  exact Sound.noteDropped (n := 1) hlost

theorem Sound.push (h : Sound fromSlice [event] 0 t) : Sound fromSlice [] 0 (t.push event) := by
  unfold Task.push
  dsimp only
  split
  · rename_i hfull
    have hne : t.queue ≠ [] := by
      intro hnil
      rw [hnil] at hfull
      exact absurd hfull (by decide)
    exact ((h.dropOldest hne).of_same (sameBooks_noteFull _)).enqueue
  · exact h.enqueue

/-- The events the receiver was overrun by are lost, and yet to be counted. -/
theorem Sound.skip (h : Sound fromSlice [] 0 t) (hn : n ≤ t.bus.length) :
    Sound fromSlice [] (0 + n) (t.skip n) := by
  have hlen : (t.bus.take n).length = n := by
    rw [List.length_take]
    omega
  have hlost : Sound fromSlice [] (0 + (t.bus.take n).length) (t.skip n) := by
    refine h.lose ?_ ?_ rfl rfl rfl rfl rfl rfl rfl rfl
    · have hperm : (t.bus.drop n ++ t.bus.take n).Perm t.bus := by
        refine List.perm_append_comm.trans ?_
        rw [List.take_append_drop]
      change (t.observed ++ t.queue ++ [] ++ t.bus.drop n ++ t.bus.take n).Perm _
      rw [List.append_assoc]
      exact hperm.append_left _
    · exact (List.drop_sublist n t.bus).append_left (t.observed ++ t.queue ++ [])
  rwa [hlen] at hlost

/-- The next event of the bus is in hand. -/
theorem Sound.take {rest : List EngineEvent} (h : Sound fromSlice [] 0 t)
    (hbus : t.bus = event :: rest) : Sound fromSlice [event] 0 { t with bus := rest } := by
  have hheld : held { t with bus := rest } [event] = t.held [] := by
    simp [held, hbus]
  exact ⟨hheld ▸ h.events, hheld ▸ h.order, h.gauge, h.dropped, h.inFlight, h.droppedCounter,
    h.inFlightCounter⟩

theorem Sound.noteLagged (h : Sound fromSlice [] (0 + n) t) :
    Sound fromSlice [] 0 (t.noteLagged n) :=
  (Sound.noteDropped h).of_same (sameBooks_note _ _)

/-- The events of the queue are observed one by one. -/
theorem Sound.observe_all {q : List EngineEvent} (h : Sound fromSlice q 0 t) (hq : t.queue = []) :
    Sound fromSlice [] 0 (q.foldl
      (fun t event => { t.command (.observe event) with observed := t.observed ++ [event] }) t) ∧
    (q.foldl (fun t event =>
      { t.command (.observe event) with observed := t.observed ++ [event] }) t).queue = [] := by
  induction q generalizing t with
  | nil => exact ⟨h, hq⟩
  | cons event q ih =>
      obtain ⟨hgauge, hdropped, hinFlight⟩ := MetricState.observe_counts t.state event
      have hheld : held { t.command (.observe event) with observed := t.observed ++ [event] } q
          = t.held (event :: q) := by
        simp [held, command, hq]
      refine ih (t := { t.command (.observe event) with observed := t.observed ++ [event] })
        ⟨hheld ▸ h.events, hheld ▸ h.order, ?_, ?_, ?_, ?_, ?_⟩ hq
      · rw [gaugeOf, List.foldl_append, ← gaugeOf, ← h.gauge]
        exact hgauge
      · have hd := h.dropped
        simp only [command, MetricState.apply, hdropped]
        exact hd
      · have hi := h.inFlight
        simp only [command, MetricState.apply, hinFlight, List.length_append,
          List.length_singleton]
        omega
      · simp only [command, MetricState.apply, Counters.apply, hdropped]
        exact h.droppedCounter
      · simp only [command, MetricState.apply, Counters.apply, hinFlight]
        exact countMore_val _ _ _ h.inFlightCounter

theorem Sound.beginPost (h : Sound fromSlice [] 0 t) (final : Bool) :
    Sound fromSlice [] 0 (t.beginPost final) := by
  have hheld : held { t with queue := [] } t.queue = t.held [] := by
    simp [held]
  have hhand : Sound fromSlice t.queue 0 { t with queue := [] } :=
    ⟨hheld ▸ h.events, hheld ▸ h.order, h.gauge, h.dropped, h.inFlight, h.droppedCounter,
      h.inFlightCounter⟩
  obtain ⟨hobserved, -⟩ := hhand.observe_all rfl
  exact ⟨hobserved.events, hobserved.order, hobserved.gauge, hobserved.dropped,
    hobserved.inFlight, hobserved.droppedCounter, hobserved.inFlightCounter⟩

/-! ### Outcomes -/

variable {reply : Reply}

section

variable (status : ℕ) (text : String) {body : Option Bytes}

/-- What an answer is read to report, if it reports a partial success. -/
theorem read_of_success {success value : Json} (hvalue : fromSlice (body.getD []) = some value)
    (hsuccess : value.get "partialSuccess" = some success) :
    (Reply.answered status text body).read fromSlice =
      (((success.get "rejectedMetricPoints").bind Json.asU64).getD ⟨0, Unsigned64.zero_lt⟩).1 := by
  simp only [Reply.read, Reply.rejectedField, hvalue, hsuccess, Option.bind_eq_bind,
    Option.bind_some]
  cases (success.get "rejectedMetricPoints").bind Json.asU64 with
  | none => rfl
  | some n => rfl

theorem read_of_parse_none (h : parsePartialSuccess fromSlice (body.getD []) = none) :
    (Reply.answered status text body).read fromSlice = 0 := by
  unfold parsePartialSuccess at h
  cases hvalue : fromSlice (body.getD []) with
  | none => simp [Reply.read, Reply.rejectedField, hvalue]
  | some value =>
      cases hsuccess : value.get "partialSuccess" with
      | none => simp [Reply.read, Reply.rejectedField, hvalue, hsuccess]
      | some success =>
          rw [read_of_success status text hvalue hsuccess]
          simp only [hvalue, hsuccess, Option.bind_eq_bind, Option.bind_some, ite_eq_right_iff,
            reduceCtorEq, imp_false, not_or, Nat.not_lt, Nat.le_zero] at h
          exact h.1

theorem read_of_parse_some {points : Unsigned64} {message : String}
    (h : parsePartialSuccess fromSlice (body.getD []) = some (points, message)) :
    (Reply.answered status text body).read fromSlice = points.1 := by
  simp only [parsePartialSuccess, Option.bind_eq_bind, Option.bind_eq_some_iff] at h
  obtain ⟨value, hvalue, success, hsuccess, h⟩ := h
  rw [read_of_success status text hvalue hsuccess]
  split at h
  · exact congrArg (fun r => r.1.1) (Option.some.inj h)
  · simp at h

end

variable (fromSlice) in
/-- What the outcome of an attempt says of the answer. -/
theorem postOnce_spec (reply : Reply) :
    match postOnce fromSlice reply with
    | .delivered => reply.read fromSlice = 0
    | .deliveredWithRejections rejectedPoints _ => reply.read fromSlice = rejectedPoints.1
    | _ => True := by
  cases reply with
  | unbuilt reason => trivial
  | failed reason => trivial
  | timedOut => trivial
  | answered status text body =>
      unfold postOnce
      dsimp only
      by_cases hstatus : status = 200
      · rw [if_pos hstatus]
        cases hparse : parsePartialSuccess fromSlice (body.getD []) with
        | none => exact read_of_parse_none status text hparse
        | some r => exact read_of_parse_some status text hparse
      · rw [if_neg hstatus]
        split
        · rename_i h
          split at h <;> simp at h
        · rename_i h
          split at h <;> simp at h
        · trivial

/-- After a delivery, the points the answer is read to report are yet to be counted. -/
theorem Sound.markDelivered (h : Sound fromSlice [] 0 t) (reply : Reply) :
    Sound fromSlice [] (0 + reply.read fromSlice) (t.markDelivered reply) where
  events := h.events
  order := h.order
  gauge := h.gauge
  dropped := by
    have hd := h.dropped
    simp only [Task.markDelivered, command, MetricState.apply, List.map_append, List.map_cons,
      List.map_nil, List.sum_append, List.sum_cons, List.sum_nil]
    omega
  inFlight := Nat.zero_add _
  droppedCounter := h.droppedCounter
  inFlightCounter := rfl

theorem Sound.takeOutcome (h : Sound fromSlice [] 0 t) (reply : Reply) :
    Sound fromSlice [] 0 (t.takeOutcome reply (postOnce fromSlice reply)) := by
  have hspec := postOnce_spec fromSlice reply
  have hmarked := h.markDelivered reply
  have hfailed : ∀ reason, Sound fromSlice [] 0
      (({ t.command .noteDroppedBatch with failedBatches := t.failedBatches + 1 } : Task).note
        (.notDelivered reason)) := by
    intro reason
    refine ⟨h.events, h.order, h.gauge, ?_, h.inFlight, countMore_val _ _ _ h.droppedCounter,
      h.inFlightCounter⟩
    have hd := h.dropped
    simp only [Task.note, command, MetricState.apply]
    omega
  cases houtcome : postOnce fromSlice reply with
  | delivered =>
      rw [houtcome] at hspec
      rw [hspec] at hmarked
      exact hmarked
  | deliveredWithRejections rejectedPoints errorMessage =>
      rw [houtcome] at hspec
      rw [hspec] at hmarked
      -- the rejected points are counted as lost events are
      have hcounted := Sound.noteDropped hmarked
      exact ⟨hcounted.events, hcounted.order, hcounted.gauge, hcounted.dropped,
        hcounted.inFlight, hcounted.droppedCounter, hcounted.inFlightCounter⟩
  | retryable reason => exact hfailed reason
  | terminal reason => exact hfailed reason

theorem sameBooks_afterFlush (t : Task) (final : Bool) : SameBooks t (t.afterFlush final) := by
  unfold afterFlush
  split
  · exact ⟨rfl, rfl, rfl, rfl, rfl, rfl, rfl, rfl, rfl, rfl⟩
  · exact ⟨rfl, rfl, rfl, rfl, rfl, rfl, rfl, rfl, rfl, rfl⟩

/-! ### Steps and runs -/

theorem Sound.publish (h : Sound fromSlice [] 0 t) (event : EngineEvent) :
    Sound fromSlice [] 0
      { t with bus := t.bus ++ [event], published := t.published ++ [event] } := by
  have hheld : held { t with bus := t.bus ++ [event], published := t.published ++ [event] } []
      = t.held [] ++ [event] := by
    simp [held]
  refine ⟨?_, ?_, h.gauge, h.dropped, h.inFlight, h.droppedCounter, h.inFlightCounter⟩
  · rw [hheld, List.append_assoc]
    refine (h.events.append_right [event]).trans ?_
    rw [List.append_assoc]
    exact List.perm_append_comm.append_left _
  · rw [hheld]
    exact h.order.append_right [event]

/-- A wake-up by the receiver keeps the books, whatever is done when there is nothing. -/
theorem Sound.received (h : Sound fromSlice [] 0 t) (onEmpty : Task → Task)
    (hempty : Sound fromSlice [] 0 (onEmpty t)) :
    Sound fromSlice [] 0 (match t.receive capacity with
      | (.event event, t) => t.push event
      | (.lagged n, t) => t.noteLagged n
      | (.empty, t) => onEmpty t) := by
  unfold Task.receive
  split_ifs with hover
  · exact (h.skip (Nat.sub_le _ _)).noteLagged
  · cases hbus : t.bus with
    | nil => exact hempty
    | cons event rest => exact (h.take hbus).push

theorem Sound.step (h : Sound fromSlice [] 0 t) (act : Act) :
    Sound fromSlice [] 0 (t.step fromSlice capacity act) := by
  have hphase : ∀ phase : Phase, Sound fromSlice [] 0 { t with phase := phase } := fun phase =>
    h.of_same ⟨rfl, rfl, rfl, rfl, rfl, rfl, rfl, rfl, rfl, rfl⟩
  unfold Task.step
  split
  · -- an event is published
    split
    · exact h
    · exact h.publish _
  · exact h.of_same ⟨rfl, rfl, rfl, rfl, rfl, rfl, rfl, rfl, rfl, rfl⟩
  · -- the receiver wakes the task
    refine h.received (fun t => if t.closed then { t with phase := .draining true } else t) ?_
    split
    · exact hphase _
    · exact h
  · -- a turn of the draining loop
    exact h.received (fun t => t.beginPost _) (h.beginPost _)
  · exact hphase _
  · exact hphase _
  · -- a delivery ends
    rw [deliver_eq]
    exact (h.takeOutcome _).of_same (sameBooks_afterFlush _ _)
  · exact h.of_same ⟨rfl, rfl, rfl, rfl, rfl, rfl, rfl, rfl, rfl, rfl⟩
  · exact h

theorem sound_start (startTimeUnixNano : ℕ) (serviceInstanceId : String) :
    Sound fromSlice [] 0 (start startTimeUnixNano serviceInstanceId) :=
  ⟨List.Perm.nil, List.Sublist.refl [], rfl, rfl, rfl, rfl, rfl⟩

/-- **Every run keeps the books.** -/
theorem sound_run (startTimeUnixNano : ℕ) (serviceInstanceId : String) (acts : List Act) :
    Sound fromSlice [] 0
      ((start startTimeUnixNano serviceInstanceId).run fromSlice capacity acts) := by
  have hrun : ∀ (acts : List Act) (t : Task), Sound fromSlice [] 0 t →
      Sound fromSlice [] 0 (t.run fromSlice capacity acts) := by
    intro acts
    induction acts with
    | nil => exact fun t h => h
    | cons act acts ih => exact fun t h => ih _ (h.step act)
  exact hrun acts _ (sound_start _ _)

/-! ### The account -/

/-- **Everything is accounted for.**  Each event that was published is observed, or still waiting in
the queue or on the bus, or lost; the counter of losses counts the lost events, the failed batches
and the points that were reported as rejected; and the events in flight are those observed since the
last delivery. -/
structure Accounted (fromSlice : Bytes → Option Json) (t : Task) : Prop where
  events : t.published.Perm (t.observed ++ (t.queue ++ t.bus) ++ t.lost)
  dropped : t.counters.dropped.1 =
    t.lost.length + t.failedBatches + (t.answers.map (Reply.reported fromSlice)).sum
  inFlight : t.counters.inFlight.1 = (t.observed.drop t.deliveredUpTo).length

/-- Points are read as they are reported just when every number is a JSON number. -/
theorem sum_read_eq_iff (answers : List Reply) :
    (answers.map (Reply.reported fromSlice)).sum ≤ (answers.map (Reply.read fromSlice)).sum ↔
      ∀ reply ∈ answers, reply.CountAsNumber fromSlice := by
  induction answers with
  | nil => simp
  | cons reply answers ih =>
      have hle : (answers.map (Reply.read fromSlice)).sum ≤
          (answers.map (Reply.reported fromSlice)).sum :=
        List.sum_le_sum fun reply _ => reply.read_le_reported
      have hone : reply.read fromSlice ≤ reply.reported fromSlice := reply.read_le_reported
      rw [List.forall_mem_cons, ← ih, ← Reply.read_eq_reported_iff, List.map_cons, List.map_cons,
        List.sum_cons, List.sum_cons]
      omega

/-- **Everything is accounted for just when** each answer gives the number of rejected points as a
JSON number, and the counters have not reached their end. -/
theorem accounted_iff (fromSlice : Bytes → Option Json) (capacity startTimeUnixNano : ℕ)
    (serviceInstanceId : String) (acts : List Act) :
    let t := (start startTimeUnixNano serviceInstanceId).run fromSlice capacity acts
    Accounted fromSlice t ↔
      (∀ reply ∈ t.answers, reply.CountAsNumber fromSlice) ∧
        t.lost.length + t.failedBatches + (t.answers.map (Reply.reported fromSlice)).sum
          ≤ counterMax ∧
        (t.observed.drop t.deliveredUpTo).length ≤ counterMax := by
  intro t
  have h : Sound fromSlice [] 0 t := sound_run startTimeUnixNano serviceInstanceId acts
  have hevents : t.published.Perm (t.observed ++ (t.queue ++ t.bus) ++ t.lost) := by
    simpa [held] using h.events
  have hle : (t.answers.map (Reply.read fromSlice)).sum ≤
      (t.answers.map (Reply.reported fromSlice)).sum :=
    List.sum_le_sum fun reply _ => reply.read_le_reported
  have hdropped := h.dropped
  have hcounter := h.droppedCounter
  have hinFlight := h.inFlight
  have hflights := h.inFlightCounter
  have hlen : (t.observed.drop t.deliveredUpTo).length = t.state.inFlight := by
    rw [List.length_drop]
    omega
  rw [← sum_read_eq_iff]
  constructor
  · intro ha
    have hd := ha.dropped
    have hi := ha.inFlight
    refine ⟨by omega, by omega, by omega⟩
  · rintro ⟨hnumbers, hmax, hflight⟩
    exact ⟨hevents, by omega, by omega⟩

/-- The body of an answer that reports five rejected points, their number as a string. -/
def stringCountBody : Bytes :=
  ("\x7b\x22partialSuccess\x22:\x7b\x22rejectedMetricPoints\x22:\x225\x22\x7d\x7d".toList).map
    fun c => UInt8.ofNat c.toNat

/-- A reader of this body. -/
def readStringCount (body : Bytes) : Option Json :=
  if body = stringCountBody then
    some (.object [("partialSuccess", .object [("rejectedMetricPoints", .string "5")])])
  else none

/-- A batch of which the collector rejects five points, and says so in a string. -/
def stringCountRun : List Act :=
  [.tick, .receive, .settle fun _ => .answered 200 "200 OK" (some stringCountBody)]

/-- Five points are reported as rejected, and none is counted. -/
theorem stringCount_uncounted :
    ¬ Accounted readStringCount ((start 0 "host").run readStringCount 1024 stringCountRun) := by
  intro h
  have hdropped := h.dropped
  have hcounter : ((start 0 "host").run readStringCount 1024 stringCountRun).counters.dropped.1
      = 0 := by decide +kernel
  have hreported : ((start 0 "host").run readStringCount 1024 stringCountRun).answers.map
      (Reply.reported readStringCount) = [5] := by decide +kernel
  rw [hcounter, hreported] at hdropped
  simp at hdropped

end Task

end Otlp

end Hekma
