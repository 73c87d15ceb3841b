/-
**The gauge of the agent states** (`MetricState::observe`).

The exporter has a series for every instance and state: a transition sets the one of the state it
left to zero and the one of the state it entered to one.  When a transition is lost, the state it
left is not set to zero, and its series stays at one until a transition out of it is observed.

Main definitions:

* `Otlp.OneHot` — the series of the last state is one, and the others are zero;
* `Otlp.Followed` — every state that was seen entered is seen left, but the last.

Main results:

* `Otlp.lookup_gaugeOf` — a series has the value of the last transition that touched its state;
* `Otlp.oneHot_iff` — the gauge is one-hot just when every state but the last is seen left.
-/

import Hekma.Host.Exporter

set_option relaxedAutoImplicit false
set_option autoImplicit false

namespace Hekma

namespace Otlp

open Metering (Bytes)

/-! ### The transitions of an instance -/

/-- The transitions of an instance among some events, in their order. -/
def transitionsOf (name : InstanceName) (events : List EngineEvent) : List TransitionEvent :=
  events.filterMap fun
    | .transition e => if e.instanceName = name then some e else none
    | _ => none

/-- The gauge is one-hot: of an instance with an observed transition, the series of the state that
the last one entered is one, and every other series it has is zero. -/
def OneHot (gauge : Table (InstanceName × LifecycleState) ℕ) (observed : List EngineEvent) : Prop :=
  ∀ name last, (transitionsOf name observed).getLast? = some last →
    gauge.lookup (name, last.newState) = some 1 ∧
      ∀ state value, state ≠ last.newState → gauge.lookup (name, state) = some value → value = 0

/-- **Every state that was seen entered is seen left**, unless it is the state the last observed
transition of its instance entered. -/
def Followed (observed : List EngineEvent) : Prop :=
  ∀ name before e after last, transitionsOf name observed = before ++ e :: after →
    after.getLast? = some last →
    e.newState = last.newState ∨ ∃ f ∈ after, f.priorState = e.newState

/-! ### The value of a series -/

/-- What a transition makes of the value of the series of a state. -/
def touch (state : LifecycleState) (value : Option ℕ) (e : TransitionEvent) : Option ℕ :=
  if e.newState = state then some 1 else if e.priorState = state then some 0 else value

variable {name : InstanceName} {state : LifecycleState} {observed : List EngineEvent}
  {transitions before after : List TransitionEvent} {e : TransitionEvent} {value : Option ℕ}

theorem lookup_noteTransition (gauge : Table (InstanceName × LifecycleState) ℕ)
    (event : EngineEvent) :
    (MetricState.noteTransition gauge event).lookup (name, state) =
      (transitionsOf name [event]).foldl (touch state) (gauge.lookup (name, state)) := by
  cases event with
  | transition e =>
      unfold MetricState.noteTransition transitionsOf
      by_cases hname : e.instanceName = name
      · subst hname
        simp only [List.filterMap_cons, if_true, List.filterMap_nil, List.foldl_cons,
          List.foldl_nil, touch]
        by_cases hnew : e.newState = state
        · rw [if_pos hnew, hnew, AList.lookup_insert]
        · have hne : (e.instanceName, state) ≠ (e.instanceName, e.newState) := fun h =>
            hnew (congrArg Prod.snd h).symm
          rw [if_neg hnew, AList.lookup_insert_ne hne]
          by_cases hprior : e.priorState = state
          · rw [if_pos hprior, hprior, AList.lookup_insert]
          · have hne : (e.instanceName, state) ≠ (e.instanceName, e.priorState) := fun h =>
              hprior (congrArg Prod.snd h).symm
            rw [if_neg hprior, AList.lookup_insert_ne hne]
      · have hne : ∀ s, (name, state) ≠ (e.instanceName, s) := fun s h =>
          hname (congrArg Prod.fst h).symm
        rw [AList.lookup_insert_ne (hne _), AList.lookup_insert_ne (hne _)]
        simp [hname]
  | budgetBreach e => rfl
  | usageUpdate e => rfl
  | run => rfl

theorem transitionsOf_append (name : InstanceName) (events more : List EngineEvent) :
    transitionsOf name (events ++ more) = transitionsOf name events ++ transitionsOf name more :=
  List.filterMap_append

/-- **A series has the value of the last transition that touched its state.** -/
theorem lookup_gaugeOf (observed : List EngineEvent) :
    (Task.gaugeOf observed).lookup (name, state) =
      (transitionsOf name observed).foldl (touch state) none := by
  induction observed using List.reverseRecOn with
  | nil => rfl
  | append_singleton observed event ih =>
      rw [Task.gaugeOf, List.foldl_append, ← Task.gaugeOf, List.foldl_cons, List.foldl_nil,
        lookup_noteTransition, ih, transitionsOf_append, List.foldl_append]

/-- A state that is not left keeps its one. -/
theorem foldl_touch_one (h : ∀ f ∈ after, f.priorState ≠ state) :
    after.foldl (touch state) (some 1) = some 1 := by
  induction after with
  | nil => rfl
  | cons f after ih =>
      have hf : touch state (some 1) f = some 1 := by
        rw [touch, if_neg (h f List.mem_cons_self)]
        split
        · rfl
        · rfl
      rw [List.foldl_cons, hf]
      exact ih fun g hg => h g (List.mem_cons_of_mem f hg)

/-- A series that is not zero was set to one by a transition into the state, and no transition has
left it since. -/
theorem exists_entered {n : ℕ} (h : transitions.foldl (touch state) none = some n) (hn : n ≠ 0) :
    n = 1 ∧ ∃ before e after, transitions = before ++ e :: after ∧ e.newState = state ∧
      ∀ f ∈ after, f.priorState ≠ state := by
  induction transitions using List.reverseRecOn with
  | nil => simp at h
  | append_singleton transitions e ih =>
      rw [List.foldl_append, List.foldl_cons, List.foldl_nil, touch] at h
      split at h
      · rename_i hnew
        exact ⟨(Option.some.inj h).symm, transitions, e, [], rfl, hnew, by simp⟩
      · split at h
        · exact absurd (Option.some.inj h).symm hn
        · rename_i hprior
          obtain ⟨hone, before, d, after, rfl, hd, hafter⟩ := ih h
          refine ⟨hone, before, d, after ++ [e], by simp, hd, fun f hf => ?_⟩
          rcases List.mem_append.1 hf with hf | hf
          · exact hafter f hf
          · exact List.mem_singleton.1 hf ▸ hprior

/-- The series of the state that was entered last is one. -/
theorem foldl_touch_last {last : TransitionEvent} (h : transitions.getLast? = some last) :
    transitions.foldl (touch last.newState) none = some 1 := by
  obtain ⟨before, rfl⟩ := List.getLast?_eq_some_iff.1 h
  rw [List.foldl_append, List.foldl_cons, List.foldl_nil, touch, if_pos rfl]

/-! ### When the gauge is one-hot -/

/-- The gauge of some events is one-hot just when every state that was entered is left, but the
last. -/
theorem oneHot_gaugeOf (observed : List EngineEvent) :
    OneHot (Task.gaugeOf observed) observed ↔ Followed observed := by
  constructor
  · intro h name before e after last hsplit hlast
    by_contra hnot
    rw [not_or, not_exists] at hnot
    obtain ⟨hne, hleft⟩ := hnot
    have hwhole : (transitionsOf name observed).getLast? = some last := by
      rw [hsplit, List.getLast?_append, List.getLast?_cons, hlast]
      rfl
    -- the series of the state was set to one, and stays there
    have hstale : (Task.gaugeOf observed).lookup (name, e.newState) = some 1 := by
      rw [lookup_gaugeOf, hsplit, List.foldl_append, List.foldl_cons, touch, if_pos rfl]
      exact foldl_touch_one fun f hf heq => hleft f ⟨hf, heq⟩
    exact absurd ((h name last hwhole).2 _ _ hne hstale) (by decide)
  · intro h name last hlast
    rw [lookup_gaugeOf]
    refine ⟨foldl_touch_last hlast, fun state value hne hvalue => ?_⟩
    rw [lookup_gaugeOf] at hvalue
    by_contra hzero
    obtain ⟨-, before, e, after, hsplit, hnew, hafter⟩ := exists_entered hvalue hzero
    cases hend : after.getLast? with
    | none =>
        rw [List.getLast?_eq_none_iff.1 hend] at hsplit
        rw [hsplit, List.getLast?_concat] at hlast
        obtain rfl := Option.some.inj hlast
        exact hne hnew.symm
    | some last' =>
        have hsame : last' = last := by
          rw [hsplit, List.getLast?_append, List.getLast?_cons, hend] at hlast
          exact Option.some.inj hlast
        rcases h name before e after last' hsplit hend with heq | ⟨f, hf, heq⟩
        · exact hne (by rw [← hnew, heq, hsame])
        · exact hafter f hf (heq.trans hnew)

/-- **The gauge of a run.**  What the exporter observed is what was published, in its order, but
for what was lost; and its gauge is one-hot just when every state that was seen entered is seen
left, but the last. -/
theorem oneHot_iff (fromSlice : Bytes → Option Json) (capacity startTimeUnixNano : ℕ)
    (serviceInstanceId : String) (acts : List Act) :
    let t := (Task.start startTimeUnixNano serviceInstanceId).run fromSlice capacity acts
    t.observed.Sublist t.published ∧
      (OneHot t.state.agentState t.observed ↔ Followed t.observed) := by
  intro t
  have h : Task.Sound fromSlice [] 0 t := Task.sound_run startTimeUnixNano serviceInstanceId acts
  refine ⟨?_, ?_⟩
  · refine List.Sublist.trans ?_ h.order
    rw [Task.held, List.append_assoc, List.append_assoc]
    exact List.sublist_append_left _ _
  · rw [h.gauge]
    exact oneHot_gaugeOf t.observed

/-- A transition of one instance. -/
def sampleTransition (priorState newState : LifecycleState) : EngineEvent :=
  .transition ⟨"agent", priorState, newState⟩

/-- Publishing while nothing else happens. -/
theorem run_publish (fromSlice : Bytes → Option Json) (capacity : ℕ) (t : Task)
    (hopen : t.closed = false) (events : List EngineEvent) :
    t.run fromSlice capacity (events.map .publish) =
      { t with bus := t.bus ++ events, published := t.published ++ events } := by
  induction events generalizing t with
  | nil => simp [Task.run]
  | cons event events ih =>
      have hstep : t.step fromSlice capacity (.publish event) =
          { t with bus := t.bus ++ [event], published := t.published ++ [event] } := by
        simp only [Task.step, hopen, Bool.false_eq_true, if_false]
      have hrest := ih (t.step fromSlice capacity (.publish event)) (by rw [hstep]; exact hopen)
      rw [List.map_cons, Task.run, List.foldl_cons]
      refine hrest.trans ?_
      simp only [hstep, List.append_assoc, List.singleton_append]

theorem step_drain (fromSlice : Bytes → Option Json) (capacity : ℕ) (t : Task) {final : Bool}
    (hphase : t.phase = .draining final) :
    t.step fromSlice capacity .receive = t.onDrain capacity final := by
  simp only [Task.step, hphase]

/-- Draining a bus that is not overrun into a queue that has room. -/
theorem run_drain (fromSlice : Bytes → Option Json) (capacity : ℕ) (t : Task) (final : Bool)
    (hphase : t.phase = .draining final) (events : List EngineEvent) (hbus : t.bus = events)
    (hcapacity : events.length ≤ capacity)
    (hroom : t.queue.length + events.length ≤ queueCapacity) :
    t.run fromSlice capacity (events.map fun _ => .receive) =
      { t with bus := [], queue := t.queue ++ events } := by
  induction events generalizing t with
  | nil =>
      rw [List.map_nil, Task.run, List.foldl_nil, List.append_nil, ← hbus]
  | cons event events ih =>
      rw [List.length_cons] at hcapacity hroom
      have hover : ¬ capacity < t.bus.length := by
        rw [hbus, List.length_cons]
        omega
      have hfull : ¬ queueCapacity ≤ t.queue.length := by omega
      have hreceive : t.receive capacity = (.event event, { t with bus := events }) := by
        rw [Task.receive, if_neg hover, hbus]
      have hstep : t.step fromSlice capacity .receive =
          { t with bus := events, queue := t.queue ++ [event] } := by
        rw [step_drain fromSlice capacity t hphase, Task.onDrain, hreceive]
        simp only [Task.push, if_neg hfull]
      have hrest := ih (t.step fromSlice capacity .receive) (by rw [hstep]; exact hphase)
        (by rw [hstep]) (by omega) (by
          rw [hstep]
          simp only [List.length_append, List.length_singleton]
          omega)
      rw [List.map_cons, Task.run, List.foldl_cons]
      refine hrest.trans ?_
      simp only [hstep, List.append_assoc, List.singleton_append]

theorem observed_beginPost (t : Task) (final : Bool) :
    (t.beginPost final).observed = t.observed ++ t.queue := by
  have hfold : ∀ (q : List EngineEvent) (t : Task), (q.foldl (fun t event =>
      { t.command (.observe event) with observed := t.observed ++ [event] }) t).observed
        = t.observed ++ q := by
    intro q
    induction q with
    | nil => simp
    | cons event q ih =>
        intro t
        rw [List.foldl_cons, ih]
        simp
  exact hfold t.queue { t with queue := [] }

/-- The first steps of a run: an instance is started, which is observed. -/
def startedTask : Task :=
  (Task.start 0 "host").run (fun _ => none) 1024
    [.publish (sampleTransition .stopped .starting), .receive, .tick, .receive,
      .settle fun _ => .failed ""]

/-- The next steps: so many events are published at once that the bus is overrun by one, and the
task receives what is left of them. -/
def overrun (gone : EngineEvent) (kept : List EngineEvent) : List Act :=
  (gone :: kept).map .publish ++ ([.tick, .receive] ++ (kept.map (fun _ => .receive) ++ [.receive]))

/-- The event the bus was overrun by is not observed. -/
theorem observed_overrun (gone : EngineEvent) {kept : List EngineEvent}
    (hlen : kept.length = 1024) :
    (startedTask.run (fun _ => none) 1024 (overrun gone kept)).observed =
      sampleTransition .stopped .starting :: kept := by
  have hphase : startedTask.phase = .waiting := by decide +kernel
  have hopen : startedTask.closed = false := by decide +kernel
  have hbus : startedTask.bus = [] := rfl
  have hqueue : startedTask.queue = [] := rfl
  have hobserved : startedTask.observed = [sampleTransition .stopped .starting] := rfl
  have hpublish := run_publish (fun _ => none) 1024 startedTask hopen (gone :: kept)
  rw [overrun, Task.run_append, Task.run_append]
  generalize startedTask.run (fun _ => none) 1024 ((gone :: kept).map .publish) = t at hpublish ⊢
  have hwaiting : t.phase = .waiting := by rw [hpublish]; exact hphase
  have hfull : t.bus = gone :: kept := by rw [hpublish, hbus]; rfl
  -- the receiver is told that it was overrun
  have hlagged : t.run (fun _ => none) 1024 [.tick, .receive] =
      (({ t with phase := .draining false }).skip 1).noteLagged 1 := by
    have htick : t.step (fun _ => none) 1024 .tick = { t with phase := .draining false } := by
      simp only [Task.step, hwaiting]
    have hreceive : ({ t with phase := .draining false } : Task).receive 1024 =
        (.lagged 1, ({ t with phase := .draining false }).skip 1) := by
      simp [Task.receive, hfull, hlen]
    rw [Task.run, List.foldl_cons, List.foldl_cons, List.foldl_nil, htick,
      step_drain _ _ _ rfl, Task.onDrain, hreceive]
  rw [hlagged, Task.run_append, run_drain _ _ _ false rfl kept ?_ (by omega) ?_]
  · rw [Task.run, List.foldl_cons, List.foldl_nil, step_drain _ _ _ rfl, Task.onDrain]
    have hempty : ∀ t : Task, t.bus = [] → t.receive 1024 = (.empty, t) := by
      intro t h
      simp [Task.receive, h]
    rw [hempty _ rfl]
    dsimp only
    rw [observed_beginPost]
    change t.observed ++ (t.queue ++ kept) = _
    rw [hpublish, hobserved, hqueue]
    rfl
  · change t.bus.drop 1 = kept
    rw [hfull]
    rfl
  · change t.queue.length + kept.length ≤ queueCapacity
    rw [hpublish, hqueue, hlen]
    decide

/-- The instance runs and is stopped, and its transition to the running state is lost. -/
def overrunTask : Task :=
  startedTask.run (fun _ => none) 1024
    (overrun (sampleTransition .starting .running)
      (List.replicate 1023 .run ++ [sampleTransition .running .stopping]))

/-- The instance is shown in two states. -/
theorem overrun_not_oneHot : ¬ OneHot overrunTask.state.agentState overrunTask.observed := by
  have hobserved : overrunTask.observed = sampleTransition .stopped .starting ::
      (List.replicate 1023 .run ++ [sampleTransition .running .stopping]) :=
    observed_overrun _ (by rw [List.length_append, List.length_replicate]; rfl)
  have hgauge : overrunTask.state.agentState = Task.gaugeOf overrunTask.observed := by
    have h : Task.Sound (fun _ => none) [] 0 overrunTask := by
      rw [overrunTask, startedTask, ← Task.run_append]
      exact Task.sound_run _ _ _
    exact h.gauge
  have hnone : (List.replicate 1023 EngineEvent.run).filterMap (fun
      | .transition e => if e.instanceName = "agent" then some e else none
      | _ => none) = [] :=
    List.filterMap_eq_nil_iff.2 fun event h => by
      rw [List.eq_of_mem_replicate h]
  have htransitions : transitionsOf "agent" overrunTask.observed =
      [⟨"agent", .stopped, .starting⟩, ⟨"agent", .running, .stopping⟩] := by
    rw [hobserved, transitionsOf, List.filterMap_cons, List.filterMap_append, hnone]
    rfl
  rw [hgauge, oneHot_gaugeOf]
  intro h
  rcases h "agent" [] _ _ _ htransitions rfl with heq | ⟨f, hf, heq⟩
  · exact absurd heq (by decide)
  · obtain rfl := List.mem_singleton.1 hf
    exact absurd heq (by decide)

end Otlp

end Hekma
