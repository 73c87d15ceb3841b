/-
**Unresponsive agents** (`liveness.rs`, and the last phase of a pass of the reaper).

An adapter may declare one check of its agents, a heartbeat file or a page.  Every pass of the
reaper makes one attempt at it, of a running instance.  The first attempt that fails opens a window;
one that passes closes it; and an instance whose window has been open for the declared time fails.

Main definitions:

* `Unresponsive.evaluate`, `Unresponsive.windowDecision` — one attempt, and what follows from it;
* `Unresponsive.Watch.look` — one pass of the reaper, for one instance;
* `Unresponsive.Watch.run` — the instance over many lives;
* `Unresponsive.FailingSince` — an unbroken row of attempts that failed.

Main results:

* `Unresponsive.unresponsive_iff` — **an instance fails exactly when its check has failed without a
  break for the declared time**;
* `Unresponsive.quiet_run` — how many diagnostics there are at most.
-/

import Hekma.Lib.Streak
import Hekma.Adapter.Probes
import Hekma.Domain.Lifecycle

set_option relaxedAutoImplicit false
set_option autoImplicit false

namespace Hekma

namespace Unresponsive

open Adapter (LivenessCheck)

/-! ### One attempt -/

/-- The longest an attempt may take, in milliseconds. -/
def httpAttemptCap : ℕ := 1000

def attemptCap (maxAgeMs : ℕ) : ℕ := min httpAttemptCap maxAgeMs

/-- What the attempts find. -/
structure Probes where
  isAbsolute : List Char → Bool
  join : List Char → List Char → List Char
  fileFresh : List Char → ℕ → Bool
  httpGetAttempt : List Char → ℕ → ℕ → Bool

inductive LivenessSignal where
  | fresh
  | failing
  deriving DecidableEq

def evaluate (probes : Probes) (home : List Char) : LivenessCheck → LivenessSignal
  | .heartbeatFile h =>
      let path := if probes.isAbsolute h.path then h.path else probes.join home h.path
      if probes.fileFresh path h.maxAgeMs then .fresh else .failing
  | .httpGet h =>
      if probes.httpGetAttempt h.url h.expectedStatus (attemptCap h.maxAgeMs) then .fresh
      else .failing

def describe : LivenessCheck → String
  | .heartbeatFile h =>
      let path := String.ofList h.path
      let maxAgeMs := h.maxAgeMs
      s!"liveness check heartbeat-file (heartbeat_file) {path} (stale after {maxAgeMs}ms)"
  | .httpGet h =>
      let url := String.ofList h.url
      let expectedStatus := h.expectedStatus
      s!"liveness check http-get (http_get) {url} (expected {expectedStatus})"

def maxAgeMs : LivenessCheck → ℕ
  | .heartbeatFile h => h.maxAgeMs
  | .httpGet h => h.maxAgeMs

/-- A time in nanoseconds, as the milliseconds that a machine word holds. -/
def asMillis (elapsed : ℕ) : ℕ := elapsed / 1000000 % 2 ^ 64

inductive WindowDecision where
  | healthy
  | startWindow
  | withinWindow (failingForMs : ℕ)
  | recovered
  | expired (failingForMs : ℕ)
  deriving DecidableEq

def windowDecision (failingSince : Option ℕ) (failingNow : Bool) (maxAgeMs : ℕ) : WindowDecision :=
  match failingSince, failingNow with
  | none, false => .healthy
  | none, true => .startWindow
  | some _, false => .recovered
  | some elapsed, true =>
      let failingForMs := asMillis elapsed
      if maxAgeMs ≤ failingForMs then .expired failingForMs else .withinWindow failingForMs

/-! ### The passes -/

/-- How often a window may close again before the diagnostics cease. -/
def livenessReopenDiagnosticBudget : ℕ := 3

inductive Diagnostic where
  | lookupDegraded (reason : String)
  | failing (check : LivenessCheck)
  | recovered (check : LivenessCheck)
  | suppressed

def Diagnostic.text (name : String) : Diagnostic → String
  | .lookupDegraded reason =>
      s!"{name}: declared liveness check could not consult the instance state (store read " ++
        s!"failed): {reason} — checks paused until reads recover"
  | .failing check =>
      let described := describe check
      let window := maxAgeMs check
      s!"{name}: declared liveness check failing ({described}) — the window is open; failing " ++
        s!"continuously for {window}ms fails the instance"
  | .recovered check =>
      let described := describe check
      s!"{name}: declared liveness check recovered ({described}) — the failure window closed " ++
        "before expiring"
  | .suppressed =>
      s!"{name}: further liveness-window reopen diagnostics suppressed (the signal is " ++
        "flapping; the window still never expires while it recovers)"

/-- What supervision holds of a living process, of its liveness. -/
structure Supervised where
  livenessCheck : Option LivenessCheck
  livenessFailingSince : Option ℕ
  livenessReopens : ℕ

/-- The instance: its process if it is supervised, whether the diagnostic of an unreadable row is
out, what has been said, and the checks that have failed it, with how long they had been failing. -/
structure Watch where
  running : Option Supervised
  lookupErr : Bool
  diagnostics : List Diagnostic
  failures : List (LivenessCheck × ℕ)

/-- What a pass finds: the time it looks at the window, the row, the attempt, and the time after
it. -/
structure Look where
  now : ℕ
  lookup : Except String LifecycleState
  probes : Probes
  stamp : ℕ

/-- A count that stays at its largest value. -/
def u32SaturatingSucc (n : ℕ) : ℕ := min (n + 1) (2 ^ 32 - 1)

namespace Watch

variable (home : List Char)

/-- The attempt has been made. -/
def act (w : Watch) (r : Supervised) (check : LivenessCheck) (stamp : ℕ) :
    WindowDecision → Watch
  | .healthy => w
  | .withinWindow _ => w
  | .startWindow =>
      { w with
        running := some { r with livenessFailingSince := some stamp }
        diagnostics := w.diagnostics ++
          if livenessReopenDiagnosticBudget ≤ r.livenessReopens then [] else [.failing check] }
  | .recovered =>
      let reopens := u32SaturatingSucc r.livenessReopens
      { w with
        running := some { r with livenessFailingSince := none, livenessReopens := reopens }
        diagnostics := w.diagnostics ++
          (if reopens ≤ livenessReopenDiagnosticBudget then [.recovered check] else []) ++
          if reopens = livenessReopenDiagnosticBudget then [.suppressed] else [] }
  | .expired failingForMs =>
      { w with running := none, failures := w.failures ++ [(check, failingForMs)] }

/-- One pass.  Only an instance that is running by its row is tried. -/
def look (w : Watch) (l : Look) : Watch :=
  match w.running with
  | none => w
  | some r =>
      match r.livenessCheck with
      | none => w
      | some check =>
          match l.lookup with
          | .error reason =>
              if w.lookupErr then w
              else
                { w with
                  lookupErr := true
                  diagnostics := w.diagnostics ++ [.lookupDegraded reason] }
          | .ok state =>
              let w := { w with lookupErr := false }
              if state ≠ .running then w
              else
                let failingSince := r.livenessFailingSince.map fun t => l.now - t
                let failingNow := evaluate l.probes home check = .failing
                w.act r check l.stamp (windowDecision failingSince failingNow (maxAgeMs check))

end Watch

inductive Event where
  /-- A process has been started or adopted. -/
  | supervised (check : Option LivenessCheck)
  /-- The process is not supervised any more. -/
  | released
  /-- The instance is running again after a pause. -/
  | resumed
  | pass (l : Look)

namespace Watch

variable (home : List Char)

def start : Watch := ⟨none, false, [], []⟩

def step (w : Watch) : Event → Watch
  | .supervised check => { w with running := some ⟨check, none, 0⟩ }
  | .released => { w with running := none }
  | .resumed => { w with running := w.running.map fun r => { r with livenessFailingSince := none } }
  | .pass l => w.look home l

def run (events : List Event) : Watch := events.foldl (step home) start

end Watch

/-! ### Failing without a break -/

variable (home : List Char) (check : LivenessCheck)

/-- What a pass finds out about a running instance. -/
def probed (l : Look) : Option LivenessSignal :=
  match l.lookup with
  | .ok .running => some (evaluate l.probes home check)
  | _ => none

/-- The time of an attempt that fails. -/
def failsAt : Event → Option ℕ
  | .pass l => if probed home check l = some .failing then some l.stamp else none
  | _ => none

/-- The row of failures ends: an attempt passes, the instance has been resumed, or it is another
process. -/
def closes : Event → Bool
  | .pass l => probed home check l = some .fresh
  | _ => true

/-- Every attempt since the given time has failed, and it was the first one. -/
def FailingSince (events : List Event) (t : ℕ) : Prop :=
  ∃ earlier first later, events = earlier ++ first :: later ∧ failsAt home check first = some t ∧
    (∀ e ∈ first :: later, closes home check e = false) ∧
    ∀ before e after, earlier = before ++ e :: after → failsAt home check e ≠ none →
      ∃ e' ∈ e :: after, closes home check e' = true

theorem failingSince_iff {events : List Event} {t : ℕ} :
    FailingSince home check events t ↔
      Streak.noted (failsAt home check) (closes home check) events = some t := by
  rw [Streak.noted_eq_some]
  constructor
  · rintro ⟨earlier, first, later, rfl, hfails, hopen, hclosed⟩
    exact ⟨earlier, first, later, rfl, Streak.noted_eq_none.2 hclosed, hfails, hopen⟩
  · rintro ⟨earlier, first, later, rfl, hnone, hfails, hopen⟩
    exact ⟨earlier, first, later, rfl, hfails, hopen, Streak.noted_eq_none.1 hnone⟩

section

variable {home : List Char} {check : LivenessCheck} {events : List Event} {w : Watch}
  {r : Supervised} {l : Look}

theorem Watch.run_append (events : List Event) (event : Event) :
    Watch.run home (events ++ [event]) = (Watch.run home events).step home event := by
  rw [Watch.run, List.foldl_append]
  rfl

/-- A pass that makes no attempt. -/
theorem look_of_not_probed (hr : w.running = some r) (hcheck : r.livenessCheck = some check)
    (h : probed home check l = none) :
    (w.look home l).running = some r ∧ (w.look home l).failures = w.failures := by
  rw [Watch.look, hr]
  simp only [hcheck]
  rw [probed] at h
  cases hlookup : l.lookup with
  | error reason =>
      cases hsaid : w.lookupErr with
      | true => exact ⟨hr, rfl⟩
      | false => exact ⟨rfl, rfl⟩
  | ok state =>
      have hstate : state ≠ .running := by
        rintro rfl
        rw [hlookup] at h
        cases h
      simp [hstate]

/-- A pass that makes an attempt. -/
theorem look_of_probed (hr : w.running = some r) (hcheck : r.livenessCheck = some check)
    {signal : LivenessSignal} (h : probed home check l = some signal) :
    w.look home l = ({ w with lookupErr := false } : Watch).act r check l.stamp
      (windowDecision (r.livenessFailingSince.map fun t => l.now - t) (signal = .failing)
        (maxAgeMs check)) := by
  rw [Watch.look, hr]
  simp only [hcheck]
  rw [probed] at h
  split at h
  · next hlookup =>
      rw [hlookup]
      simp only [ne_eq, not_true_eq_false, if_false]
      rw [Option.some.inj h]
  · cases h

theorem note_fresh (h : probed home check l = some .fresh) (noted : Option ℕ) :
    Streak.note (failsAt home check) (closes home check) noted (.pass l) = none := by
  rw [Streak.note, closes, h]
  rfl

theorem note_failing (h : probed home check l = some .failing) (noted : Option ℕ) :
    Streak.note (failsAt home check) (closes home check) noted (.pass l) =
      noted.or (some l.stamp) := by
  rw [Streak.note, closes, failsAt, h]
  rfl

theorem note_none (h : probed home check l = none) (noted : Option ℕ) :
    Streak.note (failsAt home check) (closes home check) noted (.pass l) = noted := by
  rw [Streak.note, closes, failsAt, h]
  exact Option.or_none

/-- The window of a supervised process is the row of failures. -/
def Stamped (home : List Char) (events : List Event) (w : Watch) : Prop :=
  ∀ r check, w.running = some r → r.livenessCheck = some check →
    r.livenessFailingSince = Streak.noted (failsAt home check) (closes home check) events

theorem stamped_closed {event : Event}
    (hclosed : ∀ check, closes home check event = true)
    (h : ∀ r, w.running = some r → r.livenessFailingSince = none) :
    Stamped home (events ++ [event]) w := by
  intro r check hr _
  rw [h r hr, Streak.noted_append_singleton, Streak.note, if_pos (hclosed check)]

/-- An attempt keeps the window. -/
theorem stamped_act {signal : LivenessSignal} (hcheck : r.livenessCheck = some check)
    (hprobed : probed home check l = some signal)
    (h : r.livenessFailingSince =
      Streak.noted (failsAt home check) (closes home check) events)
    (hr : w.running = some r) :
    Stamped home (events ++ [.pass l]) (w.act r check l.stamp
      (windowDecision (r.livenessFailingSince.map fun t => l.now - t) (signal = .failing)
        (maxAgeMs check))) := by
  intro r' check' hr' hcheck'
  rw [Streak.noted_append_singleton]
  cases signal with
  | fresh =>
      cases hsince : r.livenessFailingSince with
      | none =>
          rw [hsince] at hr'
          obtain rfl := Option.some.inj (hr.symm.trans hr')
          obtain rfl := Option.some.inj (hcheck.symm.trans hcheck')
          rw [note_fresh hprobed, hsince]
      | some t =>
          rw [hsince] at hr'
          obtain rfl := Option.some.inj hr'
          obtain rfl := Option.some.inj (hcheck.symm.trans hcheck')
          rw [note_fresh hprobed]
  | failing =>
      cases hsince : r.livenessFailingSince with
      | none =>
          rw [hsince] at hr'
          obtain rfl := Option.some.inj hr'
          obtain rfl := Option.some.inj (hcheck.symm.trans hcheck')
          rw [note_failing hprobed, ← h, hsince]
          rfl
      | some t =>
          rw [hsince] at hr'
          simp only [Option.map_some, windowDecision, decide_true] at hr'
          split at hr'
          · cases hr'
          · obtain rfl := Option.some.inj (hr.symm.trans hr')
            obtain rfl := Option.some.inj (hcheck.symm.trans hcheck')
            rw [note_failing hprobed, ← h, hsince]
            rfl

theorem stamped_step (h : Stamped home events w) (event : Event) :
    Stamped home (events ++ [event]) (w.step home event) := by
  cases event with
  | supervised check =>
      refine stamped_closed (fun _ => rfl) fun r hr => ?_
      obtain rfl := Option.some.inj hr
      rfl
  | released => exact stamped_closed (fun _ => rfl) fun r hr => by cases hr
  | resumed =>
      refine stamped_closed (fun _ => rfl) fun r hr => ?_
      obtain ⟨r', -, rfl⟩ := Option.map_eq_some_iff.1 hr
      rfl
  | pass l =>
      rw [Watch.step]
      intro r' check' hr' hcheck'
      cases hr : w.running with
      | none =>
          rw [Watch.look, hr, hr] at hr'
          cases hr'
      | some r =>
          cases hcheck : r.livenessCheck with
          | none =>
              simp only [Watch.look, hr, hcheck] at hr'
              obtain rfl := Option.some.inj hr'
              rw [hcheck] at hcheck'
              cases hcheck'
          | some check =>
              cases hprobed : probed home check l with
              | none =>
                  rw [(look_of_not_probed hr hcheck hprobed).1] at hr'
                  obtain rfl := Option.some.inj hr'
                  obtain rfl := Option.some.inj (hcheck.symm.trans hcheck')
                  rw [Streak.noted_append_singleton, note_none hprobed]
                  exact h r check hr hcheck
              | some signal =>
                  rw [look_of_probed hr hcheck hprobed] at hr'
                  exact stamped_act (w := { w with lookupErr := false }) hcheck hprobed
                    (h r check hr hcheck) hr r' check' hr' hcheck'

theorem stamped_run (home : List Char) (events : List Event) :
    Stamped home events (Watch.run home events) := by
  induction events using List.reverseRec with
  | nil => exact fun r _ hr => by cases hr
  | append_singleton events event ih =>
      rw [Watch.run_append]
      exact stamped_step ih event

/-- What an attempt does to the failures. -/
theorem failures_act (w : Watch) (r : Supervised) (check : LivenessCheck) (stamp : ℕ)
    (decision : WindowDecision) (failingForMs : ℕ) :
    (w.act r check stamp decision).failures = w.failures ++ [(check, failingForMs)] ↔
      decision = .expired failingForMs := by
  cases decision with
  | expired ms =>
      rw [Watch.act]
      dsimp only
      rw [List.append_cancel_left_eq]
      simp
  | healthy => simp [Watch.act]
  | startWindow => simp [Watch.act]
  | withinWindow ms => simp [Watch.act]
  | recovered => simp [Watch.act]

theorem windowDecision_expired {failingSince : Option ℕ} {failingNow : Bool} {window ms : ℕ} :
    windowDecision failingSince failingNow window = .expired ms ↔
      ∃ elapsed, failingSince = some elapsed ∧ failingNow = true ∧ asMillis elapsed = ms ∧
        window ≤ ms := by
  cases failingSince with
  | none => cases failingNow <;> simp [windowDecision]
  | some elapsed =>
      cases failingNow with
      | false => simp [windowDecision]
      | true =>
          rw [windowDecision]
          split
          · next hle => simpa using fun heq => heq ▸ hle
          · next hlt =>
              simp only [reduceCtorEq, Option.some.injEq, exists_eq_left', true_and, false_iff]
              rintro ⟨rfl, hle⟩
              exact hlt hle

/-- **An instance fails exactly when its check has failed without a break for the declared time**,
that is since the process was there and since it was last resumed. -/
theorem unresponsive_iff (home : List Char) (events : List Event) (l : Look) {r : Supervised}
    {check : LivenessCheck} (hr : (Watch.run home events).running = some r)
    (hcheck : r.livenessCheck = some check) (failingForMs : ℕ) :
    (Watch.run home (events ++ [.pass l])).failures =
        (Watch.run home events).failures ++ [(check, failingForMs)] ↔
      probed home check l = some .failing ∧ ∃ t, FailingSince home check events t ∧
        asMillis (l.now - t) = failingForMs ∧ maxAgeMs check ≤ failingForMs := by
  rw [Watch.run_append, Watch.step]
  cases hprobed : probed home check l with
  | none =>
      rw [(look_of_not_probed hr hcheck hprobed).2]
      simp
  | some signal =>
      rw [look_of_probed hr hcheck hprobed, failures_act, windowDecision_expired,
        stamped_run home events r check hr hcheck]
      simp only [Option.map_eq_some_iff, ← failingSince_iff, decide_eq_true_eq, Option.some.injEq]
      constructor
      · rintro ⟨elapsed, ⟨t, ht, rfl⟩, hfailing, hms, hle⟩
        exact ⟨hfailing, t, ht, hms, hle⟩
      · rintro ⟨hfailing, t, ht, hms, hle⟩
        exact ⟨l.now - t, ⟨t, ht, rfl⟩, hfailing, hms, hle⟩

end

/-! ### What is said -/

namespace Diagnostic

def isLookup : Diagnostic → Bool
  | .lookupDegraded _ => true
  | _ => false

def isFailing : Diagnostic → Bool
  | .failing _ => true
  | _ => false

def isRecovered : Diagnostic → Bool
  | .recovered _ => true
  | _ => false

def isSuppressed : Diagnostic → Bool
  | .suppressed => true
  | _ => false

end Diagnostic

namespace Event

def isSupervised : Event → Bool
  | .supervised _ => true
  | _ => false

def isResumed : Event → Bool
  | .resumed => true
  | _ => false

/-- The row can be read. -/
def readsRow : Event → Bool
  | .pass l => match l.lookup with
      | .ok _ => true
      | .error _ => false
  | _ => false

end Event

/-- How many diagnostics of a window that opens are left to a process. -/
def opensLeft : Option Supervised → ℕ
  | none => 0
  | some r =>
      livenessReopenDiagnosticBudget - r.livenessReopens -
        if r.livenessFailingSince.isSome then 1 else 0

/-- How many of a window that closes again. -/
def recoveriesLeft : Option Supervised → ℕ
  | none => 0
  | some r => livenessReopenDiagnosticBudget - r.livenessReopens

/-- Whether it is still to be said that there will be no more. -/
def notesLeft : Option Supervised → ℕ
  | none => 0
  | some r => if r.livenessReopens < livenessReopenDiagnosticBudget then 1 else 0

/-- Whether an unreadable row is to be reported. -/
def lookupsLeft (w : Watch) : ℕ := if w.lookupErr then 0 else 1

/-- What a pass says it can no longer say afterwards. -/
structure Spends (w w' : Watch) (more : List Diagnostic) (reads : ℕ) : Prop where
  said : w'.diagnostics = w.diagnostics ++ more
  opens : more.countP (·.isFailing) + opensLeft w'.running ≤ opensLeft w.running
  recoveries : more.countP (·.isRecovered) + recoveriesLeft w'.running ≤ recoveriesLeft w.running
  notes : more.countP (·.isSuppressed) + notesLeft w'.running ≤ notesLeft w.running
  lookups : more.countP (·.isLookup) + lookupsLeft w' ≤ lookupsLeft w + reads

section

variable {home : List Char} {events : List Event} {w w' : Watch} {r : Supervised}

/-- A pass that only looks. -/
theorem Spends.of_running (hrunning : w'.running = w.running)
    (hsaid : w'.diagnostics = w.diagnostics) {reads : ℕ}
    (hlookups : lookupsLeft w' ≤ lookupsLeft w + reads) : Spends w w' [] reads := by
  refine ⟨by rw [hsaid, List.append_nil], ?_, ?_, ?_, ?_⟩
  · rw [hrunning, List.countP_nil, Nat.zero_add]
  · rw [hrunning, List.countP_nil, Nat.zero_add]
  · rw [hrunning, List.countP_nil, Nat.zero_add]
  · rw [List.countP_nil, Nat.zero_add]
    exact hlookups

theorem countP_said (p : Diagnostic → Bool) (c : Prop) [Decidable c] (d : Diagnostic) :
    (if c then [d] else []).countP p = if c then (if p d then 1 else 0) else 0 := by
  split
  · exact List.countP_singleton
  · rfl

theorem countP_said' (p : Diagnostic → Bool) (c : Prop) [Decidable c] (d : Diagnostic) :
    (if c then [] else [d]).countP p = if c then 0 else (if p d then 1 else 0) := by
  split
  · rfl
  · exact List.countP_singleton

theorem act_spends (hr : w.running = some r) (check : LivenessCheck) (stamp : ℕ)
    {decision : WindowDecision}
    (hstart : decision = .startWindow → r.livenessFailingSince = none)
    (hrecovered : decision = .recovered → r.livenessFailingSince ≠ none) :
    ∃ more, Spends w (w.act r check stamp decision) more 0 := by
  cases decision with
  | healthy => exact ⟨[], .of_running rfl rfl le_rfl⟩
  | withinWindow ms => exact ⟨[], .of_running rfl rfl le_rfl⟩
  | expired ms =>
      exact ⟨[], (List.append_nil _).symm, Nat.zero_le _, Nat.zero_le _, Nat.zero_le _, by
        rw [List.countP_nil, Nat.zero_add]; rfl⟩
  | startWindow =>
      have hnone : r.livenessFailingSince.isSome = false := by rw [hstart rfl]; rfl
      refine ⟨_, ⟨rfl, ?_, ?_, ?_, ?_⟩⟩
      · rw [hr, countP_said', Watch.act, opensLeft, opensLeft, hnone,
          livenessReopenDiagnosticBudget]
        simp only [Diagnostic.isFailing, Option.isSome_some, Bool.false_eq_true, if_false, if_true]
        split_ifs <;> omega
      · rw [hr, countP_said', Watch.act, recoveriesLeft, recoveriesLeft]
        simp [Diagnostic.isRecovered]
      · rw [hr, countP_said', Watch.act, notesLeft, notesLeft]
        simp [Diagnostic.isSuppressed]
      · rw [countP_said', Watch.act, lookupsLeft, lookupsLeft]
        simp only [Diagnostic.isLookup, Bool.false_eq_true, if_false, ite_self, Nat.zero_add,
          Nat.add_zero, le_refl]
  | recovered =>
      have hsome : r.livenessFailingSince.isSome = true :=
        Option.isSome_iff_ne_none.2 (hrecovered rfl)
      have hsucc : u32SaturatingSucc r.livenessReopens = min (r.livenessReopens + 1) 4294967295 :=
        rfl
      refine ⟨_, ⟨List.append_assoc _ _ _, ?_, ?_, ?_, ?_⟩⟩
      · rw [hr, List.countP_append, countP_said, countP_said, Watch.act, opensLeft, opensLeft,
          hsome, hsucc, livenessReopenDiagnosticBudget]
        simp only [Diagnostic.isFailing, Option.isSome_none, Bool.false_eq_true, if_false, if_true]
        split_ifs <;> omega
      · rw [hr, List.countP_append, countP_said, countP_said, Watch.act, recoveriesLeft,
          recoveriesLeft, hsucc, livenessReopenDiagnosticBudget]
        simp only [Diagnostic.isRecovered, Bool.false_eq_true, if_false, if_true]
        split_ifs <;> omega
      · rw [hr, List.countP_append, countP_said, countP_said, Watch.act, notesLeft, notesLeft,
          hsucc, livenessReopenDiagnosticBudget]
        simp only [Diagnostic.isSuppressed, Bool.false_eq_true, if_false, if_true]
        split_ifs <;> omega
      · rw [List.countP_append, countP_said, countP_said]
        simp [Diagnostic.isLookup, Watch.act, lookupsLeft]

theorem windowDecision_start {failingSince : Option ℕ} {failingNow : Bool} {window : ℕ}
    (h : windowDecision failingSince failingNow window = .startWindow) : failingSince = none := by
  cases failingSince with
  | none => rfl
  | some elapsed =>
      rw [windowDecision.eq_def] at h
      cases failingNow with
      | false => cases h
      | true =>
          dsimp only at h
          split at h <;> cases h

theorem windowDecision_recovered {failingSince : Option ℕ} {failingNow : Bool} {window : ℕ}
    (h : windowDecision failingSince failingNow window = .recovered) : failingSince ≠ none := by
  rintro rfl
  cases failingNow <;> cases h

/-- The row has been read before. -/
theorem Spends.of_read {more : List Diagnostic}
    (h : Spends { w with lookupErr := false } w' more 0) : Spends w w' more 1 :=
  ⟨h.said, h.opens, h.recoveries, h.notes, h.lookups.trans (Nat.le_add_left _ _)⟩

theorem look_spends (home : List Char) (w : Watch) (l : Look) :
    ∃ more, Spends w (w.look home l) more (if (Event.pass l).readsRow then 1 else 0) := by
  rw [Watch.look]
  cases hr : w.running with
  | none => exact ⟨[], .of_running rfl rfl (Nat.le_add_right _ _)⟩
  | some r =>
      dsimp only
      cases hcheck : r.livenessCheck with
      | none => exact ⟨[], .of_running rfl rfl (Nat.le_add_right _ _)⟩
      | some check =>
          dsimp only
          cases hlookup : l.lookup with
          | error reason =>
              dsimp only
              cases hsaid : w.lookupErr with
              | true => exact ⟨[], .of_running rfl rfl (Nat.le_add_right _ _)⟩
              | false =>
                  refine ⟨[.lookupDegraded reason], rfl, ?_, ?_, ?_, ?_⟩
                  · rw [hr]
                    exact (Nat.zero_add _).le
                  · rw [hr]
                    exact (Nat.zero_add _).le
                  · rw [hr]
                    exact (Nat.zero_add _).le
                  · rw [lookupsLeft, lookupsLeft, hsaid]
                    exact Nat.le_add_right _ _
          | ok state =>
              have hreads : (Event.pass l).readsRow = true := by
                rw [Event.readsRow, hlookup]
              rw [hreads, if_pos rfl, ← hr]
              dsimp only
              split
              · have hsame : Spends { w with lookupErr := false } { w with lookupErr := false } []
                    0 := .of_running rfl rfl le_rfl
                exact ⟨[], hsame.of_read⟩
              · refine (act_spends (w := { w with lookupErr := false }) hr check l.stamp
                  (fun h => ?_) fun h hnone => ?_).imp fun more hmore => hmore.of_read
                · exact Option.map_eq_none_iff.1 (windowDecision_start h)
                · exact windowDecision_recovered h (Option.map_eq_none_iff.2 hnone)

/-- The diagnostics so far, and those that are left. -/
structure Quiet (events : List Event) (w : Watch) : Prop where
  opens : w.diagnostics.countP (·.isFailing) + opensLeft w.running ≤
    livenessReopenDiagnosticBudget * events.countP (·.isSupervised) + events.countP (·.isResumed)
  recoveries : w.diagnostics.countP (·.isRecovered) + recoveriesLeft w.running ≤
    livenessReopenDiagnosticBudget * events.countP (·.isSupervised)
  notes : w.diagnostics.countP (·.isSuppressed) + notesLeft w.running ≤
    events.countP (·.isSupervised)
  lookups : w.diagnostics.countP (·.isLookup) + lookupsLeft w ≤ 1 + events.countP (·.readsRow)

theorem countP_push (p : Event → Bool) (events : List Event) (event : Event) :
    (events ++ [event]).countP p = events.countP p + if p event then 1 else 0 := by
  rw [List.countP_append, List.countP_singleton]

/-- After a resume the window can open once more. -/
theorem opensLeft_resumed (running : Option Supervised) :
    opensLeft (running.map fun r => { r with livenessFailingSince := none }) ≤
      opensLeft running + 1 := by
  cases running with
  | none => exact Nat.zero_le _
  | some r =>
      rw [Option.map_some, opensLeft, opensLeft]
      simp only [Option.isSome_none, Bool.false_eq_true, if_false]
      split_ifs <;> omega

theorem quiet_step (h : Quiet events w) (event : Event) :
    Quiet (events ++ [event]) (w.step home event) := by
  obtain ⟨hopens, hrecoveries, hnotes, hlookups⟩ := h
  cases event with
  | supervised check =>
      refine ⟨?_, ?_, ?_, ?_⟩
      · rw [countP_push, countP_push]
        change w.diagnostics.countP _ + 3 ≤ 3 * (_ + 1) + (_ + 0)
        rw [livenessReopenDiagnosticBudget] at hopens
        omega
      · rw [countP_push]
        change w.diagnostics.countP _ + 3 ≤ 3 * (_ + 1)
        rw [livenessReopenDiagnosticBudget] at hrecoveries
        omega
      · rw [countP_push]
        change w.diagnostics.countP _ + 1 ≤ _ + 1
        omega
      · rw [countP_push]
        exact hlookups
  | released =>
      refine ⟨?_, ?_, ?_, ?_⟩
      · rw [countP_push, countP_push]
        exact (Nat.add_le_add_left (Nat.zero_le _) _).trans hopens
      · rw [countP_push]
        exact (Nat.add_le_add_left (Nat.zero_le _) _).trans hrecoveries
      · rw [countP_push]
        exact (Nat.add_le_add_left (Nat.zero_le _) _).trans hnotes
      · rw [countP_push]
        exact hlookups
  | resumed =>
      have hleft := opensLeft_resumed w.running
      refine ⟨?_, ?_, ?_, ?_⟩
      · rw [countP_push, countP_push]
        change w.diagnostics.countP _ + opensLeft (w.running.map _) ≤ _ * (_ + 0) + (_ + 1)
        rw [Nat.add_zero]
        omega
      · rw [countP_push]
        refine le_trans (Nat.add_le_add_left ?_ _) hrecoveries
        change recoveriesLeft (w.running.map _) ≤ _
        cases w.running <;> exact le_rfl
      · rw [countP_push]
        refine le_trans (Nat.add_le_add_left ?_ _) hnotes
        change notesLeft (w.running.map _) ≤ _
        cases w.running <;> exact le_rfl
      · rw [countP_push]
        exact hlookups
  | pass l =>
      obtain ⟨more, hsaid, hopen, hrecovered, hnote, hlookup⟩ := look_spends home w l
      rw [Watch.step]
      refine ⟨?_, ?_, ?_, ?_⟩
      all_goals
        rw [hsaid, List.countP_append, countP_push]
      · rw [countP_push]
        change _ ≤ _ * (_ + 0) + (_ + 0)
        rw [Nat.add_zero]
        omega
      · change _ ≤ _ * (_ + 0)
        rw [Nat.add_zero]
        omega
      · change _ ≤ _ + 0
        omega
      · omega

theorem quiet_foldl (home : List Char) (events : List Event) :
    Quiet events (Watch.run home events) := by
  induction events using List.reverseRec with
  | nil => exact ⟨le_rfl, le_rfl, le_rfl, le_rfl⟩
  | append_singleton events event ih =>
      rw [Watch.run_append]
      exact quiet_step ih event

/-- **However often the signal comes and goes, little is said**: for each process at most three
times that its window has opened, once more for each resume, three times that it has closed again,
and once that no more will be said; and of an unreadable row once until it has been read again. -/
theorem quiet_run (home : List Char) (events : List Event) :
    (Watch.run home events).diagnostics.countP (·.isFailing) ≤
        3 * events.countP (·.isSupervised) + events.countP (·.isResumed) ∧
      (Watch.run home events).diagnostics.countP (·.isRecovered) ≤
        3 * events.countP (·.isSupervised) ∧
      (Watch.run home events).diagnostics.countP (·.isSuppressed) ≤
        events.countP (·.isSupervised) ∧
      (Watch.run home events).diagnostics.countP (·.isLookup) ≤
        1 + events.countP (·.readsRow) := by
  have h := quiet_foldl home events
  exact ⟨(Nat.le_add_right _ _).trans h.opens, (Nat.le_add_right _ _).trans h.recoveries,
    (Nat.le_add_right _ _).trans h.notes, (Nat.le_add_right _ _).trans h.lookups⟩

end

/-! ### A heartbeat that has stopped -/

/-- A heartbeat that may be a quarter of a second old. -/
def heartbeat : LivenessCheck := .heartbeatFile ⟨"beat".toList, 250⟩

/-- A pass over a running instance, which finds the heartbeat fresh or not. -/
def beats (now stamp : ℕ) (fresh : Bool) : Look where
  now := now
  lookup := .ok .running
  probes := ⟨fun _ => false, (· ++ ·), fun _ _ => fresh, fun _ _ _ => false⟩
  stamp := stamp

/-- The heartbeat is missed, comes back, and stops. -/
def stops : List Event :=
  [.supervised (some heartbeat), .pass (beats 0 10 false), .pass (beats 300000000 300000010 true),
    .pass (beats 600000000 600000010 false), .pass (beats 700000000 700000010 false)]

theorem unresponsive_stops :
    (Watch.run [] (stops ++ [.pass (beats 850000010 850000020 false)])).failures =
      (Watch.run [] stops).failures ++ [(heartbeat, 250)] := by
  have hsince : FailingSince [] heartbeat stops 600000010 := (failingSince_iff _ _).2 rfl
  exact (unresponsive_iff [] stops (beats 850000010 850000020 false) rfl rfl 250).2
    ⟨rfl, 600000010, hsince, rfl, le_rfl⟩

end Unresponsive

end Hekma
