/-
**The truncation of a raw log** (`domain/supervisor/usage.rs`, `ports/process_backend.rs`).

A raw log has two readers, each with a cursor of its own: the usage drain and the tailer of the
capture.  A log that has reached its cap is cut to nothing once both have read it to its end, and
both cursors are set to its start.  The length of the log is measured first, then the cursors are
looked at, and the tailer can make passes in between.  A cut that is put off, or that fails, leaves
the log and the cursors as they are.

Main definitions:

* `Truncation.State`, `Truncation.Action`, `Truncation.step` — the log, its readers and the phases
  of a cut;
* `Truncation.Orderly` — the agent does not write while a cut is on its way, and a last pass over a
  living agent finds no unfinished line;
* `Truncation.Sound` — what holds of the readers and the history in every state.

Main results:

* `Truncation.Sound.drain` — a pass keeps the account of the usage lines;
* `Truncation.Sound.truncated` — a cut keeps it too;
* `Truncation.cuts_only_read`, `Truncation.deferred_keeps_cursors` — when a log is cut, and what is
  left alone when it is not;
* `Truncation.truncation_losesNothing` — **what every run guarantees**.
-/

import Hekma.Capture.Tailer
import Hekma.Supervisor.UsageDrain

set_option relaxedAutoImplicit false
set_option autoImplicit false

namespace Hekma

namespace Truncation

open UsageDrain
open UsageDrain.Drainer (chunk Placed Recorded advanced)
open Capture (AttributedLog LogCaptureMode LogRecord RawLog tailNewLines)

/-! ### The log and its readers -/

/-- Where a cut stands: its length is measured and read by the drain, or it is read by both. -/
inductive Phase where
  | idle
  | measured (len : ℕ)
  | cleared
  deriving DecidableEq, Repr

/-- The raw log of a channel with its drain and what its passes did, the cursor of the tailer, if
there is one, and what that has captured. -/
structure State where
  drainer : Drainer
  history : List Entry
  alive : Bool
  tailer : Option ℕ
  out : AttributedLog LogRecord
  phase : Phase

inductive Action where
  /-- The agent writes on. -/
  | write (bytes : List UInt8)
  /-- The agent dies. -/
  | exit
  /-- Others commit to the ledger. -/
  | commitElsewhere (rows : List Identity)
  /-- A pass of the usage drain. -/
  | drain (mode : DrainMode) (readable : Bool) (answers : ℕ → WriteAnswer)
  /-- The tailer is started. -/
  | spawnOutputCapture
  /-- A pass of the tailer, or one that the last drain forces. -/
  | catchUp (at_ : Timestamp)
  /-- The length of the log is measured. -/
  | measure
  /-- The cursor of the tailer is read. -/
  | compareTailer
  /-- The log is cut, or that fails. -/
  | truncateRawAndSnap (ok : Bool)

/-- The action is one of a cut. -/
def Action.cutting : Action → Bool
  | measure | compareTailer | truncateRawAndSnap _ => true
  | _ => false

section

variable (parse : List UInt8 → Option ParsedUsage) (m : Metered) (cap : ℕ) (env : Capture.Env)
  (mode : LogCaptureMode) (log : RawLog)

/-- What the agent and others add between two passes. -/
def arrival (bytes : List UInt8) (rows : List Identity) : Pass :=
  ⟨bytes, rows, false, fun _ => .busy, false⟩

/-- A pass of the drain over the log as it stands.  The cut after it has steps of its own. -/
def passOf (readable : Bool) (answers : ℕ → WriteAnswer) : Pass :=
  ⟨[], [], readable, answers, false⟩

/-- The log has reached its cap. -/
def shouldTruncate (fileLen cap : ℕ) : Bool := cap ≤ fileLen

/-- One step. -/
def step (s : State) : Action → State
  | .write bytes =>
      if s.alive then { s with drainer := s.drainer.grown (arrival bytes []) } else s
  | .exit => { s with alive := false }
  | .commitElsewhere rows => { s with drainer := s.drainer.grown (arrival [] rows) }
  | .drain drainMode readable answers =>
      -- the supervisor makes its passes and its cuts one after the other
      if s.phase = .idle then
        let r := Drainer.observe parse m drainMode (s.drainer, s.history) (passOf readable answers)
        { s with drainer := r.1, history := r.2 }
      else s
  | .spawnOutputCapture =>
      match s.tailer with
      | some _ => s
      | none => { s with tailer := some s.drainer.log.length }
  | .catchUp at_ =>
      match s.tailer with
      | none => s
      | some cursor =>
          let r := tailNewLines env mode log at_ s.drainer.log cursor s.out
          { s with tailer := some r.1, out := r.2 }
  | .measure =>
      if s.phase = .idle ∧ shouldTruncate s.drainer.log.length cap then
        -- what the drain has not read puts the cut off
        if s.drainer.cursor < s.drainer.log.length then s
        else { s with phase := .measured s.drainer.log.length }
      else s
  | .compareTailer =>
      match s.phase with
      | .measured len =>
          -- an adopted process has no tailer
          if s.tailer.getD len < len then { s with phase := .idle }
          else { s with phase := .cleared }
      | _ => s
  | .truncateRawAndSnap ok =>
      if s.phase = .cleared then
        if ok then
          { s with
            drainer := { s.drainer with older := [], cut := s.drainer.written.length, cursor := 0 }
            tailer := s.tailer.map fun _ => 0
            phase := .idle }
        else { s with phase := .idle }
      else s

end

/-- The state at the start of a launch, over what the log, the ledger and the capture hold. -/
def State.start (older : List UInt8) (ledger : List Identity) (out : AttributedLog LogRecord) :
    State :=
  ⟨Drainer.start older ledger, [], true, none, out, .idle⟩

/-- The conditions on a step: the agent does not write while a cut is on its way, and a last pass
over an agent that lives finds no unfinished line. -/
def Orderly (s : State) : Action → Prop
  | .write _ => s.phase = .idle
  | .drain .terminal _ _ => s.alive = false ∨ EndsLine s.drainer.written
  | _ => True

/-- Every finished usage line was ingested, and none twice. -/
def IngestedOnce (parse : List UInt8 → Option ParsedUsage) (s : State) : Prop :=
  ∀ k < (s.drainer.total parse).length, insertions s.history k = 1

/-! ### A pass of the drain -/

section

variable {parse : List UInt8 → Option ParsedUsage} {m : Metered} {d : Drainer} {H : List Entry}

theorem grown_passOf (d : Drainer) (readable : Bool) (answers : ℕ → WriteAnswer) :
    d.grown (passOf readable answers) = d := by
  simp [Drainer.grown, passOf]

theorem maybeTruncateRawLog_passOf (d : Drainer) (readable : Bool) (answers : ℕ → WriteAnswer) :
    d.maybeTruncateRawLog (passOf readable answers) = d := by
  simp [Drainer.maybeTruncateRawLog, passOf]

variable (parse m) in
/-- All a pass can do: nothing, or read a block. -/
theorem drain_passOf (h : Placed d) (mode : DrainMode) (readable : Bool)
    (answers : ℕ → WriteAnswer) :
    (d.drain parse m (passOf readable answers) mode = (.idle, d) ∧
      (readable = true → chunk mode d.unread = [])) ∨
    (chunk mode d.unread ≠ [] ∧ d.drain parse m (passOf readable answers) mode =
      d.consume parse m (passOf readable answers) mode (chunk mode d.unread)
        (chunk mode d.unread).length) := by
  rcases Drainer.drain_cases parse m h (passOf readable answers) mode with
    ⟨hread, hdrain⟩ | ⟨-, hempty, hdrain⟩ | ⟨-, hne, r, hr, hdrain⟩
  · rw [grown_passOf] at hdrain
    exact .inl ⟨hdrain, fun hreadable => nomatch hread.symm.trans hreadable⟩
  · rw [grown_passOf] at hdrain hempty
    rw [maybeTruncateRawLog_passOf] at hdrain
    exact .inl ⟨hdrain, fun _ => hempty⟩
  · rw [grown_passOf] at hr hne
    rw [maybeTruncateRawLog_passOf, hr] at hdrain
    exact .inr ⟨hne, hdrain⟩

variable (parse m) in
/-- All a pass can do with a block: move past it, because it committed or is skipped, or stay
before it. -/
theorem consume_cases (d : Drainer) (p : Pass) (mode : DrainMode) (bytes : List UInt8)
    (consumed : ℕ) :
    ∃ r announced failure, Ingested m (usageOf parse bytes) d.ledger failure r ∧
      (d.consume parse m p mode bytes consumed).1
        = ⟨usageOf parse bytes, r.1, r.2.1, announced⟩ ∧
      (((d.consume parse m p mode bytes consumed).2 = d.advanced r.2.2 consumed ∧
          (failure = none ∨ mode = .midRun ∧ ∃ offset attempts, announced =
            some (.skipped ((usageOf parse bytes).length - r.1.length) offset attempts))) ∨
        ((∃ park, (d.consume parse m p mode bytes consumed).2 =
            { d with ledger := r.2.2, park := park }) ∧
          (mode = .terminal →
            announced = some (.lost ((usageOf parse bytes).length - r.1.length))))) := by
  cases mode with
  | midRun =>
      obtain ⟨r, announced, hr, hreport, hend⟩ := Drainer.consume_midRun parse m d p bytes consumed
      refine ⟨r, announced, _, hr, hreport, ?_⟩
      rcases hend with ⟨hnone, -, hstate⟩ | ⟨answer, -, -, hend⟩
      · exact .inl ⟨hstate, .inl (hr.failure_eq ▸ hnone)⟩
      · rcases hend with ⟨-, hannounced, hstate⟩ | ⟨-, -, hstate⟩
        · exact .inl ⟨hstate, .inr ⟨rfl, _, _, hannounced⟩⟩
        · exact .inr ⟨⟨_, hstate⟩, nofun⟩
  | terminal =>
      obtain ⟨r, announced, hr, hreport, hend⟩ :=
        Drainer.consume_terminal parse m d p bytes consumed
      refine ⟨r, announced, _, hr, hreport, ?_⟩
      rcases hend with ⟨hnone, hstate⟩ | ⟨-, hannounced, hstate⟩
      · exact .inl ⟨hstate, .inl (hr.failure_eq ▸ hnone)⟩
      · exact .inr ⟨⟨d.park, hstate⟩, fun _ => hannounced⟩

end

/-! ### What holds in every state -/

/-- The usage lines that count: the finished ones while the agent lives, and all once it is dead. -/
def State.lines (parse : List UInt8 → Option ParsedUsage) (s : State) : List ParsedUsage :=
  if s.alive then s.drainer.total parse else usageOf parse s.drainer.written

theorem State.isPrefix_lines (parse : List UInt8 → Option ParsedUsage) (s : State) :
    s.lines parse <+: usageOf parse s.drainer.written := by
  rw [State.lines]
  split
  · exact Drainer.isPrefix_total parse s.drainer
  · exact List.prefix_rfl

/-- What has been seen of the log and the cursors still holds. -/
def State.Phased (s : State) : Prop :=
  match s.phase with
  | .idle => True
  | .measured len => len = s.drainer.log.length ∧ s.drainer.log.length ≤ s.drainer.cursor
  | .cleared => s.drainer.log.length ≤ s.drainer.cursor ∧
      ∀ t ∈ s.tailer, s.drainer.log.length ≤ t

/-- What holds of the readers and the history in every state. -/
structure Sound (parse : List UInt8 → Option ParsedUsage) (m : Metered) (s : State) : Prop where
  placed : Placed s.drainer
  boundary : EndsLine (s.drainer.written.take s.drainer.position) ∨
    s.alive = false ∧ s.drainer.unread = []
  recorded : Recorded m (s.lines parse) s.drainer.ledger s.history
  accounted : ∀ k < s.drainer.passed parse, Settled s.history k ∨ Skipped s.history k
  tailed : ∀ t ∈ s.tailer, t ≤ s.drainer.log.length
  phased : s.Phased

section

variable {parse : List UInt8 → Option ParsedUsage} {m : Metered} {cap : ℕ} {env : Capture.Env}
  {mode : LogCaptureMode} {log : RawLog} {s : State} {d : Drainer} {bytes : List UInt8}

theorem Sound.start (older : List UInt8) (ledger : List Identity) (out : AttributedLog LogRecord) :
    Sound parse m (State.start older ledger out) := by
  have h := Drainer.Faithful.start parse m older ledger
  refine ⟨h.placed, .inl h.boundary, h.recorded, fun k hk => ?_, nofun, trivial⟩
  exact absurd hk (by simp [State.start, Drainer.start, Drainer.passed, usageOf, UsageDrain.lines])

/-! ### A block -/

theorem position_advanced (h : Placed d) (ledger : List Identity) (n : ℕ) :
    (d.advanced ledger n).position = d.position + n := by
  have holder := h.older_le
  simp only [Drainer.position, advanced]
  omega

/-- What lies behind the cursor after a block. -/
theorem take_advanced (h : Placed d) (hbytes : bytes <+: d.unread) (ledger : List Identity) :
    (d.advanced ledger bytes.length).written.take (d.advanced ledger bytes.length).position =
      d.written.take d.position ++ bytes := by
  rw [position_advanced h, List.prefix_iff_eq_take.1 hbytes, List.length_take,
    min_eq_left hbytes.length_le]
  exact List.take_add

theorem passed_advanced (h : Placed d) (hbytes : bytes <+: d.unread)
    (hboundary : EndsLine (d.written.take d.position)) (ledger : List Identity) :
    (d.advanced ledger bytes.length).passed parse =
      d.passed parse + (usageOf parse bytes).length := by
  rw [Drainer.passed, take_advanced h hbytes, usageOf_append parse hboundary, List.length_append]
  rfl

theorem placed_advanced (h : Placed d) (hbytes : bytes <+: d.unread) (ledger : List Identity) :
    Placed (d.advanced ledger bytes.length) := by
  refine ⟨h.older_le.trans (Nat.le_add_right _ _), ?_⟩
  have hlen := hbytes.length_le
  have hpos := h.position_le
  rw [Drainer.unread, List.length_drop] at hlen
  rw [position_advanced h]
  change _ ≤ d.written.length
  omega

/-- The block of a pass is a part of the lines that count. -/
theorem Sound.block (h : Sound parse m s) {drainMode : DrainMode} {readable : Bool}
    {answers : ℕ → WriteAnswer} (ho : Orderly s (.drain drainMode readable answers))
    (hne : chunk drainMode s.drainer.unread ≠ []) :
    EndsLine (s.drainer.written.take s.drainer.position) ∧
      usageOf parse (chunk drainMode s.drainer.unread) <+:
        (s.lines parse).drop (s.drainer.passed parse) ∧
      (EndsLine (chunk drainMode s.drainer.unread) ∨
        s.alive = false ∧ chunk drainMode s.drainer.unread = s.drainer.unread) := by
  obtain hboundary | ⟨-, hempty⟩ := h.boundary
  case inr =>
    refine absurd (List.prefix_nil.1 ?_) hne
    rw [← hempty]
    exact Drainer.isPrefix_chunk _ _
  refine ⟨hboundary, ?_⟩
  cases halive : s.alive with
  | true =>
      -- while the agent lives, a pass takes the finished lines
      have hchunk : chunk drainMode s.drainer.unread = completeLines s.drainer.unread := by
        cases drainMode with
        | midRun => rfl
        | terminal =>
            have hend : EndsLine s.drainer.written := by simpa [Orderly, halive] using ho
            exact (hend.drop _).completeLines_eq.symm
      rw [hchunk, State.lines, if_pos halive, Drainer.drop_total hboundary]
      exact ⟨List.prefix_rfl, .inl (completeLines_endsLine _)⟩
  | false =>
      have hdrop : (usageOf parse s.drainer.written).drop (s.drainer.passed parse) =
          usageOf parse s.drainer.unread := by
        rw [Drainer.usageOf_written parse hboundary]
        exact List.drop_left
      rw [State.lines, if_neg (by simp [halive]), hdrop]
      cases drainMode with
      | midRun => exact ⟨isPrefix_usageOf parse _, .inl (completeLines_endsLine _)⟩
      | terminal => exact ⟨List.prefix_rfl, .inr ⟨rfl, rfl⟩⟩

/-! ### A pass keeps the account -/

/-- A line of a block that was committed or skipped. -/
theorem accounted_entry {H : List Entry} {base k : ℕ} {block : List ParsedUsage}
    {r : List RecordOutcome × Option WriteAnswer × List Identity} {announced : Option Announcement}
    {failure : Option WriteAnswer} {ledger : List Identity} (hr : Ingested m block ledger failure r)
    (hend : failure = none ∨
      ∃ offset attempts, announced = some (.skipped (block.length - r.1.length) offset attempts))
    (hbase : base ≤ k) (hk : k < base + block.length) :
    Settled (H ++ [⟨base, block, r.1, r.2.1, announced⟩]) k ∨
      Skipped (H ++ [⟨base, block, r.1, r.2.1, announced⟩]) k := by
  have hlast : (⟨base, block, r.1, r.2.1, announced⟩ : Entry) ∈
      H ++ [⟨base, block, r.1, r.2.1, announced⟩] := List.mem_append_right _ (by simp)
  by_cases hdone : k < base + r.1.length
  · exact .inl ⟨_, hlast, hbase, hdone⟩
  · rcases hend with hnone | ⟨offset, attempts, hannounced⟩
    · exact absurd (hr.all hnone ▸ hk) hdone
    · exact .inr ⟨_, hlast, not_lt.1 hdone, hk, offset, attempts, hannounced⟩

/-- A pass that reads nothing keeps the account. -/
theorem Sound.idled (h : Sound parse m s) (hidle : s.phase = .idle) :
    Sound parse m { s with history := s.history ++ [⟨s.drainer.passed parse, .idle⟩] } := by
  refine ⟨h.placed, h.boundary, h.recorded.idle _, fun k hk => ?_, h.tailed, ?_⟩
  · exact (h.accounted k hk).imp (·.append _) (·.append _)
  · simp [State.Phased, hidle]

/-- A pass that reads a block keeps the account. -/
theorem Sound.consumed (h : Sound parse m s) (hidle : s.phase = .idle) {drainMode : DrainMode}
    {readable : Bool} {answers : ℕ → WriteAnswer} {r : Report × Drainer}
    (ho : Orderly s (.drain drainMode readable answers))
    (hne : chunk drainMode s.drainer.unread ≠ [])
    (hr : r = s.drainer.consume parse m (passOf readable answers) drainMode
      (chunk drainMode s.drainer.unread) (chunk drainMode s.drainer.unread).length) :
    Sound parse m { s with
      drainer := r.2
      history := s.history ++ [⟨s.drainer.passed parse, r.1⟩] } := by
  obtain ⟨hboundary, hblock, hends⟩ := h.block ho hne
  obtain ⟨ingested, announced, failure, hingested, hreport, hend⟩ :=
    consume_cases parse m s.drainer (passOf readable answers) drainMode
      (chunk drainMode s.drainer.unread) (chunk drainMode s.drainer.unread).length
  have hunread := Drainer.isPrefix_chunk drainMode s.drainer.unread
  have hrecorded := h.recorded.extend_of_prefix hblock hingested announced
  have hphased : ∀ (d : Drainer) (H : List Entry),
      ({ s with drainer := d, history := H } : State).Phased := by
    intro d H
    simp [State.Phased, hidle]
  rw [← hr] at hreport hend
  rw [hreport]
  generalize chunk drainMode s.drainer.unread = bytes at *
  rcases hend with ⟨hstate, hwhy⟩ | ⟨⟨park, hstate⟩, -⟩
  · -- the cursor moves past the block
    rw [hstate]
    refine ⟨placed_advanced h.placed hunread _, ?_, hrecorded, fun k hk => ?_, h.tailed,
      hphased _ _⟩
    · rcases hends with hends | ⟨halive, rfl⟩
      · left
        rw [take_advanced h.placed hunread]
        exact EndsLine.append hboundary hends
      · right
        refine ⟨halive, List.drop_eq_nil_of_le ?_⟩
        rw [position_advanced h.placed, Drainer.unread, List.length_drop]
        exact (Nat.add_sub_of_le h.placed.position_le).ge
    · rw [passed_advanced h.placed hunread hboundary] at hk
      by_cases hlt : k < s.drainer.passed parse
      · exact (h.accounted k hlt).imp (·.append _) (·.append _)
      · exact accounted_entry hingested (hwhy.imp id And.right) (not_lt.1 hlt) hk
  · -- the cursor stays before the block
    rw [hstate]
    refine ⟨⟨h.placed.older_le, h.placed.position_le⟩, h.boundary, hrecorded, fun k hk => ?_,
      h.tailed, hphased _ _⟩
    exact (h.accounted k hk).imp (·.append _) (·.append _)

/-- **A pass keeps the account of the usage lines.** -/
theorem Sound.drain (h : Sound parse m s) {drainMode : DrainMode} {readable : Bool}
    {answers : ℕ → WriteAnswer} (ho : Orderly s (.drain drainMode readable answers)) :
    Sound parse m (step parse m cap env mode log s (.drain drainMode readable answers)) := by
  rw [step]
  split
  case isFalse => exact h
  rename_i hidle
  rw [Drainer.observe]
  rcases drain_passOf parse m h.placed drainMode readable answers with
    ⟨hdrain, -⟩ | ⟨hne, hdrain⟩
  · rw [hdrain]
    exact h.idled hidle
  · rw [hdrain]
    exact h.consumed hidle ho hne rfl

/-! ### What the agent and the tailer do -/

theorem log_arrived (h : Placed d) (bytes : List UInt8) (rows : List Identity) :
    (d.grown (arrival bytes rows)).log = d.log ++ bytes := by
  have hcut : d.cut ≤ d.written.length := (Nat.le_add_right _ _).trans h.position_le
  simp [Drainer.log, Drainer.grown, arrival, List.drop_append_of_le_length hcut]

/-- What the agent and others add keeps the account. -/
theorem Sound.arrived (h : Sound parse m s) (rows : List Identity)
    (hwrites : bytes = [] ∨ s.alive = true ∧ s.phase = .idle) :
    Sound parse m { s with drainer := s.drainer.grown (arrival bytes rows) } := by
  have hpassed := Drainer.passed_grown parse h.placed (arrival bytes rows)
  have htake := Drainer.take_grown h.placed (arrival bytes rows)
  have hlog := log_arrived h.placed bytes rows
  refine ⟨h.placed.grown _, ?_, ?_, fun k hk => h.accounted k (hpassed ▸ hk), ?_, ?_⟩
  · rcases h.boundary with hboundary | ⟨halive, hunread⟩
    · exact .inl (htake ▸ hboundary)
    · rcases hwrites with rfl | ⟨halive', -⟩
      · right
        refine ⟨halive, ?_⟩
        simpa [Drainer.unread, Drainer.grown, arrival, Drainer.position] using hunread
      · exact absurd (halive.symm.trans halive') Bool.false_ne_true
  · have hlines : s.lines parse <+:
        ({ s with drainer := s.drainer.grown (arrival bytes rows) } : State).lines parse := by
      rcases hwrites with rfl | ⟨halive, -⟩
      · simp [State.lines, Drainer.total, Drainer.grown, arrival]
      · rw [State.lines, State.lines, if_pos halive, if_pos halive]
        exact Drainer.total_grown parse s.drainer _
    exact h.recorded.mono hlines ⟨rows, rfl⟩
  · intro t ht
    rw [hlog, List.length_append]
    exact (h.tailed t ht).trans (Nat.le_add_right _ _)
  · rcases hwrites with rfl | ⟨-, hidle⟩
    · have hphased := h.phased
      rw [List.append_nil] at hlog
      simp only [State.Phased, hlog] at hphased ⊢
      exact hphased
    · simp [State.Phased, hidle]

theorem Sound.exit (h : Sound parse m s) : Sound parse m { s with alive := false } := by
  refine ⟨h.placed, h.boundary.imp_right fun hdead => ⟨rfl, hdead.2⟩, ?_, h.accounted, h.tailed,
    h.phased⟩
  exact h.recorded.mono (s.isPrefix_lines parse) ⟨[], (List.append_nil _).symm⟩

variable (env mode log) in
/-- A pass of the tailer moves its cursor on, and not past the end of the log. -/
theorem tailNewLines_cursor (at_ : Timestamp) (raw : List UInt8) {cursor : ℕ}
    (out : AttributedLog LogRecord) (h : cursor ≤ raw.length) :
    cursor ≤ (tailNewLines env mode log at_ raw cursor out).1 ∧
      (tailNewLines env mode log at_ raw cursor out).1 ≤ raw.length := by
  rw [tailNewLines]
  split
  · rw [if_neg (not_lt.2 h)]
    exact ⟨le_rfl, h⟩
  · dsimp only
    split
    · exact ⟨le_rfl, h⟩
    · have hle := Lines.bounded_le newline Capture.maxTailLinesPerPass
        ((raw.drop cursor).take (min (raw.length - cursor) Capture.maxTailBytesPerPass))
      rw [List.length_take, List.length_drop] at hle
      change cursor ≤ cursor + Lines.bounded newline _ _ ∧
        cursor + Lines.bounded newline _ _ ≤ raw.length
      omega

theorem Sound.tail (h : Sound parse m s) {t : ℕ} (out : AttributedLog LogRecord)
    (hle : t ≤ s.drainer.log.length) (hmono : ∀ t' ∈ s.tailer, t' ≤ t)
    (hattached : s.phase = .cleared → s.tailer = none → s.drainer.log.length ≤ t) :
    Sound parse m { s with tailer := some t, out := out } := by
  refine ⟨h.placed, h.boundary, h.recorded, h.accounted, ?_, ?_⟩
  · rintro t' ⟨⟩
    exact hle
  · have hphased := h.phased
    cases hphase : s.phase with
    | idle => trivial
    | measured len =>
        simp only [State.Phased, hphase] at hphased ⊢
        exact hphased
    | cleared =>
        simp only [State.Phased, hphase] at hphased ⊢
        refine ⟨hphased.1, ?_⟩
        rintro t' ⟨⟩
        cases htailer : s.tailer with
        | none => exact hattached hphase htailer
        | some cursor => exact (hphased.2 cursor htailer).trans (hmono cursor htailer)

/-! ### A cut -/

/-- A cut moves no reader: what lies behind the cursor of the drain stays behind it. -/
theorem Sound.truncated (h : Sound parse m s) (hread : s.drainer.log.length ≤ s.drainer.cursor) :
    Sound parse m { s with
      drainer := { s.drainer with older := [], cut := s.drainer.written.length, cursor := 0 }
      tailer := s.tailer.map fun _ => 0
      phase := .idle } := by
  -- the cut of the drain, in a log that is over its bound
  have hcut : s.drainer.maybeTruncateRawLog ⟨[], [], true, fun _ => .committed, true⟩ =
      { s.drainer with older := [], cut := s.drainer.written.length, cursor := 0 } := by
    simp [Drainer.maybeTruncateRawLog, hread]
  have hpassed := h.placed.passed_truncated parse ⟨[], [], true, fun _ => .committed, true⟩
  obtain ⟨hplaced, -, hposition, -, -⟩ :=
    h.placed.truncated ⟨[], [], true, fun _ => .committed, true⟩
  rw [hcut] at hpassed hplaced hposition
  refine ⟨hplaced, ?_, h.recorded, fun k hk => h.accounted k (hpassed ▸ hk), ?_, trivial⟩
  · rw [hposition]
    refine h.boundary.imp_right fun hdead => ⟨hdead.1, ?_⟩
    rw [Drainer.unread, hposition]
    exact hdead.2
  · intro t ht
    obtain ⟨_, -, rfl⟩ := Option.map_eq_some_iff.1 ht
    exact Nat.zero_le _

/-- The step of an orderly run keeps everything. -/
theorem Sound.step (h : Sound parse m s) {a : Action} (ho : Orderly s a) :
    Sound parse m (step parse m cap env mode log s a) := by
  cases a with
  | write bytes =>
      rw [Truncation.step]
      split
      · exact h.arrived [] (.inr ⟨‹_›, ho⟩)
      · exact h
  | exit => exact h.exit
  | commitElsewhere rows => exact h.arrived rows (.inl rfl)
  | drain drainMode readable answers => exact h.drain ho
  | spawnOutputCapture =>
      rw [Truncation.step]
      split
      · exact h
      · rename_i hnone
        exact h.tail s.out le_rfl (by simp [hnone]) fun _ _ => le_rfl
  | catchUp at_ =>
      rw [Truncation.step]
      split
      · exact h
      · rename_i cursor hsome
        have hle := tailNewLines_cursor env mode log at_ s.drainer.log s.out
          (h.tailed cursor hsome)
        refine h.tail _ hle.2 ?_ fun _ hnone => nomatch hsome.symm.trans hnone
        intro t' ht'
        cases hsome.symm.trans ht'
        exact hle.1
  | measure =>
      rw [Truncation.step]
      split
      · split
        · exact h
        · rename_i hread
          exact ⟨h.placed, h.boundary, h.recorded, h.accounted, h.tailed, rfl, not_lt.1 hread⟩
      · exact h
  | compareTailer =>
      rw [Truncation.step]
      split
      · rename_i len hmeasured
        have hphased := h.phased
        simp only [State.Phased, hmeasured] at hphased
        split
        · exact ⟨h.placed, h.boundary, h.recorded, h.accounted, h.tailed, trivial⟩
        · rename_i htailer
          refine ⟨h.placed, h.boundary, h.recorded, h.accounted, h.tailed, hphased.2, ?_⟩
          intro t ht
          rw [show s.tailer = some t from ht, Option.getD_some, not_lt] at htailer
          exact hphased.1 ▸ htailer
      · exact h
  | truncateRawAndSnap ok =>
      rw [Truncation.step]
      split
      · rename_i hcleared
        have hphased := h.phased
        simp only [State.Phased, hcleared] at hphased
        split
        · exact h.truncated hphased.1
        · exact ⟨h.placed, h.boundary, h.recorded, h.accounted, h.tailed, trivial⟩
      · exact h

/-- A pass leaves the log alone. -/
theorem log_observe (h : Placed d) (drainMode : DrainMode) (H : List Entry) (readable : Bool)
    (answers : ℕ → WriteAnswer) :
    (Drainer.observe parse m drainMode (d, H) (passOf readable answers)).1.log = d.log := by
  rw [Drainer.observe]
  rcases drain_passOf parse m h drainMode readable answers with
    ⟨hdrain, -⟩ | ⟨-, hdrain⟩
  · rw [hdrain]
  · obtain ⟨_, _, _, _, _, hend⟩ := consume_cases parse m d (passOf readable answers) drainMode
      (chunk drainMode d.unread) (chunk drainMode d.unread).length
    rw [hdrain]
    rcases hend with ⟨hstate, -⟩ | ⟨⟨park, hstate⟩, -⟩ <;> rw [hstate] <;> rfl

/-- Only a cut takes bytes from the log. -/
theorem log_step (h : Placed s.drainer) {a : Action}
    (ha : ∀ ok, a = .truncateRawAndSnap ok → s.phase ≠ .cleared) :
    s.drainer.log <+: (step parse m cap env mode log s a).drainer.log := by
  cases a with
  | write bytes =>
      rw [step]
      split
      · exact (log_arrived h bytes []).symm ▸ List.prefix_append _ _
      · exact List.prefix_rfl
  | commitElsewhere rows => exact (log_arrived h [] rows).symm ▸ List.prefix_append _ _
  | drain drainMode readable answers =>
      rw [step]
      split
      · exact (log_observe h drainMode s.history readable answers).symm ▸ List.prefix_rfl
      · exact List.prefix_rfl
  | truncateRawAndSnap ok =>
      rw [step, if_neg (ha ok rfl)]
  | exit => exact List.prefix_rfl
  | _ =>
      rw [step]
      repeat' split
      all_goals exact List.prefix_rfl

/-- **A log loses bytes only where both readers have read it to its end.** -/
theorem cuts_only_read (h : Sound parse m s) {a : Action}
    (hcut : ¬ s.drainer.log <+: (step parse m cap env mode log s a).drainer.log) :
    s.drainer.cursor = s.drainer.log.length ∧ ∀ t ∈ s.tailer, t = s.drainer.log.length := by
  have hcleared : s.phase = .cleared := by
    by_contra hne
    exact hcut (log_step h.placed fun _ _ => hne)
  have hphased := h.phased
  simp only [State.Phased, hcleared] at hphased
  exact ⟨le_antisymm h.placed.cursor_le hphased.1,
    fun t ht => le_antisymm (h.tailed t ht) (hphased.2 t ht)⟩

/-- **A cut that is put off or fails leaves both cursors alone.** -/
theorem deferred_keeps_cursors (h : Sound parse m s) {a : Action} (ha : a.cutting = true)
    (hkept : s.drainer.log <+: (step parse m cap env mode log s a).drainer.log) :
    (step parse m cap env mode log s a).drainer.cursor = s.drainer.cursor ∧
      (step parse m cap env mode log s a).tailer = s.tailer := by
  cases a with
  | measure =>
      rw [step]
      repeat' split
      all_goals exact ⟨rfl, rfl⟩
  | compareTailer =>
      rw [step]
      repeat' split
      all_goals exact ⟨rfl, rfl⟩
  | truncateRawAndSnap ok =>
      rw [step] at hkept ⊢
      split
      · rename_i hcleared
        rw [if_pos hcleared] at hkept
        split
        · -- the log that was cut was empty, so both cursors were at its start
          rename_i hok
          rw [if_pos hok] at hkept
          have hempty : s.drainer.log = [] := by
            refine List.prefix_nil.1 ?_
            simpa [Drainer.log] using hkept
          have hcursor := h.placed.cursor_le
          have htailed := h.tailed
          rw [hempty] at hcursor htailed
          refine ⟨(Nat.le_zero.1 hcursor).symm, ?_⟩
          cases htailer : s.tailer with
          | none => rfl
          | some t => rw [Nat.le_zero.1 (htailed t htailer), Option.map_some]
        · exact ⟨rfl, rfl⟩
      · exact ⟨rfl, rfl⟩
  | _ => simp [Action.cutting] at ha

/-- **The last pass accounts for every line**, if it can read the log. -/
theorem Sound.last (h : Sound parse m s) {answers : ℕ → WriteAnswer}
    (ho : Orderly s (.drain .terminal true answers)) (hidle : s.phase = .idle) {s' : State}
    (hs' : s' = Truncation.step parse m cap env mode log s (.drain .terminal true answers)) {k : ℕ}
    (hk : k < (usageOf parse s.drainer.written).length) :
    Settled s'.history k ∨ Skipped s'.history k ∨ Lost s'.history k := by
  rw [Truncation.step, if_pos hidle, Drainer.observe] at hs'
  subst hs'
  dsimp only
  rcases drain_passOf parse m h.placed .terminal true answers with
    ⟨-, hempty⟩ | ⟨hne, hdrain⟩
  · have hread : s.drainer.written.length ≤ s.drainer.position :=
      List.drop_eq_nil_iff.1 (hempty rfl)
    have hpassed : s.drainer.passed parse = (usageOf parse s.drainer.written).length := by
      rw [Drainer.passed, List.take_of_length_le hread]
    exact (h.accounted k (hpassed ▸ hk)).imp (·.append _) fun hskipped => .inl (hskipped.append _)
  · obtain ⟨hboundary, -, -⟩ := h.block ho hne
    obtain ⟨r, announced, failure, hr, hreport, hend⟩ :=
      consume_cases parse m s.drainer (passOf true answers) .terminal s.drainer.unread
        s.drainer.unread.length
    have hentry : (s.drainer.drain parse m (passOf true answers) .terminal).1 =
        ⟨usageOf parse s.drainer.unread, r.1, r.2.1, announced⟩ := by
      rw [hdrain]
      exact hreport
    rw [Drainer.usageOf_written parse hboundary, List.length_append] at hk
    rw [hentry]
    by_cases hlt : k < s.drainer.passed parse
    · exact (h.accounted k hlt).imp (·.append _) fun hskipped => .inl (hskipped.append _)
    · rcases hend with ⟨-, hwhy⟩ | ⟨-, hlost⟩
      · exact (accounted_entry hr (hwhy.imp id And.right) (not_lt.1 hlt) hk).imp id .inl
      · by_cases hdone : k < s.drainer.passed parse + r.1.length
        · exact .inl ⟨_, List.mem_append_right _ (List.mem_singleton_self _), not_lt.1 hlt, hdone⟩
        · exact .inr (.inr ⟨_, List.mem_append_right _ (List.mem_singleton_self _),
            not_lt.1 hdone, hk, hlost rfl⟩)

/-! ### Every run -/

/-- What holds in every state of an orderly run. -/
theorem sound_of_orderly {older : List UInt8} {ledger : List Identity}
    {out : AttributedLog LogRecord} {actions : List Action}
    (h : Guarded.Meets (step parse m cap env mode log) Orderly (State.start older ledger out)
      actions)
    (hs : s ∈ Guarded.states (step parse m cap env mode log) (State.start older ledger out)
      actions) : Sound parse m s :=
  Guarded.invariant (fun _ _ hsound ho => hsound.step ho) (Sound.start older ledger out) h hs

end

/-- **A truncation loses nothing.**  In every state of an orderly run: what no pass has moved past
stands in the log from the cursor on; each usage line that a pass has moved past was ingested or
announced as skipped; what was ingested is in the ledger under the identity of its own line, and
was inserted once; the last pass leaves no line that is not ingested or announced; the log loses
bytes only when both cursors are at its end; and a truncation that is put off or fails changes
neither cursor. -/
theorem truncation_losesNothing (parse : List UInt8 → Option ParsedUsage) (m : Metered) (cap : ℕ)
    (env : Capture.Env) (mode : LogCaptureMode) (log : RawLog) (older : List UInt8)
    (ledger : List Identity) (out : AttributedLog LogRecord) (actions : List Action)
    (h : Guarded.Meets (step parse m cap env mode log) Orderly (State.start older ledger out)
      actions) :
    ∀ s ∈ Guarded.states (step parse m cap env mode log) (State.start older ledger out) actions,
      s.drainer.log.drop s.drainer.cursor = s.drainer.unread ∧
      (∀ k < s.drainer.passed parse, Settled s.history k ∨ Skipped s.history k) ∧
      (∀ k i, CommittedAs m s.history k i →
        (usageOf parse s.drainer.written)[k]?.map m.identity = some i ∧ i ∈ s.drainer.ledger) ∧
      (∀ k, insertions s.history k ≤ 1) ∧
      (∀ answers s', Orderly s (.drain .terminal true answers) → s.phase = .idle →
        s' = step parse m cap env mode log s (.drain .terminal true answers) →
        ∀ k < (usageOf parse s.drainer.written).length,
          Settled s'.history k ∨ Skipped s'.history k ∨ Lost s'.history k) ∧
      (∀ a, ¬ s.drainer.log <+: (step parse m cap env mode log s a).drainer.log →
        s.drainer.cursor = s.drainer.log.length ∧ ∀ t ∈ s.tailer, t = s.drainer.log.length) ∧
      ∀ a, a.cutting = true →
        s.drainer.log <+: (step parse m cap env mode log s a).drainer.log →
        (step parse m cap env mode log s a).drainer.cursor = s.drainer.cursor ∧
          (step parse m cap env mode log s a).tailer = s.tailer := by
  intro s hs
  have hsound := sound_of_orderly h hs
  have hrecorded := hsound.recorded.mono (s.isPrefix_lines parse) ⟨[], (List.append_nil _).symm⟩
  exact ⟨hsound.placed.log_drop, hsound.accounted, fun k i => hrecorded.committedAs, hrecorded.once,
    fun answers s' ho hidle hs' k hk => hsound.last ho hidle hs' hk,
    fun a => cuts_only_read hsound, fun a => deferred_keeps_cursors hsound⟩

/-! ### Runs -/

/-- The captures of a process. -/
def plainEnv : Capture.Env := ⟨"a", fun _ => "", fun _ => "", fun _ => []⟩

/-- One step of a channel whose log is cut at ten bytes. -/
def capped : State → Action → State :=
  step sentinelUsage meteredLaunch 10 plainEnv .full .stdout

/-- A log that is cut after its first line. -/
def cutOnce : List Action :=
  [.spawnOutputCapture, .write (sentinelLine '1' ++ [newline]),
    .drain .midRun true fun _ => .committed, .catchUp "t", .measure, .compareTailer,
    .truncateRawAndSnap true, .write (sentinelLine '2'), .exit]

theorem truncation_losesNothing_cutOnce :
    ∃ s, s = cutOnce.foldl capped (State.start [] [] .empty) ∧
      s.drainer.log = sentinelLine '2' ∧ s.tailer = some 0 ∧
      (∀ k < s.drainer.passed sentinelUsage, Settled s.history k ∨ Skipped s.history k) ∧
      (∀ k, insertions s.history k ≤ 1) ∧
      ∀ k < 2, Settled (capped s (.drain .terminal true fun _ => .committed)).history k ∨
        Skipped (capped s (.drain .terminal true fun _ => .committed)).history k ∨
        Lost (capped s (.drain .terminal true fun _ => .committed)).history k := by
  have h := truncation_losesNothing sentinelUsage meteredLaunch 10 plainEnv .full .stdout [] []
    .empty cutOnce ⟨trivial, rfl, trivial, trivial, trivial, trivial, trivial,
      (by decide +kernel : State.phase _ = .idle), trivial, trivial⟩ _ Guarded.last_mem_states
  refine ⟨_, rfl, by decide +kernel, by decide +kernel, h.2.1, h.2.2.2.1, fun k hk => ?_⟩
  exact h.2.2.2.2.1 _ _ (.inl (by decide +kernel)) (by decide +kernel) rfl k
    (hk.trans_eq (by decide +kernel))

/-- A line that is refused on three passes is skipped: no later pass ingests it. -/
theorem refused_not_ingested :
    ∃ s, s = [.write (sentinelLine '1' ++ [newline]), .drain .midRun true fun _ => .refused,
        .drain .midRun true fun _ => .refused, .drain .midRun true fun _ => .refused, .exit,
        .drain .terminal true fun _ => .committed].foldl capped (State.start [] [] .empty) ∧
      ¬ IngestedOnce sentinelUsage s := by
  refine ⟨_, rfl, fun h => ?_⟩
  exact absurd (h 0 (by decide +kernel)) (by decide +kernel)

end Truncation

end Hekma
