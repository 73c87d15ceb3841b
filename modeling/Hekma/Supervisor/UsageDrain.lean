/-
**The drain of a usage channel, byte by byte** (`domain/supervisor/usage.rs`,
`domain/supervisor/mod.rs`, `ports/usage_source.rs`).

A pass reads what the agent has written behind the cursor, up to the last newline while the agent
lives and to the end once it is dead, and commits the usage lines of this block in their order up
to the first refusal.  The cursor moves past the block only when all of it committed.  A block that
was refused on three passes is skipped whole; the counter of these passes is kept for the byte
offset of the block, while the block grows.

The reader of a line is a parameter: nothing here depends on how a line is read.

Main definitions:

* `planDrain`, `readUsageTail` — what one pass reads;
* `Drainer`, `Drainer.drain` — the state of a channel, and one pass over it;
* `Entry`, `Drainer.runPasses` — the history an observer writes, pass after pass;
* `Settled`, `Skipped`, `Lost`, `coveredRefusals` — what became of the `k`-th usage line.

Main results:

* `lines_append` — a block that ends its last line can be read by itself;
* `Faithful.midRun` — what a pass does to the history;
* `Metered.insertUsage` — the identities are what the ledger deduplicates by;
* `usageDrain_exactlyOnce` — what every run guarantees while no block grows between its refusals.
-/

import Hekma.Lib.Guarded
import Hekma.Supervisor.Usage
import Mathlib.Data.List.DropRight

set_option relaxedAutoImplicit false
set_option autoImplicit false

namespace Hekma

namespace UsageDrain

/-! ### Lines -/

/-- The byte that ends a line. -/
def newline : UInt8 := 10

/-- The lines of a text.  Only the last one can be unfinished. -/
def lines : List UInt8 → List (List UInt8)
  | [] => []
  | b :: bs =>
      if b = newline then [] :: lines bs
      else
        match lines bs with
        | [] => [[b]]
        | line :: rest => (b :: line) :: rest

/-- The text is empty or ends its last line. -/
def EndsLine (bs : List UInt8) : Prop := ∀ h : bs ≠ [], bs.getLast h = newline

/-- The text up to its last newline. -/
def completeLines (bs : List UInt8) : List UInt8 := bs.rdropWhile fun b => b ≠ newline

/-- The usage reports of a text, by a reader of lines. -/
def usageOf (parse : List UInt8 → Option ParsedUsage) (bs : List UInt8) : List ParsedUsage :=
  (lines bs).filterMap parse

/-! ### What a pass reads -/

/-- What a pass does with the bytes it has. -/
inductive DrainPlan where
  | shrunk (newCursor : ℕ)
  | nothing
  | consume (start stop newCursor : ℕ)
  deriving DecidableEq, Repr

/-- Decide on the bytes behind a cursor: all of them on the last pass, the complete lines on any
other. -/
def planDrain (bytes : List UInt8) (cursor : ℕ) (mode : DrainMode) : DrainPlan :=
  let len := bytes.length
  if len < cursor then .shrunk len
  else
    let tail := bytes.drop cursor
    let consumable := match mode with
      | .terminal => tail.length
      | .midRun => (completeLines tail).length
    if consumable = 0 then .nothing
    else .consume cursor (cursor + consumable) (cursor + consumable)

/-- What could be read of a log. -/
inductive UsageTail where
  | unavailable
  | shrunk (newCursor : ℕ)
  | tail (bytes : List UInt8)
  deriving DecidableEq, Repr

/-- Read what lies behind the cursor.  There is no log, or there is an error, in the first case. -/
def readUsageTail (log : Option (List UInt8)) (cursor : ℕ) : UsageTail :=
  match log with
  | none => .unavailable
  | some bytes =>
      if bytes.length < cursor then .shrunk bytes.length else .tail (bytes.drop cursor)

/-! ### A pass -/

/-- The identity the ledger knows a row by. -/
structure Identity where
  instanceName : InstanceName
  runId : RunId
  launchGeneration : ℤ
  sequence : ℤ
  deriving DecidableEq, Repr

/-- What the reports of a launch are metered under. -/
structure Metered where
  name : InstanceName
  runId : RunId
  generation : ℕ
  deriving DecidableEq, Repr

/-- The identity of a report. -/
def Metered.identity (m : Metered) (parsed : ParsedUsage) : Identity :=
  ⟨m.name, m.runId, clampTokens m.generation, clampTokens parsed.sequence⟩

/-- The drain of one channel: what the log held before the launch, all the agent has written and
how much of it was cut off the log, the cursor, the park, and the identities in the ledger. -/
structure Drainer where
  older : List UInt8
  written : List UInt8
  cut : ℕ
  cursor : ℕ
  park : Option (ℕ × ℕ)
  ledger : List Identity
  deriving DecidableEq, Repr

/-- What a pass meets: what the agent has written since the last one, what others have committed,
whether the log can be read, how the store answers each commit, and whether the log is over its
bound and can be cut. -/
structure Pass where
  appended : List UInt8
  others : List Identity
  readable : Bool
  answers : ℕ → WriteAnswer
  overCap : Bool

/-- What an operator is told about events that were given up. -/
inductive Announcement where
  | skipped (lost offset attempts : ℕ)
  | lost (lost : ℕ)
  deriving DecidableEq, Repr

/-- What a pass did: the block it read, what became of the reports it committed, the refusal it
stopped at, and what it announced. -/
structure Report where
  block : List ParsedUsage
  results : List RecordOutcome
  failure : Option WriteAnswer
  announced : Option Announcement
  deriving DecidableEq, Repr

/-- Nothing was read. -/
def Report.idle : Report := ⟨[], [], none, none⟩

namespace Drainer

variable (parse : List UInt8 → Option ParsedUsage) (m : Metered)

/-- The log as it is on the disk. -/
def log (d : Drainer) : List UInt8 := d.older ++ d.written.drop d.cut

/-- What has happened before a pass begins. -/
def grown (d : Drainer) (p : Pass) : Drainer :=
  { d with written := d.written ++ p.appended, ledger := d.ledger ++ p.others }

/-- Commit the reports of a block in their order, up to the first refusal. -/
def ingestAll (answers : ℕ → WriteAnswer) :
    ℕ → List ParsedUsage → List Identity → List RecordOutcome × Option WriteAnswer × List Identity
  | _, [], ledger => ([], none, ledger)
  | i, parsed :: rest, ledger =>
      match answers i with
      | .committed =>
          if m.identity parsed ∈ ledger then
            let r := ingestAll answers (i + 1) rest ledger
            (.duplicateReplay :: r.1, r.2)
          else
            let r := ingestAll answers (i + 1) rest (ledger ++ [m.identity parsed])
            (.inserted :: r.1, r.2)
      | answer => ([], some answer, ledger)

/-- The attempts at the block the cursor stands before. -/
def attempts (d : Drainer) : ℕ :=
  match d.park with
  | some (parked, n) => if parked = d.cursor then n else 0
  | none => 0

/-- The attempts after one more refusal.  Contention spends none. -/
def nextAttempts (d : Drainer) (answer : WriteAnswer) : ℕ :=
  match d.park with
  | some (parked, n) =>
      if parked = d.cursor then (if answer = .busy then n else n + 1)
      else if answer = .busy then 0 else 1
  | none => if answer = .busy then 0 else 1

/-- Where the channel stands after its block: past it if all of it committed, before it if it is
tried again, and past it if it is given up. -/
def settle (d : Drainer) (mode : DrainMode) (consumed lost : ℕ) (failure : Option WriteAnswer) :
    Option Announcement × Drainer :=
  match failure with
  | none => (none, { d with cursor := d.cursor + consumed, park := none })
  | some answer =>
      if mode = .terminal then (some (.lost lost), d)
      else
        let attempts := d.nextAttempts answer
        if usageParkMaxAttempts ≤ attempts then
          (some (.skipped lost d.cursor attempts),
            { d with cursor := d.cursor + consumed, park := none })
        else (none, { d with park := some (d.cursor, attempts) })

/-- Cut a log that is over its bound, if nothing in it is unread. -/
def maybeTruncateRawLog (d : Drainer) (p : Pass) : Drainer :=
  if p.overCap && d.log.length ≤ d.cursor then
    { d with older := [], cut := d.written.length, cursor := 0 }
  else d

/-- Commit a block, and settle the channel. -/
def consume (d : Drainer) (p : Pass) (mode : DrainMode) (bytes : List UInt8) (consumed : ℕ) :
    Report × Drainer :=
  let block := usageOf parse bytes
  let r := ingestAll m p.answers 0 block d.ledger
  let s := { d with ledger := r.2.2 }.settle mode consumed (block.length - r.1.length) r.2.1
  (⟨block, r.1, r.2.1, s.1⟩, s.2)

/-- One pass. -/
def drain (d : Drainer) (p : Pass) (mode : DrainMode) : Report × Drainer :=
  let d := d.grown p
  match readUsageTail (if p.readable then some d.log else none) d.cursor with
  | .unavailable => (.idle, d)
  | .shrunk newCursor => (.idle, { d with cursor := newCursor })
  | .tail bytes =>
      let r := match planDrain bytes 0 mode with
        | .consume start stop consumed =>
            d.consume parse m p mode (bytes.extract start stop) consumed
        | .nothing | .shrunk _ => (.idle, d)
      (r.1, r.2.maybeTruncateRawLog p)

/-- A channel at the start of a launch, over what the log and the ledger hold. -/
def start (older : List UInt8) (ledger : List Identity) : Drainer :=
  ⟨older, [], 0, older.length, none, ledger⟩

/-! ### What an observer sees -/

/-- How much of what the agent has written lies behind the cursor. -/
def position (d : Drainer) : ℕ := d.cut + (d.cursor - d.older.length)

/-- The usage lines behind the cursor. -/
def passed (d : Drainer) : ℕ := (usageOf parse (d.written.take d.position)).length

/-- The usage lines that are finished. -/
def total (d : Drainer) : List ParsedUsage := usageOf parse (completeLines d.written)

/-- What the agent has written and no pass has moved past. -/
def unread (d : Drainer) : List UInt8 := d.written.drop d.position

/-- The finished usage lines before the cursor. -/
def pending (d : Drainer) : List ParsedUsage := usageOf parse (completeLines d.unread)

end Drainer

/-- A pass in the history: what it did, and how many usage lines lay behind its cursor. -/
structure Entry where
  base : ℕ
  report : Report
  deriving DecidableEq, Repr

/-- Some pass has committed the `k`-th usage line, or found it a duplicate. -/
def Settled (H : List Entry) (k : ℕ) : Prop :=
  ∃ e ∈ H, e.base ≤ k ∧ k < e.base + e.report.results.length

instance (H : List Entry) (k : ℕ) : Decidable (Settled H k) :=
  inferInstanceAs (Decidable (∃ e ∈ H, e.base ≤ k ∧ k < e.base + e.report.results.length))

/-- Some pass has announced that it skips the `k`-th usage line. -/
def Skipped (H : List Entry) (k : ℕ) : Prop :=
  ∃ e ∈ H, e.base + e.report.results.length ≤ k ∧ k < e.base + e.report.block.length ∧
    ∃ offset attempts, e.report.announced
      = some (.skipped (e.report.block.length - e.report.results.length) offset attempts)

/-- Some pass has announced that the `k`-th usage line is lost. -/
def Lost (H : List Entry) (k : ℕ) : Prop :=
  ∃ e ∈ H, e.base + e.report.results.length ≤ k ∧ k < e.base + e.report.block.length ∧
    e.report.announced = some (.lost (e.report.block.length - e.report.results.length))

/-- A pass that was refused, other than by contention, and had the `k`-th usage line in its
block. -/
def refusedOver (k : ℕ) (e : Entry) : Bool :=
  e.report.failure = some .refused ∧ e.base ≤ k ∧ k < e.base + e.report.block.length

/-- A pass that was refused, other than by contention, while `n` usage lines lay behind its
cursor. -/
def refusedAt (n : ℕ) (e : Entry) : Bool := e.report.failure = some .refused ∧ e.base = n

/-- How many passes were refused over the `k`-th usage line. -/
def coveredRefusals (H : List Entry) (k : ℕ) : ℕ := H.countP (refusedOver k)

/-- Some pass has committed the `k`-th usage line under this identity, or found it there. -/
def CommittedAs (m : Metered) (H : List Entry) (k : ℕ) (i : Identity) : Prop :=
  ∃ e ∈ H, e.base ≤ k ∧ k < e.base + e.report.results.length ∧
    e.report.block[k - e.base]?.map m.identity = some i

/-- How many passes have inserted the `k`-th usage line. -/
def insertions (H : List Entry) (k : ℕ) : ℕ :=
  H.countP fun e => e.base ≤ k ∧ e.report.results[k - e.base]? = some .inserted

namespace Drainer

variable (parse : List UInt8 → Option ParsedUsage) (m : Metered)

/-- One more pass, and its entry. -/
def observe (mode : DrainMode) (s : Drainer × List Entry) (p : Pass) : Drainer × List Entry :=
  ((s.1.drain parse m p mode).2,
    s.2 ++ [⟨s.1.passed parse, (s.1.drain parse m p mode).1⟩])

/-- Passes while the agent lives. -/
def runPasses (s : Drainer × List Entry) (passes : List Pass) : Drainer × List Entry :=
  passes.foldl (observe parse m .midRun) s

end Drainer

/-! ### Longer histories -/

section

variable {H : List Entry} {k : ℕ}

theorem Settled.append (h : Settled H k) (e : Entry) : Settled (H ++ [e]) k := by
  obtain ⟨e', he', hk⟩ := h
  exact ⟨e', List.mem_append_left _ he', hk⟩

theorem Skipped.append (h : Skipped H k) (e : Entry) : Skipped (H ++ [e]) k := by
  obtain ⟨e', he', hk⟩ := h
  exact ⟨e', List.mem_append_left _ he', hk⟩

theorem coveredRefusals_append (H : List Entry) (e : Entry) (k : ℕ) :
    coveredRefusals (H ++ [e]) k = coveredRefusals H k + if refusedOver k e then 1 else 0 := by
  rw [coveredRefusals, List.countP_append, List.countP_singleton]
  rfl

end

/-! ### Lines and blocks -/

theorem lines_eq_nil {bs : List UInt8} : lines bs = [] ↔ bs = [] := by
  constructor
  · intro h
    cases bs with
    | nil => rfl
    | cons b bs =>
        unfold lines at h
        split at h
        · simp at h
        · split at h <;> simp at h
  · rintro rfl
    rfl

theorem EndsLine.tail {b : UInt8} {bs : List UInt8} (h : EndsLine (b :: bs)) : EndsLine bs := by
  intro hbs
  have := h (List.cons_ne_nil b bs)
  rwa [List.getLast_cons hbs] at this

/-- What follows a finished line is read by itself. -/
theorem lines_append {xs : List UInt8} (h : EndsLine xs) (ys : List UInt8) :
    lines (xs ++ ys) = lines xs ++ lines ys := by
  induction xs with
  | nil => rfl
  | cons b bs ih =>
      have ih := ih h.tail
      by_cases hb : b = newline
      · simp [lines, hb, ih]
      · have hbs : bs ≠ [] := by
          rintro rfl
          exact hb (h (List.cons_ne_nil b []))
        obtain ⟨line, rest, hlines⟩ := List.exists_cons_of_ne_nil (mt lines_eq_nil.1 hbs)
        simp [lines, hb, ih, hlines]

theorem usageOf_append (parse : List UInt8 → Option ParsedUsage) {xs : List UInt8}
    (h : EndsLine xs) (ys : List UInt8) :
    usageOf parse (xs ++ ys) = usageOf parse xs ++ usageOf parse ys := by
  simp [usageOf, lines_append h]

theorem endsLine_nil : EndsLine [] := fun h => absurd rfl h

theorem isPrefix_completeLines (bs : List UInt8) : completeLines bs <+: bs :=
  List.rdropWhile_prefix ..

theorem completeLines_endsLine (bs : List UInt8) : EndsLine (completeLines bs) := by
  intro h
  by_contra hlast
  exact List.rdropWhile_last_not _ _ h (decide_eq_true hlast)

theorem isPrefix_usageOf (parse : List UInt8 → Option ParsedUsage) (bs : List UInt8) :
    usageOf parse (completeLines bs) <+: usageOf parse bs := by
  obtain ⟨rest, hrest⟩ := isPrefix_completeLines bs
  refine ⟨usageOf parse rest, ?_⟩
  conv_rhs => rw [← hrest, usageOf_append parse (completeLines_endsLine _)]

theorem EndsLine.drop {bs : List UInt8} (h : EndsLine bs) (n : ℕ) : EndsLine (bs.drop n) := by
  intro hne
  rw [List.getLast_drop]
  exact h _

theorem EndsLine.append {xs ys : List UInt8} (hx : EndsLine xs) (hy : EndsLine ys) :
    EndsLine (xs ++ ys) := by
  intro hne
  by_cases hys : ys = []
  · subst hys
    simpa using hx (by simpa using hne)
  · rw [List.getLast_append_of_right_ne_nil xs ys hys]
    exact hy hys

theorem EndsLine.completeLines_eq {bs : List UInt8} (h : EndsLine bs) : completeLines bs = bs := by
  refine List.rdropWhile_eq_self_iff.2 fun hne => ?_
  simpa using h hne

/-- Finished lines stay, whatever is appended to them. -/
theorem completeLines_append {xs : List UInt8} (h : EndsLine xs) (ys : List UInt8) :
    completeLines (xs ++ ys) = xs ++ completeLines ys := by
  induction ys using List.reverseRecOn with
  | nil => simpa [completeLines] using h.completeLines_eq
  | append_singleton zs b ih =>
      by_cases hb : b = newline
      · have hend : EndsLine (zs ++ [b]) := fun _ => by simpa using hb
        have hend' : EndsLine (xs ++ (zs ++ [b])) := fun _ => by simpa using hb
        rw [hend.completeLines_eq, hend'.completeLines_eq]
      · have hpos : ∀ ws : List UInt8, completeLines (ws ++ [b]) = completeLines ws := fun ws =>
          List.rdropWhile_concat_pos _ _ _ (by simpa using hb)
        rw [← List.append_assoc, hpos, hpos, ih]

/-- More text only finishes more lines. -/
theorem completeLines_mono (bs more : List UInt8) :
    ∃ zs, completeLines (bs ++ more) = completeLines bs ++ zs := by
  obtain ⟨rest, hrest⟩ := isPrefix_completeLines bs
  refine ⟨completeLines (rest ++ more), ?_⟩
  conv_lhs => rw [← hrest, List.append_assoc]
  exact completeLines_append (completeLines_endsLine bs) _

/-! ### The ledger behind the identities -/

/-- The identity of a row that names its instance. -/
def identityOf (row : UsageRow) : Option Identity :=
  row.instanceName.map fun name => ⟨name, row.runId, row.launchGeneration, row.sequence⟩

/-- The identities in a ledger. -/
def identitiesOf (l : Ledger) : List Identity := l.usage.filterMap identityOf

/-- Two rows have the same key if they have the same identity. -/
theorem sameKey_eq_true_iff {row e : UsageRow} {i : Identity} (h : identityOf row = some i) :
    Ledger.sameKey row e = true ↔ identityOf e = some i := by
  obtain ⟨name, hname, rfl⟩ := Option.map_eq_some_iff.1 h
  cases he : e.instanceName with
  | none => simp [Ledger.sameKey, identityOf, hname, he]
  | some other =>
      simp only [Ledger.sameKey, identityOf, hname, he, Bool.and_eq_true, decide_eq_true_eq,
        Option.some.injEq, Option.map_some, Identity.mk.injEq]
      constructor
      · rintro ⟨⟨⟨rfl, hrun⟩, hgen⟩, hseq⟩
        exact ⟨rfl, hrun.symm, hgen.symm, hseq.symm⟩
      · rintro ⟨rfl, hrun, hgen, hseq⟩
        exact ⟨⟨⟨rfl, hrun.symm⟩, hgen.symm⟩, hseq.symm⟩

/-- A commit of a report replays if its identity is in the ledger, and adds it if not. -/
theorem Metered.insertUsage (m : Metered) (l : Ledger) (parsed : ParsedUsage) (source : String)
    (at_ : Timestamp) (rate : Option Rate) (hreg : m.name ∈ l.runs.instances) :
    ∃ l', l.insertUsage (assembleUsageEvent parsed m.name m.runId source at_) rate m.generation
        = .ok (if m.identity parsed ∈ identitiesOf l then .duplicateReplay else .inserted, l') ∧
      identitiesOf l' = if m.identity parsed ∈ identitiesOf l then identitiesOf l
        else identitiesOf l ++ [m.identity parsed] := by
  have hrow : identityOf (l.rowOf (assembleUsageEvent parsed m.name m.runId source at_) rate
      m.generation) = some (m.identity parsed) := rfl
  have hany : l.usage.any (Ledger.sameKey (l.rowOf
      (assembleUsageEvent parsed m.name m.runId source at_) rate m.generation)) = true ↔
        m.identity parsed ∈ identitiesOf l := by
    rw [List.any_eq_true, identitiesOf, List.mem_filterMap]
    exact exists_congr fun e => and_congr_right fun _ => sameKey_eq_true_iff hrow
  have hname : (assembleUsageEvent parsed m.name m.runId source at_).instanceName
      ∈ l.runs.instances := hreg
  unfold Ledger.insertUsage
  rw [if_pos hname]
  dsimp only
  by_cases hmem : m.identity parsed ∈ identitiesOf l
  · rw [if_pos (hany.2 hmem), if_pos hmem, if_pos hmem]
    exact ⟨l, rfl, rfl⟩
  · rw [if_neg (mt hany.1 hmem), if_neg hmem, if_neg hmem]
    refine ⟨_, rfl, ?_⟩
    change (l.usage ++ [_]).filterMap identityOf = _
    rw [List.filterMap_append]
    simp [identitiesOf, hrow]

/-! ### The commits of a block -/

/-- The first answer that is not a commit, among the `n` from the `i`-th on. -/
def firstRefusal (answers : ℕ → WriteAnswer) : ℕ → ℕ → Option WriteAnswer
  | _, 0 => none
  | i, n + 1 =>
      match answers i with
      | .committed => firstRefusal answers (i + 1) n
      | answer => some answer

theorem firstRefusal_ne_committed (answers : ℕ → WriteAnswer) (i n : ℕ) :
    firstRefusal answers i n ≠ some .committed := by
  induction n generalizing i with
  | zero => simp [firstRefusal]
  | succ n ih =>
      unfold firstRefusal
      cases answers i with
      | committed => exact ih (i + 1)
      | busy => simp
      | refused => simp

/-- What the commits of a block amount to. -/
structure Ingested (m : Metered) (block : List ParsedUsage) (ledger : List Identity)
    (failure : Option WriteAnswer) (r : List RecordOutcome × Option WriteAnswer × List Identity) :
    Prop where
  failure_eq : r.2.1 = failure
  all : failure = none → r.1.length = block.length
  some_left : failure ≠ none → r.1.length < block.length
  grows : ∃ more, r.2.2 = ledger ++ more
  known : ∀ j < r.1.length, ∀ parsed, block[j]? = some parsed → m.identity parsed ∈ r.2.2
  fresh : ∀ (j : ℕ) (parsed : ParsedUsage), r.1[j]? = some .inserted → block[j]? = some parsed →
    m.identity parsed ∉ ledger

/-- A report that is committed in front: the rest is committed to the ledger that has it. -/
theorem Ingested.cons {m : Metered} {parsed : ParsedUsage} {rest : List ParsedUsage}
    {ledger : List Identity} (more : List Identity) {failure : Option WriteAnswer} {outcome : RecordOutcome}
    {r : List RecordOutcome × Option WriteAnswer × List Identity}
    (h : Ingested m rest (ledger ++ more) failure r)
    (hknown : m.identity parsed ∈ ledger ++ more)
    (hfresh : outcome = .inserted → m.identity parsed ∉ ledger) :
    Ingested m (parsed :: rest) ledger failure (outcome :: r.1, r.2) := by
  obtain ⟨added, hgrows⟩ := h.grows
  refine ⟨h.failure_eq, fun hf => ?_, fun hf => ?_, ⟨more ++ added, ?_⟩, ?_, ?_⟩
  · simpa using h.all hf
  · simpa using h.some_left hf
  · rw [hgrows, List.append_assoc]
  · rintro (_ | j) hj parsed' hparsed
    · obtain rfl : parsed = parsed' := by simpa using hparsed
      rw [hgrows]
      exact List.mem_append_left _ hknown
    · exact h.known j (by simpa using hj) parsed' (by simpa using hparsed)
  · rintro (_ | j) parsed' hins hparsed
    · obtain rfl : parsed = parsed' := by simpa using hparsed
      exact hfresh (by simpa using hins)
    · have hnot := h.fresh j parsed' (by simpa using hins) (by simpa using hparsed)
      exact fun hmem => hnot (List.mem_append_left _ hmem)

theorem ingestAll_spec (m : Metered) (answers : ℕ → WriteAnswer) (i : ℕ)
    (block : List ParsedUsage) (ledger : List Identity) :
    Ingested m block ledger (firstRefusal answers i block.length)
      (Drainer.ingestAll m answers i block ledger) := by
  induction block generalizing i ledger with
  | nil =>
      exact ⟨rfl, fun _ => rfl, fun h => absurd rfl h, ⟨[], by simp [Drainer.ingestAll]⟩,
        fun j h => absurd h (Nat.not_lt_zero j), by simp [Drainer.ingestAll]⟩
  | cons parsed rest ih =>
      cases hanswer : answers i with
      | busy =>
          simp only [Drainer.ingestAll, firstRefusal, List.length_cons, hanswer]
          exact ⟨rfl, by simp, by simp, ⟨[], by simp⟩, by simp, by simp⟩
      | refused =>
          simp only [Drainer.ingestAll, firstRefusal, List.length_cons, hanswer]
          exact ⟨rfl, by simp, by simp, ⟨[], by simp⟩, by simp, by simp⟩
      | committed =>
          simp only [Drainer.ingestAll, firstRefusal, List.length_cons, hanswer]
          by_cases hmem : m.identity parsed ∈ ledger
          · have hrest := ih (i + 1) ledger
            rw [if_pos hmem]
            rw [← List.append_nil ledger] at hrest hmem
            refine Ingested.cons [] ?_ hmem nofun
            simpa using hrest
          · rw [if_neg hmem]
            exact Ingested.cons [m.identity parsed] (ih (i + 1) _) (by simp) fun _ => hmem

/-! ### What a pass does -/

namespace Drainer

variable {parse : List UInt8 → Option ParsedUsage} {m : Metered} {d : Drainer} {H : List Entry}

/-- The bytes a pass takes of those it finds. -/
def chunk (mode : DrainMode) (bytes : List UInt8) : List UInt8 :=
  match mode with
  | .terminal => bytes
  | .midRun => completeLines bytes

theorem isPrefix_chunk (mode : DrainMode) (bytes : List UInt8) : chunk mode bytes <+: bytes := by
  cases mode with
  | terminal => exact List.prefix_rfl
  | midRun => exact isPrefix_completeLines bytes

theorem planDrain_zero (mode : DrainMode) (bytes : List UInt8) :
    planDrain bytes 0 mode = if chunk mode bytes = [] then .nothing
      else .consume 0 (chunk mode bytes).length (chunk mode bytes).length := by
  have hlen : (match mode with
      | .terminal => bytes.length
      | .midRun => (completeLines bytes).length) = (chunk mode bytes).length := by
    cases mode <;> rfl
  simp only [planDrain, Nat.not_lt_zero, if_false, List.drop_zero, Nat.zero_add, hlen,
    List.length_eq_zero_iff]

/-- Where the cursor is, in the log and in what the agent has written. -/
structure Placed (d : Drainer) : Prop where
  older_le : d.older.length ≤ d.cursor
  position_le : d.position ≤ d.written.length

theorem Placed.log_drop (h : Placed d) : d.log.drop d.cursor = d.unread := by
  have holder : d.older.drop d.cursor = [] := List.drop_eq_nil_of_le h.older_le
  rw [log, List.drop_append, holder, List.nil_append, List.drop_drop]
  rfl

theorem Placed.cursor_le (h : Placed d) : d.cursor ≤ d.log.length := by
  have hpos := h.position_le
  have holder := h.older_le
  simp only [position] at hpos
  simp only [log, List.length_append, List.length_drop]
  omega

theorem Placed.grown (h : Placed d) (p : Pass) : Placed (d.grown p) := by
  refine ⟨h.older_le, h.position_le.trans ?_⟩
  simp [Drainer.grown]

variable (parse m) in
/-- All a pass can do. -/
theorem drain_cases (h : Placed d) (p : Pass) (mode : DrainMode) :
    (p.readable = false ∧ d.drain parse m p mode = (.idle, d.grown p)) ∨
    (p.readable ∧ chunk mode (d.grown p).unread = [] ∧
      d.drain parse m p mode = (.idle, (d.grown p).maybeTruncateRawLog p)) ∨
    (p.readable ∧ chunk mode (d.grown p).unread ≠ [] ∧
      ∃ r, r = (d.grown p).consume parse m p mode (chunk mode (d.grown p).unread)
          (chunk mode (d.grown p).unread).length ∧
        d.drain parse m p mode = (r.1, r.2.maybeTruncateRawLog p)) := by
  have hg := h.grown p
  unfold drain
  dsimp only
  generalize d.grown p = s at hg ⊢
  cases hread : p.readable with
  | false => exact .inl ⟨rfl, rfl⟩
  | true =>
      have htail : readUsageTail (if true then some s.log else none) s.cursor
          = .tail s.unread := by
        rw [if_pos rfl, readUsageTail, if_neg (not_lt.2 hg.cursor_le), hg.log_drop]
      rw [htail]
      dsimp only
      rw [planDrain_zero]
      by_cases hchunk : chunk mode s.unread = []
      · rw [if_pos hchunk]
        exact .inr (.inl ⟨rfl, hchunk, rfl⟩)
      · rw [if_neg hchunk]
        refine .inr (.inr ⟨rfl, hchunk, _, rfl, ?_⟩)
        have hextract : s.unread.extract 0 (chunk mode s.unread).length = chunk mode s.unread := by
          rw [List.extract_eq_take_drop, Nat.sub_zero, List.drop_zero]
          exact (List.prefix_iff_eq_take.1 (isPrefix_chunk mode s.unread)).symm
        dsimp only
        rw [hextract]

/-- A log is cut only if nothing in it is unread, and the cursor stays where it was. -/
theorem maybeTruncateRawLog_cases (d : Drainer) (p : Pass) :
    d.maybeTruncateRawLog p = d ∨
      d.log.length ≤ d.cursor ∧ d.maybeTruncateRawLog p
        = { d with older := [], cut := d.written.length, cursor := 0 } := by
  unfold maybeTruncateRawLog
  by_cases hcut : (p.overCap && d.log.length ≤ d.cursor) = true
  · rw [if_pos hcut]
    exact .inr ⟨by simpa using (Bool.and_eq_true_iff.1 hcut).2, rfl⟩
  · rw [if_neg hcut]
    exact .inl rfl

/-- The attempts a refusal spends.  Contention spends none. -/
def spent (answer : WriteAnswer) : ℕ := if answer = .busy then 0 else 1

theorem nextAttempts_eq (d : Drainer) (answer : WriteAnswer) :
    d.nextAttempts answer = d.attempts + spent answer := by
  unfold nextAttempts attempts spent
  cases d.park with
  | none => simp
  | some park =>
      by_cases hpark : park.1 = d.cursor
      · by_cases hbusy : answer = .busy <;> simp [hpark, hbusy]
      · simp [hpark]

/-! ### The history -/

/-- The history of a channel with the usage lines `lines` over a ledger: each block is a part of
the lines, what was committed is in the ledger, and nothing was inserted twice. -/
structure Recorded (m : Metered) (lines : List ParsedUsage) (ledger : List Identity)
    (H : List Entry) : Prop where
  blocks : ∀ e ∈ H, e.report.block <+: lines.drop e.base
  partly : ∀ e ∈ H, e.report.results.length ≤ e.report.block.length ∧
    (e.report.failure ≠ none → e.report.results.length < e.report.block.length)
  known : ∀ e ∈ H, ∀ j < e.report.results.length, ∀ parsed,
    e.report.block[j]? = some parsed → m.identity parsed ∈ ledger
  once : ∀ k, insertions H k ≤ 1

/-- What holds of a channel and its history after every run. -/
structure Faithful (parse : List UInt8 → Option ParsedUsage) (m : Metered) (d : Drainer)
    (H : List Entry) : Prop where
  placed : Placed d
  boundary : EndsLine (d.written.take d.position)
  parked : ∀ c n, d.park = some (c, n) →
    c = d.cursor ∧ n < usageParkMaxAttempts ∧ d.passed parse < (d.total parse).length
  refusals : d.attempts = H.countP (refusedAt (d.passed parse))
  recorded : Recorded m (d.total parse) d.ledger H

theorem total_eq (hb : EndsLine (d.written.take d.position)) :
    d.total parse = usageOf parse (d.written.take d.position) ++ d.pending parse := by
  have hsplit : d.written = d.written.take d.position ++ d.unread :=
    (List.take_append_drop _ _).symm
  have hcomplete : completeLines d.written
      = d.written.take d.position ++ completeLines d.unread := by
    conv_lhs => rw [hsplit]
    exact completeLines_append hb _
  unfold total pending
  rw [hcomplete, usageOf_append parse hb]

variable (parse) in
theorem length_total (hb : EndsLine (d.written.take d.position)) :
    (d.total parse).length = d.passed parse + (d.pending parse).length := by
  rw [total_eq hb, List.length_append]
  rfl

/-- The finished lines before the cursor are the rest of all finished lines. -/
theorem drop_total (hb : EndsLine (d.written.take d.position)) :
    (d.total parse).drop (d.passed parse) = d.pending parse := by
  rw [total_eq hb]
  exact List.drop_left

variable {T : List ParsedUsage} {L : List Identity}

/-- A line of a block is the line of the channel it stands for. -/
theorem Recorded.block_getElem (h : Recorded m T L H) {e : Entry} (he : e ∈ H) {j : ℕ}
    (hj : j < e.report.block.length) : e.report.block[j]? = T[e.base + j]? := by
  obtain ⟨rest, hrest⟩ := h.blocks e he
  have hget : (T.drop e.base)[j]? = e.report.block[j]? := by
    rw [← hrest, List.getElem?_append_left hj]
  rw [← hget, List.getElem?_drop]

/-- Nothing was refused behind the last line. -/
theorem Recorded.refusedAt_end (h : Recorded m T L H) {n : ℕ} (hn : T.length ≤ n) :
    H.countP (refusedAt n) = 0 := by
  refine List.countP_eq_zero.2 fun e he href => ?_
  obtain ⟨hfail, hbase⟩ : e.report.failure = some .refused ∧ e.base = n := by
    simpa [refusedAt] using href
  have hpart := (h.partly e he).2 (by simp [hfail])
  have hlen := (h.blocks e he).length_le
  rw [List.length_drop] at hlen
  omega

/-- More lines and more rows change nothing of the history. -/
theorem Recorded.mono (h : Recorded m T L H) {T' : List ParsedUsage} {L' : List Identity}
    (hT : T <+: T') (hL : ∃ more, L' = L ++ more) : Recorded m T' L' H := by
  obtain ⟨more, rfl⟩ := hL
  exact ⟨fun e he => (h.blocks e he).trans (hT.drop e.base), h.partly,
    fun e he j hj parsed hparsed => List.mem_append_left _ (h.known e he j hj parsed hparsed),
    h.once⟩

theorem Faithful.start (parse : List UInt8 → Option ParsedUsage) (m : Metered)
    (older : List UInt8) (ledger : List Identity) :
    Faithful parse m (Drainer.start older ledger) [] where
  placed := ⟨le_rfl, by simp [Drainer.start, position]⟩
  boundary := by simpa [Drainer.start] using endsLine_nil
  parked := by simp [Drainer.start]
  refusals := rfl
  recorded := ⟨by simp, by simp, by simp, by simp [insertions]⟩

/-! ### What the agent writes, and what is cut -/

theorem take_grown (h : Placed d) (p : Pass) :
    (d.grown p).written.take (d.grown p).position = d.written.take d.position := by
  change (d.written ++ p.appended).take d.position = _
  exact List.take_append_of_le_length h.position_le

variable (parse) in
theorem passed_grown (h : Placed d) (p : Pass) :
    (d.grown p).passed parse = d.passed parse := by
  unfold passed
  rw [take_grown h p]

variable (parse) in
theorem total_grown (d : Drainer) (p : Pass) :
    d.total parse <+: (d.grown p).total parse := by
  obtain ⟨zs, hzs⟩ := completeLines_mono d.written p.appended
  refine ⟨usageOf parse zs, ?_⟩
  change _ = usageOf parse (completeLines (d.written ++ p.appended))
  rw [hzs, usageOf_append parse (completeLines_endsLine _)]
  rfl

/-- What the agent and others add changes nothing of the past. -/
theorem Faithful.grown (h : Faithful parse m d H) (p : Pass) :
    Faithful parse m (d.grown p) H := by
  have hpassed := passed_grown parse h.placed p
  have htotal := total_grown parse d p
  refine ⟨h.placed.grown p, ?_, ?_, ?_, h.recorded.mono htotal ⟨p.others, rfl⟩⟩
  · rw [take_grown h.placed p]
    exact h.boundary
  · intro c n hpark
    obtain ⟨hc, hn, hlt⟩ := h.parked c n hpark
    rw [hpassed]
    exact ⟨hc, hn, hlt.trans_le htotal.length_le⟩
  · rw [hpassed]
    exact h.refusals

/-- Where the whole log is read, nothing is parked. -/
theorem Faithful.park_none (h : Faithful parse m d H) (hread : d.written.length ≤ d.position) :
    d.park = none := by
  cases hpark : d.park with
  | none => rfl
  | some park =>
      have hlt := (h.parked park.1 park.2 hpark).2.2
      have hunread : d.unread = [] := List.drop_eq_nil_of_le hread
      rw [length_total parse h.boundary, pending, hunread] at hlt
      simp [completeLines, usageOf, lines] at hlt

/-- A cut moves nothing. -/
theorem Placed.truncated (h : Placed d) (p : Pass) :
    Placed (d.maybeTruncateRawLog p) ∧
      (d.maybeTruncateRawLog p).written = d.written ∧
      (d.maybeTruncateRawLog p).position = d.position ∧
      (d.maybeTruncateRawLog p).ledger = d.ledger ∧
      (d.maybeTruncateRawLog p = d ∨ d.written.length ≤ d.position ∧
        (d.maybeTruncateRawLog p).park = d.park) := by
  have hpos := h.position_le
  have holder := h.older_le
  rcases d.maybeTruncateRawLog_cases p with hcut | ⟨hlen, hcut⟩
  · rw [hcut]
    exact ⟨h, rfl, rfl, rfl, .inl rfl⟩
  · have hread : d.written.length = d.position := by
      simp only [log, List.length_append, List.length_drop] at hlen
      simp only [position] at hpos ⊢
      omega
    rw [hcut]
    exact ⟨⟨Nat.zero_le _, by simp [position]⟩, rfl, by simpa [position] using hread, rfl,
      .inr ⟨hread.le, rfl⟩⟩

variable (parse) in
theorem Placed.passed_truncated (h : Placed d) (p : Pass) :
    (d.maybeTruncateRawLog p).passed parse = d.passed parse := by
  obtain ⟨-, hwritten, hposition, -, -⟩ := h.truncated p
  rw [passed, passed, hwritten, hposition]

/-- Nothing is parked in a log that is cut. -/
theorem Faithful.attempts_truncated (h : Faithful parse m d H) (p : Pass) :
    (d.maybeTruncateRawLog p).attempts = d.attempts := by
  obtain ⟨-, -, -, -, hcut | ⟨hread, hpark⟩⟩ := h.placed.truncated p
  · rw [hcut]
  · rw [attempts, attempts, hpark, h.park_none hread]

theorem Faithful.truncated (h : Faithful parse m d H) (p : Pass) :
    Faithful parse m (d.maybeTruncateRawLog p) H := by
  have hattempts := h.attempts_truncated p
  have hpassed := h.placed.passed_truncated parse p
  obtain ⟨hplaced, hwritten, hposition, hledger, hcut⟩ := h.placed.truncated p
  have htotal : (d.maybeTruncateRawLog p).total parse = d.total parse := by
    rw [total, total, hwritten]
  refine ⟨hplaced, ?_, ?_, ?_, ?_⟩
  · rw [hwritten, hposition]
    exact h.boundary
  · rcases hcut with hcut | ⟨hread, hpark⟩
    · rw [hcut]
      exact h.parked
    · simp [hpark, h.park_none hread]
  · rw [hattempts, hpassed]
    exact h.refusals
  · rw [htotal, hledger]
    exact h.recorded

/-! ### One more entry -/

/-- An inserted line was in no ledger before, so no earlier pass had committed it. -/
theorem Recorded.insertions_eq_zero (h : Recorded m T L H) {k : ℕ} {parsed : ParsedUsage}
    (hk : T[k]? = some parsed) (hfresh : m.identity parsed ∉ L) : insertions H k = 0 := by
  refine List.countP_eq_zero.2 fun e he hins => hfresh ?_
  obtain ⟨hbase, hres⟩ : e.base ≤ k ∧ e.report.results[k - e.base]? = some .inserted := by
    simpa using hins
  have hj : k - e.base < e.report.results.length := (List.getElem?_eq_some_iff.1 hres).1
  have hblock := h.block_getElem he (hj.trans_le (h.partly e he).1)
  rw [show e.base + (k - e.base) = k by omega, hk] at hblock
  exact h.known e he _ hj parsed hblock

/-- One more entry, whose insertions are new. -/
theorem Recorded.snoc (h : Recorded m T L H) {e : Entry}
    (hblock : e.report.block <+: T.drop e.base)
    (hpartly : e.report.results.length ≤ e.report.block.length ∧
      (e.report.failure ≠ none → e.report.results.length < e.report.block.length))
    (hknown : ∀ j < e.report.results.length, ∀ parsed,
      e.report.block[j]? = some parsed → m.identity parsed ∈ L)
    (hnew : ∀ k, e.base ≤ k → e.report.results[k - e.base]? = some .inserted →
      insertions H k = 0) : Recorded m T L (H ++ [e]) := by
  refine ⟨?_, ?_, ?_, fun k => ?_⟩
  · exact List.forall_mem_append.2 ⟨h.blocks, List.forall_mem_singleton.2 hblock⟩
  · exact List.forall_mem_append.2 ⟨h.partly, List.forall_mem_singleton.2 hpartly⟩
  · exact List.forall_mem_append.2 ⟨h.known, List.forall_mem_singleton.2 hknown⟩
  · have hsum : insertions (H ++ [e]) k = insertions H k + insertions [e] k :=
      List.countP_append
    have hone : insertions [e] k ≤ 1 := List.countP_le_length
    by_cases hins : e.base ≤ k ∧ e.report.results[k - e.base]? = some .inserted
    · have hzero := hnew k hins.1 hins.2
      omega
    · have hzero : insertions [e] k = 0 := by simpa [insertions] using hins
      have honce := h.once k
      omega

/-- A block that was committed up to its first refusal is one more entry. -/
theorem Recorded.extend_of_prefix (h : Recorded m T L H) {base : ℕ} {block : List ParsedUsage}
    {failure : Option WriteAnswer}
    {r : List RecordOutcome × Option WriteAnswer × List Identity} (hblock : block <+: T.drop base)
    (hr : Ingested m block L failure r) (announced : Option Announcement) :
    Recorded m T r.2.2 (H ++ [⟨base, block, r.1, r.2.1, announced⟩]) := by
  obtain ⟨hfail, hall, hleft, hgrows, hknown, hfresh⟩ := hr
  have hle : r.1.length ≤ block.length := by
    by_cases hnone : failure = none
    · exact (hall hnone).le
    · exact (hleft hnone).le
  refine (h.mono List.prefix_rfl hgrows).snoc hblock
    ⟨hle, fun hne => hleft (hfail ▸ hne)⟩ hknown fun k hbase hres => ?_
  have hj : k - base < block.length := (List.getElem?_eq_some_iff.1 hres).1.trans_le hle
  obtain ⟨parsed, hparsed⟩ : ∃ parsed, block[k - base]? = some parsed :=
    ⟨_, List.getElem?_eq_getElem hj⟩
  have hk : T[k]? = some parsed := by
    obtain ⟨rest, hrest⟩ := hblock
    have hget : (T.drop base)[k - base]? = some parsed := by
      rw [← hrest, List.getElem?_append_left hj, hparsed]
    rwa [List.getElem?_drop, Nat.add_sub_cancel' hbase] at hget
  exact h.insertions_eq_zero hk (hfresh _ parsed hres hparsed)

theorem Recorded.extend (h : Recorded m T L H) {base : ℕ} {block : List ParsedUsage}
    {failure : Option WriteAnswer}
    {r : List RecordOutcome × Option WriteAnswer × List Identity} (hblock : T.drop base = block)
    (hr : Ingested m block L failure r) (announced : Option Announcement) :
    Recorded m T r.2.2 (H ++ [⟨base, block, r.1, r.2.1, announced⟩]) :=
  h.extend_of_prefix (hblock ▸ List.prefix_rfl) hr announced

/-- A pass that did nothing is one more entry. -/
theorem Recorded.idle (h : Recorded m T L H) (base : ℕ) :
    Recorded m T L (H ++ [⟨base, .idle⟩]) :=
  h.snoc List.nil_prefix ⟨le_rfl, fun h => absurd rfl h⟩
    (fun j hj => absurd hj (Nat.not_lt_zero j)) (by simp [Report.idle])

theorem Faithful.idle (h : Faithful parse m d H) :
    Faithful parse m d (H ++ [⟨d.passed parse, .idle⟩]) := by
  refine ⟨h.placed, h.boundary, h.parked, ?_, h.recorded.idle _⟩
  rw [List.countP_append, List.countP_singleton, h.refusals]
  simp [refusedAt, Report.idle]

/-! ### A block -/

/-- The channel past its block, over another ledger. -/
def advanced (d : Drainer) (ledger : List Identity) (consumed : ℕ) : Drainer :=
  { d with ledger := ledger, cursor := d.cursor + consumed, park := none }

variable (parse m) in
/-- All a pass can do with a block: move past it because all of it committed or because it is
skipped, or park before it. -/
theorem consume_midRun (d : Drainer) (p : Pass) (bytes : List UInt8) (consumed : ℕ) :
    ∃ r announced, Ingested m (usageOf parse bytes) d.ledger
        (firstRefusal p.answers 0 (usageOf parse bytes).length) r ∧
      (d.consume parse m p .midRun bytes consumed).1
        = ⟨usageOf parse bytes, r.1, r.2.1, announced⟩ ∧
      ((r.2.1 = none ∧ announced = none ∧
          (d.consume parse m p .midRun bytes consumed).2 = d.advanced r.2.2 consumed) ∨
        ∃ answer, r.2.1 = some answer ∧ answer ≠ .committed ∧
          ((usageParkMaxAttempts ≤ d.attempts + spent answer ∧
              announced = some (.skipped ((usageOf parse bytes).length - r.1.length) d.cursor
                (d.attempts + spent answer)) ∧
              (d.consume parse m p .midRun bytes consumed).2 = d.advanced r.2.2 consumed) ∨
            (d.attempts + spent answer < usageParkMaxAttempts ∧
              announced = none ∧
              (d.consume parse m p .midRun bytes consumed).2
                = { d with
                    ledger := r.2.2
                    park := some (d.cursor, d.attempts + spent answer) }))) := by
  have hspec := ingestAll_spec m p.answers 0 (usageOf parse bytes) d.ledger
  have hne := firstRefusal_ne_committed p.answers 0 (usageOf parse bytes).length
  rw [← hspec.failure_eq] at hne
  unfold consume
  dsimp only
  generalize ingestAll m p.answers 0 (usageOf parse bytes) d.ledger = r at hspec hne ⊢
  refine ⟨r, _, hspec, rfl, ?_⟩
  cases hfail : r.2.1 with
  | none => exact .inl ⟨rfl, rfl, rfl⟩
  | some answer =>
      refine .inr ⟨answer, rfl, fun h => hne (by rw [hfail, h]), ?_⟩
      have hnext : ({ d with ledger := r.2.2 } : Drainer).nextAttempts answer
          = d.attempts + spent answer := nextAttempts_eq d answer
      unfold settle
      dsimp only
      rw [if_neg (show ¬ DrainMode.midRun = .terminal by simp), hnext]
      by_cases hmax : usageParkMaxAttempts ≤ d.attempts + spent answer
      · rw [if_pos hmax]
        exact .inl ⟨hmax, rfl, rfl⟩
      · rw [if_neg hmax]
        exact .inr ⟨not_le.1 hmax, rfl, rfl⟩

/-- The cursor past all finished lines. -/
theorem Faithful.advanced_placed (h : Faithful parse m d H) (ledger : List Identity) :
    Placed (d.advanced ledger (completeLines d.unread).length) ∧
      (d.advanced ledger (completeLines d.unread).length).written.take
          (d.advanced ledger (completeLines d.unread).length).position
        = completeLines d.written := by
  have holder := h.placed.older_le
  have hpos := h.placed.position_le
  have hposition : (d.advanced ledger (completeLines d.unread).length).position
      = d.position + (completeLines d.unread).length := by
    simp only [position, advanced]
    omega
  have hsplit : d.written.take d.position ++ d.unread = d.written := List.take_append_drop _ _
  have hcomplete : completeLines d.written
      = d.written.take d.position ++ completeLines d.unread := by
    conv_lhs => rw [← hsplit]
    exact completeLines_append h.boundary _
  have hlen : (completeLines d.written).length
      = d.position + (completeLines d.unread).length := by
    rw [hcomplete, List.length_append, List.length_take, min_eq_left hpos]
  refine ⟨⟨holder.trans (Nat.le_add_right _ _), ?_⟩, ?_⟩
  · rw [hposition, ← hlen]
    exact (isPrefix_completeLines d.written).length_le
  · rw [hposition, ← hlen]
    exact (List.prefix_iff_eq_take.1 (isPrefix_completeLines d.written)).symm

/-- Past all finished lines, nothing is parked and nothing was refused. -/
theorem Faithful.advance (h : Faithful parse m d H) {ledger : List Identity} {e : Entry}
    (hrec : Recorded m (d.total parse) ledger (H ++ [e])) :
    Faithful parse m (d.advanced ledger (completeLines d.unread).length) (H ++ [e]) ∧
      (d.advanced ledger (completeLines d.unread).length).passed parse
        = (d.total parse).length := by
  obtain ⟨hplaced, htake⟩ := h.advanced_placed ledger
  have hpassed : (d.advanced ledger (completeLines d.unread).length).passed parse
      = (d.total parse).length := by
    rw [passed, htake]
    rfl
  refine ⟨⟨hplaced, ?_, by simp [advanced], ?_, hrec⟩, hpassed⟩
  · rw [htake]
    exact completeLines_endsLine _
  · rw [hpassed, hrec.refusedAt_end le_rfl]
    rfl

/-- A pass over finished lines keeps the history faithful. -/
theorem Faithful.consumed (h : Faithful parse m d H) (p : Pass) :
    Faithful parse m
      (d.consume parse m p .midRun (completeLines d.unread) (completeLines d.unread).length).2
      (H ++ [⟨d.passed parse, (d.consume parse m p .midRun (completeLines d.unread)
        (completeLines d.unread).length).1⟩]) := by
  obtain ⟨r, announced, hr, hreport, hend⟩ := consume_midRun parse m d p
    (completeLines d.unread) (completeLines d.unread).length
  have hrec := h.recorded.extend (drop_total h.boundary) hr announced
  rw [hreport]
  rcases hend with ⟨-, -, hstate⟩ | ⟨answer, hfail, hanswer, ⟨-, -, hstate⟩ | ⟨hlt, -, hstate⟩⟩
  · rw [hstate]
    exact (h.advance hrec).1
  · rw [hstate]
    exact (h.advance hrec).1
  · rw [hstate]
    have hpending : d.passed parse < (d.total parse).length := by
      have hleft := hr.some_left (by rw [← hr.failure_eq, hfail]; simp)
      rw [length_total parse h.boundary]
      exact Nat.lt_add_of_pos_right (Nat.zero_lt_of_lt hleft)
    refine ⟨⟨h.placed.older_le, h.placed.position_le⟩, h.boundary, ?_, ?_, hrec⟩
    · intro c n hpark
      obtain ⟨rfl, rfl⟩ : d.cursor = c ∧ _ = n := by simpa using hpark
      exact ⟨rfl, hlt, hpending⟩
    · rw [List.countP_append, List.countP_singleton]
      have hcount : d.attempts = H.countP (refusedAt (d.passed parse)) := h.refusals
      have hattempts : attempts { d with
            ledger := r.2.2
            park := some (d.cursor, d.attempts + spent answer) }
          = d.attempts + spent answer := by
        simp [attempts]
      rw [hattempts, hcount]
      congr 1
      cases answer with
      | committed => exact absurd rfl hanswer
      | busy => simp [refusedAt, hfail, spent]
      | refused => simp [refusedAt, hfail, spent, passed, position]

/-! ### A pass while the agent lives -/

/-- A pass keeps the history faithful. -/
theorem Faithful.midRun (h : Faithful parse m d H) (p : Pass) :
    Faithful parse m (observe parse m .midRun (d, H) p).1
      (observe parse m .midRun (d, H) p).2 := by
  have hg := h.grown p
  have hpassed := passed_grown parse h.placed p
  unfold observe
  dsimp only
  rw [← hpassed]
  rcases drain_cases parse m h.placed p .midRun with
    ⟨-, hdrain⟩ | ⟨-, -, hdrain⟩ | ⟨-, -, r, hr, hdrain⟩
  · rw [hdrain]
    exact hg.idle
  · rw [hdrain]
    exact hg.idle.truncated p
  · rw [hdrain, hr]
    exact (hg.consumed p).truncated p

/-- Less than the attempts that end in a skip were spent. -/
theorem Faithful.attempts_lt (h : Faithful parse m d H) : d.attempts < usageParkMaxAttempts := by
  unfold attempts
  cases hpark : d.park with
  | none => simp [usageParkMaxAttempts]
  | some park =>
      obtain ⟨hc, hn, -⟩ := h.parked park.1 park.2 hpark
      simpa [hc] using hn

/-- Every line behind the cursor was settled, or skipped after three refusals that covered it. -/
def Accounted (parse : List UInt8 → Option ParsedUsage) (d : Drainer) (H : List Entry) : Prop :=
  ∀ k < d.passed parse, Settled H k ∨ (Skipped H k ∧ usageParkMaxAttempts ≤ coveredRefusals H k)

/-- An entry that moves the cursor past nothing keeps the account. -/
theorem Accounted.append (h : Accounted parse d H) {d' : Drainer}
    (hpassed : d'.passed parse = d.passed parse) (e : Entry) :
    Accounted parse d' (H ++ [e]) := by
  intro k hk
  rw [hpassed] at hk
  rcases h k hk with hk | ⟨hk, hcount⟩
  · exact .inl (hk.append e)
  · refine .inr ⟨hk.append e, hcount.trans ?_⟩
    rw [coveredRefusals_append]
    exact Nat.le_add_right _ _

/-- The block has not grown since it was first refused, where it is refused for the last time. -/
def Steady (parse : List UInt8 → Option ParsedUsage) (s : Drainer × List Entry) (p : Pass) :
    Prop :=
  p.readable → s.1.attempts + 1 = usageParkMaxAttempts →
    firstRefusal p.answers 0 ((s.1.grown p).pending parse).length = some .refused →
      ∀ e ∈ s.2, refusedAt (s.1.passed parse) e →
        e.report.block.length = ((s.1.grown p).pending parse).length

/-- Where a steady block is skipped, all of it was covered by three refusals. -/
theorem Faithful.coveredRefusals_skip (h : Faithful parse m d H) {e : Entry} {k : ℕ}
    (hattempts : d.attempts + 1 = usageParkMaxAttempts) (hbase : e.base = d.passed parse)
    (hfail : e.report.failure = some .refused)
    (hsteady : ∀ e' ∈ H, refusedAt (d.passed parse) e' →
      e'.report.block.length = e.report.block.length)
    (hk : e.base ≤ k ∧ k < e.base + e.report.block.length) :
    usageParkMaxAttempts ≤ coveredRefusals (H ++ [e]) k := by
  have hnew : refusedOver k e = true := by simp [refusedOver, hfail, hk]
  have hold : H.countP (refusedAt (d.passed parse)) ≤ coveredRefusals H k := by
    refine List.countP_mono_left fun e' he' href => ?_
    have hlen := hsteady e' he' href
    obtain ⟨hfail', hbase'⟩ : e'.report.failure = some .refused ∧ e'.base = d.passed parse := by
      simpa [refusedAt] using href
    simp only [refusedOver, hfail', hbase', hlen, decide_eq_true_eq]
    exact ⟨trivial, hbase ▸ hk⟩
  rw [coveredRefusals_append, if_pos hnew]
  rw [← h.refusals] at hold
  omega

/-- A steady pass keeps the account. -/
theorem Accounted.midRun (hacc : Accounted parse d H) (h : Faithful parse m d H) (p : Pass)
    (hsteady : Steady parse (d, H) p) :
    Accounted parse (observe parse m .midRun (d, H) p).1
      (observe parse m .midRun (d, H) p).2 := by
  have hg := h.grown p
  have hpassed := passed_grown parse h.placed p
  have haccg : Accounted parse (d.grown p) H := by
    intro k hk
    exact hacc k (hpassed ▸ hk)
  unfold observe
  dsimp only
  rcases drain_cases parse m h.placed p .midRun with
    ⟨-, hdrain⟩ | ⟨-, -, hdrain⟩ | ⟨hread, -, r', hr', hdrain⟩
  · -- the log cannot be read: nothing moves
    rw [hdrain]
    exact haccg.append rfl _
  · -- no whole line to read: only the log may be cut
    rw [hdrain]
    exact haccg.append (hg.placed.passed_truncated parse p) _
  · -- a block is read, and three things can become of it
    change r' = (d.grown p).consume parse m p .midRun (completeLines (d.grown p).unread)
      (completeLines (d.grown p).unread).length at hr'
    have hcut := (hg.consumed (m := m) p).placed.passed_truncated parse p
    rw [← hr'] at hcut
    rw [hdrain]
    obtain ⟨r, announced, hr, hreport, hend⟩ := consume_midRun parse m
      (d.grown p) p (completeLines (d.grown p).unread) (completeLines (d.grown p).unread).length
    have hrec := hg.recorded.extend (drop_total hg.boundary) hr announced
    rw [hpassed] at hrec
    have hr1 := (congrArg Prod.fst hr').trans hreport
    have hlen := length_total parse hg.boundary
    rw [hpassed] at hlen
    dsimp only
    rw [hr1]
    rcases hend with ⟨hnone, -, hstate⟩ |
      ⟨answer, hfail, hanswer, ⟨hmax, hannounced, hstate⟩ | ⟨-, -, hstate⟩⟩
    · -- All of the block committed.
      have hnew : r'.2.passed parse = ((d.grown p).total parse).length := by
        rw [hr', hstate]
        exact (hg.advance (hpassed ▸ hrec)).2
      intro k hk
      rw [hcut, hnew, hlen] at hk
      by_cases hlt : k < d.passed parse
      · exact (hacc.append rfl _) k hlt
      · refine .inl ⟨_, List.mem_append_right _ (List.mem_singleton_self _), not_lt.1 hlt, ?_⟩
        have hall := hr.all (hr.failure_eq ▸ hnone)
        rw [hall]
        exact hk
    · -- The block was refused once too often.
      have hnew : r'.2.passed parse = ((d.grown p).total parse).length := by
        rw [hr', hstate]
        exact (hg.advance (hpassed ▸ hrec)).2
      have hlt3 := hg.attempts_lt
      have hrefused : answer = .refused := by
        cases answer with
        | committed => exact absurd rfl hanswer
        | refused => rfl
        | busy =>
            simp only [spent, if_true, Nat.add_zero] at hmax
            omega
      subst hrefused
      have htwo : d.attempts + 1 = usageParkMaxAttempts := by
        have hspent : spent .refused = 1 := rfl
        have hsame : (d.grown p).attempts = d.attempts := rfl
        rw [hspent, hsame] at hmax
        rw [hsame] at hlt3
        omega
      have hcond := hsteady hread htwo (by
        change firstRefusal p.answers 0 (usageOf parse (completeLines (d.grown p).unread)).length
          = _
        rw [← hr.failure_eq, hfail])
      intro k hk
      rw [hcut, hnew, hlen] at hk
      by_cases hlt : k < d.passed parse
      · exact (hacc.append rfl _) k hlt
      · have hk' : d.passed parse ≤ k := not_lt.1 hlt
        by_cases hdone : k < d.passed parse + r.1.length
        · exact .inl ⟨_, List.mem_append_right _ (List.mem_singleton_self _), hk', hdone⟩
        · refine .inr ⟨⟨_, List.mem_append_right _ (List.mem_singleton_self _), not_lt.1 hdone,
            hk, _, _, hannounced⟩, ?_⟩
          exact h.coveredRefusals_skip htwo rfl hfail hcond ⟨hk', hk⟩
    · -- The block is tried again.
      refine hacc.append ?_ _
      rw [hcut, hr', hstate, ← hpassed]
      rfl

/-! ### The last pass -/

variable (parse m) in
/-- All the last pass can do with a block: move past it because all of it committed, or announce
what is lost. -/
theorem consume_terminal (d : Drainer) (p : Pass) (bytes : List UInt8) (consumed : ℕ) :
    ∃ r announced, Ingested m (usageOf parse bytes) d.ledger
        (firstRefusal p.answers 0 (usageOf parse bytes).length) r ∧
      (d.consume parse m p .terminal bytes consumed).1
        = ⟨usageOf parse bytes, r.1, r.2.1, announced⟩ ∧
      ((r.2.1 = none ∧
          (d.consume parse m p .terminal bytes consumed).2 = d.advanced r.2.2 consumed) ∨
        (r.2.1 ≠ none ∧
          announced = some (.lost ((usageOf parse bytes).length - r.1.length)) ∧
          (d.consume parse m p .terminal bytes consumed).2 = { d with ledger := r.2.2 })) := by
  have hspec := ingestAll_spec m p.answers 0 (usageOf parse bytes) d.ledger
  unfold consume
  dsimp only
  generalize ingestAll m p.answers 0 (usageOf parse bytes) d.ledger = r at hspec ⊢
  refine ⟨r, _, hspec, rfl, ?_⟩
  cases r.2.1 with
  | none => exact .inl ⟨rfl, rfl⟩
  | some answer => exact .inr ⟨by simp, rfl, rfl⟩

variable (parse) in
/-- All lines are those behind the cursor and those before it, once the agent is dead. -/
theorem usageOf_written (hb : EndsLine (d.written.take d.position)) :
    usageOf parse d.written
      = usageOf parse (d.written.take d.position) ++ usageOf parse d.unread := by
  conv_lhs => rw [← List.take_append_drop d.position d.written]
  exact usageOf_append parse hb _

/-- The finished lines are the first of all lines. -/
theorem isPrefix_total (parse : List UInt8 → Option ParsedUsage) (d : Drainer) :
    d.total parse <+: usageOf parse d.written :=
  isPrefix_usageOf parse d.written

/-- What holds of a channel and its history after the last pass. -/
structure Closed (parse : List UInt8 → Option ParsedUsage) (m : Metered) (d : Drainer)
    (H : List Entry) : Prop where
  recorded : Recorded m (usageOf parse d.written) d.ledger H
  accounted : Accounted parse d H
  closed : ∀ k < (usageOf parse d.written).length,
    Settled H k ∨ (Skipped H k ∧ usageParkMaxAttempts ≤ coveredRefusals H k) ∨ Lost H k

/-- A cut reopens nothing. -/
theorem Closed.truncated (h : Closed parse m d H) (hplaced : Placed d) (p : Pass) :
    Closed parse m (d.maybeTruncateRawLog p) H := by
  have hpassed := hplaced.passed_truncated parse p
  obtain ⟨-, hwritten, -, hledger, -⟩ := hplaced.truncated p
  refine ⟨?_, fun k hk => h.accounted k (hpassed ▸ hk), ?_⟩
  · rw [hwritten, hledger]
    exact h.recorded
  · rw [hwritten]
    exact h.closed

/-- The last pass over the log of a dead agent closes the history. -/
theorem Faithful.consumed_terminal (h : Faithful parse m d H) (hacc : Accounted parse d H)
    (p : Pass) :
    Placed (d.consume parse m p .terminal d.unread d.unread.length).2 ∧
      Closed parse m (d.consume parse m p .terminal d.unread d.unread.length).2
        (H ++ [⟨d.passed parse,
          (d.consume parse m p .terminal d.unread d.unread.length).1⟩]) := by
  obtain ⟨r, announced, hr, hreport, hend⟩ :=
    consume_terminal parse m d p d.unread d.unread.length
  have hwritten := usageOf_written parse h.boundary
  have hlen : (usageOf parse d.written).length
      = d.passed parse + (usageOf parse d.unread).length := by
    rw [hwritten, List.length_append]
    rfl
  have hdrop : (usageOf parse d.written).drop (d.passed parse) = usageOf parse d.unread := by
    rw [hwritten]
    exact List.drop_left
  have hrec := (h.recorded.mono (isPrefix_total parse d) ⟨[], by simp⟩).extend hdrop hr announced
  rw [hreport]
  -- the entry this pass adds to the history
  generalize he : (⟨d.passed parse, usageOf parse d.unread, r.1, r.2.1, announced⟩ : Entry) = e
    at hrec ⊢
  have hlast : e ∈ H ++ [e] := List.mem_append_right H (List.mem_singleton_self e)
  have hbase : e.base = d.passed parse := by rw [← he]
  have hresults : e.report.results = r.1 := by rw [← he]
  have hblock : e.report.block = usageOf parse d.unread := by rw [← he]
  rcases hend with ⟨hnone, hstate⟩ | ⟨hfail, hannounced, hstate⟩
  · -- All of the block committed.
    have hall := hr.all (hr.failure_eq ▸ hnone)
    have holder := h.placed.older_le
    have hpos := h.placed.position_le
    -- the cursor ends where the log does, partial line included
    have hposition : (d.advanced r.2.2 d.unread.length).position = d.written.length := by
      simp only [position] at hpos
      simp only [position, advanced, unread, List.length_drop]
      omega
    have hpassed : (d.advanced r.2.2 d.unread.length).passed parse
        = (usageOf parse d.written).length := by
      rw [passed, hposition]
      exact congrArg (fun bs => (usageOf parse bs).length) List.take_length
    have hevery : ∀ k < (usageOf parse d.written).length, Settled (H ++ [e]) k ∨
        (Skipped (H ++ [e]) k ∧ usageParkMaxAttempts ≤ coveredRefusals (H ++ [e]) k) := by
      intro k hk
      by_cases hlt : k < d.passed parse
      · exact (hacc.append rfl _) k hlt
      · refine .inl ⟨e, hlast, by omega, ?_⟩
        rw [hresults, hall]
        omega
    rw [hstate]
    refine ⟨⟨holder.trans (Nat.le_add_right _ _), hposition.le⟩, hrec, ?_, ?_⟩
    · intro k hk
      exact hevery k (hpassed ▸ hk)
    · intro k hk
      exact (hevery k hk).imp_right .inl
  · -- What is left of the block is lost.
    rw [hstate]
    refine ⟨⟨h.placed.older_le, h.placed.position_le⟩, hrec, hacc.append rfl _, ?_⟩
    intro k hk
    by_cases hlt : k < d.passed parse
    · exact ((hacc.append rfl _) k hlt).imp_right .inl
    · by_cases hdone : k < d.passed parse + r.1.length
      · exact .inl ⟨e, hlast, by omega, by rw [hresults]; omega⟩
      · refine .inr (.inr ⟨e, hlast, ?_, ?_, ?_⟩)
        · rw [hresults]
          omega
        · change k < (usageOf parse d.written).length at hk
          rw [hblock]
          omega
        · rw [hblock, hresults, ← hannounced, ← he]

/-- The last pass closes the history, if it can read the log. -/
theorem Faithful.terminal (h : Faithful parse m d H) (hacc : Accounted parse d H) (p : Pass)
    (hread : p.readable) :
    Closed parse m (observe parse m .terminal (d, H) p).1
      (observe parse m .terminal (d, H) p).2 := by
  have hg := h.grown p
  have hpassed := passed_grown parse h.placed p
  have haccg : Accounted parse (d.grown p) H := by
    intro k hk
    exact hacc k (hpassed ▸ hk)
  unfold observe
  dsimp only
  rw [← hpassed]
  rcases drain_cases parse m h.placed p .terminal with
    ⟨hunread, -⟩ | ⟨-, hempty, hdrain⟩ | ⟨-, -, r, hr, hdrain⟩
  · rw [hread] at hunread
    exact nomatch hunread
  · rw [hdrain]
    have hwritten := usageOf_written parse hg.boundary
    change (d.grown p).unread = [] at hempty
    have hsame : usageOf parse (d.grown p).written
        = usageOf parse ((d.grown p).written.take (d.grown p).position) := by
      rw [hwritten, hempty]
      exact List.append_nil _
    refine Closed.truncated ⟨?_, haccg.append rfl _, ?_⟩ hg.placed p
    · exact hg.idle.recorded.mono (isPrefix_total parse _) ⟨[], by simp⟩
    · intro k hk
      rw [hsame] at hk
      exact ((haccg.append rfl _) k hk).imp_right .inl
  · rw [hdrain, hr]
    obtain ⟨hplaced, hclosed⟩ := hg.consumed_terminal haccg p
    exact hclosed.truncated hplaced p

/-! ### Contention and identities -/

/-- A refusal by contention leaves the channel where it was, and spends no attempt. -/
theorem Faithful.busy (h : Faithful parse m d H) (p : Pass)
    (hbusy : (d.drain parse m p .midRun).1.failure = some .busy) :
    (d.drain parse m p .midRun).2.attempts = d.attempts ∧
      (d.drain parse m p .midRun).2.passed parse = d.passed parse ∧
      (d.drain parse m p .midRun).1.announced = none := by
  have hg := h.grown p
  have hpassed := passed_grown parse h.placed p
  rcases drain_cases parse m h.placed p .midRun with
    ⟨-, hdrain⟩ | ⟨-, -, hdrain⟩ | ⟨-, -, r', hr', hdrain⟩
  · simp [hdrain, Report.idle] at hbusy
  · simp [hdrain, Report.idle] at hbusy
  · change r' = (d.grown p).consume parse m p .midRun (completeLines (d.grown p).unread)
      (completeLines (d.grown p).unread).length at hr'
    have hkept := hg.consumed p
    have hattempts := hkept.attempts_truncated p
    have hcut := hkept.placed.passed_truncated parse p
    rw [← hr'] at hattempts hcut
    obtain ⟨r, announced, -, hreport, hend⟩ := consume_midRun parse m (d.grown p) p
      (completeLines (d.grown p).unread) (completeLines (d.grown p).unread).length
    rw [← hr'] at hreport hend
    rw [hdrain] at hbusy ⊢
    dsimp only at hbusy ⊢
    rw [hattempts, hcut, hreport]
    have hfailure : r.2.1 = some .busy := by
      rw [hreport] at hbusy
      exact hbusy
    rcases hend with ⟨hnone, -⟩ | ⟨answer, hfail, -, hend⟩
    · simp [hfailure] at hnone
    · obtain rfl : answer = .busy := by simpa [hfailure] using hfail.symm
      have hspent : spent .busy = 0 := rfl
      have hlt := hg.attempts_lt
      rcases hend with ⟨hmax, -⟩ | ⟨-, hannounced, hstate⟩
      · omega
      · rw [hstate, ← hpassed]
        have hsame : (d.grown p).attempts = d.attempts := rfl
        refine ⟨?_, rfl, hannounced⟩
        rw [← hsame]
        simp [attempts, spent]

/-- A line is committed under the identity of its own report, which is then in the ledger. -/
theorem Recorded.committedAs (h : Recorded m T L H) {k : ℕ} {i : Identity}
    (hi : CommittedAs m H k i) : T[k]?.map m.identity = some i ∧ i ∈ L := by
  obtain ⟨e, he, hbase, hk, hid⟩ := hi
  have hj : k - e.base < e.report.results.length := by omega
  have hblock := h.block_getElem he (hj.trans_le (h.partly e he).1)
  rw [Nat.add_sub_cancel' hbase] at hblock
  refine ⟨hblock ▸ hid, ?_⟩
  obtain ⟨parsed, hparsed, rfl⟩ := Option.map_eq_some_iff.1 hid
  exact h.known e he _ hj parsed hparsed

/-- A faithful and accounted history, in every state of a steady run. -/
theorem faithful_accounted (parse : List UInt8 → Option ParsedUsage) (m : Metered)
    (older : List UInt8) (ledger : List Identity) {passes : List Pass}
    (hsteady : Guarded.Meets (observe parse m .midRun) (Steady parse)
      (Drainer.start older ledger, []) passes) {s : Drainer × List Entry}
    (hs : s ∈ Guarded.states (observe parse m .midRun) (Drainer.start older ledger, []) passes) :
    Faithful parse m s.1 s.2 ∧ Accounted parse s.1 s.2 := by
  refine Guarded.invariant (P := fun s => Faithful parse m s.1 s.2 ∧ Accounted parse s.1 s.2)
    (fun s p h hp => ⟨h.1.midRun p, h.2.midRun h.1 p hp⟩)
    ⟨Faithful.start parse m older ledger, ?_⟩ hsteady hs
  intro k hk
  exact absurd hk (by simp [Drainer.start, passed, usageOf, lines])

end Drainer

/-! ### Every event once -/

/-- While no block grows between its refusals, the cursor passes a usage line only if it was
settled or skipped after three refusals that covered it; a refusal by contention spends nothing;
no line has two identities or is inserted twice; and after the last pass every line is settled,
skipped or announced as lost. -/
theorem usageDrain_exactlyOnce (parse : List UInt8 → Option ParsedUsage) (m : Metered)
    (older : List UInt8) (ledger : List Identity) (passes : List Pass) (last : Pass)
    (hsteady : Guarded.Meets (Drainer.observe parse m .midRun) (Drainer.Steady parse)
      (Drainer.start older ledger, []) passes) (hlast : last.readable) :
    (∀ s ∈ Guarded.states (Drainer.observe parse m .midRun)
        (Drainer.start older ledger, []) passes,
      (∀ k < s.1.passed parse,
        Settled s.2 k ∨ (Skipped s.2 k ∧ usageParkMaxAttempts ≤ coveredRefusals s.2 k)) ∧
      (∀ p, (s.1.drain parse m p .midRun).1.failure = some .busy →
        (s.1.drain parse m p .midRun).2.attempts = s.1.attempts ∧
        (s.1.drain parse m p .midRun).2.passed parse = s.1.passed parse ∧
        (s.1.drain parse m p .midRun).1.announced = none)) ∧
    ∃ s, s = Drainer.observe parse m .terminal
        (Drainer.runPasses parse m (Drainer.start older ledger, []) passes) last ∧
      (∀ k < s.1.passed parse,
        Settled s.2 k ∨ (Skipped s.2 k ∧ usageParkMaxAttempts ≤ coveredRefusals s.2 k)) ∧
      (∀ k < (usageOf parse s.1.written).length,
        Settled s.2 k ∨ (Skipped s.2 k ∧ usageParkMaxAttempts ≤ coveredRefusals s.2 k) ∨
          Lost s.2 k) ∧
      (∀ k i, CommittedAs m s.2 k i →
        (usageOf parse s.1.written)[k]?.map m.identity = some i ∧ i ∈ s.1.ledger) ∧
      ∀ k, insertions s.2 k ≤ 1 := by
  have hrun := fun s hs => Drainer.faithful_accounted parse m older ledger hsteady (s := s) hs
  refine ⟨fun s hs => ⟨(hrun s hs).2, (hrun s hs).1.busy⟩, _, rfl, ?_⟩
  obtain ⟨hfaithful, haccounted⟩ := hrun _ Guarded.last_mem_states
  have hclosed := hfaithful.terminal haccounted last hlast
  exact ⟨hclosed.accounted, hclosed.closed, fun k i => hclosed.recorded.committedAs,
    hclosed.recorded.once⟩

/-! ### A channel under refusals -/

/-- The bytes of a text. -/
def bytesOf (text : String) : List UInt8 := text.toList.map fun c => UInt8.ofNat c.toNat

/-- A usage line with this sequence. -/
def sentinelLine (digit : Char) : List UInt8 :=
  bytesOf "KTESIO_USAGE \x7b\"sequence\":" ++ bytesOf digit.toString ++
    bytesOf ",\"input_tokens\":1,\"output_tokens\":1\x7d"

/-- The reports of these lines. -/
def sentinelUsage (line : List UInt8) : Option ParsedUsage :=
  (['1', '2', '3'].find? fun digit => sentinelLine digit = line).map fun digit =>
    ⟨1, 1, 0, digit.toNat - '0'.toNat⟩

/-- A pass that finds one more text and is refused. -/
def refusedPass (text : List UInt8) : Pass := ⟨text, [], true, fun _ => .refused, false⟩

/-- A launch. -/
def meteredLaunch : Metered := ⟨"a", 1, 1⟩

/-- One line is refused three times and skipped, and another is lost. -/
theorem usageDrain_exactlyOnce_refused :
    (∀ s ∈ Guarded.states (Drainer.observe sentinelUsage meteredLaunch .midRun)
        (Drainer.start [] [], []) [refusedPass (sentinelLine '1' ++ [newline]), refusedPass [],
          refusedPass []],
      (∀ k < s.1.passed sentinelUsage,
        Settled s.2 k ∨ (Skipped s.2 k ∧ usageParkMaxAttempts ≤ coveredRefusals s.2 k))) ∧
    ∃ s, s = Drainer.observe sentinelUsage meteredLaunch .terminal
        (Drainer.runPasses sentinelUsage meteredLaunch (Drainer.start [] [], [])
          [refusedPass (sentinelLine '1' ++ [newline]), refusedPass [], refusedPass []])
        (refusedPass (sentinelLine '2')) ∧
      s.1.passed sentinelUsage = 1 ∧ (usageOf sentinelUsage s.1.written).length = 2 := by
  have h := usageDrain_exactlyOnce sentinelUsage meteredLaunch [] []
    [refusedPass (sentinelLine '1' ++ [newline]), refusedPass [], refusedPass []]
    (refusedPass (sentinelLine '2'))
    (by
      refine ⟨?_, ?_, ?_, trivial⟩ <;> unfold Drainer.Steady <;> decide +kernel)
    rfl
  exact ⟨fun s hs => (h.1 s hs).1, _, rfl, by decide +kernel, by decide +kernel⟩

/-- A line that is finished before each pass: the third is skipped after one refusal. -/
theorem usageDrain_skips_new_lines :
    ∃ s, s = Drainer.runPasses sentinelUsage meteredLaunch (Drainer.start [] [], [])
        [refusedPass (sentinelLine '1' ++ [newline]), refusedPass (sentinelLine '2' ++ [newline]),
          refusedPass (sentinelLine '3' ++ [newline])] ∧
      coveredRefusals s.2 2 = 1 ∧
      ¬ ∀ k < s.1.passed sentinelUsage,
        Settled s.2 k ∨ (Skipped s.2 k ∧ usageParkMaxAttempts ≤ coveredRefusals s.2 k) := by
  refine ⟨_, rfl, by decide +kernel, fun h => ?_⟩
  rcases h 2 (by decide +kernel) with hsettled | ⟨-, hcount⟩
  · exact absurd hsettled (by decide +kernel)
  · exact absurd hcount (by decide +kernel)

end UsageDrain

end Hekma
