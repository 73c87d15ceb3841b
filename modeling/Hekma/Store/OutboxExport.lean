/-
**The export of the outbox** (`domain/outbox.rs`, `store/run_store_sqlite.rs`).

A consumer pulls the events behind its cursor in batches and acknowledges how far it got.  The
bounds of the table and the page are read in one snapshot.  A cursor is refused if it lies past the
tail, or so far below the oldest row that the batch would leave out what was evicted.

Main definitions:

* `selectBatch`, `Outbox.exportCore` — the code;
* `Outbox.tryAppend` — an append to a table whose keys can run out;
* `Exporter`, `Exporter.step` — a consumer that follows its cursor, and the log of all appends;
* `Exporter.Follows` — how table, log and consumer belong together.

Main results:

* `Exporter.Follows.unread` — the rows behind a cursor are those of the log, if none was evicted;
* `Exporter.Follows.step` — every act keeps them together;
* `follows_run` — and so does every run.
-/

import Hekma.Store.Outbox

set_option relaxedAutoImplicit false
set_option autoImplicit false

namespace Hekma

/-! ### The code -/

/-- The version of the records. -/
def outboxSchemaVersion : ℕ := 1

/-- The size of a batch that was asked for without one. -/
def exportBatchDefaultMax : ℕ := 500

/-- The size no batch exceeds. -/
def exportBatchMaxCap : ℕ := 10000

/-- An exported event under its key. -/
structure OutboxEntry where
  schemaVersion : ℕ
  seq : ℕ
  event : String
  deriving DecidableEq, Repr

/-- The bounds of the table: the oldest key, the newest one, and the ack mark. -/
structure OutboxBounds where
  retainedFrom : ℕ
  tail : ℕ
  ack : Option ℕ
  deriving DecidableEq, Repr

/-- What an export reads. -/
structure JournalView where
  entries : List OutboxEntry
  tornTailSkipped : Bool
  blankLinesSkipped : ℕ
  retainedFrom : ℕ
  tail : ℕ
  deriving DecidableEq, Repr

/-- What an export answers: some events, and the cursor behind them. -/
structure ExportBatch where
  schemaVersion : ℕ
  events : List OutboxEntry
  cursor : ℕ
  tornTailSkipped : Bool
  blankLinesSkipped : ℕ
  retainedFrom : ℕ
  deriving DecidableEq, Repr

/-- The refusal of a cursor whose next events were evicted. -/
def belowFloorDetail (cursor retainedFrom : ℕ) : String :=
  s!"the export cursor ({cursor}) is below the journal's retained floor ({retainedFrom}) — the " ++
  "entries it would skip were rotated away (the lossless rule: cursors from " ++
  s!"{retainedFrom - 1} up are still served, anything lower would silently skip rotated-away " ++
  "records); re-pull from the cursor the journal still retains, or reset it deliberately to " ++
  "accept the loss"

/-- The refusal of a position behind the newest event. -/
def pastTailDetail (position tail : ℕ) (what : String) : String :=
  s!"the export {what} ({position}) is past the journal's committed tail ({tail}) — the record " ++
  "was truncated or rotated away, and honoring it would silently skip records; reset the cursor " ++
  "deliberately if a re-pull from the journal's retention floor is intended"

/-- Choose a batch behind a cursor, or refuse the cursor. -/
def selectBatch (view : JournalView) (after max : ℕ) : Except String ExportBatch :=
  if view.tail < after then .error (pastTailDetail after view.tail "cursor")
  else if after + 1 < view.retainedFrom then .error (belowFloorDetail after view.retainedFrom)
  else
    let events := (view.entries.filter fun entry => after < entry.seq).take max
    .ok
      { schemaVersion := outboxSchemaVersion
        events := events
        cursor := (events.getLast?.map OutboxEntry.seq).getD after
        tornTailSkipped := view.tornTailSkipped
        blankLinesSkipped := view.blankLinesSkipped
        retainedFrom := view.retainedFrom }

/-- The number of rows an export may read: the default for 0, and never more than the cap. -/
def rowLimit (max : ℕ) : ℕ :=
  if max = 0 then exportBatchDefaultMax else min max exportBatchMaxCap

/-- A row as it is exported. -/
def OutboxRow.entry (row : OutboxRow) : OutboxEntry := ⟨outboxSchemaVersion, row.seq, row.event⟩

namespace Outbox

/-- The bounds of the table. -/
def outboxBounds (s : Outbox) : OutboxBounds :=
  ⟨(s.rows.head?.map OutboxRow.seq).getD 1, maxSeq s.rows, s.ack⟩

/-- The rows behind a key, as many as a page holds. -/
def outboxPage (s : Outbox) (after limit : ℕ) : List OutboxEntry :=
  ((s.rows.filter fun row => clampTokens after < row.seq).take (max limit 1)).map OutboxRow.entry

/-- Export a batch behind a cursor, or behind the ack mark. -/
def exportCore (s : Outbox) (after : Option ℕ) (max : ℕ) : Except String ExportBatch :=
  let bounds := s.outboxBounds
  let afterSeq := after.getD (bounds.ack.getD 0)
  selectBatch
    { entries := s.outboxPage afterSeq (rowLimit max)
      tornTailSkipped := false
      blankLinesSkipped := 0
      retainedFrom := bounds.retainedFrom
      tail := bounds.tail }
    afterSeq (rowLimit max)

/-- Append an event.  The store refuses the row once its key would not fit its column. -/
def tryAppend (s : Outbox) (event : String) (cap : ℕ) : Option (OutboxAppend × Outbox) :=
  let r := s.appendOutbox event cap
  if r.1.seq ≤ maxColumn then some r else none

end Outbox

theorem rowLimit_pos (max : ℕ) : 0 < rowLimit max := by
  unfold rowLimit exportBatchDefaultMax exportBatchMaxCap
  split <;> omega

/-! ### A consumer -/

/-- The outbox, the rows of all appends so far, and a consumer that follows its cursor. -/
structure Exporter where
  box : Outbox
  log : List OutboxRow
  cursor : ℕ
  received : List OutboxEntry
  deriving DecidableEq, Repr

namespace Exporter

/-- What can happen. -/
inductive Act where
  | append (event : String) (cap : ℕ)
  | ack (given : ℕ)
  | pull (max : ℕ)
  deriving DecidableEq, Repr

/-- An outbox without events, and a consumer at the start. -/
def start : Exporter := ⟨.empty, [], 0, []⟩

/-- The state after an act.  A refused pull leaves the consumer where it is. -/
def step (e : Exporter) : Act → Exporter
  | .append event cap =>
      match e.box.tryAppend event cap with
      | some (added, box) =>
          { e with box := box, log := e.log ++ [⟨added.seq, event, event.utf8ByteSize⟩] }
      | none => e
  | .ack given => { e with box := (e.box.ackCore given).2 }
  | .pull max =>
      match e.box.exportCore (some e.cursor) max with
      | .ok batch => { e with cursor := batch.cursor, received := e.received ++ batch.events }
      | .error _ => e

/-- The state after a run. -/
def run (acts : List Act) : Exporter := acts.foldl step start

/-- The table holds the end of the log, whose keys count from 1; the ack mark is not past the tail;
and the consumer has the log up to its cursor. -/
structure Follows (e : Exporter) : Prop where
  exact_ : e.box.Exact
  keys : e.log.map OutboxRow.seq = List.range' 1 e.log.length
  length : e.log.length = e.box.sequence
  rows : e.box.rows = e.log.drop (e.log.length - e.box.rows.length)
  empty : e.box.rows = [] → e.box.sequence = 0
  fits : e.box.sequence ≤ maxColumn
  ack : e.box.ack.getD 0 ≤ e.box.sequence
  cursor : e.cursor ≤ e.box.sequence
  received : e.received = (e.log.take e.cursor).map OutboxRow.entry

variable {e : Exporter}

/-! ### Table and log -/

/-- The tail is the highest key ever given. -/
theorem Follows.tail (h : e.Follows) : Outbox.maxSeq e.box.rows = e.box.sequence := by
  have hle := h.exact_.length_le
  by_cases hrows : e.box.rows = []
  · rw [hrows, h.empty hrows]
    rfl
  · have hmax := Outbox.maxSeq_of_range h.exact_.seqs hrows
    omega

/-- The log has a row for each key up to the tail. -/
theorem Follows.key (h : e.Follows) {i : ℕ} (hi : i < e.log.length) :
    (e.log[i]).seq = 1 + i := Outbox.seq_of_range h.keys hi

/-- The rows of the log up to a key, and those behind it. -/
theorem Follows.split (h : e.Follows) {c : ℕ} (hc : c ≤ e.log.length) :
    (e.log.filter fun row => row.seq < 1 + c) = e.log.take c ∧
      (e.log.filter fun row => 1 + c ≤ row.seq) = e.log.drop c :=
  Outbox.filter_of_range h.keys hc

theorem Follows.length_rows_le (h : e.Follows) : e.box.rows.length ≤ e.log.length := by
  rw [h.length]
  exact h.exact_.length_le

/-- The evicted rows are the first of the log. -/
theorem Follows.evicted (h : e.Follows) {row : OutboxRow} :
    (row ∈ e.log ∧ row ∉ e.box.rows) ↔
      row ∈ e.log.take (e.log.length - e.box.rows.length) := by
  have hle := h.length_rows_le
  have hsplit := h.split (c := e.log.length - e.box.rows.length) (Nat.sub_le _ _)
  rw [← hsplit.1]
  conv_lhs => rw [h.rows, ← hsplit.2]
  simp only [List.mem_filter, decide_eq_true_eq]
  constructor
  · rintro ⟨hrow, hnot⟩
    exact ⟨hrow, by by_contra hlt; exact hnot ⟨hrow, by omega⟩⟩
  · rintro ⟨hrow, hlt⟩
    exact ⟨hrow, fun h => by omega⟩

/-- The oldest key. -/
theorem Follows.floor (h : e.Follows) :
    e.box.outboxBounds.retainedFrom = e.log.length - e.box.rows.length + 1 := by
  have hle := h.length_rows_le
  unfold Outbox.outboxBounds
  cases hrows : e.box.rows with
  | nil =>
      have hzero := h.empty hrows
      have hlen := h.length
      simp [hzero, hlen]
  | cons row rows =>
      have hpos : 0 < e.box.rows.length := by simp [hrows]
      have hfirst := Outbox.seq_of_range h.exact_.seqs hpos
      have hlen := h.length
      simp only [hrows, List.getElem_cons_zero, List.length_cons] at hfirst hle
      simp only [List.head?_cons, Option.map_some, Option.getD_some, List.length_cons]
      omega

/-- **A cursor is refused exactly if it is past the tail, or a row behind it was evicted.** -/
theorem Follows.refused_iff (h : e.Follows) (c : ℕ) :
    (Outbox.maxSeq e.box.rows < c ∨ c + 1 < e.box.outboxBounds.retainedFrom) ↔
      (Outbox.maxSeq e.box.rows < c ∨ ∃ row ∈ e.log, row ∉ e.box.rows ∧ c < row.seq) := by
  refine or_congr_right ?_
  have hle := h.length_rows_le
  rw [h.floor]
  constructor
  · intro hlt
    -- the last of the evicted rows
    obtain ⟨k, hk⟩ : ∃ k, e.log.length - e.box.rows.length = k + 1 :=
      ⟨e.log.length - e.box.rows.length - 1, by omega⟩
    have hi : k < e.log.length := by omega
    have hmem : e.log[k] ∈ e.log.take (e.log.length - e.box.rows.length) := by
      rw [hk]
      exact List.mem_take_iff_getElem.2 ⟨k, by omega, rfl⟩
    obtain ⟨hlog, hnot⟩ := h.evicted.2 hmem
    refine ⟨_, hlog, hnot, ?_⟩
    rw [h.key hi]
    omega
  · rintro ⟨row, hlog, hnot, hlt⟩
    obtain ⟨i, hi, rfl⟩ := List.mem_take_iff_getElem.1 (h.evicted.1 ⟨hlog, hnot⟩)
    rw [h.key (by omega)] at hlt
    omega

/-- **The rows behind a cursor are those of the log**, if none was evicted. -/
theorem Follows.unread (h : e.Follows) {c : ℕ} (hc : c ≤ e.log.length)
    (hfloor : e.log.length - e.box.rows.length ≤ c) :
    (e.box.rows.filter fun row => c < row.seq) = e.log.drop c := by
  have hsucc : ∀ row : OutboxRow, decide (c < row.seq) = decide (1 + c ≤ row.seq) := by
    intro row
    exact decide_eq_decide.2 (by omega)
  have hfront : ∀ row ∈ e.log.take (e.log.length - e.box.rows.length), ¬ 1 + c ≤ row.seq := by
    intro row hrow
    obtain ⟨i, hi, rfl⟩ := List.mem_take_iff_getElem.1 hrow
    rw [h.key (by omega)]
    omega
  have hall := (h.split hc).2
  rw [← List.take_append_drop (e.log.length - e.box.rows.length) e.log, List.filter_append,
    List.filter_eq_nil_iff.2 (by simpa using hfront), List.nil_append, List.take_append_drop] at hall
  rw [List.filter_congr fun row _ => hsucc row]
  conv_lhs => rw [h.rows]
  exact hall

/-! ### An export -/

theorem selectBatch_ok {view : JournalView} {after max : ℕ} {batch : ExportBatch} :
    selectBatch view after max = .ok batch ↔
      (after ≤ view.tail ∧ view.retainedFrom ≤ after + 1) ∧
      batch =
        { schemaVersion := outboxSchemaVersion
          events := (view.entries.filter fun entry => after < entry.seq).take max
          cursor := (((view.entries.filter fun entry => after < entry.seq).take max).getLast?.map
            OutboxEntry.seq).getD after
          tornTailSkipped := view.tornTailSkipped
          blankLinesSkipped := view.blankLinesSkipped
          retainedFrom := view.retainedFrom } := by
  unfold selectBatch
  by_cases htail : view.tail < after
  · simp [htail, Nat.not_le.2 htail]
  · by_cases hfloor : after + 1 < view.retainedFrom
    · simp [htail, hfloor, Nat.not_le.2 hfloor]
    · rw [if_neg htail, if_neg hfloor]
      simp only [Except.ok.injEq, not_lt.1 htail, not_lt.1 hfloor, and_self, true_and]
      exact eq_comm

theorem selectBatch_error {view : JournalView} {after max : ℕ} :
    (∃ detail, selectBatch view after max = .error detail) ↔
      view.tail < after ∨ after + 1 < view.retainedFrom := by
  unfold selectBatch
  by_cases htail : view.tail < after
  · simp [htail]
  · by_cases hfloor : after + 1 < view.retainedFrom
    · simp [htail, hfloor]
    · simp [htail, hfloor]

/-- A page that was read behind a cursor holds nothing before it. -/
theorem filter_outboxPage (s : Outbox) {c max : ℕ} (hc : c ≤ maxColumn) :
    ((s.outboxPage c (rowLimit max)).filter fun entry => c < entry.seq).take (rowLimit max) =
      ((s.rows.filter fun row => c < row.seq).take (rowLimit max)).map OutboxRow.entry := by
  have hpos := rowLimit_pos max
  have hclamp : Outbox.clampTokens c = c := min_eq_left hc
  unfold Outbox.outboxPage
  rw [hclamp, max_eq_left hpos]
  have hself : ((((s.rows.filter fun row => c < row.seq).take (rowLimit max)).map
      OutboxRow.entry).filter fun entry => c < entry.seq) =
      ((s.rows.filter fun row => c < row.seq).take (rowLimit max)).map OutboxRow.entry := by
    refine List.filter_eq_self.2 fun entry hentry => ?_
    obtain ⟨row, hrow, rfl⟩ := List.mem_map.1 hentry
    exact (List.mem_filter.1 (List.mem_of_mem_take hrow)).2
  rw [hself, List.take_of_length_le]
  rw [List.length_map]
  exact List.length_take_le _ _

/-- What an export answers. -/
theorem Follows.export_ok (h : e.Follows) {after : Option ℕ} {max : ℕ} {batch : ExportBatch}
    (hok : e.box.exportCore after max = .ok batch) :
    after.getD (e.box.ack.getD 0) ≤ e.box.sequence ∧
      e.log.length - e.box.rows.length ≤ after.getD (e.box.ack.getD 0) ∧
      batch.events = ((e.box.rows.filter fun row =>
        after.getD (e.box.ack.getD 0) < row.seq).take (rowLimit max)).map OutboxRow.entry ∧
      batch.cursor = (batch.events.getLast?.map OutboxEntry.seq).getD
        (after.getD (e.box.ack.getD 0)) := by
  obtain ⟨⟨htail, hfloor⟩, rfl⟩ := selectBatch_ok.1 hok
  change after.getD (e.box.ack.getD 0) ≤ Outbox.maxSeq e.box.rows at htail
  rw [h.tail] at htail
  change e.box.outboxBounds.retainedFrom ≤ after.getD (e.box.ack.getD 0) + 1 at hfloor
  rw [h.floor] at hfloor
  exact ⟨htail, by omega, filter_outboxPage e.box (htail.trans h.fits), rfl⟩

/-- The log up to the cursor of a batch is the log up to the cursor before it, and the batch. -/
theorem Follows.batch (h : e.Follows) {c max : ℕ} {batch : ExportBatch}
    (hok : e.box.exportCore (some c) max = .ok batch) :
    batch.cursor = min (c + rowLimit max) e.box.sequence ∧
      (e.log.take c).map OutboxRow.entry ++ batch.events =
        (e.log.take batch.cursor).map OutboxRow.entry := by
  obtain ⟨htail, hfloor, hevents, hcursor⟩ := h.export_ok hok
  simp only [Option.getD_some] at htail hfloor hevents hcursor
  have hlen := h.length
  have hc : c ≤ e.log.length := by omega
  rw [h.unread hc hfloor] at hevents
  have hseq : batch.cursor = min (c + rowLimit max) e.box.sequence := by
    rw [hcursor, hevents, List.getLast?_map, Option.map_map, List.getLast?_take, List.getElem?_drop]
    have hpos := rowLimit_pos max
    rw [if_neg hpos.ne']
    by_cases hin : c + (rowLimit max - 1) < e.log.length
    · rw [List.getElem?_eq_getElem hin]
      simp only [Option.some_or, Option.map_some, Option.getD_some, Function.comp_apply]
      change (e.log[c + (rowLimit max - 1)]).seq = _
      rw [h.key hin]
      omega
    · rw [List.getElem?_eq_none (by omega), Option.none_or, List.getLast?_drop]
      split
      · rename_i hall
        simp
        omega
      · rename_i hmore
        rw [List.getLast?_eq_getElem?, List.getElem?_eq_getElem (by omega)]
        change (e.log[e.log.length - 1]).seq = _
        rw [h.key (by omega)]
        omega
  refine ⟨hseq, ?_⟩
  rw [hseq, hevents, ← List.map_append]
  congr 1
  rw [← List.take_add, ← hlen]
  rcases le_total (c + rowLimit max) e.log.length with hle | hle
  · rw [min_eq_left hle]
  · rw [min_eq_right hle, List.take_length, List.take_of_length_le hle]

/-! ### An acknowledgement -/

/-- An acknowledgement past the tail is refused, and one that does not advance the mark writes
nothing. -/
theorem Follows.ack_cases (h : e.Follows) (given : ℕ) :
    (e.box.sequence < given ∧ e.box.ackCore given = (none, e.box)) ∨
    (given ≤ e.box.ack.getD 0 ∧ e.box.ackCore given = (some (e.box.ack.getD 0), e.box)) ∨
    (e.box.ack.getD 0 < given ∧ given ≤ e.box.sequence ∧
      e.box.ackCore given = (some given, { e.box with ack := some given })) := by
  have hack := h.ack
  unfold Outbox.ackCore
  dsimp only
  rw [h.tail]
  rcases le_or_gt given (e.box.ack.getD 0) with hle | hlt
  · rw [max_eq_left hle, if_neg (not_lt.2 hack), if_neg (lt_irrefl _)]
    exact .inr (.inl ⟨hle, rfl⟩)
  · rw [max_eq_right hlt.le]
    by_cases hpast : e.box.sequence < given
    · rw [if_pos hpast]
      exact .inl ⟨hpast, rfl⟩
    · rw [if_neg hpast, if_pos hlt]
      have hclamp : Outbox.clampTokens given = given :=
        min_eq_left ((not_lt.1 hpast).trans h.fits)
      refine .inr (.inr ⟨hlt, not_lt.1 hpast, ?_⟩)
      rw [Outbox.setOutboxAck, hclamp]

/-! ### Runs -/

theorem follows_start : start.Follows where
  exact_ := Outbox.exact_empty
  keys := rfl
  length := rfl
  rows := rfl
  empty _ := rfl
  fits := Nat.zero_le _
  ack := le_rfl
  cursor := le_rfl
  received := rfl

/-- An append evicts rows from the front, and never the newest one. -/
theorem Follows.append (h : e.Follows) (event : String) (cap : ℕ) :
    (e.step (.append event cap)).Follows := by
  obtain ⟨k, hret, heq⟩ := h.exact_.appendOutbox event cap
  have hexact := h.exact_.step (.append event cap)
  have hk : k ≤ e.box.rows.length := by
    have hnewest := hret.newest
    omega
  have hle := h.length_rows_le
  have hlen := h.length
  have hcursor := h.cursor
  have hack := h.ack
  simp only [step, Outbox.tryAppend, Outbox.step, heq] at hexact ⊢
  by_cases hfits : e.box.sequence + 1 ≤ maxColumn
  · rw [if_pos hfits]
    refine ⟨hexact, ?_, ?_, ?_, ?_, hfits, by dsimp only; omega, by dsimp only; omega, ?_⟩
    · dsimp only
      rw [List.map_append, h.keys, List.length_append, List.length_singleton, List.range'_concat,
        hlen]
      simp [Nat.add_comm]
    · simp [hlen]
    · dsimp only
      rw [List.length_append, List.length_append, List.length_singleton, List.length_drop,
        List.drop_append_of_le_length (by omega)]
      congr 1
      conv_lhs => rw [h.rows, List.drop_drop]
      congr 1
      omega
    · intro hrows
      simp at hrows
    · dsimp only
      rw [h.received, List.take_append_of_le_length (by omega)]
  · rw [if_neg hfits]
    exact h

/-- **Every act keeps table, log and consumer together.** -/
theorem Follows.step (h : e.Follows) (act : Act) : (e.step act).Follows := by
  cases act with
  | append event cap => exact h.append event cap
  | ack given =>
      rcases h.ack_cases given with ⟨-, heq⟩ | ⟨-, heq⟩ | ⟨-, hle, heq⟩
      · rw [Exporter.step, heq]
        exact h
      · rw [Exporter.step, heq]
        exact h
      · rw [Exporter.step, heq]
        exact ⟨h.exact_.withAck _, h.keys, h.length, h.rows, h.empty, h.fits, hle, h.cursor,
          h.received⟩
  | pull max =>
      unfold Exporter.step
      dsimp only
      cases hexport : e.box.exportCore (some e.cursor) max with
      | error detail => exact h
      | ok batch =>
          obtain ⟨hseq, hlog⟩ := h.batch hexport
          refine ⟨h.exact_, h.keys, h.length, h.rows, h.empty, h.fits, h.ack, ?_, ?_⟩
          · dsimp only
            rw [hseq]
            exact min_le_right _ _
          · dsimp only
            rw [h.received]
            exact hlog

theorem follows_run (acts : List Act) : (run acts).Follows := by
  have hfold : ∀ e : Exporter, e.Follows → (acts.foldl Exporter.step e).Follows := by
    induction acts with
    | nil => exact fun e h => h
    | cons act acts ih => exact fun e h => ih _ (h.step act)
  exact hfold start follows_start

/-- An acknowledgement that is accepted is accepted again, and the second writes nothing. -/
theorem Follows.ack_again (h : e.Follows) {given : ℕ}
    (hsome : (e.box.ackCore given).1.isSome) :
    (e.box.ackCore given).2.ackCore given = e.box.ackCore given := by
  rcases h.ack_cases given with ⟨-, heq⟩ | ⟨-, heq⟩ | ⟨-, -, heq⟩
  · rw [heq] at hsome
    exact absurd hsome (by simp)
  · rw [heq]
    exact heq
  · -- the mark it was advanced to is not below itself
    have hnext := (h.step (.ack given)).ack_cases given
    have hbox : (e.step (.ack given)).box = { e.box with ack := some given } := by
      rw [Exporter.step, heq]
    rw [hbox] at hnext
    rw [heq]
    rcases hnext with ⟨hlt, -⟩ | ⟨-, hnext⟩ | ⟨hlt, -⟩
    · have htail := (h.step (.ack given)).ack
      rw [hbox] at htail
      simp only [Option.getD_some] at htail
      exact absurd htail (not_le.2 hlt)
    · exact hnext
    · exact absurd hlt (lt_irrefl _)

/-- **An export is lossless or refuses**, in every state of every run: it refuses exactly a cursor
past the tail and one behind which a row was evicted, and returns the first rows behind any other,
as many as the limit allows; an acknowledgement is accepted up to the tail, and one that repeats or
goes back changes nothing; and a consumer that follows its cursor has received the log up to it,
each row once, and goes on by whole batches. -/
theorem export_lossless (acts : List Act) :
    (∀ after max, ((∃ detail, (run acts).box.exportCore after max = .error detail) ↔
        Outbox.maxSeq (run acts).box.rows < after.getD ((run acts).box.ack.getD 0) ∨
        ∃ row ∈ (run acts).log, row ∉ (run acts).box.rows ∧
          after.getD ((run acts).box.ack.getD 0) < row.seq) ∧
      ∀ batch, (run acts).box.exportCore after max = .ok batch →
        batch.events = (((run acts).box.rows.filter fun row =>
          after.getD ((run acts).box.ack.getD 0) < row.seq).take (rowLimit max)).map
            OutboxRow.entry ∧
        batch.cursor = (batch.events.getLast?.map OutboxEntry.seq).getD
          (after.getD ((run acts).box.ack.getD 0))) ∧
    (∀ given, ((run acts).box.ackCore given).1.isSome ↔
      given ≤ Outbox.maxSeq (run acts).box.rows) ∧
    (∀ given, given ≤ (run acts).box.ack.getD 0 →
      (run acts).box.ackCore given = (some ((run acts).box.ack.getD 0), (run acts).box)) ∧
    (∀ given, ((run acts).box.ackCore given).1.isSome →
      ((run acts).box.ackCore given).2.ackCore given = (run acts).box.ackCore given) ∧
    (run acts).received = ((run acts).log.take (run acts).cursor).map OutboxRow.entry ∧
    ∀ max batch, (run acts).box.exportCore (some (run acts).cursor) max = .ok batch →
      batch.cursor = min ((run acts).cursor + rowLimit max) (run acts).log.length := by
  have h := follows_run acts
  generalize run acts = e at h ⊢
  refine ⟨fun after max => ⟨?_, fun batch hok => ?_⟩, fun given => ?_, fun given hle => ?_,
    fun given hsome => ?_, h.received, fun max batch hok => ?_⟩
  · rw [← h.refused_iff]
    exact selectBatch_error
  · obtain ⟨-, -, hevents, hcursor⟩ := h.export_ok hok
    exact ⟨hevents, hcursor⟩
  · have hack := h.ack
    rw [h.tail]
    rcases h.ack_cases given with ⟨hlt, heq⟩ | ⟨hle, heq⟩ | ⟨-, hle, heq⟩
    · simp [heq, hlt]
    · simp [heq, hle.trans hack]
    · simp [heq, hle]
  · rcases h.ack_cases given with ⟨hlt, -⟩ | ⟨-, heq⟩ | ⟨hlt, -⟩
    · have hack := h.ack
      omega
    · exact heq
    · omega
  · exact h.ack_again hsome
  · rw [h.length]
    exact (h.batch hok).1

/-- **A limit of 0 asks for the default**: a row is returned, and not the first 0 rows. -/
theorem export_default_limit :
    ∃ batch, (run [.append "ab" 9]).box.exportCore (some 0) 0 = .ok batch ∧
      batch.events ≠ (((run [.append "ab" 9]).box.rows.filter fun row => 0 < row.seq).take 0).map
        OutboxRow.entry :=
  ⟨_, rfl, by decide +kernel⟩

end Exporter

end Hekma
