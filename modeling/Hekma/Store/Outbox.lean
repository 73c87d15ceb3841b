/-
**The outbox** (`store/run_store_sqlite.rs`, `domain/outbox.rs`).

The events of the engine wait for an exporter in a table under a size cap.  An append that would
exceed the cap first evicts rows from the front: what the exporter has acknowledged, and then the
oldest of the rest while there is no room, but never the newest row.  The size is kept as a running
total beside the table.

Main definitions:

* `Outbox`, `Outbox.appendOutbox`, `Outbox.setOutboxAck`, `Outbox.ackCore` — the code;
* `Outbox.Exact` — the total is the sum of the rows, and the sequence numbers are consecutive;
* `Outbox.Retention` — what an append may evict.

Main results:

* `scan_spec` — where the scan over the rows stops;
* `appendOutbox_retention` — what an append evicts, counts and adds;
* `outbox_exact` — every run keeps the table exact.
-/

import Mathlib.Tactic

set_option relaxedAutoImplicit false
set_option autoImplicit false

namespace Hekma

/-- A row of the outbox, with the recorded size of its event. -/
structure OutboxRow where
  seq : ℕ
  event : String
  bytes : ℕ
  deriving DecidableEq, Repr

/-- The outbox in the order of its key, the highest key it has ever given, and the single row
beside it. -/
structure Outbox where
  rows : List OutboxRow
  sequence : ℕ
  ack : Option ℕ
  totalBytes : ℕ
  deriving DecidableEq, Repr

/-- What an append answers. -/
structure OutboxAppend where
  seq : ℕ
  droppedAcked : ℕ
  droppedUnacked : ℕ
  deriving DecidableEq, Repr

/-- What the eviction scan carries from row to row. -/
structure EvictionScan where
  need : ℕ
  droppedAcked : ℕ
  droppedUnacked : ℕ
  through : Option ℕ
  deriving DecidableEq, Repr

/-- The largest value a column of the store holds. -/
def maxColumn : ℕ := 2 ^ 63 - 1

/-- A count as the store holds it. -/
def Outbox.clampTokens (value : ℕ) : ℕ := min value maxColumn

namespace Outbox

/-! ### The code -/

/-- The outbox of a new store. -/
def empty : Outbox := ⟨[], 0, none, 0⟩

/-- The recorded size of some rows. -/
def sizeOf (rows : List OutboxRow) : ℕ := (rows.map OutboxRow.bytes).sum

/-- The highest key of the table, 0 if it is empty. -/
def maxSeq (rows : List OutboxRow) : ℕ := (rows.map OutboxRow.seq).foldr max 0

/-- A row at or below the ack mark. -/
def isAcked (ack : Option ℕ) (row : OutboxRow) : Bool := ack.any fun mark => row.seq ≤ mark

/-- Go through the rows from the oldest on: acked ones always go, others while space is needed.
The scan stops at the first row it keeps. -/
def scan (ack : Option ℕ) : List OutboxRow → EvictionScan → EvictionScan
  | [], st => st
  | row :: rows, st =>
      if isAcked ack row then
        scan ack rows { st with
          droppedAcked := st.droppedAcked + 1
          need := st.need - row.bytes
          through := some row.seq }
      else if 0 < st.need then
        scan ack rows { st with
          droppedUnacked := st.droppedUnacked + 1
          need := st.need - row.bytes
          through := some row.seq }
      else st

/-- Delete the rows up to a key, and take their sizes off the running total. -/
def evictOutboxThrough (s : Outbox) (through : ℕ) : Outbox :=
  let freed := sizeOf (s.rows.filter fun row => row.seq ≤ through)
  { s with
    rows := s.rows.filter fun row => through < row.seq
    totalBytes := s.totalBytes - freed }

/-- Make room for an event, if there is none.  The newest row is not scanned. -/
def makeRoom (s : Outbox) (incoming cap : ℕ) : EvictionScan × Outbox :=
  if cap < s.totalBytes + incoming then
    let last := maxSeq s.rows
    let st := scan s.ack (s.rows.filter fun row => row.seq < last)
      ⟨s.totalBytes + incoming - cap, 0, 0, none⟩
    (st, st.through.elim s s.evictOutboxThrough)
  else (⟨0, 0, 0, none⟩, s)

/-- Append an event under a cap.  Its key is above every key of the table, and above every key the
table has ever given. -/
def appendOutbox (s : Outbox) (event : String) (cap : ℕ) : OutboxAppend × Outbox :=
  let incoming := event.utf8ByteSize
  let r := s.makeRoom incoming cap
  let seq := max r.2.sequence (maxSeq r.2.rows) + 1
  (⟨seq, r.1.droppedAcked, r.1.droppedUnacked⟩,
    { r.2 with
      rows := r.2.rows ++ [⟨seq, event, incoming⟩]
      sequence := seq
      totalBytes := r.2.totalBytes + incoming })

/-- Write the ack mark. -/
def setOutboxAck (s : Outbox) (seq : ℕ) : Outbox := { s with ack := some (clampTokens seq) }

/-- Advance the ack mark.  One past the tail is refused, and one that does not advance writes
nothing. -/
def ackCore (s : Outbox) (given : ℕ) : Option ℕ × Outbox :=
  let current := s.ack.getD 0
  let target := max current given
  if maxSeq s.rows < target then (none, s)
  else if current < target then (some target, s.setOutboxAck target)
  else (some target, s)

/-! ### What holds of the table -/

/-- The running total is the size of the rows, and the keys are consecutive up to the highest key
ever given. -/
structure Exact (s : Outbox) : Prop where
  total : s.totalBytes = sizeOf s.rows
  bytes : ∀ row ∈ s.rows, row.bytes = row.event.utf8ByteSize
  seqs : s.rows.map OutboxRow.seq = List.range' (s.sequence + 1 - s.rows.length) s.rows.length
  length_le : s.rows.length ≤ s.sequence

/-- What an append may evict: some rows from the front, and none if there is room.  All acked rows
but the newest go; an unacked row goes only while there is no room, and then it does go unless it
is the newest. -/
structure Retention (s : Outbox) (incoming cap evicted : ℕ) : Prop where
  room : s.totalBytes + incoming ≤ cap → evicted = 0
  newest : evicted = 0 ∨ evicted < s.rows.length
  acked : cap < s.totalBytes + incoming →
    ∀ row ∈ s.rows.dropLast.drop evicted, isAcked s.ack row = false
  needed : ∀ i (h : i < s.rows.length), i < evicted → isAcked s.ack s.rows[i] = false →
    cap < sizeOf (s.rows.drop i) + incoming
  enough : evicted + 1 < s.rows.length → sizeOf (s.rows.drop evicted) + incoming ≤ cap

variable {s : Outbox} {ack : Option ℕ} {rows : List OutboxRow}

@[simp] theorem sizeOf_nil : sizeOf [] = 0 := rfl

@[simp] theorem sizeOf_cons (row : OutboxRow) (rows : List OutboxRow) :
    sizeOf (row :: rows) = row.bytes + sizeOf rows := rfl

@[simp] theorem sizeOf_append (rows rows' : List OutboxRow) :
    sizeOf (rows ++ rows') = sizeOf rows + sizeOf rows' := by
  simp [sizeOf]

theorem sizeOf_take_add_drop (rows : List OutboxRow) (k : ℕ) :
    sizeOf (rows.take k) + sizeOf (rows.drop k) = sizeOf rows := by
  rw [← sizeOf_append, List.take_append_drop]

/-! ### The scan -/

/-- How far a scan got, and what it found on the way. -/
structure ScanStops (ack : Option ℕ) (rows : List OutboxRow) (st st' : EvictionScan) (k : ℕ) :
    Prop where
  le : k ≤ rows.length
  droppedAcked : st'.droppedAcked = st.droppedAcked + (rows.take k).countP (isAcked ack)
  droppedUnacked :
    st'.droppedUnacked = st.droppedUnacked + (rows.take k).countP fun row => !isAcked ack row
  through : st'.through = ((rows.take k).getLast?.map OutboxRow.seq).or st.through
  needed : ∀ i (h : i < rows.length), i < k → isAcked ack rows[i] = false →
    sizeOf (rows.take i) < st.need
  stopped : ∀ h : k < rows.length,
    isAcked ack rows[k] = false ∧ st.need ≤ sizeOf (rows.take k)

/-- A row that the scan takes is one more in front. -/
theorem ScanStops.cons {row : OutboxRow} {st st' : EvictionScan} {k : ℕ}
    {droppedAcked droppedUnacked : ℕ}
    (h : ScanStops ack rows
      ⟨st.need - row.bytes, droppedAcked, droppedUnacked, some row.seq⟩ st' k)
    (hacked : droppedAcked = st.droppedAcked + if isAcked ack row then 1 else 0)
    (hunacked : droppedUnacked = st.droppedUnacked + if !isAcked ack row then 1 else 0)
    (hneed : isAcked ack row = false → 0 < st.need) :
    ScanStops ack (row :: rows) st st' (k + 1) where
  le := by
    have hle := h.le
    rw [List.length_cons]
    omega
  droppedAcked := by
    have hrest : st'.droppedAcked = droppedAcked + (rows.take k).countP (isAcked ack) :=
      h.droppedAcked
    rw [hrest, hacked, List.take_succ_cons, List.countP_cons]
    omega
  droppedUnacked := by
    have hrest : st'.droppedUnacked =
        droppedUnacked + (rows.take k).countP fun row => !isAcked ack row := h.droppedUnacked
    rw [hrest, hunacked, List.take_succ_cons, List.countP_cons]
    omega
  through := by
    rw [h.through, List.take_succ_cons, List.getLast?_cons]
    cases (rows.take k).getLast? <;> simp
  needed := by
    intro i hi hik hrow
    cases i with
    | zero => exact hneed hrow
    | succ i =>
        have hi' : i < rows.length := by simpa using hi
        have hlt : sizeOf (rows.take i) < st.need - row.bytes := h.needed i hi' (by omega) hrow
        rw [List.take_succ_cons, sizeOf_cons]
        omega
  stopped := by
    intro hk
    have hk' : k < rows.length := by simpa using hk
    obtain ⟨hrow, hle⟩ := h.stopped hk'
    refine ⟨hrow, ?_⟩
    rw [List.take_succ_cons, sizeOf_cons]
    have hle' : st.need - row.bytes ≤ sizeOf (rows.take k) := hle
    omega

/-- **Where the scan stops**: at a row that is not acked when no more space is needed, or at the
end. -/
theorem scan_spec (ack : Option ℕ) (rows : List OutboxRow) (st : EvictionScan) :
    ∃ k, ScanStops ack rows st (scan ack rows st) k := by
  induction rows generalizing st with
  | nil =>
      refine ⟨0, ?_⟩
      constructor <;> simp [scan]
  | cons row rows ih =>
      unfold scan
      split
      · rename_i hacked
        obtain ⟨k, hk⟩ := ih { st with
          droppedAcked := st.droppedAcked + 1
          need := st.need - row.bytes
          through := some row.seq }
        exact ⟨k + 1, hk.cons (by simp [hacked]) (by simp [hacked]) (by simp [hacked])⟩
      · rename_i hacked
        rw [Bool.not_eq_true] at hacked
        split
        · rename_i hneed
          obtain ⟨k, hk⟩ := ih { st with
            droppedUnacked := st.droppedUnacked + 1
            need := st.need - row.bytes
            through := some row.seq }
          exact ⟨k + 1, hk.cons (by simp [hacked]) (by simp [hacked]) fun _ => hneed⟩
        · rename_i hneed
          refine ⟨0, ?_⟩
          constructor <;> simp_all

/-! ### Consecutive keys -/

/-- The `i`-th of consecutive keys. -/
theorem seq_of_range {first i : ℕ}
    (h : rows.map OutboxRow.seq = List.range' first rows.length) (hi : i < rows.length) :
    rows[i].seq = first + i := by
  have hget : (rows.map OutboxRow.seq)[i]? = some (first + i) := by
    rw [h, List.getElem?_range' hi, Nat.one_mul]
  simpa [hi] using hget

/-- Consecutive keys go on behind a front part. -/
theorem range_drop {first : ℕ} (h : rows.map OutboxRow.seq = List.range' first rows.length)
    (k : ℕ) :
    (rows.drop k).map OutboxRow.seq = List.range' (first + k) (rows.drop k).length := by
  rw [List.map_drop, h, List.drop_range', List.length_drop]
  simp

/-- Of consecutive keys, those up to the last of a front part are its own. -/
theorem filter_of_range {first k : ℕ}
    (h : rows.map OutboxRow.seq = List.range' first rows.length) (hk : k ≤ rows.length) :
    (rows.filter fun row => row.seq < first + k) = rows.take k ∧
      (rows.filter fun row => first + k ≤ row.seq) = rows.drop k := by
  have htake : ∀ row ∈ rows.take k, row.seq < first + k := by
    intro row hrow
    obtain ⟨i, hi, rfl⟩ := List.mem_take_iff_getElem.1 hrow
    rw [seq_of_range h (by omega)]
    omega
  have hdrop : ∀ row ∈ rows.drop k, first + k ≤ row.seq := by
    intro row hrow
    obtain ⟨i, hi, rfl⟩ := List.mem_drop_iff_getElem.1 hrow
    rw [seq_of_range h (by omega)]
    omega
  have hsplit : ∀ p : OutboxRow → Bool, rows.filter p =
      (rows.take k).filter p ++ (rows.drop k).filter p := by
    intro p
    rw [← List.filter_append, List.take_append_drop]
  constructor
  · rw [hsplit, List.filter_eq_self.2 (by simpa using htake),
      List.filter_eq_nil_iff.2 (by simpa using hdrop), List.append_nil]
  · rw [hsplit, List.filter_eq_nil_iff.2 (by simpa using htake),
      List.filter_eq_self.2 (by simpa using hdrop), List.nil_append]

theorem foldr_max_range (first n : ℕ) :
    (List.range' first (n + 1)).foldr max 0 = first + n := by
  induction n generalizing first with
  | zero => simp
  | succ n ih =>
      rw [List.range'_succ, List.foldr_cons, ih]
      omega

/-- The highest of consecutive keys. -/
theorem maxSeq_of_range {first : ℕ}
    (h : rows.map OutboxRow.seq = List.range' first rows.length) (hrows : rows ≠ []) :
    maxSeq rows + 1 = first + rows.length := by
  obtain ⟨n, hn⟩ := Nat.exists_eq_succ_of_ne_zero (List.length_pos_iff.2 hrows).ne'
  rw [maxSeq, h, hn, foldr_max_range]
  omega

/-! ### What an append does -/

/-- In an exact table the keys end at the highest one ever given. -/
theorem Exact.maxSeq (h : s.Exact) : max s.sequence (maxSeq s.rows) = s.sequence := by
  have hle := h.length_le
  rcases List.eq_nil_or_concat s.rows with hnil | ⟨init, last, hrows⟩
  · rw [hnil]
    simp [Outbox.maxSeq]
  · have hmax := maxSeq_of_range h.seqs (by rw [hrows]; simp)
    omega

/-- The scan leaves the newest row out. -/
theorem Exact.scanned (h : s.Exact) :
    (s.rows.filter fun row => row.seq < Outbox.maxSeq s.rows) = s.rows.dropLast := by
  rcases List.eq_nil_or_concat s.rows with hnil | ⟨init, last, hrows⟩
  · simp [hnil]
  · have hne : s.rows ≠ [] := by
      rw [hrows]
      simp
    have hlength := List.length_pos_iff.2 hne
    have hmax := maxSeq_of_range h.seqs hne
    have hfilter := (filter_of_range h.seqs (k := s.rows.length - 1) (by omega)).1
    rw [List.dropLast_eq_take, ← hfilter]
    refine List.filter_congr fun row _ => ?_
    rw [show Outbox.maxSeq s.rows = s.sequence + 1 - s.rows.length + (s.rows.length - 1) by omega]

/-- The ack mark is a bound on the keys. -/
theorem isAcked_of_le {row row' : OutboxRow} (hle : row.seq ≤ row'.seq)
    (h : isAcked ack row = false) : isAcked ack row' = false := by
  cases ack with
  | none => rfl
  | some mark =>
      have hlt : mark < row.seq := by simpa [isAcked] using h
      simp only [isAcked, Option.any_some, decide_eq_false_iff_not, not_le]
      omega

/-- Where the scan has stopped, the retention rules are met. -/
theorem Exact.retention {incoming cap k : ℕ} {st : EvictionScan} (h : s.Exact)
    (hcap : cap < s.totalBytes + incoming)
    (hk : ScanStops s.ack s.rows.dropLast ⟨s.totalBytes + incoming - cap, 0, 0, none⟩ st k) :
    s.Retention incoming cap k := by
  have hlength : s.rows.dropLast.length = s.rows.length - 1 := List.length_dropLast
  have hle := hk.le
  have htake : ∀ i, i ≤ k → s.rows.dropLast.take i = s.rows.take i := by
    intro i hi
    rw [List.dropLast_eq_take, List.take_take, min_eq_left (by omega)]
  have hsize := sizeOf_take_add_drop s.rows
  have htotal := h.total
  constructor
  · intro hroom
    omega
  · omega
  · -- the keys grow, so behind the first row that is not acked none is
    intro _ row hrow
    obtain ⟨i, hi, rfl⟩ := List.mem_drop_iff_getElem.1 hrow
    have hlt : k < s.rows.dropLast.length := by omega
    refine isAcked_of_le ?_ (hk.stopped hlt).1
    rw [List.getElem_dropLast, List.getElem_dropLast, seq_of_range h.seqs, seq_of_range h.seqs]
    omega
  · intro i hi hik hrow
    have hi' : i < s.rows.dropLast.length := by omega
    have hneed := hk.needed i hi' hik (by rwa [List.getElem_dropLast])
    rw [htake i (by omega)] at hneed
    have hsplit := hsize i
    simp only at hneed
    omega
  · intro hlt
    have hstop := (hk.stopped (by omega)).2
    rw [htake k le_rfl] at hstop
    have hsplit := hsize k
    simp only at hstop
    omega

/-- Evicting through the key of a front part leaves what is behind it. -/
theorem Exact.evict {k : ℕ} (h : s.Exact) (hk : k < s.rows.length) :
    s.evictOutboxThrough (s.rows[k].seq) =
      { s with rows := s.rows.drop (k + 1), totalBytes := sizeOf (s.rows.drop (k + 1)) } := by
  obtain ⟨htake, hdrop⟩ := filter_of_range h.seqs (k := k + 1) (by omega)
  have hfreed : (s.rows.filter fun row => row.seq ≤ s.rows[k].seq) = s.rows.take (k + 1) := by
    rw [← htake, seq_of_range h.seqs hk]
    refine List.filter_congr fun row _ => ?_
    simp only [decide_eq_decide]
    omega
  have hkept : (s.rows.filter fun row => s.rows[k].seq < row.seq) = s.rows.drop (k + 1) := by
    rw [← hdrop, seq_of_range h.seqs hk]
    refine List.filter_congr fun row _ => ?_
    simp only [decide_eq_decide]
    omega
  have hsize := sizeOf_take_add_drop s.rows (k + 1)
  unfold evictOutboxThrough
  dsimp only
  rw [hfreed, hkept, h.total]
  congr 1
  omega

/-- **What making room evicts.** -/
theorem Exact.makeRoom (h : s.Exact) (incoming cap : ℕ) :
    ∃ k, s.Retention incoming cap k ∧
      (s.makeRoom incoming cap).1.droppedAcked = (s.rows.take k).countP (isAcked s.ack) ∧
      (s.makeRoom incoming cap).1.droppedUnacked =
        (s.rows.take k).countP (fun row => !isAcked s.ack row) ∧
      (s.makeRoom incoming cap).2 =
        { s with rows := s.rows.drop k, totalBytes := sizeOf (s.rows.drop k) } := by
  have hkeep : ({ s with rows := s.rows.drop 0, totalBytes := sizeOf (s.rows.drop 0) } : Outbox) =
      s := by
    rw [List.drop_zero, ← h.total]
  by_cases hcap : cap < s.totalBytes + incoming
  · obtain ⟨k, hk⟩ := scan_spec s.ack s.rows.dropLast ⟨s.totalBytes + incoming - cap, 0, 0, none⟩
    have hle : k ≤ s.rows.length - 1 := by simpa using hk.le
    -- the newest row is not scanned, so the rows that go are the first of the table
    have htake : s.rows.dropLast.take k = s.rows.take k := by
      rw [List.dropLast_eq_take, List.take_take, min_eq_left hle]
    have hacked := hk.droppedAcked
    have hunacked := hk.droppedUnacked
    have hthrough := hk.through
    rw [htake] at hacked hunacked hthrough
    refine ⟨k, h.retention hcap hk, ?_⟩
    unfold Outbox.makeRoom
    rw [if_pos hcap]
    dsimp only
    rw [h.scanned]
    refine ⟨by simpa using hacked, by simpa using hunacked, ?_⟩
    rw [hthrough]
    cases k with
    | zero => simpa using hkeep.symm
    | succ k =>
        have hlast : (s.rows.take (k + 1)).getLast? = some s.rows[k] := by
          rw [List.take_add_one, List.getElem?_eq_getElem (by omega), Option.toList_some,
            List.getLast?_concat]
        rw [hlast]
        exact h.evict (by omega)
  · refine ⟨0, ⟨fun _ => rfl, .inl rfl, fun hover => absurd hover hcap, ?_, ?_⟩, ?_⟩
    · intro i _ hi
      omega
    · intro _
      rw [List.drop_zero, ← h.total]
      omega
    · unfold Outbox.makeRoom
      rw [if_neg hcap]
      exact ⟨rfl, rfl, hkeep.symm⟩

/-- What is left of an exact table is exact. -/
theorem Exact.drop {k : ℕ} (h : s.Exact) (hk : k ≤ s.rows.length) :
    Exact { s with rows := s.rows.drop k, totalBytes := sizeOf (s.rows.drop k) } where
  total := rfl
  bytes := fun row hrow => h.bytes row (List.mem_of_mem_drop hrow)
  seqs := by
    have hle := h.length_le
    have hrange := range_drop h.seqs k
    rw [hrange]
    dsimp only
    rw [List.length_drop]
    congr 1
    omega
  length_le := by
    have hle := h.length_le
    dsimp only
    rw [List.length_drop]
    omega

/-- An exact table with the next row is exact. -/
theorem Exact.push (h : s.Exact) (event : String) :
    Exact
      { rows := s.rows ++ [⟨s.sequence + 1, event, event.utf8ByteSize⟩]
        sequence := s.sequence + 1
        ack := s.ack
        totalBytes := sizeOf s.rows + event.utf8ByteSize } where
  total := by simp
  bytes := by
    intro row hrow
    rcases List.mem_append.1 hrow with hrow | hrow
    · exact h.bytes row hrow
    · rw [List.mem_singleton.1 hrow]
  seqs := by
    have hle := h.length_le
    dsimp only
    rw [List.map_append, h.seqs, List.length_append, List.length_singleton, List.range'_concat]
    congr 1
    · congr 1
      omega
    · simp only [List.map_cons, List.map_nil, List.cons.injEq, and_true]
      omega
  length_le := by
    have hle := h.length_le
    simp
    omega

/-- **An append is exact**: it answers the next key and the numbers of the acked and the unacked
rows it evicts, and it changes nothing else. -/
theorem Exact.appendOutbox (h : s.Exact) (event : String) (cap : ℕ) :
    ∃ k, s.Retention event.utf8ByteSize cap k ∧
      s.appendOutbox event cap =
        (⟨s.sequence + 1, (s.rows.take k).countP (isAcked s.ack),
            (s.rows.take k).countP fun row => !isAcked s.ack row⟩,
          { rows := s.rows.drop k ++ [⟨s.sequence + 1, event, event.utf8ByteSize⟩]
            sequence := s.sequence + 1
            ack := s.ack
            totalBytes := sizeOf (s.rows.drop k) + event.utf8ByteSize }) := by
  obtain ⟨k, hret, hacked, hunacked, hrest⟩ := h.makeRoom event.utf8ByteSize cap
  have hk : k ≤ s.rows.length := by
    have hnewest := hret.newest
    omega
  have hmax := (h.drop hk).maxSeq
  refine ⟨k, hret, ?_⟩
  unfold Outbox.appendOutbox
  dsimp only at hmax ⊢
  rw [hacked, hunacked, hrest]
  dsimp only
  rw [hmax]

/-! ### Runs -/

/-- An operation on the outbox. -/
inductive Op where
  | append (event : String) (cap : ℕ)
  | setAck (seq : ℕ)
  | ack (given : ℕ)
  deriving DecidableEq, Repr

/-- The outbox after an operation. -/
def step (s : Outbox) : Op → Outbox
  | .append event cap => (s.appendOutbox event cap).2
  | .setAck seq => s.setOutboxAck seq
  | .ack given => (s.ackCore given).2

/-- The outbox after a run from a new store. -/
def run (ops : List Op) : Outbox := ops.foldl step empty

/-- The keys a run has answered to its appends, in order. -/
def answered (s : Outbox) : List Op → List ℕ
  | [] => []
  | .append event cap :: ops =>
      (s.appendOutbox event cap).1.seq :: answered (s.step (.append event cap)) ops
  | op :: ops => answered (s.step op) ops

theorem exact_empty : empty.Exact where
  total := rfl
  bytes := by simp [empty]
  seqs := rfl
  length_le := le_rfl

/-- An acknowledgement changes only the ack mark. -/
theorem ackCore_frame (s : Outbox) (given : ℕ) : ∃ ack, (s.ackCore given).2 = { s with ack := ack } := by
  unfold ackCore
  dsimp only
  split
  · exact ⟨s.ack, rfl⟩
  split
  · exact ⟨_, rfl⟩
  · exact ⟨s.ack, rfl⟩

theorem Exact.withAck (h : s.Exact) (ack : Option ℕ) : Exact { s with ack := ack } :=
  ⟨h.total, h.bytes, h.seqs, h.length_le⟩

theorem Exact.step (h : s.Exact) (op : Op) : (s.step op).Exact := by
  cases op with
  | append event cap =>
      obtain ⟨k, hret, heq⟩ := h.appendOutbox event cap
      have hk : k ≤ s.rows.length := by
        have hnewest := hret.newest
        omega
      rw [Outbox.step, heq]
      exact (h.drop hk).push event
  | setAck seq => exact h.withAck _
  | ack given =>
      obtain ⟨ack, heq⟩ := ackCore_frame s given
      rw [Outbox.step, heq]
      exact h.withAck ack

theorem Exact.foldl (h : s.Exact) (ops : List Op) : (ops.foldl Outbox.step s).Exact := by
  induction ops generalizing s with
  | nil => exact h
  | cons op ops ih => exact ih (h.step op)

/-- The answered keys count up from the highest key ever given. -/
theorem Exact.answered (h : s.Exact) (ops : List Op) :
    s.answered ops = List.range' (s.sequence + 1) (s.answered ops).length := by
  induction ops generalizing s with
  | nil => rfl
  | cons op ops ih =>
      have hrest := ih (h.step op)
      cases op with
      | append event cap =>
          obtain ⟨k, -, heq⟩ := h.appendOutbox event cap
          have hseq : (s.step (.append event cap)).sequence = s.sequence + 1 := by
            rw [Outbox.step, heq]
          rw [hseq] at hrest
          rw [Outbox.answered, List.length_cons, List.range'_succ, ← hrest, heq]
      | setAck seq => exact hrest
      | ack given =>
          obtain ⟨ack, heq⟩ := ackCore_frame s given
          have hseq : (s.step (.ack given)).sequence = s.sequence := by
            rw [Outbox.step, heq]
          rw [hseq] at hrest
          exact hrest

/-- **The retention of the outbox is exact** after every run: the total is the sum of the rows, the
keys are consecutive and count up without reuse, an acknowledgement changes its mark only, and an
append evicts what the retention rules say, counts it, and adds its own row. -/
theorem outbox_exact (ops : List Op) :
    (run ops).Exact ∧ empty.answered ops = List.range' 1 (empty.answered ops).length ∧
      (∀ seq, (run ops).setOutboxAck seq = { run ops with ack := some (clampTokens seq) }) ∧
      (∀ given, ∃ ack, ((run ops).ackCore given).2 = { run ops with ack := ack }) ∧
      ∀ event cap, ∃ k, (run ops).Retention event.utf8ByteSize cap k ∧
        (run ops).appendOutbox event cap =
          (⟨(run ops).sequence + 1, ((run ops).rows.take k).countP (isAcked (run ops).ack),
              ((run ops).rows.take k).countP fun row => !isAcked (run ops).ack row⟩,
            { rows := (run ops).rows.drop k ++
                [⟨(run ops).sequence + 1, event, event.utf8ByteSize⟩]
              sequence := (run ops).sequence + 1
              ack := (run ops).ack
              totalBytes := sizeOf ((run ops).rows.drop k) + event.utf8ByteSize }) := by
  have hexact : (run ops).Exact := exact_empty.foldl ops
  refine ⟨hexact, exact_empty.answered ops, fun _ => rfl, ackCore_frame _, fun event cap => ?_⟩
  exact hexact.appendOutbox event cap

-- A row larger than the cap evicts everything but the newest row.
example : ((run [.append "ab" 9, .append "cd" 9, .append "ef" 9]).appendOutbox "ghijk" 3).1 =
    ⟨4, 0, 2⟩ := by decide +kernel

end Outbox

end Hekma
