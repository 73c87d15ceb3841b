/-
**The two capture modes** (`ports/process_backend.rs`).

In both modes a pass of the tailer consumes the same lines.  The full capture decodes the window and
splits the text.  The metadata capture splits the bytes and drops the empty slices, of which the one
behind the last newline is no line, and every other is a blank line that the full capture records.

Main definitions:

* `Env.utf8` — an instance whose bytes are decoded as UTF-8;
* `consumed`, `rawLines` — what a pass consumes, and its lines without their terminators;
* `Describes` — the metadata capture records the facts of each line the full capture records.

Main results:

* `lines_fromUtf8Lossy` — the lines of the decoded text are those of the bytes;
* `describes_iff` — **the metadata capture is complete** exactly if no line is blank.
-/

import Hekma.Capture.Tailer
import Hekma.Lib.Text
import Hekma.Lib.Utf8

set_option relaxedAutoImplicit false
set_option autoImplicit false

namespace Hekma

namespace Capture

open Utf8 (fromUtf8Lossy)

/-! ### Lines of bytes and of text -/

variable {line window : List UInt8}

theorem newline_notMem_fromUtf8Lossy (h : newline ∉ line) : '\n' ∉ fromUtf8Lossy line := by
  intro hmem
  obtain ⟨b, hb, heq⟩ := Utf8.mem_fromUtf8Lossy_ascii (by decide) (by decide) hmem
  obtain rfl : b = newline := UInt8.toNat_inj.1 heq
  exact h hb

/-- A text ends with a carriage return only if its bytes do. -/
theorem getLast_fromUtf8Lossy (h : (fromUtf8Lossy line).getLast? = some '\r') :
    line.getLast? = some 13 := by
  obtain ⟨b, hb, heq⟩ :=
    Utf8.mem_fromUtf8Lossy_ascii (by decide) (by decide) (List.mem_of_getLast? h)
  obtain rfl : b = 13 := UInt8.toNat_inj.1 heq
  -- the last carriage return of the bytes, and what stands behind it
  obtain ⟨after, before, hsplit, hnone⟩ := List.eq_append_cons_of_mem (List.mem_reverse.2 hb)
  have hline : line = before.reverse ++ 13 :: after.reverse := by
    rw [← List.reverse_reverse line, hsplit, List.reverse_append, List.reverse_cons,
      List.append_assoc, List.singleton_append]
  have hascii : (13 : UInt8) < 0x80 := by decide
  rw [hline, Utf8.fromUtf8Lossy_append_ascii hascii] at h
  cases hafter : after.reverse with
  | nil => rw [hline, hafter, List.getLast?_concat]
  | cons b rest =>
      exfalso
      have hlast : (fromUtf8Lossy after.reverse).getLast? = some '\r' := by
        rw [hafter] at h ⊢
        rw [List.getLast?_append_cons, List.getLast?_cons_of_ne_nil] at h
        · exact h
        · simp [fromUtf8Lossy, Utf8.decodeFrom]
      obtain ⟨c, hc, hcr⟩ :=
        Utf8.mem_fromUtf8Lossy_ascii (by decide) (by decide) (List.mem_of_getLast? hlast)
      obtain rfl : c = 13 := UInt8.toNat_inj.1 hcr
      exact hnone (List.mem_reverse.1 hc)

/-- The carriage return of a decoded line is that of its bytes. -/
theorem stripEnding_fromUtf8Lossy (line : List UInt8) :
    Text.stripEnding (fromUtf8Lossy line ++ ['\n']) = fromUtf8Lossy (stripCr line) := by
  have hascii : (13 : UInt8) < 0x80 := by decide
  rw [Text.stripEnding, Text.stripSuffix, if_pos List.getLast?_concat, List.dropLast_concat]
  dsimp only
  rw [Text.stripSuffix, stripCr]
  by_cases hlast : line.getLast? = some 13
  · obtain ⟨rest, rfl⟩ := List.getLast?_eq_some_iff.1 hlast
    rw [if_pos hlast, List.dropLast_concat, Utf8.fromUtf8Lossy_append_ascii hascii]
    have hcr : Char.ofNat (13 : UInt8).toNat :: fromUtf8Lossy [] = ['\r'] := rfl
    rw [hcr, if_pos List.getLast?_concat, List.dropLast_concat]
  · rw [if_neg hlast, if_neg fun h => hlast (getLast_fromUtf8Lossy h)]

/-- **The lines of the decoded text** are those of the bytes. -/
theorem lines_fromUtf8Lossy (h : Lines.Closed newline window) :
    Text.lines (fromUtf8Lossy window) =
      ((Lines.complete newline window).map stripCr).map fromUtf8Lossy := by
  have hascii : newline < 0x80 := by decide
  have hnone : ∀ line ∈ Lines.complete newline window, newline ∉ line :=
    fun line hline => Lines.notMem_of_mem_complete hline
  have hwindow := Lines.terminated_complete h
  generalize Lines.complete newline window = lines at hnone hwindow
  subst hwindow
  clear h
  induction lines with
  | nil => rfl
  | cons line lines ih =>
      have hline := newline_notMem_fromUtf8Lossy (hnone line List.mem_cons_self)
      have hchar : Char.ofNat newline.toNat = '\n' := rfl
      rw [Lines.terminated, List.flatMap_cons, ← Lines.terminated, List.append_assoc,
        List.singleton_append, Utf8.fromUtf8Lossy_append_ascii hascii, hchar,
        Text.lines_append_newline, Text.lines_line_newline hline, stripEnding_fromUtf8Lossy,
        ih fun other hother => hnone other (List.mem_cons_of_mem line hother)]
      rfl

/-! ### The two modes -/

/-- An instance whose bytes are decoded as UTF-8. -/
def Env.utf8 (instanceName : InstanceName) (sha256 : List UInt8 → String)
    (toJson : LogRecord → List UInt8) : Env :=
  ⟨instanceName, fun bytes => String.ofList (Utf8.fromUtf8Lossy bytes), sha256, toJson⟩

/-- What one pass may read. -/
def passWindow (raw : List UInt8) (cursor : ℕ) : List UInt8 :=
  (raw.drop cursor).take maxTailBytesPerPass

/-- What a pass consumes. -/
def consumed (raw : List UInt8) (cursor : ℕ) : List UInt8 :=
  (passWindow raw cursor).take
    (Lines.bounded newline maxTailLinesPerPass (passWindow raw cursor))

/-- The lines a pass consumes, without their terminators. -/
def rawLines (raw : List UInt8) (cursor : ℕ) : List (List UInt8) :=
  (Lines.complete newline (consumed raw cursor)).map stripCr

/-- The two modes advance the cursor alike, and for each line the full capture records the metadata
capture records its facts. -/
structure Describes (env : Env) (log : RawLog) (at_ : Timestamp) (raw : List UInt8) (cursor : ℕ)
    (out : AttributedLog LogRecord) : Prop where
  advance : (tailNewLines env .metadata log at_ raw cursor out).1 =
    (tailNewLines env .full log at_ raw cursor out).1
  full : (tailNewLines env .full log at_ raw cursor out).2.all =
    out.all ++ (rawLines raw cursor).map fun line =>
      .line (LogLine.new env.instanceName log.stream (env.fromUtf8Lossy line) at_)
  facts : (tailNewLines env .metadata log at_ raw cursor out).2.all =
    out.all ++ (rawLines raw cursor).map (metadataRecord env log.stream at_)

variable {env : Env} {mode : LogCaptureMode} {log : RawLog} {at_ : Timestamp}
  {raw : List UInt8} {cursor : ℕ} {out : AttributedLog LogRecord}

theorem closed_consumed (raw : List UInt8) (cursor : ℕ) :
    Lines.Closed newline (consumed raw cursor) := (Lines.complete_bounded newline _ _).1

theorem complete_consumed (raw : List UInt8) (cursor : ℕ) :
    Lines.complete newline (consumed raw cursor) =
      (Lines.complete newline (passWindow raw cursor)).take maxTailLinesPerPass :=
  (Lines.complete_bounded newline _ _).2

theorem tailNewLines_mode (mode : LogCaptureMode) :
    (tailNewLines env mode log at_ raw cursor out).1 =
      (tailNewLines env .full log at_ raw cursor out).1 := by
  unfold tailNewLines
  dsimp only
  split
  · rfl
  · split <;> rfl

/-- What a pass appends. -/
theorem tailNewLines_all (mode : LogCaptureMode) :
    (tailNewLines env mode log at_ raw cursor out).2.all =
      out.all ++ records env mode log at_ (consumed raw cursor) := by
  have hnil : records env mode log at_ [] = [] := by cases mode <;> rfl
  unfold tailNewLines
  by_cases hle : raw.length ≤ cursor
  · have hnone : consumed raw cursor = [] := by
      rw [consumed, passWindow, List.drop_eq_nil_of_le hle, List.take_nil, List.take_nil]
    rw [if_pos hle, hnone, hnil, List.append_nil]
  · have hwindow : (raw.drop cursor).take (min (raw.length - cursor) maxTailBytesPerPass) =
        passWindow raw cursor := by
      rw [passWindow, Nat.min_comm, ← List.take_take, ← List.length_drop, List.take_length]
    dsimp only
    rw [if_neg hle, hwindow]
    split
    · rename_i hzero
      rw [consumed, hzero, List.take_zero, hnil, List.append_nil]
    · rw [appendRecords, AttributedLog.all_append]
      rfl

/-- The facts that the metadata capture records: those of the lines that are not blank. -/
theorem records_metadata (h : Lines.Closed newline window) :
    records env .metadata log at_ window =
      (((Lines.complete newline window).filter fun line => !line.isEmpty).map stripCr).map
        (metadataRecord env log.stream at_) := by
  rw [records, splitNewlines, rest_of_closed h, List.filter_append, List.map_map]
  exact congrArg (List.map _) (List.append_nil _)

/-- **The metadata capture is complete** exactly if no line the pass consumes is blank. -/
theorem describes_iff (instanceName : InstanceName) (sha256 : List UInt8 → String)
    (toJson : LogRecord → List UInt8) (log : RawLog) (at_ : Timestamp) (raw : List UInt8)
    (cursor : ℕ) (out : AttributedLog LogRecord) :
    Describes (Env.utf8 instanceName sha256 toJson) log at_ raw cursor out ↔
      [] ∉ (Lines.complete newline (passWindow raw cursor)).take maxTailLinesPerPass := by
  have hclosed := closed_consumed raw cursor
  rw [← complete_consumed]
  constructor
  · intro h hmem
    have hfacts := h.facts
    rw [tailNewLines_all, records_metadata hclosed] at hfacts
    have hlen := congrArg List.length (List.append_cancel_left hfacts)
    rw [List.length_map, List.length_map, List.length_map, rawLines, List.length_map] at hlen
    have hall := List.length_filter_eq_length_iff.1 hlen [] hmem
    exact absurd hall (by decide)
  · intro hnone
    refine ⟨tailNewLines_mode .metadata, ?_, ?_⟩
    · rw [tailNewLines_all, records, textLines_of_closed hclosed]
      rfl
    · have hall : (Lines.complete newline (consumed raw cursor)).filter
          (fun line => !line.isEmpty) = Lines.complete newline (consumed raw cursor) := by
        refine List.filter_eq_self.2 fun line hline => ?_
        cases line with
        | nil => exact absurd hline hnone
        | cons b line => rfl
      rw [tailNewLines_all, records_metadata hclosed, hall]
      rfl

/-- A blank line has a record in the full capture only. -/
theorem blank_not_described :
    ¬ Describes (Env.utf8 "a" (fun _ => "") fun _ => []) .stdout "" [newline] 0
      AttributedLog.empty := by
  intro h
  have hfacts := h.facts
  have hpass : (tailNewLines (Env.utf8 "a" (fun _ => "") fun _ => []) .metadata .stdout ""
      [newline] 0 AttributedLog.empty).2.all = [] := rfl
  have hlines : rawLines [newline] 0 = [[]] := rfl
  rw [hpass, hlines] at hfacts
  exact absurd hfacts (by simp)

end Capture

end Hekma
