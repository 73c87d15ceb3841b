/-
**Where a follow begins** (`domain/supervisor/interaction.rs`).

A follow of the raw log begins with its last complete lines.  Their position is found by reading the
file twice in chunks: the first pass counts the newlines, the second walks to the one in front of
the window.  The same in one step over the whole content is the reference the tests compare with.

Main definitions:

* `primeBacklogLinesChunked` — the two passes over the file;
* `primeBacklogWindow` — the reference;
* `Opened` — the file as the two passes find it.

Main results:

* `locate_eq_scan` — the chunks of the second pass do not matter;
* `primeBacklogWindow_eq` — where the reference puts the cursor;
* `prime_exact` — **the passes agree with the reference**, and what both find.
-/

import Hekma.Capture.AttributedLog
import Hekma.Lib.Chunks

set_option relaxedAutoImplicit false
set_option autoImplicit false

namespace Hekma

namespace Capture

/-! ### The two passes -/

/-- The file as it is opened: the reads of the two passes, and the rewind between them. -/
inductive Opened (content : List UInt8) (capacity : ℕ) where
  | notFound
  | failed (error : String)
  | file (first : Chunks.Reads String content capacity) (rewind : Option String)
      (second : Chunks.Reads String content capacity)

/-- The first pass: the newlines of the chunks. -/
def countNewlines (total : ℕ) : List (List UInt8) → ℕ
  | [] => total
  | chunk :: chunks => countNewlines (total + chunk.count newline) chunks

/-- One chunk of the second pass: the position behind the newline looked for, or how many newlines
are still to come. -/
def scanChunk (position remaining : ℕ) : List UInt8 → ℕ ⊕ ℕ
  | [] => .inr remaining
  | b :: bytes =>
      if b = newline then
        if remaining - 1 = 0 then .inl (position + 1)
        else scanChunk (position + 1) (remaining - 1) bytes
      else scanChunk (position + 1) remaining bytes

/-- The second pass: the position looked for, or where the chunks end. -/
def locate (base remaining : ℕ) : List (List UInt8) → ℕ ⊕ ℕ
  | [] => .inr base
  | chunk :: chunks =>
      match scanChunk base remaining chunk with
      | .inl cursor => .inl cursor
      | .inr remaining => locate (base + chunk.length) remaining chunks

/-- The cursor, and the number of lines in front of it. -/
def primeBacklogLinesChunked {content : List UInt8} {capacity : ℕ}
    (opened : Opened content capacity) (n : ℕ) : Except String (ℕ × ℕ) :=
  match opened with
  | .notFound => .ok (0, 0)
  | .failed e => .error e
  | .file first rewind second =>
      let total := countNewlines 0 first.chunks
      match first.failure with
      | some e => .error e
      | none =>
          let skipped := total - n
          if skipped = 0 then .ok (0, 0)
          else
            match rewind with
            | some e => .error e
            | none =>
                match locate 0 skipped second.chunks, second.failure with
                | .inl cursor, _ => .ok (cursor, skipped)
                | .inr _, some e => .error e
                | .inr base, none => .ok (base, skipped)

/-! ### The reference -/

/-- Walk to the position behind the newline with the number `skipped`. -/
def walk (i seen skipped : ℕ) : List UInt8 → Option ℕ
  | [] => none
  | b :: bytes =>
      if b = newline then
        if seen + 1 = skipped then some (i + 1) else walk (i + 1) (seen + 1) skipped bytes
      else walk (i + 1) seen skipped bytes

def primeBacklogWindow (bytes : List UInt8) (n : ℕ) : ℕ × ℕ :=
  let total := bytes.count newline
  let skipped := total - n
  if skipped = 0 then (0, 0)
  else ((walk 0 0 skipped bytes).getD bytes.length, skipped)

/-! ### The chunks do not matter -/

variable {bytes rest : List UInt8} {position remaining : ℕ}

theorem countNewlines_eq (total : ℕ) (chunks : List (List UInt8)) :
    countNewlines total chunks = total + chunks.flatten.count newline := by
  induction chunks generalizing total with
  | nil => simp [countNewlines]
  | cons chunk chunks ih =>
      rw [countNewlines, ih, List.flatten_cons, List.count_append, Nat.add_assoc]

/-- A scan goes on where it stopped. -/
theorem scanChunk_append (position remaining : ℕ) (bytes rest : List UInt8) :
    scanChunk position remaining (bytes ++ rest) =
      match scanChunk position remaining bytes with
      | .inl cursor => .inl cursor
      | .inr remaining => scanChunk (position + bytes.length) remaining rest := by
  induction bytes generalizing position remaining with
  | nil => rfl
  | cons b bytes ih =>
      have hposition : position + (b :: bytes).length = position + 1 + bytes.length := by
        rw [List.length_cons]
        omega
      rw [List.cons_append, scanChunk, scanChunk, hposition]
      split
      · split
        · rfl
        · exact ih _ _
      · exact ih _ _

/-- **The chunks of the second pass do not matter.** -/
theorem locate_eq_scan (base remaining : ℕ) (chunks : List (List UInt8)) :
    locate base remaining chunks =
      match scanChunk base remaining chunks.flatten with
      | .inl cursor => .inl cursor
      | .inr _ => .inr (base + chunks.flatten.length) := by
  induction chunks generalizing base remaining with
  | nil => rfl
  | cons chunk chunks ih =>
      rw [locate, List.flatten_cons, scanChunk_append]
      cases scanChunk base remaining chunk with
      | inl cursor => rfl
      | inr remaining =>
          dsimp only
          rw [ih, List.length_append, Nat.add_assoc]

/-! ### Where the window begins -/

/-- What a scan finds: the end of the line with that number. -/
theorem scanChunk_eq (position : ℕ) (hpos : 0 < remaining)
    (hle : remaining ≤ bytes.count newline) :
    scanChunk position remaining bytes =
      .inl (position + Lines.bounded newline remaining bytes) := by
  induction bytes generalizing position remaining with
  | nil => simp at hle; omega
  | cons b bytes ih =>
      obtain ⟨k, rfl⟩ : ∃ k, remaining = k + 1 := ⟨remaining - 1, by omega⟩
      rw [List.count_cons] at hle
      rw [scanChunk, Nat.add_sub_cancel]
      split
      · rename_i hb
        subst hb
        rw [Lines.bounded_cons_sep]
        split
        · rename_i hk
          rw [hk, Lines.bounded, List.take_zero]
          rfl
        · rename_i hk
          rw [ih _ (Nat.pos_of_ne_zero hk) (by simpa using hle), Nat.add_right_comm, Nat.add_assoc]
      · rename_i hb
        have hrest : k + 1 ≤ bytes.count newline := by simpa [hb] using hle
        have hne : (Lines.ends newline bytes).take (k + 1) ≠ [] := by
          intro hnil
          have hlen := congrArg List.length hnil
          rw [List.length_take, Lines.length_ends_eq_count, List.length_nil] at hlen
          omega
        rw [ih _ hpos hrest, Lines.bounded_cons hb hne, Nat.add_right_comm, Nat.add_assoc]

/-- The walk of the reference is the same scan, counting upwards. -/
theorem walk_eq (i seen skipped : ℕ) (bytes : List UInt8) (h : seen < skipped) :
    walk i seen skipped bytes = (scanChunk i (skipped - seen) bytes).getLeft? := by
  induction bytes generalizing i seen with
  | nil => rfl
  | cons b bytes ih =>
      rw [walk, scanChunk]
      split
      · by_cases hlast : seen + 1 = skipped
        · rw [if_pos hlast, if_pos (by omega)]
          rfl
        · rw [if_neg hlast, if_neg (by omega), ih _ _ (by omega), Nat.sub_sub]
      · exact ih _ _ h

/-- **Where the reference puts the cursor**: behind the lines that are skipped. -/
theorem primeBacklogWindow_eq (bytes : List UInt8) (n : ℕ) :
    primeBacklogWindow bytes n =
      (Lines.bounded newline (bytes.count newline - n) bytes, bytes.count newline - n) := by
  unfold primeBacklogWindow
  dsimp only
  split
  · rename_i hzero
    rw [hzero, Lines.bounded, List.take_zero]
    rfl
  · rename_i hskipped
    rw [walk_eq 0 0 _ bytes (Nat.pos_of_ne_zero hskipped), Nat.sub_zero,
      scanChunk_eq 0 (Nat.pos_of_ne_zero hskipped) (Nat.sub_le _ _), Nat.zero_add]
    rfl

/-! ### The passes and the reference -/

/-- No operation on the file fails.  A file that does not exist is an empty one. -/
def Opened.Readable {content : List UInt8} {capacity : ℕ} : Opened content capacity → Prop
  | .notFound => content = []
  | .failed _ => False
  | .file first rewind second =>
      first.failure = none ∧ rewind = none ∧ second.failure = none

section

variable {content : List UInt8} {capacity n : ℕ} {opened : Opened content capacity}

theorem prime_of_readable (h : opened.Readable) :
    primeBacklogLinesChunked opened n = .ok (primeBacklogWindow content n) := by
  cases opened with
  | notFound =>
      obtain rfl : content = [] := h
      simp [primeBacklogLinesChunked, primeBacklogWindow]
  | failed e => exact absurd h id
  | file first rewind second =>
      obtain ⟨hfirst, rfl, hsecond⟩ := h
      rw [primeBacklogWindow_eq]
      unfold primeBacklogLinesChunked
      dsimp only
      rw [hfirst, countNewlines_eq, Nat.zero_add, first.whole hfirst]
      dsimp only
      split
      · rename_i hzero
        rw [hzero, Lines.bounded, List.take_zero]
        rfl
      · rename_i hskipped
        rw [locate_eq_scan, second.whole hsecond,
          scanChunk_eq 0 (Nat.pos_of_ne_zero hskipped) (Nat.sub_le _ _), Nat.zero_add]

/-- The window begins at the beginning of the file, or behind a newline. -/
theorem eq_zero_or_newline (skipped : ℕ) :
    Lines.bounded newline skipped content = 0 ∨
      content[Lines.bounded newline skipped content - 1]? = some newline := by
  refine (Nat.eq_zero_or_pos _).imp id fun hpos => ?_
  have hle := Lines.bounded_le newline skipped content
  rcases Lines.closed_take_bounded newline skipped content with hnil | hlast
  · have hlen := congrArg List.length hnil
    rw [List.length_take, List.length_nil] at hlen
    omega
  · rw [List.getLast?_take, if_neg (by omega), List.getElem?_eq_getElem (by omega),
      Option.some_or] at hlast
    rwa [List.getElem?_eq_getElem (by omega)]

/-- **The passes agree with the reference** for every content, window and buffer, and every way the
reads are cut: the window begins at a line, holds the last lines, and the others are counted. -/
theorem prime_exact (content : List UInt8) (n chunkBytes : ℕ)
    (opened : Opened content (max chunkBytes 1)) (h : opened.Readable) :
    ∃ cursor skipped, primeBacklogLinesChunked opened n = .ok (cursor, skipped) ∧
      primeBacklogWindow content n = (cursor, skipped) ∧
      (cursor = 0 ∨ content[cursor - 1]? = some newline) ∧
      (Lines.complete newline (content.drop cursor)).length =
        min n (Lines.complete newline content).length ∧
      (Lines.complete newline (content.take cursor)).length = skipped := by
  have hwindow := primeBacklogWindow_eq content n
  refine ⟨_, _, (prime_of_readable h).trans (congrArg Except.ok hwindow), hwindow,
    eq_zero_or_newline _, ?_, ?_⟩
  · rw [Lines.complete_drop, List.length_drop, Lines.length_complete]
    omega
  · rw [(Lines.complete_bounded newline _ content).2, List.length_take, Lines.length_complete]
    omega

/-- Three lines and an unfinished one, read byte by byte; the window is the last two. -/
theorem prime_exact_bytewise :
    let content := [0x61, newline, newline, 0x62, newline, 0x63]
    let opened : Opened content (max 1 1) := .file (.bytewise _ _) none (.bytewise _ _)
    ∃ cursor skipped, primeBacklogLinesChunked opened 2 = .ok (cursor, skipped) ∧
      primeBacklogWindow content 2 = (cursor, skipped) ∧
      (cursor = 0 ∨ content[cursor - 1]? = some newline) ∧
      (Lines.complete newline (content.drop cursor)).length =
        min 2 (Lines.complete newline content).length ∧
      (Lines.complete newline (content.take cursor)).length = skipped :=
  prime_exact _ 2 1 _ ⟨rfl, rfl, rfl⟩

end

end Capture

end Hekma
