/-
**The compact text of a flat object.**

The text of an object whose keys are identifiers and whose values are unsigned integers, without
white space, and a reader of these texts.

Main definitions:

* `Json.Flat`, `Json.Flat.value` — a list of keys with their numbers, and the object it stands for;
* `Json.compact` — its text;
* `Json.readCompact` — reading such a text;
* `Json.ReadsCompact` — what a reader of JSON texts does with these texts.

Main results:

* `Json.readsCompact_readCompact` — reading undoes writing;
* `Json.newline_not_mem_compact` — such a text is one line.
-/

import Hekma.Lib.Json
import Mathlib.Data.List.Basic

set_option relaxedAutoImplicit false
set_option autoImplicit false

namespace Hekma

namespace Json

/-! ### Writing -/

/-- The keys of an object with their numbers. -/
abbrev Flat : Type := List (String × Unsigned64)

/-- The object. -/
def Flat.value (fields : Flat) : Json := object (fields.map fun p => (p.1, number (.ofU64 p.2)))

/-- A key that stands in a text as it is. -/
def PlainKey (key : String) : Prop := ∀ c ∈ key.toList, c.isAlpha ∨ c = '_'

instance (key : String) : Decidable (PlainKey key) :=
  inferInstanceAs (Decidable (∀ c ∈ key.toList, c.isAlpha ∨ c = '_'))

/-- The text of a field. -/
def compactField (p : String × Unsigned64) : List Char :=
  '\x22' :: p.1.toList ++ '\x22' :: ':' :: Nat.toDigits 10 p.2.1

/-- The text of a list of fields. -/
def compactFields : Flat → List Char
  | [] => []
  | [p] => compactField p
  | p :: q :: rest => compactField p ++ ',' :: compactFields (q :: rest)

/-- The text of an object. -/
def compact (fields : Flat) : List Char := '\x7b' :: compactFields fields ++ ['\x7d']

/-- A reader of JSON texts reads the compact texts of flat objects. -/
def ReadsCompact (read : List Char → Option Json) : Prop :=
  ∀ fields : Flat, (∀ p ∈ fields, PlainKey p.1) → read (compact fields) = some fields.value

theorem newline_not_mem_compactField {p : String × Unsigned64} (h : PlainKey p.1) :
    '\n' ∉ compactField p := by
  intro hmem
  simp only [compactField, List.cons_append, List.mem_cons, List.mem_append] at hmem
  rcases hmem with hmem | hmem | hmem | hmem | hmem
  · exact absurd hmem (by decide)
  · rcases h _ hmem with hc | hc <;> exact absurd hc (by decide)
  · exact absurd hmem (by decide)
  · exact absurd hmem (by decide)
  · exact absurd (Nat.isDigit_of_mem_toDigits (by omega) (by omega) hmem) (by decide)

theorem newline_not_mem_compactFields {fields : Flat} (h : ∀ p ∈ fields, PlainKey p.1) :
    '\n' ∉ compactFields fields := by
  induction fields with
  | nil => exact List.not_mem_nil
  | cons p rest ih =>
      have hp := newline_not_mem_compactField (h p List.mem_cons_self)
      cases rest with
      | nil => exact hp
      | cons q rest =>
          have hrest := ih fun q hq => h q (List.mem_cons_of_mem p hq)
          intro hmem
          rw [compactFields, List.mem_append, List.mem_cons] at hmem
          rcases hmem with hmem | hmem | hmem
          · exact hp hmem
          · exact absurd hmem (by decide)
          · exact hrest hmem

/-- The compact text of an object is one line. -/
theorem newline_not_mem_compact {fields : Flat} (h : ∀ p ∈ fields, PlainKey p.1) :
    '\n' ∉ compact fields := by
  intro hmem
  rw [compact, List.cons_append, List.mem_cons, List.mem_append, List.mem_singleton] at hmem
  rcases hmem with hmem | hmem | hmem
  · exact absurd hmem (by decide)
  · exact newline_not_mem_compactFields h hmem
  · exact absurd hmem (by decide)

/-! ### Reading -/

/-- Read a number, and what stands behind it. -/
def readNumber (s : List Char) : Option (Unsigned64 × List Char) :=
  let n := Nat.ofDigitChars 10 (s.takeWhile Char.isDigit) 0
  if h : n < 2 ^ 64 then some (⟨n, h⟩, s.dropWhile Char.isDigit) else none

/-- Read a field, and what stands behind it. -/
def readField : List Char → Option ((String × Unsigned64) × List Char)
  | '\x22' :: s =>
      match s.dropWhile (· ≠ '\x22') with
      | '\x22' :: ':' :: t =>
          (readNumber t).map fun r => ((String.ofList (s.takeWhile (· ≠ '\x22')), r.1), r.2)
      | _ => none
  | _ => none

/-- Read at most so many fields, up to the end of the object. -/
def readFields : ℕ → List Char → Option Flat
  | 0, _ => none
  | fuel + 1, s =>
      match readField s with
      | some (p, ['\x7d']) => some [p]
      | some (p, ',' :: rest) => (readFields fuel rest).map (p :: ·)
      | _ => none

/-- Read the compact text of a flat object. -/
def readCompact : List Char → Option Json
  | ['\x7b', '\x7d'] => some (Flat.value [])
  | '\x7b' :: s => (readFields s.length s).map Flat.value
  | _ => none

/-! ### Reading undoes writing -/

theorem takeWhile_stop {α : Type} {p : α → Bool} {l rest : List α} {a : α} (h : ∀ x ∈ l, p x)
    (ha : ¬ p a) : (l ++ a :: rest).takeWhile p = l := by
  rw [List.takeWhile_append_of_pos h, List.takeWhile_cons_of_neg ha, List.append_nil]

theorem dropWhile_stop {α : Type} {p : α → Bool} {l rest : List α} {a : α} (h : ∀ x ∈ l, p x)
    (ha : ¬ p a) : (l ++ a :: rest).dropWhile p = a :: rest := by
  rw [List.dropWhile_append_of_pos h, List.dropWhile_cons_of_neg ha]

theorem PlainKey.ne_quote {key : String} (h : PlainKey key) :
    ∀ c ∈ key.toList, decide (c ≠ '\x22') = true := by
  intro c hc
  refine decide_eq_true ?_
  rintro rfl
  rcases h '\x22' hc with h | h <;> revert h <;> decide

theorem readNumber_toDigits (n : Unsigned64) {c : Char} (hc : ¬ c.isDigit) (rest : List Char) :
    readNumber (Nat.toDigits 10 n.1 ++ c :: rest) = some (n, c :: rest) := by
  have hdigits : ∀ d ∈ Nat.toDigits 10 n.1, d.isDigit = true := fun d hd =>
    Nat.isDigit_of_mem_toDigits (by omega) (by omega) hd
  have hn : Nat.ofDigitChars 10 (Nat.toDigits 10 n.1) 0 = n.1 := Nat.ofDigitChars_ten_toDigits
  simp only [readNumber, takeWhile_stop hdigits hc, dropWhile_stop hdigits hc, hn]
  exact dif_pos n.2

/-- Reading a field that something else follows. -/
theorem readField_compactField {p : String × Unsigned64} (h : PlainKey p.1) {c : Char}
    (hc : ¬ c.isDigit) (rest : List Char) :
    readField (compactField p ++ c :: rest) = some (p, c :: rest) := by
  have htext : compactField p ++ c :: rest
      = '\x22' :: (p.1.toList ++ '\x22' :: ':' :: (Nat.toDigits 10 p.2.1 ++ c :: rest)) := by
    simp [compactField]
  have hquote : ¬ decide ('\x22' ≠ '\x22') = true := by decide
  rw [htext, readField, dropWhile_stop h.ne_quote hquote, takeWhile_stop h.ne_quote hquote]
  change (readNumber _).map _ = _
  rw [readNumber_toDigits p.2 hc, Option.map_some, String.ofList_toList]

theorem readFields_compactFields {fields : Flat} (h : ∀ p ∈ fields, PlainKey p.1)
    (hne : fields ≠ []) {fuel : ℕ} (hfuel : fields.length ≤ fuel) :
    readFields fuel (compactFields fields ++ ['\x7d']) = some fields := by
  induction fields generalizing fuel with
  | nil => exact absurd rfl hne
  | cons p rest ih =>
      obtain ⟨fuel, rfl⟩ : ∃ n, fuel = n + 1 := by
        cases fuel with
        | zero => exact absurd hfuel (by simp)
        | succ n => exact ⟨n, rfl⟩
      have hp := h p List.mem_cons_self
      cases rest with
      | nil =>
          rw [compactFields, readFields, readField_compactField hp (by decide)]
          rfl
      | cons q rest =>
          have hrest := ih (fun q hq => h q (List.mem_cons_of_mem p hq)) (by simp)
            (Nat.le_of_succ_le_succ hfuel)
          rw [compactFields, List.append_assoc, List.cons_append, readFields,
            readField_compactField hp (by decide)]
          change (readFields fuel _).map _ = _
          rw [hrest]
          rfl

theorem length_compactFields (fields : Flat) : fields.length ≤ (compactFields fields).length := by
  induction fields with
  | nil => exact Nat.le_refl 0
  | cons p rest ih =>
      cases rest with
      | nil => simp [compactFields, compactField]
      | cons q rest =>
          have hrest : (',' :: compactFields (q :: rest)).length
              = (compactFields (q :: rest)).length + 1 := List.length_cons
          rw [compactFields, List.length_append, List.length_cons]
          omega

/-- **Reading undoes writing.** -/
theorem readsCompact_readCompact : ReadsCompact readCompact := by
  intro fields h
  cases fields with
  | nil => rfl
  | cons p rest =>
      have hfuel : (p :: rest).length ≤ (compactFields (p :: rest) ++ ['\x7d']).length := by
        rw [List.length_append]
        exact Nat.le_add_right_of_le (length_compactFields _)
      have hread := readFields_compactFields h (by simp) hfuel
      obtain ⟨s, hs⟩ : ∃ s, compactFields (p :: rest) = '\x22' :: s := by
        cases rest <;> exact ⟨_, rfl⟩
      rw [hs, List.cons_append] at hread
      rw [compact, hs, List.cons_append, List.cons_append, readCompact, hread]
      · rfl
      · intro heq
        simp at heq

end Json

end Hekma
