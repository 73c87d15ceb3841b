/-
**The values of the budget and cost keys.**

A ceiling or a price is written as text.  A number of tokens is a whole number that fits 64 bits; an
amount of dollars is a decimal number with at most six digits after the point, kept as a whole
number of micro-dollars.  The same text is parsed when a value is written and whenever it is read.

Main definitions:

* `trim`, `parseU64` — text without the white space around it, and whole numbers;
* `parseDollarsToMicros` — amounts of dollars.

Main results:

* `parseU64_eq_some` — a parsed number is the one that is written, and fits 64 bits;
* `parseDollarsToMicros_ok` — a parsed amount is the number that is written, to the micro-dollar;
* `parseDollarsToMicros_nonneg` — and is not negative.
-/

import Hekma.Domain.Cost
import Hekma.Store.UsageLedger
import Mathlib.Data.List.DropRight

set_option relaxedAutoImplicit false
set_option autoImplicit false

namespace Hekma

/-! ### Text -/

/-- The characters with the property `White_Space`. -/
def isWhiteSpace (c : Char) : Bool :=
  let n := c.toNat
  (9 ≤ n && n ≤ 13) || n = 0x20 || n = 0x85 || n = 0xA0 || n = 0x1680 ||
    (0x2000 ≤ n && n ≤ 0x200A) || n = 0x2028 || n = 0x2029 || n = 0x202F || n = 0x205F ||
    n = 0x3000

/-- The characters without the white space around them. -/
def trimmed (cs : List Char) : List Char :=
  ((cs.dropWhile isWhiteSpace).reverse.dropWhile isWhiteSpace).reverse

/-- The text without the white space around it. -/
def trim (s : String) : String := String.ofList (trimmed s.toList)

/-- The number that digits write. -/
def digitsValue (digits : List Char) : ℕ :=
  digits.foldl (fun n c => 10 * n + (c.toNat - '0'.toNat)) 0

/-! ### Whole numbers -/

/-- The characters after one plus sign, if there is one. -/
def withoutPlus : List Char → List Char
  | '+' :: rest => rest
  | cs => cs

/-- A whole number that fits 64 bits: digits, after one plus sign if there is one. -/
def parseU64 (cs : List Char) : Option ℕ :=
  let digits := withoutPlus cs
  if digits ≠ [] ∧ digits.all isAsciiDigit ∧ digitsValue digits ≤ u64Max then
    some (digitsValue digits)
  else none

theorem parseU64_eq_some {cs : List Char} {n : ℕ} (h : parseU64 cs = some n) :
    digitsValue (withoutPlus cs) = n ∧ n ≤ u64Max := by
  rw [parseU64] at h
  split_ifs at h with hfits
  cases h
  exact ⟨rfl, hfits.2.2⟩

/-! ### Amounts of dollars -/

/-- The whole dollars before the point; none are zero dollars. -/
def parseWholeDollars (text : String) (digits : List Char) : Except String ℕ :=
  if digits = [] then .ok 0
  else match parseU64 digits with
    | some n => .ok n
    | none =>
        .error s!"'{text}' is not a valid dollar amount (the whole-dollar part is not a number)"

/-- The micro-dollars after the point, filled up to six digits. -/
def parseFraction (text : String) : Option (List Char) → Except String ℕ
  | none | some [] => .ok 0
  | some fraction =>
      if ! fraction.all isAsciiDigit then
        .error s!"'{text}' is not a valid dollar amount (the fractional part is not a number)"
      else if 6 < fraction.length then
        .error (s!"'{text}' has sub-micro-dollar precision (more than 6 decimal places); " ++
          "the finest supported unit is one micro-dollar ($0.000001)")
      else .ok (digitsValue (fraction ++ List.replicate (6 - fraction.length) '0'))

/-- What stands after the first point, if there is one. -/
def afterPoint (cs : List Char) : Option (List Char) :=
  match cs.dropWhile (· ≠ '.') with
  | [] => none
  | _ :: fraction => some fraction

/-- Dollars and micro-dollars together, if they fit.  The source takes the product in 128 bits,
where a 64-bit number of dollars cannot overflow. -/
def microsOf (text : String) (dollars micros : ℕ) : Except String Micros :=
  if h : ((dollars * microsPerDollar + micros : ℕ) : ℤ) ≤ i64Max then
    .ok ⟨_, le_trans (by decide) (Int.natCast_nonneg _), h⟩
  else
    .error s!"'{text}' is too large to represent as micro-dollars (max ~$9.2 trillion)"

/-- An amount of dollars in micro-dollars. -/
def parseDollarsToMicros (value : String) : Except String Micros :=
  let cs := trimmed value.toList
  let text := String.ofList cs
  if cs = [] then
    .error "expected a dollar amount like \"3.00\", got an empty value"
  else if cs.head? = some '-' ∨ cs.head? = some '+' then
    .error s!"'{text}' is not a valid dollar amount (a Rate/cap must be non-negative, no sign)"
  else if '.' ∈ (afterPoint cs).getD [] then
    .error s!"'{text}' is not a valid dollar amount (more than one decimal point)"
  else
    match parseWholeDollars text (cs.takeWhile (· ≠ '.')) with
    | .error reason => .error reason
    | .ok dollars =>
        match parseFraction text (afterPoint cs) with
        | .error reason => .error reason
        | .ok micros => microsOf text dollars micros

/-- The micro-dollars that the digits after the point write. -/
def fractionMicros (fraction : List Char) : ℕ :=
  digitsValue fraction * 10 ^ (6 - fraction.length)

theorem digitsValue_append_zeros (digits : List Char) (n : ℕ) :
    digitsValue (digits ++ List.replicate n '0') = digitsValue digits * 10 ^ n := by
  induction n with
  | zero => simp
  | succ n ih =>
      rw [List.replicate_succ', ← List.append_assoc, digitsValue, List.foldl_append,
        ← digitsValue, ih, pow_succ, ← mul_assoc, List.foldl_cons, List.foldl_nil, Nat.sub_self,
        Nat.add_zero, Nat.mul_comm]

theorem parseFraction_ok {text : String} {fraction : Option (List Char)} {micros : ℕ}
    (h : parseFraction text fraction = .ok micros) :
    micros = fractionMicros (fraction.getD []) ∧ (fraction.getD []).length ≤ 6 := by
  cases fraction with
  | none =>
      cases h
      exact ⟨rfl, Nat.zero_le 6⟩
  | some digits =>
      cases digits with
      | nil =>
          cases h
          exact ⟨rfl, Nat.zero_le 6⟩
      | cons c digits =>
          rw [parseFraction] at h
          · split_ifs at h with hdigits hlong
            cases h
            exact ⟨digitsValue_append_zeros _ _, not_lt.1 hlong⟩
          · exact fun hnil => by cases hnil

theorem parseWholeDollars_ok {text : String} {digits : List Char} {dollars : ℕ}
    (h : parseWholeDollars text digits = .ok dollars) :
    dollars = digitsValue (withoutPlus digits) := by
  rw [parseWholeDollars] at h
  split_ifs at h with hnil
  · cases h
    rw [hnil]
    rfl
  · split at h
    · next n hn =>
        cases h
        exact (parseU64_eq_some hn).1.symm
    · cases h

theorem microsOf_ok {text : String} {dollars micros : ℕ} {m : Micros}
    (h : microsOf text dollars micros = .ok m) :
    m.val = ((dollars * microsPerDollar + micros : ℕ) : ℤ) := by
  rw [microsOf] at h
  split_ifs at h
  cases h
  rfl

/-- No sign is left before the point of a text that does not start with one. -/
theorem withoutPlus_takeWhile {cs : List Char} (h : cs.head? ≠ some '+') :
    withoutPlus (cs.takeWhile (· ≠ '.')) = cs.takeWhile (· ≠ '.') := by
  cases cs with
  | nil => rfl
  | cons c cs =>
      rw [List.takeWhile_cons]
      split_ifs
      · rw [withoutPlus]
        rintro rest heq
        cases heq
        exact h rfl
      · rfl

/-- **A parsed amount is the number that is written**, to the micro-dollar. -/
theorem parseDollarsToMicros_ok {value : String} {m : Micros}
    (h : parseDollarsToMicros value = .ok m) :
    m.val = ((digitsValue ((trimmed value.toList).takeWhile (· ≠ '.')) * microsPerDollar +
      fractionMicros ((afterPoint (trimmed value.toList)).getD []) : ℕ) : ℤ) := by
  simp only [parseDollarsToMicros] at h
  split_ifs at h with hnil hsign hdots
  rw [not_or] at hsign
  split at h
  · cases h
  · next dollars hdollars =>
      split at h
      · cases h
      · next micros hmicros =>
          rw [microsOf_ok h, parseWholeDollars_ok hdollars, (parseFraction_ok hmicros).1,
            withoutPlus_takeWhile hsign.2]

theorem parseDollarsToMicros_nonneg {value : String} {m : Micros}
    (h : parseDollarsToMicros value = .ok m) : 0 ≤ m.val := by
  rw [parseDollarsToMicros_ok h]
  exact Int.natCast_nonneg _

/-- A price keeps the micro-dollars of the amount it is read from. -/
theorem toNat_parseDollarsToMicros {value : String} {m : Micros}
    (h : parseDollarsToMicros value = .ok m) : (m.val.toNat : ℤ) = m.val :=
  Int.toNat_of_nonneg (parseDollarsToMicros_nonneg h)

/-- Text that starts with a character that is no white space still does when it is trimmed. -/
theorem trimmed_cons {c : Char} {cs : List Char} (hc : isWhiteSpace c = false) :
    ∃ rest, trimmed (c :: cs) = c :: rest := by
  have hstart : trimmed (c :: cs) = (c :: cs).rdropWhile isWhiteSpace := by
    rw [trimmed, List.dropWhile_cons_of_neg (by simp [hc])]
    rfl
  have hstarts : trimmed (c :: cs) <+: c :: cs := hstart ▸ List.rdropWhile_prefix _ _
  cases h : trimmed (c :: cs) with
  | nil =>
      rw [hstart, List.rdropWhile_eq_nil_iff] at h
      rw [h c List.mem_cons_self] at hc
      cases hc
  | cons d rest =>
      rw [h, List.cons_prefix_cons] at hstarts
      exact ⟨rest, by rw [hstarts.1]⟩

/-- An amount starts with a digit or the point, apart from the white space around it. -/
theorem isAsciiDigit_of_parseDollarsToMicros {value : String} {m : Micros} {c : Char}
    {cs : List Char} (h : parseDollarsToMicros value = .ok m) (hc : isWhiteSpace c = false)
    (hpoint : c ≠ '.') (hvalue : value.toList = c :: cs) : isAsciiDigit c = true := by
  obtain ⟨rest, hrest⟩ : ∃ rest, trimmed (c :: cs) = c :: rest := trimmed_cons hc
  simp only [parseDollarsToMicros, hvalue, hrest] at h
  rw [if_neg (List.cons_ne_nil c rest)] at h
  split_ifs at h with hsign hdots
  rw [not_or] at hsign
  split at h
  · cases h
  · next dollars hdollars =>
      rw [List.takeWhile_cons_of_pos (by simpa using hpoint), parseWholeDollars,
        if_neg (List.cons_ne_nil _ _)] at hdollars
      split at hdollars
      · next n hn =>
          rw [parseU64] at hn
          split_ifs at hn with hfits
          have hplus : withoutPlus (c :: rest.takeWhile (· ≠ '.')) =
              c :: rest.takeWhile (· ≠ '.') := by
            rw [withoutPlus]
            rintro _ heq
            cases heq
            exact hsign.2 rfl
          rw [hplus, List.all_cons, Bool.and_eq_true] at hfits
          exact hfits.2.1.1
      · cases hdollars

end Hekma
