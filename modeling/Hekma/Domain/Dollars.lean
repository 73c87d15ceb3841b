/-
**Amounts of dollars are read exactly** (`parse_dollars_to_micros`).

An amount is a decimal number of dollars with six digits after the point at most, and it is kept as
a number of micro-dollars.  The integer part and the fraction are read apart, and either may be
empty.  Nothing asks that one of them is not: a point alone is read as no dollars.

Main definitions:

* `IsDecimal`, `decimalValue` — a decimal number, and its value;
* `ReadsExactly` — a text is accepted just when it is an amount, and read as its value.

Main results:

* `parseDollarsToMicros_eq_ok` — what the parser accepts, and what it returns;
* `readsExactly_iff` — a text is read exactly unless it is a point alone.
-/

import Hekma.Domain.ConfigValue
import Mathlib.Algebra.Order.Field.Rat
import Mathlib.Tactic

set_option relaxedAutoImplicit false
set_option autoImplicit false

namespace Hekma

/-! ### Decimal numbers -/

/-- A text is digits, or digits around a point. -/
def Pointed (cs whole fraction : List Char) : Prop :=
  cs = whole ∧ fraction = [] ∨ cs = whole ++ '.' :: fraction

/-- A decimal number without a sign: a digit at least, and six behind the point at most. -/
structure IsDecimal (cs whole fraction : List Char) : Prop where
  pointed : Pointed cs whole fraction
  digits : ∀ c ∈ whole ++ fraction, isAsciiDigit c = true
  nonempty : whole ++ fraction ≠ []
  short : fraction.length ≤ 6

/-- The value of a decimal number. -/
def decimalValue (whole fraction : List Char) : ℚ :=
  digitsValue whole + digitsValue fraction / 10 ^ fraction.length

/-- A text is accepted just when it is a decimal number of dollars that 64 bits hold in
micro-dollars, and it is read as the number of its micro-dollars then, without rounding. -/
def ReadsExactly (value : String) : Prop :=
  ((∃ m, parseDollarsToMicros value = .ok m) ↔
    ∃ whole fraction, IsDecimal (trimmed value.toList) whole fraction ∧
      10 ^ 6 * decimalValue whole fraction ≤ (i64Max : ℚ)) ∧
  ∀ m whole fraction, parseDollarsToMicros value = .ok m →
    IsDecimal (trimmed value.toList) whole fraction →
      (m.val : ℚ) = 10 ^ 6 * decimalValue whole fraction

/-! ### The parts of a text -/

variable {cs whole fraction : List Char} {text : String} {n : ℕ}

theorem point_not_mem (h : ∀ c ∈ cs, isAsciiDigit c = true) : '.' ∉ cs := by
  intro hmem
  exact absurd (h '.' hmem) (by decide)

/-- What stands before the first point and behind it. -/
theorem pointed_afterPoint (cs : List Char) :
    Pointed cs (cs.takeWhile (· ≠ '.')) ((afterPoint cs).getD []) := by
  have happ : cs.takeWhile (· ≠ '.') ++ cs.dropWhile (· ≠ '.') = cs :=
    List.takeWhile_append_dropWhile
  unfold afterPoint
  cases h : cs.dropWhile (· ≠ '.') with
  | nil =>
      rw [h, List.append_nil] at happ
      exact .inl ⟨happ.symm, rfl⟩
  | cons c rest =>
      have hc : c = '.' := by
        have hhead := List.head?_dropWhile_not (· ≠ '.') cs
        rw [h] at hhead
        simpa using hhead
      rw [h, hc] at happ
      exact .inr happ.symm

/-- The parts of a text are those before and behind the point. -/
theorem Pointed.parts (h : Pointed cs whole fraction) (hwhole : '.' ∉ whole) :
    cs.takeWhile (· ≠ '.') = whole ∧ (afterPoint cs).getD [] = fraction := by
  have hpass : ∀ c ∈ whole, decide (c ≠ '.') = true := by
    intro c hc
    rw [decide_eq_true_eq]
    rintro rfl
    exact hwhole hc
  rcases h with ⟨rfl, rfl⟩ | rfl
  · have hdrop : cs.dropWhile (· ≠ '.') = [] := List.dropWhile_eq_nil_iff.2 hpass
    rw [List.takeWhile_eq_self_iff.2 hpass, afterPoint, hdrop]
    exact ⟨rfl, rfl⟩
  · rw [List.takeWhile_append_of_pos hpass, afterPoint, List.dropWhile_append_of_pos hpass]
    simp

/-! ### What the parts are read as -/

theorem parseWholeDollars_eq_ok (hplus : withoutPlus cs = cs) :
    parseWholeDollars text cs = .ok n ↔
      (∀ c ∈ cs, isAsciiDigit c = true) ∧ digitsValue cs ≤ u64Max ∧ n = digitsValue cs := by
  rw [parseWholeDollars]
  split_ifs with hnil
  · subst hnil
    have hzero : digitsValue [] = 0 := rfl
    rw [hzero, Except.ok.injEq]
    exact ⟨fun h => ⟨by simp, Nat.zero_le _, h.symm⟩, fun h => h.2.2.symm⟩
  · rw [parseU64, hplus]
    split_ifs with hfits
    · obtain ⟨-, hdigits, hle⟩ := hfits
      rw [List.all_eq_true] at hdigits
      simp only [Except.ok.injEq]
      exact ⟨fun h => ⟨hdigits, hle, h.symm⟩, fun h => h.2.2.symm⟩
    · refine ⟨fun h => by simp at h, fun h => ?_⟩
      exact absurd ⟨hnil, List.all_eq_true.2 h.1, h.2.1⟩ hfits

theorem parseFraction_eq_ok {point : Option (List Char)} :
    parseFraction text point = .ok n ↔
      (∀ c ∈ point.getD [], isAsciiDigit c = true) ∧ (point.getD []).length ≤ 6 ∧
        n = fractionMicros (point.getD []) := by
  have hnone : (Except.ok 0 : Except String ℕ) = .ok n ↔
      (∀ c ∈ ([] : List Char), isAsciiDigit c = true) ∧ ([] : List Char).length ≤ 6 ∧
        n = fractionMicros [] := by
    have hzero : fractionMicros [] = 0 := rfl
    rw [hzero, Except.ok.injEq]
    exact ⟨fun h => ⟨by simp, Nat.zero_le _, h.symm⟩, fun h => h.2.2.symm⟩
  rcases point with _ | (_ | ⟨c, fraction⟩)
  · exact hnone
  · exact hnone
  · rw [parseFraction, Option.getD_some]
    · split_ifs with hdigits hlong
      · refine ⟨fun h => by simp at h, fun h => ?_⟩
        rw [List.all_eq_true.2 h.1] at hdigits
        exact absurd hdigits (by decide)
      · exact ⟨fun h => by simp at h, fun h => absurd h.2.1 (Nat.not_le.2 hlong)⟩
      · rw [Bool.not_eq_true', Bool.not_eq_false, List.all_eq_true] at hdigits
        rw [digitsValue_append_zeros, Except.ok.injEq, eq_comm]
        exact ⟨fun h => ⟨hdigits, Nat.le_of_not_lt hlong, h⟩, fun h => h.2.2⟩
    · exact fun h => List.cons_ne_nil c fraction h

theorem microsOf_eq_ok {dollars micros : ℕ} {m : Micros} :
    microsOf text dollars micros = .ok m ↔
      m.val = ((dollars * microsPerDollar + micros : ℕ) : ℤ) := by
  refine ⟨microsOf_ok, fun h => ?_⟩
  have hfits : ((dollars * microsPerDollar + micros : ℕ) : ℤ) ≤ i64Max := h ▸ m.2.2
  rw [microsOf, dif_pos hfits, Except.ok.injEq, Subtype.ext_iff]
  exact h.symm

/-! ### What is accepted -/

variable {value : String} {m : Micros}

/-- Digits around a point begin with no sign. -/
theorem Pointed.no_sign {cs whole fraction : List Char} (hpointed : Pointed cs whole fraction)
    (hnil : cs ≠ []) (hwhole : ∀ c ∈ whole, isAsciiDigit c = true) :
    ¬ (cs.head? = some '-' ∨ cs.head? = some '+') := by
  -- the first character is a digit or the point
  have hhead : ∀ c ∈ cs.head?, isAsciiDigit c = true ∨ c = '.' := by
    intro c hc
    cases whole with
    | nil =>
        rcases hpointed with ⟨rfl, -⟩ | rfl
        · exact absurd rfl hnil
        · exact .inr (Option.some.inj hc).symm
    | cons d whole =>
        have hd : c = d := by
          rcases hpointed with ⟨rfl, -⟩ | rfl
          · exact (Option.some.inj hc).symm
          · exact (Option.some.inj hc).symm
        exact .inl (hd ▸ hwhole d List.mem_cons_self)
  rintro (h | h)
  · exact absurd (hhead _ h) (by decide)
  · exact absurd (hhead _ h) (by decide)

/-- The parser takes digits around a point, six behind it at most, of an amount that fits.  It does
not ask for a digit. -/
theorem parseDollarsToMicros_eq_ok :
    parseDollarsToMicros value = .ok m ↔
      ∃ whole fraction, Pointed (trimmed value.toList) whole fraction ∧
        trimmed value.toList ≠ [] ∧ (∀ c ∈ whole ++ fraction, isAsciiDigit c = true) ∧
        fraction.length ≤ 6 ∧
        m.val = ((digitsValue whole * microsPerDollar + fractionMicros fraction : ℕ) : ℤ) := by
  simp only [parseDollarsToMicros]
  generalize trimmed value.toList = cs
  constructor
  · intro h
    split_ifs at h with hnil hsign hpoints
    rw [not_or] at hsign
    split at h
    · simp at h
    · rename_i dollars hdollars
      split at h
      · simp at h
      · rename_i micros hmicros
        obtain ⟨hwhole, -, rfl⟩ :=
          (parseWholeDollars_eq_ok (withoutPlus_takeWhile hsign.2)).1 hdollars
        obtain ⟨hfraction, hshort, rfl⟩ := parseFraction_eq_ok.1 hmicros
        refine ⟨_, _, pointed_afterPoint cs, hnil, fun c hc => ?_, hshort, microsOf_ok h⟩
        exact (List.mem_append.1 hc).elim (hwhole c) (hfraction c)
  · rintro ⟨whole, fraction, hpointed, hnil, hdigits, hshort, hm⟩
    have hwhole : ∀ c ∈ whole, isAsciiDigit c = true := fun c hc =>
      hdigits c (List.mem_append_left fraction hc)
    have hfraction : ∀ c ∈ fraction, isAsciiDigit c = true := fun c hc =>
      hdigits c (List.mem_append_right whole hc)
    obtain ⟨htake, hafter⟩ := hpointed.parts (point_not_mem hwhole)
    have hsign := hpointed.no_sign hnil hwhole
    have hfits : digitsValue whole ≤ u64Max := by
      have hle := m.2.2
      simp only [hm, microsPerDollar, i64Max] at hle
      simp only [u64Max]
      omega
    have hplus : withoutPlus whole = whole := by
      rw [← htake]
      exact withoutPlus_takeWhile fun h => hsign (.inr h)
    rw [if_neg hnil, if_neg hsign, htake, hafter, if_neg (point_not_mem hfraction),
      (parseWholeDollars_eq_ok hplus).2 ⟨hwhole, hfits, rfl⟩]
    dsimp only
    rw [parseFraction_eq_ok.2 ⟨by rwa [hafter], by rwa [hafter], rfl⟩, hafter]
    exact microsOf_eq_ok.2 hm

/-- The micro-dollars of the digits behind the point are no rounding of them. -/
theorem micros_eq_decimalValue (hshort : fraction.length ≤ 6) :
    ((digitsValue whole * microsPerDollar + fractionMicros fraction : ℕ) : ℚ)
      = 10 ^ 6 * decimalValue whole fraction := by
  have hpow : (10 : ℚ) ^ (6 - fraction.length) * 10 ^ fraction.length = 10 ^ 6 := by
    rw [← pow_add, Nat.sub_add_cancel hshort]
  have hmicros : (microsPerDollar : ℚ) = 10 ^ 6 := by norm_num [microsPerDollar]
  rw [decimalValue, fractionMicros]
  push_cast
  rw [hmicros, ← hpow]
  field_simp

/-- A decimal number with no more dollars than fit is read as its value. -/
theorem exists_micros (h : IsDecimal cs whole fraction)
    (hle : 10 ^ 6 * decimalValue whole fraction ≤ (i64Max : ℚ)) :
    ∃ m : Micros,
      m.val = ((digitsValue whole * microsPerDollar + fractionMicros fraction : ℕ) : ℤ) := by
  rw [← micros_eq_decimalValue h.short] at hle
  refine ⟨⟨_, ?_, by exact_mod_cast hle⟩, rfl⟩
  exact le_trans (by decide) (Int.natCast_nonneg _)

/-! ### Exactly the amounts -/

/-- A decimal number has one integer part and one fraction. -/
theorem IsDecimal.parts_eq {whole' fraction' : List Char} (h : IsDecimal cs whole fraction)
    (hpointed : Pointed cs whole' fraction') (hwhole : '.' ∉ whole') :
    whole' = whole ∧ fraction' = fraction := by
  have hmine := h.pointed.parts (point_not_mem fun c hc =>
    h.digits c (List.mem_append_left fraction hc))
  have hother := hpointed.parts hwhole
  exact ⟨hother.1.symm.trans hmine.1, hother.2.symm.trans hmine.2⟩

/-- **A text is read exactly unless it is a point alone.** -/
theorem readsExactly_iff (value : String) :
    ReadsExactly value ↔ trimmed value.toList ≠ ['.'] := by
  constructor
  · rintro ⟨haccept, -⟩ hpoint
    have hzero : ∃ m, parseDollarsToMicros value = .ok m := by
      refine ⟨⟨0, by decide⟩, parseDollarsToMicros_eq_ok.2 ⟨[], [], ?_, ?_, ?_, ?_, ?_⟩⟩
      · rw [hpoint]
        exact .inr rfl
      · rw [hpoint]
        exact List.cons_ne_nil _ _
      · simp
      · simp
      · rfl
    obtain ⟨whole, fraction, hdecimal, -⟩ := haccept.1 hzero
    rw [hpoint] at hdecimal
    obtain ⟨rfl, rfl⟩ := hdecimal.parts_eq (.inr rfl : Pointed ['.'] [] []) (by simp)
    exact hdecimal.nonempty rfl
  · intro hpoint
    refine ⟨⟨?_, ?_⟩, ?_⟩
    · rintro ⟨m, hm⟩
      obtain ⟨whole, fraction, hpointed, hnil, hdigits, hshort, hval⟩ :=
        parseDollarsToMicros_eq_ok.1 hm
      refine ⟨whole, fraction, ⟨hpointed, hdigits, ?_, hshort⟩, ?_⟩
      · intro hempty
        obtain ⟨rfl, rfl⟩ := List.append_eq_nil_iff.1 hempty
        rcases hpointed with ⟨h, -⟩ | h
        · exact hnil h
        · exact hpoint h
      · rw [← micros_eq_decimalValue hshort]
        have hle := m.2.2
        rw [hval] at hle
        exact_mod_cast hle
    · rintro ⟨whole, fraction, hdecimal, hle⟩
      obtain ⟨m, hm⟩ := exists_micros hdecimal hle
      refine ⟨m, parseDollarsToMicros_eq_ok.2 ⟨whole, fraction, hdecimal.pointed, ?_,
        hdecimal.digits, hdecimal.short, hm⟩⟩
      intro hnil
      rcases hdecimal.pointed with ⟨h, h'⟩ | h
      · exact hdecimal.nonempty (by rw [← h, h', hnil]; rfl)
      · rw [hnil] at h
        exact absurd h (by simp)
    · intro m whole fraction hm hdecimal
      obtain ⟨whole', fraction', hpointed, -, hdigits, -, hval⟩ := parseDollarsToMicros_eq_ok.1 hm
      obtain ⟨rfl, rfl⟩ := hdecimal.parts_eq hpointed (point_not_mem fun c hc =>
        hdigits c (List.mem_append_left fraction' hc))
      rw [← micros_eq_decimalValue hdecimal.short, hval]
      norm_cast

/-- A point alone is accepted, though no digit is written. -/
theorem not_readsExactly_point : ¬ ReadsExactly "." := by
  rintro ⟨haccept, -⟩
  have hzero : ∃ m, parseDollarsToMicros "." = .ok m := ⟨⟨0, by decide⟩, by decide⟩
  obtain ⟨whole, fraction, hdecimal, -⟩ := haccept.1 hzero
  have hparts := hdecimal.pointed.parts (point_not_mem fun c hc =>
    hdecimal.digits c (List.mem_append_left fraction hc))
  have htrim : trimmed ".".toList = ['.'] := by decide
  rw [htrim] at hparts
  obtain ⟨rfl, rfl⟩ := hparts
  exact hdecimal.nonempty rfl

end Hekma
