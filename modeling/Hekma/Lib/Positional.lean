/-
**Positional numerals of a fixed width.**

A number is written with so many digits, the most significant first.  As all numerals have one
width, comparing them as words (the first difference decides) compares the numbers.  The same holds
when the digits are written with characters that keep their order, and when numerals of several
numbers are written one after the other.

Main definitions:

* `Positional.digits` — the digits of a number, most significant first;
* `Positional.value` — the number that digits stand for;
* `Positional.numeral` — the digits written with characters;
* `Positional.fields` — the numerals of several numbers.

Main results:

* `Positional.digits_lt_digits` — **the order of the numerals is the order of the numbers**;
* `Positional.append_lt_append_iff` — two words of fields are compared field by field;
* `Positional.numeral_lt_numeral`, `numeral_inj`, `fields_lt_fields` — the same for numerals, and for
  words of numerals.
-/

import Mathlib.Data.List.Lex
import Mathlib.Tactic

set_option relaxedAutoImplicit false
set_option autoImplicit false

namespace Positional

/-! ### Words of fields -/

/-- Of two words that begin with fields of one length, the first difference is in those fields, or
behind them. -/
theorem append_lt_append_iff {α : Type} [LinearOrder α] {a b : List α} (c d : List α)
    (h : a.length = b.length) : a ++ c < b ++ d ↔ a < b ∨ (a = b ∧ c < d) := by
  induction a generalizing b with
  | nil =>
      obtain rfl := List.length_eq_zero_iff.1 h.symm
      simp
  | cons x a ih =>
      cases b with
      | nil => cases h
      | cons y b =>
          have hlen : a.length = b.length := Nat.succ.inj h
          simp only [List.cons_append, List.cons_lt_cons_iff, ih hlen, List.cons.injEq]
          tauto

/-- Characters that keep the order of what they stand for keep the order of the words. -/
theorem map_lt_map_iff {α β : Type} [LinearOrder α] [LinearOrder β] {s : Set α} {f : α → β}
    (hf : StrictMonoOn f s) {a b : List α} (ha : ∀ x ∈ a, x ∈ s) (hb : ∀ x ∈ b, x ∈ s) :
    a.map f < b.map f ↔ a < b := by
  induction a generalizing b with
  | nil => cases b <;> simp
  | cons x a ih =>
      cases b with
      | nil => simp
      | cons y b =>
          have hx := ha x List.mem_cons_self
          have hy := hb y List.mem_cons_self
          have htail := ih (fun z hz => ha z (List.mem_cons_of_mem x hz))
            (fun z hz => hb z (List.mem_cons_of_mem y hz))
          simp only [List.map_cons, List.cons_lt_cons_iff, hf.lt_iff_lt hx hy,
            hf.injOn.eq_iff hx hy, htail]

/-! ### The digits of a number -/

/-- The last `w` digits of a number to the base `b`, most significant first. -/
def digits (b : ℕ) : ℕ → ℕ → List ℕ
  | 0, _ => []
  | w + 1, n => n / b ^ w % b :: digits b w n

variable {b : ℕ}

@[simp] theorem length_digits (b w n : ℕ) : (digits b w n).length = w := by
  induction w with
  | zero => rfl
  | succ w ih => rw [digits, List.length_cons, ih]

theorem lt_of_mem_digits (hb : 0 < b) {w n d : ℕ} (h : d ∈ digits b w n) : d < b := by
  induction w with
  | zero => cases h
  | succ w ih =>
      rw [digits, List.mem_cons] at h
      rcases h with rfl | h
      · exact Nat.mod_lt _ hb
      · exact ih h

/-- The order of numerals is the order of the numbers they stand for. -/
theorem digits_lt_digits_mod (hb : 0 < b) (w m n : ℕ) :
    digits b w m < digits b w n ↔ m % b ^ w < n % b ^ w := by
  induction w with
  | zero => simp [digits, Nat.mod_one]
  | succ w ih =>
      have hpow : 0 < b ^ w := Nat.pow_pos hb
      have hm := Nat.mod_lt m hpow
      have hn := Nat.mod_lt n hpow
      rw [digits, digits, List.cons_lt_cons_iff, ih, Nat.mod_pow_succ, Nat.mod_pow_succ]
      generalize m % b ^ w = r at hm ⊢
      generalize n % b ^ w = r' at hn ⊢
      -- the first digits decide, for what is behind them is less than one of their unit
      rcases lt_trichotomy (m / b ^ w % b) (n / b ^ w % b) with hlt | heq | hgt
      · have hstep := Nat.mul_le_mul_left (b ^ w) (Nat.succ_le_of_lt hlt)
        rw [Nat.mul_succ] at hstep
        exact iff_of_true (Or.inl hlt) (by omega)
      · rw [heq]
        simp
      · have hstep := Nat.mul_le_mul_left (b ^ w) (Nat.succ_le_of_lt hgt)
        rw [Nat.mul_succ] at hstep
        exact iff_of_false (by omega) (by omega)

/-- **The order of the numerals is the order of the numbers.** -/
theorem digits_lt_digits (hb : 0 < b) {w m n : ℕ} (hm : m < b ^ w) (hn : n < b ^ w) :
    digits b w m < digits b w n ↔ m < n := by
  rw [digits_lt_digits_mod hb, Nat.mod_eq_of_lt hm, Nat.mod_eq_of_lt hn]

/-- The last digit of a numeral is the rest of the division by the base. -/
theorem digits_succ (w n : ℕ) : digits b (w + 1) n = digits b w (n / b) ++ [n % b] := by
  induction w with
  | zero => simp [digits]
  | succ w ih => rw [digits, ih, digits, Nat.div_div_eq_div_mul, ← pow_succ', List.cons_append]

/-- The digits before the last `w` are those of the quotient. -/
theorem digits_add (v w n : ℕ) : digits b (v + w) n = digits b v (n / b ^ w) ++ digits b w n := by
  induction v with
  | zero => simp [digits]
  | succ v ih =>
      rw [Nat.succ_add_eq_add_succ, Nat.add_succ, digits, ih, digits, Nat.div_div_eq_div_mul,
        ← pow_add, Nat.add_comm w v, List.cons_append]

/-- The digits do not show the multiples of a greater power of the base. -/
theorem digits_mod {w k : ℕ} (n : ℕ) (h : w ≤ k) : digits b w (n % b ^ k) = digits b w n := by
  induction w with
  | zero => rfl
  | succ w ih =>
      have hsplit : b ^ k = b ^ w * b ^ (k - w) := by rw [← pow_add, Nat.add_sub_cancel' (by omega)]
      have hdvd : b ∣ b ^ (k - w) := dvd_pow_self b (by omega)
      rw [digits, digits, ih (by omega), hsplit, Nat.mod_mul_right_div_self,
        Nat.mod_mod_of_dvd _ hdvd]

/-- A digit to a power of the base is so many digits to the base. -/
theorem digits_pow (k w n : ℕ) :
    (digits (b ^ k) w n).flatMap (digits b k) = digits b (k * w) n := by
  induction w with
  | zero => rfl
  | succ w ih =>
      rw [digits, List.flatMap_cons, ih, digits_mod _ le_rfl, ← pow_mul, Nat.mul_succ, Nat.add_comm,
        digits_add]

/-- The number that digits stand for. -/
def value (b : ℕ) : List ℕ → ℕ
  | [] => 0
  | d :: ds => d * b ^ ds.length + value b ds

theorem value_lt {ds : List ℕ} (h : ∀ d ∈ ds, d < b) : value b ds < b ^ ds.length := by
  induction ds with
  | nil => simp [value]
  | cons d ds ih =>
      have hrest := ih fun e he => h e (List.mem_cons_of_mem d he)
      have hstep := Nat.mul_le_mul_right (b ^ ds.length) (Nat.succ_le_of_lt (h d List.mem_cons_self))
      rw [Nat.succ_mul] at hstep
      rw [value, List.length_cons, pow_succ']
      omega

theorem value_append (ds es : List ℕ) :
    value b (ds ++ es) = value b ds * b ^ es.length + value b es := by
  induction ds with
  | nil => simp [value]
  | cons d ds ih =>
      rw [List.cons_append, value, value, ih, List.length_append, pow_add]
      ring

theorem value_digits (w n : ℕ) : value b (digits b w n) = n % b ^ w := by
  induction w with
  | zero => simp [value, digits, Nat.mod_one]
  | succ w ih =>
      rw [digits, value, length_digits, ih, Nat.mod_pow_succ]
      ring

theorem length_flatMap_digits (k : ℕ) (ds : List ℕ) :
    (ds.flatMap (digits b k)).length = k * ds.length := by
  induction ds with
  | nil => rfl
  | cons d ds ih =>
      rw [List.flatMap_cons, List.length_append, length_digits, ih, List.length_cons]
      ring

theorem value_flatMap_digits {k : ℕ} {ds : List ℕ} (h : ∀ d ∈ ds, d < b ^ k) :
    value b (ds.flatMap (digits b k)) = value (b ^ k) ds := by
  induction ds with
  | nil => rfl
  | cons d ds ih =>
      rw [List.flatMap_cons, value_append, value_digits, length_flatMap_digits, value,
        Nat.mod_eq_of_lt (h d List.mem_cons_self),
        ih fun e he => h e (List.mem_cons_of_mem d he), pow_mul]

/-! ### Numerals -/

/-- The numeral of a number: its digits, each written with its character. -/
def numeral {β : Type} (f : ℕ → β) (b w n : ℕ) : List β := (digits b w n).map f

variable {β : Type} {f : ℕ → β} {w m n : ℕ}

@[simp] theorem length_numeral (f : ℕ → β) (b w n : ℕ) : (numeral f b w n).length = w := by
  rw [numeral, List.length_map, length_digits]

theorem numeral_succ (f : ℕ → β) (b w n : ℕ) :
    numeral f b (w + 1) n = f (n / b ^ w % b) :: numeral f b w n := rfl

theorem numeral_succ_last (f : ℕ → β) (b w n : ℕ) :
    numeral f b (w + 1) n = numeral f b w (n / b) ++ [f (n % b)] := by
  rw [numeral, digits_succ, List.map_append]
  rfl

/-- The numeral from the powers of the base, the greatest first. -/
theorem map_range_reverse (f : ℕ → β) (b w n : ℕ) :
    ((List.range w).reverse.map fun k => f (n / b ^ k % b)) = numeral f b w n := by
  induction w with
  | zero => rfl
  | succ w ih =>
      rw [List.range_succ, List.reverse_append, List.reverse_singleton, List.singleton_append,
        List.map_cons, ih, numeral_succ]

theorem exists_of_mem_numeral (hb : 0 < b) {c : β} (h : c ∈ numeral f b w n) :
    ∃ d < b, f d = c := by
  obtain ⟨d, hd, rfl⟩ := List.mem_map.1 h
  exact ⟨d, lt_of_mem_digits hb hd, rfl⟩

variable [LinearOrder β]

theorem numeral_lt_numeral (hb : 0 < b) (hf : StrictMonoOn f {d | d < b}) (hm : m < b ^ w)
    (hn : n < b ^ w) : numeral f b w m < numeral f b w n ↔ m < n := by
  rw [numeral, numeral, map_lt_map_iff hf (fun _ => lt_of_mem_digits hb)
    (fun _ => lt_of_mem_digits hb), digits_lt_digits hb hm hn]

theorem numeral_inj (hb : 0 < b) (hf : StrictMonoOn f {d | d < b}) (hm : m < b ^ w)
    (hn : n < b ^ w) : numeral f b w m = numeral f b w n ↔ m = n := by
  constructor
  · intro h
    by_contra hne
    rcases lt_or_gt_of_ne hne with hlt | hgt
    · exact absurd ((numeral_lt_numeral hb hf hm hn).2 hlt) (by rw [h]; exact lt_irrefl _)
    · exact absurd ((numeral_lt_numeral hb hf hn hm).2 hgt) (by rw [h]; exact lt_irrefl _)
  · exact fun h => by rw [h]

/-! ### Words of numerals -/

/-- The numerals of several numbers, each of its width and with its mark behind it. -/
def fields (f : ℕ → β) (b : ℕ) : List (ℕ × List β) → List ℕ → List β
  | (w, mark) :: shape, n :: ns => numeral f b w n ++ (mark ++ fields f b shape ns)
  | _, _ => []

/-- **Words of numerals are compared as the numbers are, the first difference first.** -/
theorem fields_lt_fields (hb : 0 < b) (hf : StrictMonoOn f {d | d < b})
    {shape : List (ℕ × List β)} {ms ns : List ℕ}
    (hms : List.Forall₂ (fun p m => m < b ^ p.1) shape ms)
    (hns : List.Forall₂ (fun p n => n < b ^ p.1) shape ns) :
    fields f b shape ms < fields f b shape ns ↔ ms < ns := by
  induction hms generalizing ns with
  | nil =>
      cases hns
      simp [fields]
  | cons hm _ ih =>
      cases hns with
      | cons hn hns =>
          rw [fields, fields, append_lt_append_iff _ _ (by simp), append_lt_append_iff _ _ rfl,
            numeral_lt_numeral hb hf hm hn, numeral_inj hb hf hm hn, ih hns, List.cons_lt_cons_iff]
          simp

end Positional
