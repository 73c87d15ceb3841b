/-
**Percent encoding.**

A byte that may not stand in a text is written as a percent sign and two hexadecimal digits.  A
reader takes every such triple for its byte and everything else as it stands.  It reads back what was
written as long as the percent sign itself is never written plainly.

Main definitions:

* `Percent.encode` — the text of some bytes, for a set of bytes that stand for themselves;
* `Percent.decode` — the bytes of a text.

Main results:

* `Percent.decode_encode` — **a text is read back**;
* `Percent.length_le_encode`, `Percent.length_lt_encode` — the text is not shorter than the bytes.
-/

import Mathlib.Data.List.Basic
import Mathlib.Tactic.Common

set_option relaxedAutoImplicit false
set_option autoImplicit false

namespace Percent

/-- The percent sign. -/
def sign : UInt8 := 0x25

/-- The hexadecimal digit of a number below sixteen. -/
def hexDigit (n : ℕ) : UInt8 := if n < 10 then UInt8.ofNat (0x30 + n) else UInt8.ofNat (0x37 + n)

/-- The number of a hexadecimal digit, of either case. -/
def hexValue (b : UInt8) : Option ℕ :=
  if 0x30 ≤ b ∧ b ≤ 0x39 then some (b.toNat - 0x30)
  else if 0x41 ≤ b ∧ b ≤ 0x46 then some (b.toNat - 0x37)
  else if 0x61 ≤ b ∧ b ≤ 0x66 then some (b.toNat - 0x57)
  else none

/-- A byte, plainly or as an escape. -/
def encodeByte (plain : UInt8 → Bool) (b : UInt8) : List UInt8 :=
  if plain b then [b] else [sign, hexDigit (b.toNat / 16), hexDigit (b.toNat % 16)]

/-- The text of some bytes. -/
def encode (plain : UInt8 → Bool) (bytes : List UInt8) : List UInt8 :=
  bytes.flatMap (encodeByte plain)

/-- The byte of an escape. -/
def escaped (a high low : UInt8) : Option UInt8 :=
  if a = sign then
    match hexValue high, hexValue low with
    | some h, some l => some (UInt8.ofNat (16 * h + l))
    | _, _ => none
  else none

/-- The bytes of a text.  What is not an escape stands for itself. -/
def decode : List UInt8 → List UInt8
  | [] => []
  | [a] => [a]
  | [a, b] => [a, b]
  | a :: high :: low :: rest =>
      match escaped a high low with
      | some b => b :: decode rest
      | none => a :: decode (high :: low :: rest)

variable {plain : UInt8 → Bool} {b : UInt8} {l t : List UInt8}

@[simp] theorem encode_nil : encode plain [] = [] := rfl

theorem encode_cons (b : UInt8) (l : List UInt8) :
    encode plain (b :: l) = encodeByte plain b ++ encode plain l := List.flatMap_cons

theorem encode_append (l t : List UInt8) :
    encode plain (l ++ t) = encode plain l ++ encode plain t := List.flatMap_append

/-! ### Reading back -/

theorem hexValue_hexDigit {n : ℕ} (h : n < 16) : hexValue (hexDigit n) = some n := by
  have hall : ∀ k : Fin 16, hexValue (hexDigit k) = some k.1 := by decide
  exact hall ⟨n, h⟩

theorem decode_cons_of_ne (h : b ≠ sign) (rest : List UInt8) :
    decode (b :: rest) = b :: decode rest := by
  match rest with
  | [] => rfl
  | [_] => rfl
  | high :: low :: rest => rw [decode, escaped, if_neg h]

theorem escaped_hexDigit (b : UInt8) :
    escaped sign (hexDigit (b.toNat / 16)) (hexDigit (b.toNat % 16)) = some b := by
  have hb : b.toNat < 256 := b.toNat_lt
  rw [escaped, if_pos rfl, hexValue_hexDigit (by omega), hexValue_hexDigit (by omega)]
  have hsum : 16 * (b.toNat / 16) + b.toNat % 16 = b.toNat := Nat.div_add_mod _ _
  dsimp only
  rw [hsum, UInt8.ofNat_toNat]

theorem decode_encodeByte (hsign : plain sign = false) (b : UInt8) (rest : List UInt8) :
    decode (encodeByte plain b ++ rest) = b :: decode rest := by
  unfold encodeByte
  split
  · rename_i hplain
    have hne : b ≠ sign := by
      rintro rfl
      rw [hsign] at hplain
      cases hplain
    exact decode_cons_of_ne hne rest
  · rw [List.cons_append, List.cons_append, List.cons_append, List.nil_append, decode,
      escaped_hexDigit]

/-- **A text is read back.** -/
theorem decode_encode (hsign : plain sign = false) (l : List UInt8) :
    decode (encode plain l) = l := by
  induction l with
  | nil => rfl
  | cons b l ih => rw [encode_cons, decode_encodeByte hsign, ih]

/-! ### Lengths -/

theorem length_le_encode (plain : UInt8 → Bool) (l : List UInt8) :
    l.length ≤ (encode plain l).length := by
  induction l with
  | nil => exact Nat.le_refl _
  | cons b l ih =>
      have hone : 1 ≤ (encodeByte plain b).length := by
        unfold encodeByte
        split <;> simp
      rw [encode_cons, List.length_append, List.length_cons]
      omega

/-- An escape is longer than its byte. -/
theorem length_lt_encode (hmem : b ∈ l) (hb : plain b = false) :
    l.length < (encode plain l).length := by
  obtain ⟨before, after, rfl⟩ := List.append_of_mem hmem
  have hthree : (encodeByte plain b).length = 3 := by simp [encodeByte, hb]
  have hbefore := length_le_encode plain before
  have hafter := length_le_encode plain after
  rw [encode_append, encode_cons, List.length_append, List.length_append, List.length_append,
    List.length_cons, hthree]
  omega

/-- What begins some bytes is not longer in the text. -/
theorem length_encode_le (h : l <+: t) : (encode plain l).length ≤ (encode plain t).length := by
  obtain ⟨rest, rfl⟩ := h
  rw [encode_append, List.length_append]
  exact Nat.le_add_right _ _

-- both cases of a digit are read, and what is no escape is kept
example : decode [0x25, 0x34, 0x61, 0x25, 0x7A, 0x7A, 0x25, 0x34] =
    [0x4A, 0x25, 0x7A, 0x7A, 0x25, 0x34] := by decide

end Percent
