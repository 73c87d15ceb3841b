/-
**Bit strings and blocks.**

A number is written in bits, the most significant first, and bytes are written in eight bits each.
A string is read in blocks of one length, and what is left over behind them is shorter than a block.

Main definitions:

* `BitStrings.bits`, `BitStrings.number` — the last bits of a number, and the number of bits;
* `BitStrings.toBits` — the bits of bytes;
* `BitStrings.blocks` — the whole blocks of a string.

Main results:

* `BitStrings.toBits_bytes` — the bytes of a number have its bits;
* `BitStrings.number_toBits` — and the bits of bytes their number;
* `BitStrings.blocks_append` — the blocks of a string that begins with whole blocks;
* `BitStrings.blocks_toBits` — the blocks of bytes have the blocks of their bits.
-/

import Hekma.Lib.Positional

set_option relaxedAutoImplicit false
set_option autoImplicit false

namespace BitStrings

open Positional (digits value)

/-! ### Blocks -/

section

variable {α β : Type}

/-- The whole blocks of a string. -/
def blocks (n : ℕ) (l : List α) : List (List α) :=
  (List.range (l.length / n)).map fun i => (l.drop (n * i)).take n

variable {n : ℕ}

theorem length_of_mem_blocks {l block : List α} (h : block ∈ blocks n l) : block.length = n := by
  obtain ⟨i, hi, rfl⟩ := List.mem_map.1 h
  have hn : 0 < n := Nat.pos_of_ne_zero fun h0 => by simp [h0] at hi
  have hle : n * (i + 1) ≤ l.length := by
    rw [mul_comm]
    exact (Nat.le_div_iff_mul_le hn).1 (Nat.succ_le_of_lt (List.mem_range.1 hi))
  rw [Nat.mul_succ] at hle
  rw [List.length_take, List.length_drop]
  omega

@[simp] theorem blocks_nil (n : ℕ) : blocks n ([] : List α) = [] := by simp [blocks]

/-- A string that begins with a block. -/
theorem blocks_cons {block : List α} (hn : 0 < n) (hblock : block.length = n) (l : List α) :
    blocks n (block ++ l) = block :: blocks n l := by
  have hlength : (block ++ l).length / n = l.length / n + 1 := by
    rw [List.length_append, hblock, Nat.add_div_left _ hn]
  rw [blocks, hlength, List.range_succ_eq_map, List.map_cons, List.map_map]
  congr 1
  · rw [Nat.mul_zero, List.drop_zero, ← hblock, List.take_left]
  · refine List.map_congr_left fun i _ => ?_
    rw [Function.comp_apply, Nat.mul_succ, Nat.add_comm, ← List.drop_drop, ← hblock,
      List.drop_left]

/-- The blocks of a string that begins with whole blocks. -/
theorem blocks_append {k : ℕ} {l : List α} (hn : 0 < n) (hl : l.length = n * k) (l' : List α) :
    blocks n (l ++ l') = blocks n l ++ blocks n l' := by
  induction k generalizing l with
  | zero =>
      obtain rfl := List.length_eq_zero_iff.1 hl
      simp
  | succ k ih =>
      rw [Nat.mul_succ] at hl
      have htake : (l.take n).length = n := by
        rw [List.length_take]
        omega
      have hdrop : (l.drop n).length = n * k := by
        rw [List.length_drop]
        omega
      rw [← List.take_append_drop n l, List.append_assoc, blocks_cons hn htake,
        blocks_cons hn htake, ih hdrop, List.cons_append]

theorem blocks_single {block : List α} (hn : 0 < n) (hblock : block.length = n) :
    blocks n block = [block] := by
  have h := blocks_cons hn hblock []
  rwa [List.append_nil, blocks_nil] at h

/-- What is left over is shorter than a block. -/
theorem length_rest (n : ℕ) (l : List α) :
    (l.drop (n * (l.length / n))).length = l.length % n := by
  have h := Nat.div_add_mod l.length n
  rw [List.length_drop]
  omega

theorem length_whole (l : List α) :
    (l.take (n * (l.length / n))).length = n * (l.length / n) := by
  rw [List.length_take]
  exact min_eq_left (Nat.mul_div_le _ _)

/-- A string has the blocks of its part that is made of whole blocks. -/
theorem blocks_take (hn : 0 < n) (l : List α) :
    blocks n (l.take (n * (l.length / n))) = blocks n l := by
  have hrest : blocks n (l.drop (n * (l.length / n))) = [] := by
    rw [blocks, length_rest, Nat.div_eq_of_lt (Nat.mod_lt _ hn)]
    rfl
  have h := blocks_append hn (length_whole l) (l.drop (n * (l.length / n)))
  rw [List.take_append_drop, hrest, List.append_nil] at h
  exact h.symm

end

/-! ### Bits -/

/-- The last `w` bits of a number. -/
def bits (w n : ℕ) : List Bool := (digits 2 w n).map (· == 1)

/-- The number of bits. -/
def number (s : List Bool) : ℕ := value 2 (s.map Bool.toNat)

@[simp] theorem length_bits (w n : ℕ) : (bits w n).length = w := by simp [bits]

theorem map_toNat_bits {ds : List ℕ} (h : ∀ d ∈ ds, d < 2) :
    (ds.map (· == 1)).map Bool.toNat = ds := by
  rw [List.map_map]
  refine (List.map_congr_left fun d hd => ?_).trans (List.map_id _)
  have hd := h d hd
  interval_cases d <;> rfl

/-! ### The bits of bytes -/

/-- The bits of bytes, eight for each. -/
def toBits (bytes : List UInt8) : List Bool := bytes.flatMap fun byte => bits 8 byte.toNat

/-- The last `w` bytes of a number. -/
def bytes (w n : ℕ) : List UInt8 := (digits 256 w n).map UInt8.ofNat

@[simp] theorem length_bytes (w n : ℕ) : (bytes w n).length = w := by simp [bytes]

theorem map_toNat_bytes (w n : ℕ) : (bytes w n).map UInt8.toNat = digits 256 w n := by
  rw [bytes, List.map_map]
  refine (List.map_congr_left fun d hd => ?_).trans (List.map_id _)
  exact Nat.mod_eq_of_lt (Positional.lt_of_mem_digits (by omega) hd)

theorem toBits_eq (l : List UInt8) :
    toBits l = ((l.map UInt8.toNat).flatMap (digits 2 8)).map (· == 1) := by
  rw [List.map_flatMap, List.flatMap_map]
  rfl

@[simp] theorem length_toBits (l : List UInt8) : (toBits l).length = 8 * l.length := by
  rw [toBits_eq, List.length_map, Positional.length_flatMap_digits, List.length_map]

@[simp] theorem toBits_append (l l' : List UInt8) : toBits (l ++ l') = toBits l ++ toBits l' :=
  List.flatMap_append

theorem toBits_cons (byte : UInt8) (l : List UInt8) :
    toBits (byte :: l) = bits 8 byte.toNat ++ toBits l := List.flatMap_cons

theorem toBits_replicate_zero (k : ℕ) :
    toBits (List.replicate k 0) = List.replicate (8 * k) false := by
  induction k with
  | zero => rfl
  | succ k ih =>
      rw [List.replicate_succ, toBits_cons, ih, Nat.mul_succ, Nat.add_comm,
        List.replicate_add]
      rfl

/-- **The bytes of a number have its bits.** -/
theorem toBits_bytes (w n : ℕ) : toBits (bytes w n) = bits (8 * w) n := by
  rw [toBits_eq, map_toNat_bytes, show (256 : ℕ) = 2 ^ 8 from rfl, Positional.digits_pow]
  rfl

/-- **The bits of bytes have their number.** -/
theorem number_toBits (l : List UInt8) : number (toBits l) = value 256 (l.map UInt8.toNat) := by
  rw [number, toBits_eq, map_toNat_bits]
  · refine Positional.value_flatMap_digits fun d hd => ?_
    obtain ⟨byte, _, rfl⟩ := List.mem_map.1 hd
    exact byte.toNat_lt
  · intro d hd
    obtain ⟨_, _, hd⟩ := List.mem_flatMap.1 hd
    exact Positional.lt_of_mem_digits (by omega) hd

theorem toBits_drop (l : List UInt8) (i : ℕ) : (toBits l).drop (8 * i) = toBits (l.drop i) := by
  induction l generalizing i with
  | nil => simp [toBits]
  | cons byte l ih =>
      cases i with
      | zero => rfl
      | succ i =>
          rw [toBits_cons, Nat.mul_succ, Nat.add_comm, ← List.drop_drop,
            List.drop_left' (length_bits 8 _), ih, List.drop_succ_cons]

theorem toBits_take (l : List UInt8) (i : ℕ) : (toBits l).take (8 * i) = toBits (l.take i) := by
  induction l generalizing i with
  | nil => simp [toBits]
  | cons byte l ih =>
      cases i with
      | zero => rfl
      | succ i =>
          rw [toBits_cons, Nat.mul_succ, Nat.add_comm, List.take_append, List.take_of_length_le,
            length_bits, Nat.add_sub_cancel_left, ih, List.take_succ_cons, toBits_cons]
          rw [length_bits]
          omega

/-- The blocks of bytes have the blocks of their bits. -/
theorem blocks_toBits (n : ℕ) (l : List UInt8) :
    blocks (8 * n) (toBits l) = (blocks n l).map toBits := by
  rw [blocks, blocks, length_toBits, Nat.mul_div_mul_left _ _ (by omega), List.map_map]
  refine List.map_congr_left fun i _ => ?_
  rw [Function.comp_apply, Nat.mul_assoc, toBits_drop, toBits_take]

end BitStrings
