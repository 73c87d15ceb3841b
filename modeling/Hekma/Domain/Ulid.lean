/-
**The text of a Run id** (`domain/usage.rs`).

A Run id is the word `run_` and a number of 128 bits in 26 characters of base 32.  The number is 48
bits of milliseconds and 80 random bits.  The characters stand in the order of their digits, so the
texts of two ids are compared as their numbers are, and ids that are minted later come later.

Main definitions:

* `ulidValue`, `encodeUlid` — the number of a ULID, and its text;
* `RunId.mint` — a fresh Run id.

Main results:

* `encodeUlid_eq_numeral` — the text is the numeral of the number;
* `encodeUlid_order` — **the text keeps the order of the numbers**.
-/

import Hekma.Lib.Positional
import Mathlib.Data.List.GetD
import Mathlib.Data.String.Basic

set_option relaxedAutoImplicit false
set_option autoImplicit false

namespace Hekma

open Positional (value digits numeral)

/-! ### The number -/

/-- The Crockford base32 alphabet a ULID renders in (no I, L, O, U). -/
def crockford : List Char := "0123456789ABCDEFGHJKMNPQRSTVWXYZ".toList

/-- The character of a digit. -/
def crockfordAt (d : ℕ) : Char := crockford.getD d '0'

/-- The number of a ULID: a `u128` with the milliseconds above the random bytes. -/
def ulidValue (millis : UInt64) (random : Vector UInt8 10) : ℕ :=
  random.toList.zipIdx.foldl
    (fun number p => number ||| p.1.toNat <<< (8 * (9 - p.2)))
    ((millis.toNat <<< 80) % 2 ^ 128)

/-- The text of a ULID: 26 groups of five bits, the first for the top three bits. -/
def encodeUlid (millis : UInt64) (random : Vector UInt8 10) : String :=
  String.ofList ((List.range 26).reverse.map fun group =>
    crockfordAt ((ulidValue millis random >>> (5 * group)) &&& 0x1F))

/-- The first characters of every Run id. -/
def runIdHead : List Char := "run_".toList

/-- A fresh Run id, from the clock's milliseconds and the random bytes. -/
def RunId.mint (now : ℕ) (random : Vector UInt8 10) : String :=
  String.ofList (runIdHead ++
    (encodeUlid (UInt64.ofNat now &&& (((1 : UInt64) <<< 48) - 1)) random).toList)

/-! ### The number in its parts -/

/-- The bytes are put below what the number already has, one after the other. -/
theorem foldl_bytes (bytes : List UInt8) (i number : ℕ) (hi : i + bytes.length = 10)
    (hnumber : 2 ^ (8 * bytes.length) ∣ number) :
    (bytes.zipIdx i).foldl (fun number p => number ||| p.1.toNat <<< (8 * (9 - p.2))) number =
      number + value 256 (bytes.map UInt8.toNat) := by
  induction bytes generalizing i number with
  | nil => rfl
  | cons byte bytes ih =>
      rw [List.length_cons] at hi hnumber
      obtain ⟨high, rfl⟩ := hnumber
      have hbyte : byte.toNat < 2 ^ 8 := byte.toNat_lt
      have hplace : 8 * (9 - i) = 8 * bytes.length := by omega
      have hpow : 2 ^ (8 * (bytes.length + 1)) = 2 ^ (8 * bytes.length) * 2 ^ 8 := by
        rw [← pow_add]
        rfl
      have hbase : (256 : ℕ) ^ bytes.length = 2 ^ (8 * bytes.length) := by
        rw [pow_mul]
        rfl
      -- the byte is smaller than the unit of the number above it, so the bits do not overlap
      have hor : 2 ^ (8 * (bytes.length + 1)) * high ||| byte.toNat <<< (8 * (9 - i)) =
          2 ^ (8 * bytes.length) * (2 ^ 8 * high + byte.toNat) := by
        rw [hplace, Nat.shiftLeft_eq, ← Nat.two_pow_add_eq_or_of_lt]
        · rw [hpow]
          ring
        · rw [hpow, mul_comm]
          exact Nat.mul_lt_mul_of_pos_left hbyte (by positivity)
      rw [List.zipIdx_cons, List.foldl_cons, hor, ih (i + 1) _ (by omega) (Nat.dvd_mul_right _ _),
        List.map_cons, value, List.length_map, hbase, hpow]
      ring

/-- The number of the random bytes. -/
def randomValue (random : Vector UInt8 10) : ℕ := value 256 (random.toList.map UInt8.toNat)

theorem randomValue_lt (random : Vector UInt8 10) : randomValue random < 2 ^ 80 := by
  have hbytes : ∀ d ∈ random.toList.map UInt8.toNat, d < 256 := by
    intro d hd
    obtain ⟨byte, _, rfl⟩ := List.mem_map.1 hd
    exact byte.toNat_lt
  have h := Positional.value_lt hbytes
  rw [List.length_map, Vector.length_toList] at h
  exact h

/-- **The number is the low 48 bits of the milliseconds above the random bytes.** -/
theorem ulidValue_eq (millis : UInt64) (random : Vector UInt8 10) :
    ulidValue millis random = millis.toNat % 2 ^ 48 * 2 ^ 80 + randomValue random := by
  have hhigh : (millis.toNat <<< 80) % 2 ^ 128 = millis.toNat % 2 ^ 48 * 2 ^ 80 := by
    rw [Nat.shiftLeft_eq]
    omega
  rw [ulidValue, hhigh, foldl_bytes _ 0]
  · rfl
  · rw [Vector.length_toList]
  · rw [Vector.length_toList]
    exact Nat.dvd_mul_left _ _

theorem ulidValue_lt (millis : UInt64) (random : Vector UInt8 10) :
    ulidValue millis random < 2 ^ 128 := by
  have hrandom := randomValue_lt random
  rw [ulidValue_eq]
  omega

/-- Every number of 128 bits is the number of a ULID. -/
theorem exists_ulidValue {n : ℕ} (h : n < 2 ^ 128) :
    ∃ millis random, ulidValue millis random = n := by
  have hbytes : ((digits 256 10 n).map UInt8.ofNat).length = 10 := by simp
  have hback : ((digits 256 10 n).map UInt8.ofNat).map UInt8.toNat = digits 256 10 n := by
    rw [List.map_map]
    refine (List.map_congr_left fun d hd => ?_).trans (List.map_id _)
    exact Nat.mod_eq_of_lt (Positional.lt_of_mem_digits (by omega) hd)
  have hmillis : (UInt64.ofNat (n / 2 ^ 80)).toNat = n / 2 ^ 80 := by
    rw [UInt64.toNat_ofNat']
    omega
  refine ⟨UInt64.ofNat (n / 2 ^ 80), ⟨⟨(digits 256 10 n).map UInt8.ofNat⟩, hbytes⟩, ?_⟩
  rw [ulidValue_eq, hmillis, randomValue, Vector.toList_mk, hback, Positional.value_digits]
  omega

/-! ### The text -/

theorem crockfordAt_strictMonoOn : StrictMonoOn crockfordAt {d | d < 32} := by
  have h : ∀ d < 32, ∀ e < 32, d < e → crockfordAt d < crockfordAt e := by decide +kernel
  exact fun d hd e he hde => h d hd e he hde

theorem crockfordAt_mem {d : ℕ} (h : d < 32) : crockfordAt d ∈ crockford := by
  rw [crockfordAt, List.getD_eq_getElem _ _ (by exact h)]
  exact List.getElem_mem _

/-- **The text of a ULID is the numeral of its number** to the base 32. -/
theorem toList_encodeUlid (millis : UInt64) (random : Vector UInt8 10) :
    (encodeUlid millis random).toList = numeral crockfordAt 32 26 (ulidValue millis random) := by
  rw [encodeUlid, String.toList_ofList, ← Positional.map_range_reverse]
  refine List.map_congr_left fun group _ => ?_
  rw [Nat.shiftRight_eq_div_pow, pow_mul, show (0x1F : ℕ) = 2 ^ 5 - 1 from rfl,
    Nat.and_two_pow_sub_one_eq_mod]
  rfl

theorem length_encodeUlid (millis : UInt64) (random : Vector UInt8 10) :
    (encodeUlid millis random).length = 26 := by
  rw [← String.length_toList, toList_encodeUlid, Positional.length_numeral]

theorem mem_encodeUlid {millis : UInt64} {random : Vector UInt8 10} {c : Char}
    (h : c ∈ (encodeUlid millis random).toList) : c ∈ crockford := by
  rw [toList_encodeUlid] at h
  obtain ⟨d, hd, rfl⟩ := Positional.exists_of_mem_numeral (by omega) h
  exact crockfordAt_mem hd

section

variable (millis millis' : UInt64) (random random' : Vector UInt8 10)

theorem encodeUlid_lt_iff : encodeUlid millis random < encodeUlid millis' random' ↔
    ulidValue millis random < ulidValue millis' random' := by
  have hlt := ulidValue_lt millis random
  have hlt' := ulidValue_lt millis' random'
  rw [String.lt_iff_toList_lt, toList_encodeUlid, toList_encodeUlid]
  exact Positional.numeral_lt_numeral (by omega) crockfordAt_strictMonoOn (by omega) (by omega)

theorem encodeUlid_inj : encodeUlid millis random = encodeUlid millis' random' ↔
    ulidValue millis random = ulidValue millis' random' := by
  have hlt := ulidValue_lt millis random
  have hlt' := ulidValue_lt millis' random'
  rw [← String.toList_inj, toList_encodeUlid, toList_encodeUlid]
  exact Positional.numeral_inj (by omega) crockfordAt_strictMonoOn (by omega) (by omega)

end

/-! ### Fresh ids -/

/-- The clock's milliseconds are kept up to 48 bits. -/
theorem toNat_millis (now : ℕ) :
    (UInt64.ofNat now &&& (((1 : UInt64) <<< 48) - 1)).toNat = now % 2 ^ 48 := by
  rw [UInt64.toNat_and, UInt64.toNat_ofNat',
    show (((1 : UInt64) <<< 48) - 1).toNat = 2 ^ 48 - 1 from rfl, Nat.and_two_pow_sub_one_eq_mod]
  exact Nat.mod_mod_of_dvd now (by decide)

/-- An id that is minted in a later millisecond has the greater text. -/
theorem mint_lt_mint {now now' : ℕ} (random random' : Vector UInt8 10) (h : now < now')
    (h' : now' < 2 ^ 48) : RunId.mint now random < RunId.mint now' random' := by
  have hrandom := randomValue_lt random
  rw [RunId.mint, RunId.mint, String.lt_iff_toList_lt, String.toList_ofList, String.toList_ofList]
  refine List.append_left_lt ?_
  rw [← String.lt_iff_toList_lt, encodeUlid_lt_iff, ulidValue_eq, ulidValue_eq, toNat_millis,
    toNat_millis]
  omega

/-- **The text of a ULID keeps the order of the 128-bit numbers.** -/
theorem encodeUlid_order (millis millis' : UInt64) (random random' : Vector UInt8 10) :
    ((encodeUlid millis random).length = 26 ∧
      ∀ c ∈ (encodeUlid millis random).toList, c ∈ crockford) ∧
    (encodeUlid millis random = encodeUlid millis' random' ↔
      ulidValue millis random = ulidValue millis' random') ∧
    (encodeUlid millis random < encodeUlid millis' random' ↔
      ulidValue millis random < ulidValue millis' random') ∧
    (∀ n, n < 2 ^ 128 ↔ ∃ m r, ulidValue m r = n) ∧
    (∀ now now', now < now' → now' < 2 ^ 48 → RunId.mint now random < RunId.mint now' random') := by
  refine ⟨⟨length_encodeUlid _ _, fun c hc => mem_encodeUlid hc⟩, encodeUlid_inj _ _ _ _,
    encodeUlid_lt_iff _ _ _ _, fun n => ⟨exists_ulidValue, ?_⟩,
    fun now now' h h' => mint_lt_mint random random' h h'⟩
  rintro ⟨m, r, rfl⟩
  exact ulidValue_lt m r

end Hekma
