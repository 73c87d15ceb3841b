/-
**SHA-256** (FIPS 180-4).

The hash of a bit string of less than 2^64 bits.  The string is padded to blocks of 512 bits, and
the blocks are folded into eight words of 32 bits with a compression function.

Main definitions:

* `Sha256.pad` — the padded string: one bit 1, the least number of zeros, the length in 64 bits;
* `Sha256.rootBits` — the constants: the first bits of the fractional parts of roots of primes;
* `Sha256.messageSchedule`, `Sha256.round`, `Sha256.compress` — the compression of a block;
* `Sha256.hash` — the hash.

Main results:

* `Sha256.zeros_isLeast`, `Sha256.zeros_eq` — the number of zeros;
* `Sha256.rootBits_eq` — a constant from the whole powers on its two sides.
-/

import Hekma.Lib.BitStrings
import Mathlib.Analysis.SpecialFunctions.Pow.Real

set_option relaxedAutoImplicit false
set_option autoImplicit false

namespace Sha256

open BitStrings (bits number blocks)

/-- The words of SHA-256. -/
abbrev Word := BitVec 32

/-! ### Functions (section 4.1.2) -/

def rotr (n : ℕ) (x : Word) : Word := x >>> n ||| x <<< (32 - n)

def ch (x y z : Word) : Word := (x &&& y) ^^^ (~~~x &&& z)

def maj (x y z : Word) : Word := (x &&& y) ^^^ (x &&& z) ^^^ (y &&& z)

def bigSigma0 (x : Word) : Word := rotr 2 x ^^^ rotr 13 x ^^^ rotr 22 x

def bigSigma1 (x : Word) : Word := rotr 6 x ^^^ rotr 11 x ^^^ rotr 25 x

def smallSigma0 (x : Word) : Word := rotr 7 x ^^^ rotr 18 x ^^^ (x >>> 3)

def smallSigma1 (x : Word) : Word := rotr 17 x ^^^ rotr 19 x ^^^ (x >>> 10)

/-! ### Constants (sections 4.2.2 and 5.3.3) -/

/-- The first 32 bits of the fractional part of a root. -/
noncomputable def rootBits (k p : ℕ) : Word :=
  BitVec.ofNat 32 ⌊Int.fract ((p : ℝ) ^ (1 / k : ℝ)) * 2 ^ 32⌋₊

/-- The first sixty-four primes. -/
def primes : List ℕ := (List.range 312).filter Nat.Prime

/-- The constants of the rounds: from the cube roots of the first sixty-four primes. -/
noncomputable def roundConstant (t : ℕ) : Word := rootBits 3 (primes.getD t 0)

/-- The eight words of a hash value, and the working variables of a round. -/
@[ext] structure Vars where
  a : Word
  b : Word
  c : Word
  d : Word
  e : Word
  f : Word
  g : Word
  h : Word
  deriving DecidableEq

/-- The initial hash value: from the square roots of the first eight primes. -/
noncomputable def initial : Vars :=
  ⟨rootBits 2 2, rootBits 2 3, rootBits 2 5, rootBits 2 7, rootBits 2 11, rootBits 2 13,
    rootBits 2 17, rootBits 2 19⟩

/-! ### Padding (section 5.1.1) -/

/-- The least number of zeros with which a string, its bit 1 and its length fill whole blocks. -/
noncomputable def zeros (l : ℕ) : ℕ := sInf {k | (l + 1 + k) % 512 = 448}

/-- The padded string. -/
noncomputable def pad (m : List Bool) : List Bool :=
  m ++ true :: (List.replicate (zeros m.length) false ++ bits 64 m.length)

/-! ### The hash (section 6.2) -/

/-- A word of a block. -/
def blockWord (block : List Bool) (t : ℕ) : Word :=
  BitVec.ofNat 32 (number ((block.drop (32 * t)).take 32))

/-- The message schedule of a block. -/
def messageSchedule (block : List Bool) (t : ℕ) : Word :=
  if t < 16 then blockWord block t
  else smallSigma1 (messageSchedule block (t - 2)) + messageSchedule block (t - 7) +
    smallSigma0 (messageSchedule block (t - 15)) + messageSchedule block (t - 16)
termination_by t

/-- One round, with its constant and its word of the schedule. -/
def round (k w : Word) (v : Vars) : Vars :=
  let t1 := v.h + bigSigma1 v.e + ch v.e v.f v.g + k + w
  let t2 := bigSigma0 v.a + maj v.a v.b v.c
  ⟨t1 + t2, v.a, v.b, v.c, v.d + t1, v.e, v.f, v.g⟩

/-- The first rounds. -/
noncomputable def rounds (block : List Bool) (v : Vars) : ℕ → Vars
  | 0 => v
  | t + 1 => round (roundConstant t) (messageSchedule block t) (rounds block v t)

def Vars.add (v w : Vars) : Vars :=
  ⟨v.a + w.a, v.b + w.b, v.c + w.c, v.d + w.d, v.e + w.e, v.f + w.f, v.g + w.g, v.h + w.h⟩

/-- The compression of a block into a hash value. -/
noncomputable def compress (v : Vars) (block : List Bool) : Vars := v.add (rounds block v 64)

/-- The words of a hash value one after the other. -/
def Vars.words (v : Vars) : List Word := [v.a, v.b, v.c, v.d, v.e, v.f, v.g, v.h]

/-- **The hash of a bit string.** -/
noncomputable def hash (m : List Bool) : List Bool :=
  ((blocks 512 (pad m)).foldl compress initial).words.flatMap fun w => bits 32 w.toNat

/-! ### The number of zeros -/

theorem zeros_isLeast (l : ℕ) : IsLeast {k | (l + 1 + k) % 512 = 448} (zeros l) := by
  have hsome : {k | (l + 1 + k) % 512 = 448}.Nonempty :=
    ⟨(959 - l % 512) % 512, by
      change (l + 1 + (959 - l % 512) % 512) % 512 = 448
      omega⟩
  exact ⟨Nat.sInf_mem hsome, fun _ hk => Nat.sInf_le hk⟩

/-- The number of zeros is the rest that fills a block. -/
theorem zeros_eq {l k : ℕ} (hk : k < 512) (h : (l + 1 + k) % 512 = 448) : zeros l = k := by
  have hleast := zeros_isLeast l
  have hle : zeros l ≤ k := hleast.2 h
  have hmem : (l + 1 + zeros l) % 512 = 448 := hleast.1
  omega

/-! ### The bits of roots -/

/-- The first bits of a root, from the powers of the numbers below and above it. -/
theorem rootBits_eq {k p q n : ℕ} (hk : 0 < k) (hn : n < 2 ^ 32)
    (hle : (q * 2 ^ 32 + n) ^ k ≤ p * 2 ^ (32 * k))
    (hlt : p * 2 ^ (32 * k) < (q * 2 ^ 32 + n + 1) ^ k) : rootBits k p = BitVec.ofNat 32 n := by
  have hk' : (k : ℝ) ≠ 0 := by exact_mod_cast hk.ne'
  set x : ℝ := (p : ℝ) ^ (1 / k : ℝ) with hx
  have hx0 : 0 ≤ x := Real.rpow_nonneg (Nat.cast_nonneg p) _
  -- the power of the root, moved by 32 bits
  have hpow : (x * 2 ^ 32) ^ k = p * 2 ^ (32 * k) := by
    rw [mul_pow, hx, ← Real.rpow_natCast, ← Real.rpow_mul (Nat.cast_nonneg p),
      one_div_mul_cancel hk', Real.rpow_one, ← pow_mul]
  have hbelow : ((q * 2 ^ 32 + n : ℕ) : ℝ) ≤ x * 2 ^ 32 := by
    refine le_of_pow_le_pow_left₀ hk.ne' (by positivity) ?_
    rw [hpow]
    exact_mod_cast hle
  have habove : x * 2 ^ 32 < ((q * 2 ^ 32 + n + 1 : ℕ) : ℝ) := by
    refine lt_of_pow_lt_pow_left₀ k (by positivity) ?_
    rw [hpow]
    exact_mod_cast hlt
  push_cast at hbelow habove
  have hn' : (n : ℝ) + 1 ≤ 2 ^ 32 := by exact_mod_cast hn
  have hfloor : ⌊x⌋ = (q : ℤ) := by
    rw [Int.floor_eq_iff]
    constructor <;> push_cast <;> nlinarith
  have hfract : Int.fract x * 2 ^ 32 = x * 2 ^ 32 - q * 2 ^ 32 := by
    rw [Int.fract, hfloor]
    push_cast
    ring
  have hbits : ⌊Int.fract x * 2 ^ 32⌋₊ = n := by
    rw [hfract, Nat.floor_eq_iff (by linarith [Nat.cast_nonneg (α := ℝ) n])]
    constructor <;> linarith
  rw [rootBits, ← hx, hbits]

end Sha256
