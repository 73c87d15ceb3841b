/-
**The digest of a raw line** (`sha256.rs`).

The digest of the metadata records is computed here and not by a library: the whole blocks of the
data are compressed one after the other, and then one or two last blocks with the padding.  It is
shown to be the hash of FIPS 180-4 for data of less than 2^61 bytes.

Main definitions:

* `Digest.compress`, `Digest.digest` — the code.

Main results:

* `Digest.schedule_spec`, `Digest.rounds_spec`, `Digest.compress_spec` — the loops of the
  compression;
* `Digest.pad_toBits` — the last blocks are the padding;
* `Digest.digest_spec` — **the digest is SHA-256**.
-/

import Hekma.Lib.Sha256
import Mathlib.Data.List.GetD

set_option relaxedAutoImplicit false
set_option autoImplicit false

namespace Hekma.Digest

open BitStrings (blocks bytes toBits bits)
open Positional (value)
open Sha256 (Word Vars)

/-! ### The tables -/

/-- The initial hash state. -/
def H0 : Vars :=
  ⟨0x6a09e667, 0xbb67ae85, 0x3c6ef372, 0xa54ff53a, 0x510e527f, 0x9b05688c, 0x1f83d9ab, 0x5be0cd19⟩

/-- The constants of the rounds. -/
def K : List Word :=
  [0x428a2f98, 0x71374491, 0xb5c0fbcf, 0xe9b5dba5, 0x3956c25b, 0x59f111f1, 0x923f82a4, 0xab1c5ed5,
    0xd807aa98, 0x12835b01, 0x243185be, 0x550c7dc3, 0x72be5d74, 0x80deb1fe, 0x9bdc06a7, 0xc19bf174,
    0xe49b69c1, 0xefbe4786, 0x0fc19dc6, 0x240ca1cc, 0x2de92c6f, 0x4a7484aa, 0x5cb0a9dc, 0x76f988da,
    0x983e5152, 0xa831c66d, 0xb00327c8, 0xbf597fc7, 0xc6e00bf3, 0xd5a79147, 0x06ca6351, 0x14292967,
    0x27b70a85, 0x2e1b2138, 0x4d2c6dfc, 0x53380d13, 0x650a7354, 0x766a0abb, 0x81c2c92e, 0x92722c85,
    0xa2bfe8a1, 0xa81a664b, 0xc24b8b70, 0xc76c51a3, 0xd192e819, 0xd6990624, 0xf40e3585, 0x106aa070,
    0x19a4c116, 0x1e376c08, 0x2748774c, 0x34b0bcb5, 0x391c0cb3, 0x4ed8aa4a, 0x5b9cca4f, 0x682e6ff3,
    0x748f82ee, 0x78a5636f, 0x84c87814, 0x8cc70208, 0x90befffa, 0xa4506ceb, 0xbef9a3f7, 0xc67178f2]

/-! ### The compression of a block -/

/-- A word from four bytes, the most significant first. -/
def fromBeBytes (l : List UInt8) : Word := BitVec.ofNat 32 (value 256 (l.map UInt8.toNat))

/-- One entry of the schedule, from the entries before it. -/
def scheduleStep (w : List Word) (i : ℕ) : List Word :=
  let s0 := (w.getD (i - 15) 0).rotateRight 7 ^^^ (w.getD (i - 15) 0).rotateRight 18 ^^^
    (w.getD (i - 15) 0) >>> 3
  let s1 := (w.getD (i - 2) 0).rotateRight 17 ^^^ (w.getD (i - 2) 0).rotateRight 19 ^^^
    (w.getD (i - 2) 0) >>> 10
  w.set i (w.getD (i - 16) 0 + s0 + w.getD (i - 7) 0 + s1)

/-- The sixty-four words of a block: its own sixteen, and the others from them. -/
def schedule (block : List UInt8) : List Word :=
  (List.range' 16 48).foldl scheduleStep
    ((blocks 4 block).map fromBeBytes ++ List.replicate 48 0)

def roundStep (w : List Word) (v : Vars) (i : ℕ) : Vars :=
  let s1 := v.e.rotateRight 6 ^^^ v.e.rotateRight 11 ^^^ v.e.rotateRight 25
  let ch := (v.e &&& v.f) ^^^ (~~~v.e &&& v.g)
  let temp1 := v.h + s1 + ch + K.getD i 0 + w.getD i 0
  let s0 := v.a.rotateRight 2 ^^^ v.a.rotateRight 13 ^^^ v.a.rotateRight 22
  let maj := (v.a &&& v.b) ^^^ (v.a &&& v.c) ^^^ (v.b &&& v.c)
  let temp2 := s0 + maj
  { h := v.g
    g := v.f
    f := v.e
    e := v.d + temp1
    d := v.c
    c := v.b
    b := v.a
    a := temp1 + temp2 }

/-- The compression of one block of 64 bytes into the hash state. -/
def compress (h : Vars) (block : List UInt8) : Vars :=
  let w := schedule block
  let v := (List.range 64).foldl (roundStep w) h
  { a := h.a + v.a
    b := h.b + v.b
    c := h.c + v.c
    d := h.d + v.d
    e := h.e + v.e
    f := h.f + v.f
    g := h.g + v.g
    h := h.h + v.h }

/-! ### The digest -/

/-- The digest of some data: the whole blocks, then the rest with its padding, and one more block
when the length finds no room behind the rest. -/
def digest (data : List UInt8) : List UInt8 :=
  let bitLen := data.length * 8 % 2 ^ 64
  let h := (blocks 64 data).foldl compress H0
  let remainder := data.drop (64 * (data.length / 64))
  let last := (remainder ++ List.replicate (64 - remainder.length) 0).set remainder.length 0x80
  let (h, last) :=
    if remainder.length + 1 > 56 then (compress h last, List.replicate 64 0) else (h, last)
  let h := compress h (last.take 56 ++ bytes 8 bitLen)
  h.words.flatMap fun word => bytes 4 word.toNat

/-! ### The tables are the constants -/

theorem eq_rootBits (k p q : ℕ) (w : Word) (hk : 0 < k)
    (hle : (q * 2 ^ 32 + w.toNat) ^ k ≤ p * 2 ^ (32 * k))
    (hlt : p * 2 ^ (32 * k) < (q * 2 ^ 32 + w.toNat + 1) ^ k) : w = Sha256.rootBits k p := by
  rw [Sha256.rootBits_eq hk w.isLt hle hlt, BitVec.ofNat_toNat, BitVec.setWidth_eq]

theorem H0_eq : H0 = Sha256.initial :=
  Vars.ext (eq_rootBits 2 2 1 _ (by decide) (by decide) (by decide))
    (eq_rootBits 2 3 1 _ (by decide) (by decide) (by decide))
    (eq_rootBits 2 5 2 _ (by decide) (by decide) (by decide))
    (eq_rootBits 2 7 2 _ (by decide) (by decide) (by decide))
    (eq_rootBits 2 11 3 _ (by decide) (by decide) (by decide))
    (eq_rootBits 2 13 3 _ (by decide) (by decide) (by decide))
    (eq_rootBits 2 17 4 _ (by decide) (by decide) (by decide))
    (eq_rootBits 2 19 4 _ (by decide) (by decide) (by decide))

theorem K_eq {t : ℕ} (h : t < 64) : K.getD t 0 = Sha256.roundConstant t := by
  have hroots : ∀ t < 64, ∃ q < 7,
      (q * 2 ^ 32 + (K.getD t 0).toNat) ^ 3 ≤ Sha256.primes.getD t 0 * 2 ^ (32 * 3) ∧
      Sha256.primes.getD t 0 * 2 ^ (32 * 3) < (q * 2 ^ 32 + (K.getD t 0).toNat + 1) ^ 3 := by
    decide +kernel
  obtain ⟨q, _, hle, hlt⟩ := hroots t h
  exact eq_rootBits 3 _ q _ (by decide) hle hlt

/-! ### The compression -/

variable {block : List UInt8}

/-- The words of a block are read from its bits. -/
theorem getD_words (hblock : block.length = 64) {t : ℕ} (ht : t < 16) (l : List Word) :
    ((blocks 4 block).map fromBeBytes ++ l).getD t 0 = Sha256.blockWord (toBits block) t := by
  have hlength : (blocks 4 block).length = 16 := by
    rw [blocks, List.length_map, List.length_range, hblock]
  have hbits : ((toBits block).drop (32 * t)).take 32 = toBits ((block.drop (4 * t)).take 4) := by
    rw [← BitStrings.toBits_take, ← BitStrings.toBits_drop, ← Nat.mul_assoc]
  rw [List.getD_append _ _ _ _ (by rwa [List.length_map, hlength]),
    List.getD_eq_getElem _ _ (by rwa [List.length_map, hlength]), List.getElem_map,
    Sha256.blockWord, hbits, BitStrings.number_toBits]
  simp only [blocks, List.getElem_map, List.getElem_range]
  rfl

/-- A step of the schedule writes its entry and no other. -/
theorem getD_scheduleStep (w : List Word) (i t : ℕ) (hi : i < w.length) :
    (scheduleStep w i).getD t 0 =
      if t = i then Sha256.smallSigma1 (w.getD (i - 2) 0) + w.getD (i - 7) 0 +
        Sha256.smallSigma0 (w.getD (i - 15) 0) + w.getD (i - 16) 0
      else w.getD t 0 := by
  unfold scheduleStep
  dsimp only
  split
  · rename_i h
    subst h
    rw [List.getD_eq_getElem _ _ (by rwa [List.length_set]), List.getElem_set_self]
    change _ + Sha256.smallSigma0 _ + _ + Sha256.smallSigma1 _ = _
    ac_rfl
  · rename_i h
    rw [List.getD_eq_getElem?_getD, List.getElem?_set_ne (Ne.symm h),
      ← List.getD_eq_getElem?_getD]

/-- **The schedule after some steps**: its first entries are those of the message schedule. -/
theorem schedule_spec (hblock : block.length = 64) {n : ℕ} (hn : n ≤ 48) :
    ((List.range' 16 n).foldl scheduleStep
      ((blocks 4 block).map fromBeBytes ++ List.replicate 48 0)).length = 64 ∧
    ∀ t < 16 + n, ((List.range' 16 n).foldl scheduleStep
      ((blocks 4 block).map fromBeBytes ++ List.replicate 48 0)).getD t 0 =
        Sha256.messageSchedule (toBits block) t := by
  induction n with
  | zero =>
      refine ⟨?_, fun t ht => ?_⟩
      · change ((blocks 4 block).map fromBeBytes ++ List.replicate 48 0).length = 64
        simp [blocks, hblock]
      · rw [Sha256.messageSchedule, if_pos ht]
        exact getD_words hblock ht _
  | succ n ih =>
      obtain ⟨hlength, hentries⟩ := ih (by omega)
      rw [List.range'_concat, List.foldl_append, Nat.one_mul, List.foldl_cons, List.foldl_nil]
      generalize (List.range' 16 n).foldl scheduleStep
        ((blocks 4 block).map fromBeBytes ++ List.replicate 48 0) = w at hlength hentries ⊢
      refine ⟨by rw [scheduleStep, List.length_set, hlength], fun t ht => ?_⟩
      rw [getD_scheduleStep _ _ _ (by omega)]
      split
      · rename_i h
        subst h
        rw [hentries _ (by omega), hentries _ (by omega), hentries _ (by omega),
          hentries _ (by omega), Sha256.messageSchedule.eq_def _ (16 + n), if_neg (by omega)]
      · exact hentries t (by omega)

/-- The rounds after some steps. -/
theorem rounds_spec {w : List Word} {m : List Bool} (v : Vars)
    (hw : ∀ t < 64, w.getD t 0 = Sha256.messageSchedule m t) {n : ℕ} (hn : n ≤ 64) :
    (List.range n).foldl (roundStep w) v = Sha256.rounds m v n := by
  induction n with
  | zero => rfl
  | succ n ih =>
      rw [List.range_succ, List.foldl_append, ih (by omega), List.foldl_cons, List.foldl_nil,
        Sha256.rounds, ← hw n hn, ← K_eq hn]
      rfl

/-- **The compression of a block.** -/
theorem compress_spec (h : Vars) (hblock : block.length = 64) :
    compress h block = Sha256.compress h (toBits block) := by
  have hw := (schedule_spec hblock (le_refl 48)).2
  rw [Sha256.compress, ← rounds_spec h hw le_rfl]
  rfl

/-- The compression of several blocks. -/
theorem foldl_compress (h : Vars) {l : List (List UInt8)} (hl : ∀ block ∈ l, block.length = 64) :
    l.foldl compress h = (l.map toBits).foldl Sha256.compress h := by
  induction l generalizing h with
  | nil => rfl
  | cons block l ih =>
      rw [List.foldl_cons, List.map_cons, List.foldl_cons,
        compress_spec h (hl block List.mem_cons_self),
        ih _ fun b hb => hl b (List.mem_cons_of_mem block hb)]

/-! ### The padding -/

/-- The zero bytes behind the rest of some data: up to the place of the length in the same block, or
in the next one. -/
def zeroBytes (rest : ℕ) : ℕ := if rest + 1 > 56 then 119 - rest else 55 - rest

/-- The bytes behind the data. -/
def padding (data : List UInt8) : List UInt8 :=
  0x80 :: (List.replicate (zeroBytes (data.length % 64)) 0 ++ bytes 8 (data.length * 8 % 2 ^ 64))

/-- **The bytes behind the data are the padding of its bits.** -/
theorem pad_toBits {data : List UInt8} (h : data.length < 2 ^ 61) :
    Sha256.pad (toBits data) = toBits (data ++ padding data) := by
  have hrest : data.length % 64 < 64 := Nat.mod_lt _ (by omega)
  have hzeros : Sha256.zeros (toBits data).length =
      7 + 8 * zeroBytes (data.length % 64) := by
    rw [BitStrings.length_toBits]
    unfold zeroBytes
    apply Sha256.zeros_eq <;> split <;> omega
  have hmark : bits 8 (0x80 : UInt8).toNat = true :: List.replicate 7 false := rfl
  have hlength : data.length * 8 % 2 ^ 64 = 8 * data.length := by omega
  rw [Sha256.pad, hzeros, BitStrings.toBits_append, padding, BitStrings.toBits_cons, hmark,
    BitStrings.toBits_append, BitStrings.toBits_replicate_zero, BitStrings.toBits_bytes, hlength,
    BitStrings.length_toBits, List.replicate_add, List.cons_append, List.append_assoc]

/-- The last block before the length is written: the rest, the mark, and zeros. -/
theorem set_mark {rest : List UInt8} (h : rest.length < 64) :
    (rest ++ List.replicate (64 - rest.length) 0).set rest.length 0x80 =
      rest ++ 0x80 :: List.replicate (63 - rest.length) 0 := by
  have hzeros : 64 - rest.length = (63 - rest.length) + 1 := by omega
  rw [hzeros, List.set_append_right _ _ le_rfl, Nat.sub_self, List.replicate_succ, List.set_cons_zero]

/-- The hash state when the last blocks are compressed. -/
def lastBlocks (h : Vars) (rest length : List UInt8) : Vars :=
  let last := (rest ++ List.replicate (64 - rest.length) 0).set rest.length 0x80
  let (h, last) :=
    if rest.length + 1 > 56 then (compress h last, List.replicate 64 0) else (h, last)
  compress h (last.take 56 ++ length)

/-- **The last blocks are those of the rest and the padding.** -/
theorem lastBlocks_eq (h : Vars) {rest length : List UInt8} (hrest : rest.length < 64)
    (hlength : length.length = 8) : lastBlocks h rest length =
      (blocks 64 (rest ++ 0x80 :: (List.replicate (zeroBytes rest.length) 0 ++ length))).foldl
        compress h := by
  unfold lastBlocks zeroBytes
  dsimp only
  rw [set_mark hrest]
  split
  · -- the length finds no room: the block is filled with zeros, and another one follows
    have hzeros : 119 - rest.length = (63 - rest.length) + 56 := by omega
    have hsplit : rest ++ 0x80 :: (List.replicate (119 - rest.length) 0 ++ length) =
        (rest ++ 0x80 :: List.replicate (63 - rest.length) 0) ++
          (List.replicate 56 0 ++ length) := by
      rw [hzeros, List.replicate_add]
      simp only [List.append_assoc, List.cons_append]
    have hfirst : (rest ++ 0x80 :: List.replicate (63 - rest.length) (0 : UInt8)).length = 64 := by
      simp only [List.length_append, List.length_cons, List.length_replicate]
      omega
    rw [hsplit, BitStrings.blocks_cons (by omega) hfirst, BitStrings.blocks_single (by omega)]
    · rfl
    · simp [hlength]
  · have hzeros : 63 - rest.length = (55 - rest.length) + 8 := by omega
    have htake : (rest ++ 0x80 :: List.replicate (63 - rest.length) (0 : UInt8)).take 56 =
        rest ++ 0x80 :: List.replicate (55 - rest.length) 0 := by
      rw [hzeros, List.replicate_add, ← List.cons_append, ← List.append_assoc]
      refine List.take_left' ?_
      simp only [List.length_append, List.length_cons, List.length_replicate]
      omega
    dsimp only
    rw [htake, List.append_assoc, List.cons_append, BitStrings.blocks_single (by omega)]
    · rfl
    · simp only [List.length_append, List.length_cons, List.length_replicate, hlength]
      omega

/-! ### The digest -/

theorem length_digest (data : List UInt8) : (digest data).length = 32 := by
  simp [digest, Vars.words]

theorem toBits_words (v : Vars) : toBits (v.words.flatMap fun w => bytes 4 w.toNat) =
    v.words.flatMap fun w => bits 32 w.toNat := by
  rw [toBits, List.flatMap_assoc]
  exact List.flatMap_congr fun w _ => BitStrings.toBits_bytes 4 w.toNat

/-- **The digest is SHA-256.**  For data of less than 2^61 bytes the bits of the digest are the hash
of the bits of the data. -/
theorem digest_spec (data : List UInt8) (h : data.length < 2 ^ 61) :
    toBits (digest data) = Sha256.hash (toBits data) := by
  have hrest : (data.drop (64 * (data.length / 64))).length = data.length % 64 :=
    BitStrings.length_rest 64 data
  -- the blocks of the data come first, then those of the rest and the padding
  have hblocks : blocks 64 (data ++ padding data) = blocks 64 data ++
      blocks 64 (data.drop (64 * (data.length / 64)) ++ padding data) := by
    have happend := BitStrings.blocks_append (by omega) (BitStrings.length_whole (n := 64) data)
      (data.drop (64 * (data.length / 64)) ++ padding data)
    rwa [← List.append_assoc, List.take_append_drop, BitStrings.blocks_take (by omega)] at happend
  have hlast : digest data = (lastBlocks ((blocks 64 data).foldl compress H0)
      (data.drop (64 * (data.length / 64)))
      (bytes 8 (data.length * 8 % 2 ^ 64))).words.flatMap fun w => bytes 4 w.toNat := rfl
  have hfold : (blocks 64 (data ++ padding data)).foldl compress H0 =
      (blocks 512 (Sha256.pad (toBits data))).foldl Sha256.compress Sha256.initial := by
    rw [foldl_compress H0 fun _ => BitStrings.length_of_mem_blocks, H0_eq, pad_toBits h,
      show 512 = 8 * 64 from rfl, BitStrings.blocks_toBits]
  rw [hlast, lastBlocks_eq _ (by rw [hrest]; exact Nat.mod_lt _ (by omega))
    (BitStrings.length_bytes 8 _), ← List.foldl_append, hrest, ← padding, ← hblocks, hfold,
    toBits_words, Sha256.hash]

/-- The digest of no data. -/
theorem digest_spec_nil : ([] : List UInt8).length < 2 ^ 61 ∧
    toBits (digest []) = Sha256.hash (toBits []) :=
  ⟨by decide, digest_spec [] (by decide)⟩

end Hekma.Digest
