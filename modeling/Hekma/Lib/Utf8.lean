/-
**UTF-8.**

A strict reading takes bytes only where they encode a text.  The bytes of a text can be cut inside a
character; the piece encodes nothing then.

A lossy reading decodes all bytes; what is no character is replaced, one replacement for each
longest beginning of a character that is not continued as it should be.  An ASCII byte continues no
character.  So a text can be cut at an ASCII byte, and its pieces decoded one by one.

Main definitions:

* `Utf8.encode`, `Utf8.fromUtf8` — the bytes of a text, and the strict reading;
* `Utf8.width` — the length of a character by its first byte;
* `Utf8.continued` — how many of the bytes behind it continue it;
* `Utf8.step`, `Utf8.fromUtf8Lossy` — one character, and a text.

Main results:

* `Utf8.fromUtf8_eq_some` — **the strict reading takes exactly the bytes of a text**;
* `Utf8.isPrefix_of_encode` — what begins the bytes of a text begins the text;
* `Utf8.fromUtf8Lossy_append_ascii` — **a text can be cut at an ASCII byte**;
* `Utf8.mem_fromUtf8Lossy_ascii` — an ASCII character is decoded from its own byte.
-/

import Mathlib.Tactic

set_option relaxedAutoImplicit false
set_option autoImplicit false

namespace Utf8

/-! ### Strict decoding -/

/-- The bytes of a text. -/
def encode (s : List Char) : List UInt8 := s.flatMap String.utf8EncodeChar

/-- The text some bytes encode, if they encode one. -/
def fromUtf8 (bytes : List UInt8) : Option (List Char) :=
  bytes.toByteArray.utf8Decode?.map Array.toList

@[simp] theorem encode_nil : encode [] = [] := rfl

theorem encode_append (s t : List Char) : encode (s ++ t) = encode s ++ encode t :=
  List.flatMap_append

@[simp] theorem fromUtf8_encode (s : List Char) : fromUtf8 (encode s) = some s := by
  have h : (encode s).toByteArray.utf8Decode? = some s.toArray := List.utf8Decode?_utf8Encode
  rw [fromUtf8, h, Option.map_some, List.toList_toArray]

/-- **The strict reading takes exactly the bytes of a text.** -/
theorem fromUtf8_eq_some {bytes : List UInt8} {s : List Char} :
    fromUtf8 bytes = some s ↔ bytes = encode s := by
  refine ⟨fun h => ?_, fun h => h ▸ fromUtf8_encode s⟩
  obtain ⟨a, ha, rfl⟩ := Option.map_eq_some_iff.1 h
  have hsome : bytes.toByteArray.utf8Decode?.isSome := by rw [ha]; rfl
  have hbytes := ByteArray.utf8Encode_get_utf8Decode? (h := hsome)
  simp only [ha, Option.get_some] at hbytes
  have hlist := congrArg (fun b : ByteArray => b.data.toList) hbytes
  simpa [List.utf8Encode, List.data_toByteArray, encode] using hlist.symm

theorem encode_injective {s t : List Char} (h : encode s = encode t) : s = t := by
  have hs := fromUtf8_encode s
  rw [h, fromUtf8_encode] at hs
  exact (Option.some.inj hs).symm

/-- **What begins the bytes of a text begins the text**, if it encodes a text itself. -/
theorem isPrefix_of_encode {s t : List Char} {bytes : List UInt8}
    (h : encode s ++ bytes = encode t) : s <+: t := by
  have hbytes := congrArg List.toByteArray h
  rw [List.toByteArray_append] at hbytes
  exact List.isPrefix_of_utf8Encode_append_eq_utf8Encode _ hbytes

/-- An ASCII byte is a character of its own. -/
theorem mem_of_mem_encode {b : UInt8} {s : List Char} (hb : b < 0x80) (hmem : b ∈ encode s) :
    Char.ofNat b.toNat ∈ s := by
  obtain ⟨c, hc, hbyte⟩ := List.mem_flatMap.1 hmem
  have hlt : b.toNat < 128 := UInt8.lt_iff_toNat_lt.1 hb
  suffices hval : b.toNat = c.toNat by rwa [hval, Char.ofNat_toNat]
  rw [String.utf8EncodeChar] at hbyte
  split at hbyte
  · rename_i hle
    rw [List.mem_singleton] at hbyte
    rw [hbyte, UInt8.toNat_ofNat']
    exact Nat.mod_eq_of_lt (by omega)
  -- every byte of a longer encoding has its high bit set
  · exfalso
    have hbytes : ∀ n, 0x80 ≤ n → n < 0x100 → b ≠ UInt8.ofNat n := by
      intro n hn hlarge heq
      rw [heq, UInt8.toNat_ofNat', Nat.mod_eq_of_lt hlarge] at hlt
      omega
    split at hbyte
    · simp only [List.mem_cons, List.not_mem_nil, or_false] at hbyte
      rcases hbyte with h | h
      · exact hbytes _ (by omega) (by omega) h
      · exact hbytes _ (by omega) (by omega) h
    · split at hbyte
      all_goals
        simp only [List.mem_cons, List.not_mem_nil, or_false] at hbyte
      · rcases hbyte with h | h | h <;> exact hbytes _ (by omega) (by omega) h
      · rcases hbyte with h | h | h | h <;> exact hbytes _ (by omega) (by omega) h
/-- The bytes of a text with a piece behind them are a text only if the piece is one. -/
theorem fromUtf8_encode_append {s : List Char} {bytes : List UInt8} (h : fromUtf8 bytes = none) :
    fromUtf8 (encode s ++ bytes) = none := by
  refine Option.eq_none_iff_forall_ne_some.2 fun t ht => ?_
  have heq := fromUtf8_eq_some.1 ht
  obtain ⟨rest, rfl⟩ := isPrefix_of_encode heq
  rw [encode_append] at heq
  rw [List.append_cancel_left heq, fromUtf8_encode] at h
  cases h

-- a character, and its first byte alone
example : fromUtf8 [0xC3, 0xA9] = some [Char.ofNat 0xE9] ∧ fromUtf8 [0xC3] = none := by decide

/-! ### Lossy decoding -/

/-- The length of a character by its first byte.  It is zero for a byte no character begins with. -/
def width (b : UInt8) : ℕ :=
  if b < 0x80 then 1
  else if 0xC2 ≤ b ∧ b ≤ 0xDF then 2
  else if 0xE0 ≤ b ∧ b ≤ 0xEF then 3
  else if 0xF0 ≤ b ∧ b ≤ 0xF4 then 4
  else 0

/-- A byte that continues a character. -/
def IsTail (b : UInt8) : Prop := 0x80 ≤ b ∧ b ≤ 0xBF

instance (b : UInt8) : Decidable (IsTail b) := inferInstanceAs (Decidable (0x80 ≤ b ∧ b ≤ 0xBF))

/-- The second byte of a character.  What would encode a character that has a shorter encoding, a
surrogate, or no character at all is ruled out here. -/
def IsSecond (b c : UInt8) : Prop :=
  IsTail c ∧ (b = 0xE0 → 0xA0 ≤ c) ∧ (b = 0xED → c ≤ 0x9F) ∧ (b = 0xF0 → 0x90 ≤ c) ∧
    (b = 0xF4 → c ≤ 0x8F)

instance (b c : UInt8) : Decidable (IsSecond b c) :=
  inferInstanceAs (Decidable (IsTail c ∧ (b = 0xE0 → 0xA0 ≤ c) ∧ (b = 0xED → c ≤ 0x9F) ∧
    (b = 0xF0 → 0x90 ≤ c) ∧ (b = 0xF4 → c ≤ 0x8F)))

/-- How many of the next bytes continue a character, of so many at most. -/
def tails : ℕ → List UInt8 → ℕ
  | n + 1, b :: rest => if IsTail b then tails n rest + 1 else 0
  | _, _ => 0

/-- How many of the bytes behind a first byte continue the character. -/
def continued (b : UInt8) (rest : List UInt8) : ℕ :=
  match width b, rest with
  | n + 2, c :: rest => if IsSecond b c then tails n rest + 1 else 0
  | _, _ => 0

/-- The character of a first byte and the bytes that continue it. -/
def scalar (b : UInt8) (rest : List UInt8) : Char :=
  Char.ofNat (rest.foldl (fun n c => n * 64 + c.toNat % 64) (b.toNat % 2 ^ (8 - width b - 1)))

/-- What stands for bytes that are no character. -/
def replacement : Char := Char.ofNat 0xFFFD

/-- The next character, and how many bytes behind its first one belong to it. -/
def step (b : UInt8) (rest : List UInt8) : Char × ℕ :=
  if width b = 1 then (Char.ofNat b.toNat, 0)
  else
    let k := continued b rest
    (if k + 1 = width b then scalar b (rest.take k) else replacement, k)

/-- Decode a text behind some bytes of a character that is already decoded. -/
def decodeFrom : ℕ → List UInt8 → List Char
  | _, [] => []
  | k + 1, _ :: rest => decodeFrom k rest
  | 0, b :: rest => (step b rest).1 :: decodeFrom (step b rest).2 rest

/-- Decode a text. -/
def fromUtf8Lossy (bytes : List UInt8) : List Char := decodeFrom 0 bytes

/-! ### Cutting a text -/

variable {a b : UInt8} {rest t : List UInt8} {n : ℕ}

theorem not_isTail_of_ascii (ha : a < 0x80) : ¬ IsTail a := fun h => UInt8.not_lt.2 h.1 ha

theorem tails_le (n : ℕ) (rest : List UInt8) : tails n rest ≤ rest.length := by
  induction rest generalizing n with
  | nil => cases n <;> exact Nat.le_refl 0
  | cons b rest ih =>
      cases n with
      | zero => exact Nat.zero_le _
      | succ n =>
          rw [tails]
          split
          · exact Nat.succ_le_succ (ih n)
          · exact Nat.zero_le _

theorem tails_append_ascii (ha : a < 0x80) (n : ℕ) (rest t : List UInt8) :
    tails n (rest ++ a :: t) = tails n rest := by
  induction rest generalizing n with
  | nil =>
      cases n with
      | zero => rfl
      | succ n => exact if_neg (not_isTail_of_ascii ha)
  | cons b rest ih =>
      cases n with
      | zero => rfl
      | succ n => rw [List.cons_append, tails, tails, ih n]

theorem continued_le (b : UInt8) (rest : List UInt8) : continued b rest ≤ rest.length := by
  unfold continued
  split
  · split
    · exact Nat.succ_le_succ (tails_le _ _)
    · exact Nat.zero_le _
  · exact Nat.zero_le _

theorem continued_append_ascii (ha : a < 0x80) (b : UInt8) (rest t : List UInt8) :
    continued b (rest ++ a :: t) = continued b rest := by
  unfold continued
  cases width b with
  | zero => rfl
  | succ n =>
      cases n with
      | zero => rfl
      | succ n =>
          cases rest with
          | nil => exact if_neg fun h => not_isTail_of_ascii ha h.1
          | cons c rest =>
              dsimp only [List.cons_append]
              rw [tails_append_ascii ha]

theorem step_le (b : UInt8) (rest : List UInt8) : (step b rest).2 ≤ rest.length := by
  unfold step
  split
  · exact Nat.zero_le _
  · exact continued_le b rest

theorem step_append_ascii (ha : a < 0x80) (b : UInt8) (rest t : List UInt8) :
    step b (rest ++ a :: t) = step b rest := by
  have htake : (rest ++ a :: t).take (continued b rest) = rest.take (continued b rest) :=
    List.take_append_of_le_length (continued_le b rest)
  simp only [step, continued_append_ascii ha, htake]

theorem step_ascii (ha : a < 0x80) (rest : List UInt8) :
    step a rest = (Char.ofNat a.toNat, 0) := by
  have hwidth : width a = 1 := if_pos ha
  rw [step, if_pos hwidth]

theorem decodeFrom_append_ascii (ha : a < 0x80) (h : n ≤ rest.length) (t : List UInt8) :
    decodeFrom n (rest ++ a :: t)
      = decodeFrom n rest ++ Char.ofNat a.toNat :: fromUtf8Lossy t := by
  induction rest generalizing n with
  | nil =>
      obtain rfl : n = 0 := Nat.le_zero.1 h
      rw [List.nil_append, decodeFrom, decodeFrom, step_ascii ha]
      rfl
  | cons b rest ih =>
      cases n with
      | zero =>
          rw [List.cons_append, decodeFrom, step_append_ascii ha, ih (step_le b rest), decodeFrom]
          rfl
      | succ n =>
          rw [List.cons_append, decodeFrom, ih (Nat.le_of_succ_le_succ h), decodeFrom]

/-- **A text can be cut at an ASCII byte.** -/
theorem fromUtf8Lossy_append_ascii (ha : a < 0x80) (bytes t : List UInt8) :
    fromUtf8Lossy (bytes ++ a :: t)
      = fromUtf8Lossy bytes ++ Char.ofNat a.toNat :: fromUtf8Lossy t :=
  decodeFrom_append_ascii ha (Nat.zero_le _) t

-- two bytes of a character of three, and then an ASCII byte
example : fromUtf8Lossy [0xC3, 0xA9, 0xE2, 0x82, 0x41] = [Char.ofNat 0xE9, replacement, 'A'] := by
  decide

/-! ### ASCII characters -/

theorem le_foldl (n : ℕ) (rest : List UInt8) :
    n * 64 ^ rest.length ≤ rest.foldl (fun n c => n * 64 + c.toNat % 64) n := by
  induction rest generalizing n with
  | nil => exact Nat.le_of_eq (Nat.mul_one n)
  | cons c rest ih =>
      calc n * 64 ^ (c :: rest).length
          = n * 64 * 64 ^ rest.length := by
            rw [List.length_cons, Nat.pow_succ', Nat.mul_assoc]
        _ ≤ (n * 64 + c.toNat % 64) * 64 ^ rest.length :=
          Nat.mul_le_mul_right _ (Nat.le_add_right _ _)
        _ ≤ _ := ih _

/-- The bits of a first byte and a second byte are enough for a character of this length. -/
theorem le_second {c : UInt8} (hwidth : width b = n + 2) (h : IsSecond b c) :
    128 ≤ (b.toNat % 2 ^ (8 - width b - 1) * 64 + c.toNat % 64) * 64 ^ n := by
  obtain ⟨⟨hlow, hhigh⟩, hE0, -, hF0, -⟩ := h
  rw [UInt8.le_iff_toNat_le] at hlow hhigh
  have hE0' : b.toNat = 0xE0 → 0xA0 ≤ c.toNat := fun hb => by
    simpa [UInt8.le_iff_toNat_le] using hE0 (UInt8.toNat_inj.1 hb)
  have hF0' : b.toNat = 0xF0 → 0x90 ≤ c.toNat := fun hb => by
    simpa [UInt8.le_iff_toNat_le] using hF0 (UInt8.toNat_inj.1 hb)
  have hfirst : b.toNat < 0x80 ∧ n + 2 = 1 ∨
      0xC2 ≤ b.toNat ∧ b.toNat ≤ 0xDF ∧ n = 0 ∨ 0xE0 ≤ b.toNat ∧ b.toNat ≤ 0xEF ∧ n = 1 ∨
        0xF0 ≤ b.toNat ∧ b.toNat ≤ 0xF4 ∧ n = 2 := by
    rw [← hwidth]
    simp only [width, UInt8.lt_iff_toNat_lt, UInt8.le_iff_toNat_le, UInt8.reduceToNat] at hwidth ⊢
    split_ifs at hwidth ⊢ <;> omega
  simp only [UInt8.reduceToNat] at hlow hhigh
  rw [hwidth]
  rcases hfirst with hb | ⟨hb, hb', rfl⟩ | ⟨hb, hb', rfl⟩ | ⟨hb, hb', rfl⟩
  · omega
  · change 128 ≤ (b.toNat % 32 * 64 + c.toNat % 64) * 1
    omega
  · change 128 ≤ (b.toNat % 16 * 64 + c.toNat % 64) * 64
    omega
  · change 128 ≤ (b.toNat % 8 * 64 + c.toNat % 64) * 4096
    omega

/-- A character of several bytes is no ASCII character. -/
theorem le_scalar (hwidth : width b = n + 2) (hk : continued b rest + 1 = width b) :
    128 ≤ (rest.take (continued b rest)).foldl (fun n c => n * 64 + c.toNat % 64)
      (b.toNat % 2 ^ (8 - width b - 1)) := by
  have hn : continued b rest = n + 1 := by omega
  rw [hn]
  unfold continued at hn
  rw [hwidth] at hn
  cases rest with
  | nil => exact absurd hn (by simp)
  | cons c rest =>
      dsimp only at hn
      split at hn
      · rename_i hsecond
        have hlen : (rest.take n).length = n := by
          have := tails_le n rest
          rw [List.length_take]
          omega
        rw [List.take_succ_cons, List.foldl_cons]
        have hle := le_foldl (b.toNat % 2 ^ (8 - width b - 1) * 64 + c.toNat % 64) (rest.take n)
        rw [hlen] at hle
        exact Nat.le_trans (le_second hwidth hsecond) hle
      · exact absurd hn (by simp)

theorem ofNat_eq_ascii {m : ℕ} {c : Char} (h0 : c.toNat ≠ 0) (h : Char.ofNat m = c) :
    m = c.toNat := by
  subst h
  by_cases hvalid : m.isValidChar
  · have hchar : Char.ofNat m = Char.ofNatAux m hvalid := dif_pos hvalid
    rw [hchar]
    rfl
  · have hchar : Char.ofNat m = ⟨0, Or.inl (by decide)⟩ := dif_neg hvalid
    rw [hchar] at h0
    exact absurd rfl h0

/-- **An ASCII character is decoded from its own byte.** -/
theorem mem_fromUtf8Lossy_ascii {c : Char} (h0 : c.toNat ≠ 0) (hc : c.toNat < 128)
    {bytes : List UInt8} (h : c ∈ fromUtf8Lossy bytes) : ∃ b ∈ bytes, b.toNat = c.toNat := by
  have hstep : ∀ b rest, (step b rest).1 = c → b.toNat = c.toNat := by
    intro b rest hb
    unfold step at hb
    split at hb
    · exact ofNat_eq_ascii h0 hb
    · rename_i hwidth
      dsimp only at hb
      split at hb
      · rename_i hk
        obtain ⟨n, hn⟩ : ∃ n, width b = n + 2 := ⟨width b - 2, by omega⟩
        have hle := le_scalar hn hk
        rw [scalar] at hb
        rw [ofNat_eq_ascii h0 hb] at hle
        omega
      · rw [← hb] at hc
        exact absurd hc (by decide)
  have hall : ∀ (n : ℕ) (bytes : List UInt8), c ∈ decodeFrom n bytes →
      ∃ b ∈ bytes, b.toNat = c.toNat := by
    intro n bytes h
    induction bytes generalizing n with
    | nil => cases n <;> simp [decodeFrom] at h
    | cons b rest ih =>
        cases n with
        | zero =>
            rw [decodeFrom, List.mem_cons] at h
            rcases h with h | h
            · exact ⟨b, List.mem_cons_self, hstep b rest h.symm⟩
            · obtain ⟨d, hd, heq⟩ := ih _ h
              exact ⟨d, List.mem_cons_of_mem b hd, heq⟩
        | succ n =>
            rw [decodeFrom] at h
            obtain ⟨d, hd, heq⟩ := ih _ h
            exact ⟨d, List.mem_cons_of_mem b hd, heq⟩
  exact hall 0 bytes h

end Utf8
