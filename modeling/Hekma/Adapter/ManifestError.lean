/-
**What a manifest is refused with** (`hekma-adapter-api/src/manifest.rs`).

Every section of a manifest is checked when it is registered and again when it is used.  The first
check that fails names its field.

Main definitions:

* `ManifestError` — the errors;
* `requiredStr`, `containsControlChar` — the checks the sections share.

Main results:

* `requiredStr_eq_ok` — what a required text is.
-/

import Hekma.Lib.Checks
import Hekma.Lib.Text

set_option relaxedAutoImplicit false
set_option autoImplicit false

namespace Hekma

namespace Adapter

open Checks (refuse)

inductive ManifestError where
  | toml (detail : String)
  | missingSection (section_ : String)
  | invalidField (field detail : String)
  deriving DecidableEq, Repr

/-- A text that is there and not blank. -/
def requiredStr (value : Option (List Char)) (field : String) :
    Except ManifestError (List Char) :=
  match value with
  | none => .error (.missingSection field)
  | some v =>
      if (Text.trim v).isEmpty then .error (.invalidField field "the value is empty") else .ok v

/-- The characters of the C0 and C1 sets. -/
def isControl (c : Char) : Bool := c.toNat ≤ 0x1F || (0x7F ≤ c.toNat && c.toNat ≤ 0x9F)

def containsControlChar (s : List Char) : Bool := s.any isControl

theorem requiredStr_eq_ok {value : Option (List Char)} {field : String} {v : List Char} :
    requiredStr value field = .ok v ↔ value = some v ∧ Text.trim v ≠ [] := by
  cases value with
  | none => simp [requiredStr]
  | some w =>
      rw [requiredStr]
      by_cases hw : (Text.trim w).isEmpty = true
      · rw [if_pos hw]
        rw [List.isEmpty_iff] at hw
        constructor
        · intro h
          cases h
        · rintro ⟨heq, hne⟩
          obtain rfl := Option.some.inj heq
          exact absurd hw hne
      · rw [if_neg hw]
        rw [List.isEmpty_iff] at hw
        constructor
        · intro h
          cases h
          exact ⟨rfl, hw⟩
        · rintro ⟨heq, -⟩
          rw [Option.some.inj heq]

end Adapter

end Hekma
