/-
**JSON values.**

Values as a parser leaves them, the readings of a number as a machine integer, and when one value
carries another: it has all its fields, and whatever else.  A decoder that only looks fields up
cannot tell a value from one that carries it.

Main definitions:

* `Json`, `Json.Number` — the values, and the numbers;
* `Json.Number.asU64`, `Json.Number.asI64` — the integer readings;
* `Json.Fits`, `Json.Carries`, `Json.Like` — a value has the fields of another one: with leaves in a
  given relation, with the same leaves, with leaves of the same kind.

Main results:

* `Json.Number.asU64_eq_some`, `Json.Number.asI64_eq_some` — a reading has one source;
* `Json.fits_object` — fitting an object is fitting each of its fields;
* `Json.Fits.mono` — fitting is monotone in the relation of the leaves;
* `Json.Plain.fits_self` — a value whose keys are different fits itself.
-/

import Mathlib.Tactic

set_option relaxedAutoImplicit false
set_option autoImplicit false

namespace Hekma

/-! ### Machine integers -/

/-- The unsigned 64-bit integers. -/
abbrev Unsigned64 : Type := { n : ℕ // n < 2 ^ 64 }

theorem Unsigned64.zero_lt : 0 < 2 ^ 64 := by decide

theorem Unsigned64.one_lt : 1 < 2 ^ 64 := by decide

/-- The signed 64-bit integers. -/
abbrev Signed64 : Type := { n : ℤ // -2 ^ 63 ≤ n ∧ n < 2 ^ 63 }

/-- The signed 32-bit integers. -/
abbrev Signed32 : Type := { n : ℤ // -2 ^ 31 ≤ n ∧ n < 2 ^ 31 }

/-- The sum of two unsigned integers, the highest one where it is too high. -/
def Unsigned64.saturatingAdd (a b : Unsigned64) : Unsigned64 :=
  ⟨min (a.1 + b.1) (2 ^ 64 - 1), by omega⟩

@[simp] theorem Unsigned64.saturatingAdd_val (a b : Unsigned64) :
    (a.saturatingAdd b).1 = min (a.1 + b.1) (2 ^ 64 - 1) := rfl

/-- A signed 64-bit integer as a 32-bit one, if it is one. -/
def Signed32.tryFrom (n : Signed64) : Option Signed32 :=
  if h : -2 ^ 31 ≤ n.1 ∧ n.1 < 2 ^ 31 then some ⟨n.1, h⟩ else none

/-- A 32-bit integer as a 64-bit one. -/
def Signed32.widen (n : Signed32) : Signed64 := ⟨n.1, by omega⟩

theorem Signed32.tryFrom_eq_some {m : Signed64} {n : Signed32} :
    Signed32.tryFrom m = some n ↔ m = n.widen := by
  unfold tryFrom widen
  split
  · rw [Option.some.injEq, Subtype.ext_iff, Subtype.ext_iff]
  · rename_i hout
    refine ⟨fun h => by simp at h, fun h => ?_⟩
    exact absurd (h ▸ n.2) hout

/-! ### Values -/

/-- A number of a JSON text: an integer that a machine integer holds, or a float. -/
inductive Json.Number where
  | integer (n : { n : ℤ // -2 ^ 63 ≤ n ∧ n < 2 ^ 64 })
  | float (bits : BitVec 64)
  deriving DecidableEq

/-- A JSON value.  The fields of an object are looked up by their key. -/
inductive Json where
  | null
  | bool (b : Bool)
  | number (n : Json.Number)
  | string (s : String)
  | array (items : List Json)
  | object (fields : List (String × Json))

namespace Json

/-- The fields of an object. -/
abbrev Fields : Type := List (String × Json)

/-- The kinds of values. -/
inductive Kind where
  | null
  | bool
  | number
  | string
  | array
  | object
  deriving DecidableEq, Repr

/-- The kind of a value. -/
def kind : Json → Kind
  | null => .null
  | bool _ => .bool
  | number _ => .number
  | string _ => .string
  | array _ => .array
  | object _ => .object

namespace Number

/-- The unsigned reading of a number. -/
def asU64 : Number → Option Unsigned64
  | integer n => if h : 0 ≤ n.1 then some ⟨n.1.toNat, by omega⟩ else none
  | float _ => none

/-- The signed reading of a number. -/
def asI64 : Number → Option Signed64
  | integer n => if h : n.1 < 2 ^ 63 then some ⟨n.1, n.2.1, h⟩ else none
  | float _ => none

/-- The number of an unsigned integer. -/
def ofU64 (n : Unsigned64) : Number := .integer ⟨n.1, by omega⟩

/-- The number of a signed integer. -/
def ofI64 (n : Signed64) : Number := .integer ⟨n.1, by omega⟩

theorem asU64_eq_some {x : Number} {n : Unsigned64} : x.asU64 = some n ↔ x = ofU64 n := by
  cases x with
  | float bits => simp [asU64, ofU64]
  | integer m =>
      simp only [asU64, ofU64, integer.injEq, Subtype.ext_iff]
      split
      · simp only [Option.some.injEq, Subtype.ext_iff]
        omega
      · simp only [reduceCtorEq, false_iff]
        omega

theorem asI64_eq_some {x : Number} {n : Signed64} : x.asI64 = some n ↔ x = ofI64 n := by
  cases x with
  | float bits => simp [asI64, ofI64]
  | integer m =>
      simp only [asI64, ofI64, integer.injEq, Subtype.ext_iff]
      split
      · simp only [Option.some.injEq, Subtype.ext_iff]
      · simp only [reduceCtorEq, false_iff]
        omega

end Number

/-! ### Readings -/

/-- The fields of a value, if it is an object. -/
def asObject : Json → Option Fields
  | object fields => some fields
  | _ => none

/-- What a value has under a key.  Only an object has something. -/
def get (v : Json) (key : String) : Option Json := v.asObject.bind fun f => f.lookup key

/-- The truth value of a value, if it is one. -/
def asBool : Json → Option Bool
  | bool b => some b
  | _ => none

/-- The items of a value, if it is an array. -/
def asArray : Json → Option (List Json)
  | array items => some items
  | _ => none

/-- The text of a value, if it is one. -/
def asStr : Json → Option String
  | string s => some s
  | _ => none

/-- The unsigned integer of a value, if it is one. -/
def asU64 : Json → Option Unsigned64
  | number n => n.asU64
  | _ => none

/-- The signed integer of a value, if it is one. -/
def asI64 : Json → Option Signed64
  | number n => n.asI64
  | _ => none

variable {v : Json}

theorem asObject_eq_some {f : Fields} : v.asObject = some f ↔ v = object f := by
  cases v <;> simp [asObject]

theorem asStr_eq_some {s : String} : v.asStr = some s ↔ v = string s := by
  cases v <;> simp [asStr]

theorem asU64_eq_some {n : Unsigned64} : v.asU64 = some n ↔ v = number (.ofU64 n) := by
  cases v <;> simp [asU64, Number.asU64_eq_some]

theorem asI64_eq_some {n : Signed64} : v.asI64 = some n ↔ v = number (.ofI64 n) := by
  cases v <;> simp [asI64, Number.asI64_eq_some]

/-! ### Carrying -/

/-- A value has the fields of another one, and leaves that are related to its leaves.  The relation
may depend on the key a leaf stands under. -/
inductive Fits (leaf : String → Json → Json → Prop) : String → Json → Json → Prop
  | leaf {k : String} {v w : Json} (hw : w.kind ≠ .object) (h : leaf k v w) : Fits leaf k v w
  | object {k : String} {f g : Fields} (pick : String × Json → Json)
      (hget : ∀ p ∈ g, f.lookup p.1 = some (pick p))
      (hfit : ∀ p ∈ g, Fits leaf p.1 (pick p) p.2) : Fits leaf k (.object f) (.object g)

variable {leaf leaf' : String → Json → Json → Prop} {k : String} {w : Json}

theorem Fits.mono (h : Fits leaf k v w) (hle : ∀ k v w, leaf k v w → leaf' k v w) :
    Fits leaf' k v w := by
  induction h with
  | leaf hw h => exact .leaf hw (hle _ _ _ h)
  | object pick hget _ ih => exact .object pick hget ih

/-- What stands under the key of a field fits the field. -/
def Has (leaf : String → Json → Json → Prop) (f : Fields) (p : String × Json) : Prop :=
  ∃ y, f.lookup p.1 = some y ∧ Fits leaf p.1 y p.2

/-- **Fitting an object is fitting each of its fields.** -/
theorem fits_object {g : Fields} :
    Fits leaf k v (.object g) ↔ ∃ f, v = .object f ∧ ∀ p ∈ g, Has leaf f p := by
  constructor
  · intro h
    cases h with
    | leaf hw _ => exact absurd rfl hw
    | object pick hget hfit => exact ⟨_, rfl, fun p hp => ⟨pick p, hget p hp, hfit p hp⟩⟩
  · rintro ⟨f, rfl, h⟩
    refine .object (fun p => (f.lookup p.1).getD .null) (fun p hp => ?_) fun p hp => ?_
    · obtain ⟨y, hy, -⟩ := h p hp
      rw [hy]
      rfl
    · obtain ⟨y, hy, hfit⟩ := h p hp
      rw [hy]
      exact hfit

theorem fits_of_leaf (hw : w.kind ≠ .object) : Fits leaf k v w ↔ leaf k v w := by
  refine ⟨fun h => ?_, .leaf hw⟩
  cases h with
  | leaf _ h => exact h
  | object _ _ _ => exact absurd rfl hw

/-- The keys of every object in a value are different. -/
inductive Plain : Json → Prop
  | leaf {v : Json} (hv : v.kind ≠ .object) : Plain v
  | object {g : Fields} (hkeys : (g.map Prod.fst).Nodup) (h : ∀ p ∈ g, Plain p.2) :
      Plain (.object g)

@[simp] theorem plain_null : Plain .null := .leaf (by simp [kind])

@[simp] theorem plain_number (n : Number) : Plain (.number n) := .leaf (by simp [kind])

@[simp] theorem plain_string (s : String) : Plain (.string s) := .leaf (by simp [kind])

@[simp] theorem plain_object {g : Fields} :
    Plain (.object g) ↔ (g.map Prod.fst).Nodup ∧ ∀ p ∈ g, Plain p.2 := by
  refine ⟨fun h => ?_, fun h => .object h.1 h.2⟩
  cases h with
  | leaf hv => exact absurd rfl hv
  | object hkeys h => exact ⟨hkeys, h⟩

theorem lookup_of_mem {α : Type} {g : List (String × α)} (hkeys : (g.map Prod.fst).Nodup)
    {p : String × α} (hp : p ∈ g) : g.lookup p.1 = some p.2 := by
  induction g with
  | nil => simp at hp
  | cons q rest ih =>
      rw [List.map_cons, List.nodup_cons] at hkeys
      rcases List.mem_cons.1 hp with rfl | hp
      · exact List.lookup_cons_self
      · have hne : (p.1 == q.1) = false := by
          rw [beq_eq_false_iff_ne]
          intro heq
          exact hkeys.1 (heq ▸ List.mem_map_of_mem hp)
        rw [List.lookup_cons, hne]
        exact ih hkeys.2 hp

/-- A plain value fits itself. -/
theorem Plain.fits_self (h : Plain v) (hrefl : ∀ k v, leaf k v v) (k : String) :
    Fits leaf k v v := by
  induction h generalizing k with
  | leaf hv => exact .leaf hv (hrefl k _)
  | object hkeys _ ih =>
      exact .object Prod.snd (fun p hp => lookup_of_mem hkeys hp) fun p hp => ih p hp p.1

/-- A value carries another one: it has all its fields, with the same leaves. -/
def Carries (v w : Json) : Prop := Fits (fun _ => Eq) "" v w

/-- A value is like another one: it has all its fields, with leaves of the same kind, and with the
same leaves under the keys in `tags`. -/
def Like (tags : List String) (v w : Json) : Prop :=
  Fits (fun k v w => v.kind = w.kind ∧ (k ∈ tags → v = w)) "" v w

theorem Carries.like {tags : List String} (h : v.Carries w) : v.Like tags w :=
  h.mono fun _ _ _ heq => ⟨by rw [heq], fun _ => heq⟩

end Json

end Hekma
