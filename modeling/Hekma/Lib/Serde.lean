/-
**Formats of structured values.**

A derived format writes a structure as an object with a field for each of its parts, and an
enumeration as a name, or as an object with a field that says which of the cases it is.  The reader
looks the fields up by their keys: their order does not matter to it, and fields it does not know
are passed over, at every depth.

A format comes with the keys that are known in it, so that formats that are put together from others
read back what they write and do not notice what they do not know.

Main definitions:

* `Serde.Wider` — a value with further fields, in any order;
* `Serde.Format`, `Serde.Record` — the format of a value, and of some fields of an object;
* `Serde.Record.field`, `Serde.Record.omitted`, `Serde.Record.nullable`, `Serde.Record.defaulted` —
  one field;
* `Serde.Record.and`, `Serde.Record.toFormat` — fields together, and the object they make up;
* `Serde.tagged` — the cases of an enumeration, told apart by the name in a field.

Main results:

* `Serde.WiderFields.lookup` — a known field is found in a wider object;
* `Serde.Format.read_wider` — **what is wider than a written value is read as that value**.
-/

import Hekma.Lib.Json

set_option relaxedAutoImplicit false
set_option autoImplicit false

namespace Hekma

namespace Serde

/-! ### Further fields -/

/-- A value that says the same to a reader who knows some keys: the fields of its objects may stand
in another order, among others that are not known. -/
inductive Wider (known : List String) : Json → Json → Prop
  | null : Wider known .null .null
  | bool (b : Bool) : Wider known (.bool b) (.bool b)
  | number (n : Json.Number) : Wider known (.number n) (.number n)
  | string (s : String) : Wider known (.string s) (.string s)
  | array {items items' : List Json} (h : List.Forall₂ (Wider known) items items') :
      Wider known (.array items) (.array items')
  | object {f g more f' : Json.Fields} (hkeys : g.map Prod.fst = f.map Prod.fst)
      (h : List.Forall₂ (Wider known) (f.map Prod.snd) (g.map Prod.snd))
      (hmore : ∀ p ∈ more, p.1 ∉ known) (hperm : f'.Perm (g ++ more)) :
      Wider known (.object f) (.object f')

/-- The fields of a wider object. -/
def WiderFields (known : List String) (f f' : Json.Fields) : Prop :=
  ∃ g more, g.map Prod.fst = f.map Prod.fst ∧
    List.Forall₂ (Wider known) (f.map Prod.snd) (g.map Prod.snd) ∧
      (∀ p ∈ more, p.1 ∉ known) ∧ f'.Perm (g ++ more)

theorem Wider.object_left {known : List String} {f : Json.Fields} {v : Json}
    (h : Wider known (.object f) v) : ∃ f', v = .object f' ∧ WiderFields known f f' := by
  cases h with
  | object hkeys h hmore hperm => exact ⟨_, rfl, _, _, hkeys, h, hmore, hperm⟩

theorem Wider.refl (known : List String) : ∀ v : Json, Wider known v v
  | .null => .null
  | .bool b => .bool b
  | .number n => .number n
  | .string s => .string s
  | .array items => .array (List.forall₂_same.2 fun v _ => Wider.refl known v)
  | .object f =>
      .object rfl (List.forall₂_same.2 fun v _ => Wider.refl known v)
        (fun _ hp => absurd hp List.not_mem_nil) (.of_eq (List.append_nil f).symm)
termination_by v => sizeOf v
decreasing_by
  · have hlt := List.sizeOf_lt_of_mem ‹v ∈ items›
    simp only [Json.array.sizeOf_spec]
    omega
  · obtain ⟨⟨key, v'⟩, hp, rfl⟩ := List.mem_map.1 ‹v ∈ f.map Prod.snd›
    have hlt := List.sizeOf_lt_of_mem hp
    simp only [Prod.mk.sizeOf_spec, Json.object.sizeOf_spec] at hlt ⊢
    omega

theorem Wider.ne_null {known : List String} {v v' : Json} (h : Wider known v v')
    (hv : v ≠ .null) : v' ≠ .null := by
  cases h with
  | null => exact absurd rfl hv
  | _ => simp

theorem lookup_self {α : Type} (key : String) (v : α) (f : List (String × α)) :
    ((key, v) :: f).lookup key = some v := by
  rw [List.lookup_cons, beq_self_eq_true]

theorem lookup_of_ne {α : Type} {key key' : String} (h : key ≠ key') (v : α)
    (f : List (String × α)) : ((key', v) :: f).lookup key = f.lookup key := by
  rw [List.lookup_cons, beq_false_of_ne h]

theorem lookup_of_absent {α : Type} {key : String} {f : List (String × α)}
    (h : ∀ p ∈ f, p.1 ≠ key) : f.lookup key = none :=
  List.lookup_eq_none_iff.2 fun p hp => by simpa using (h p hp).symm

theorem rel_refl (known : List String) (found : Option Json) :
    Option.Rel (Wider known) found found := by
  cases found with
  | none => exact .none
  | some v => exact .some (Wider.refl known v)

theorem rel_some {known : List String} {v : Json} {found : Option Json}
    (h : Option.Rel (Wider known) (some v) found) : ∃ v', found = some v' ∧ Wider known v v' := by
  cases h with
  | some h => exact ⟨_, rfl, h⟩

theorem rel_none {known : List String} {found : Option Json}
    (h : Option.Rel (Wider known) none found) : found = none := by
  cases h
  rfl

/-- What is looked up is the first of what there is. -/
theorem lookup_eq_filter (key : String) (f : Json.Fields) :
    f.lookup key = ((f.filter fun p => p.1 = key).head?).map Prod.snd := by
  induction f with
  | nil => rfl
  | cons p f ih =>
      obtain ⟨key', v⟩ := p
      by_cases h : key' = key
      · subst h
        rw [lookup_self, List.filter_cons_of_pos (by simp)]
        rfl
      · rw [lookup_of_ne (Ne.symm h), ih, List.filter_cons_of_neg (by simpa using h)]

/-- No known key stands twice. -/
def Once (keys : List String) (f : Json.Fields) : Prop :=
  ((f.map Prod.fst).filter (· ∈ keys)).Nodup

instance decidableOnce (keys : List String) (f : Json.Fields) : Decidable (Once keys f) :=
  inferInstanceAs (Decidable (List.Nodup _))

theorem once_of_nodup {keys : List String} {f : Json.Fields} (h : (f.map Prod.fst).Nodup) :
    Once keys f := h.filter _

/-- A known key stands once or not at all. -/
theorem Once.filter_key {keys : List String} {g : Json.Fields} (hg : Once keys g) {key : String}
    (hkey : key ∈ keys) :
    (g.filter fun p => p.1 = key) = [] ∨ ∃ p, (g.filter fun p => p.1 = key) = [p] := by
  have hnodup : ((g.filter fun p => p.1 = key).map Prod.fst).Nodup := by
    refine List.Nodup.sublist ?_ hg
    rw [List.filter_map]
    refine (List.monotone_filter_right g fun p hp => ?_).map Prod.fst
    have hp' : p.1 = key := by simpa using hp
    simpa [hp'] using hkey
  cases hfound : g.filter fun p => p.1 = key with
  | nil => exact .inl rfl
  | cons p rest =>
      have hall : ∀ q ∈ p :: rest, q.1 = key := by
        intro q hq
        rw [← hfound] at hq
        exact of_decide_eq_true (List.mem_filter.1 hq).2
      rw [hfound] at hnodup
      cases rest with
      | nil => exact .inr ⟨p, rfl⟩
      | cons q rest =>
          refine absurd (List.nodup_cons.1 hnodup).1 (not_not_intro ?_)
          rw [hall p List.mem_cons_self, ← hall q (List.mem_cons_of_mem p List.mem_cons_self)]
          exact List.mem_cons_self

theorem lookup_of_perm {keys : List String} {f g more : Json.Fields} (hg : Once keys g)
    (hmore : ∀ p ∈ more, p.1 ∉ keys) (hperm : f.Perm (g ++ more)) {key : String}
    (hkey : key ∈ keys) : f.lookup key = g.lookup key := by
  have hnone : (more.filter fun p => decide (p.1 = key)) = [] := by
    rw [List.filter_eq_nil_iff]
    intro p hp heq
    have heq' : p.1 = key := by simpa using heq
    exact hmore p hp (heq' ▸ hkey)
  have hfilter := hperm.filter fun p => decide (p.1 = key)
  rw [List.filter_append, hnone, List.append_nil] at hfilter
  have hsame : (f.filter fun p => decide (p.1 = key)) = g.filter fun p => decide (p.1 = key) := by
    rcases hg.filter_key hkey with h | ⟨p, h⟩
    · rw [h] at hfilter ⊢
      exact hfilter.eq_nil
    · rw [h] at hfilter ⊢
      exact List.perm_singleton.1 hfilter
  rw [lookup_eq_filter, lookup_eq_filter, hsame]

namespace WiderFields

variable {known keys : List String} {f f' : Json.Fields}

theorem lookup_rel {g : Json.Fields} (hkeys : g.map Prod.fst = f.map Prod.fst)
    (h : List.Forall₂ (Wider known) (f.map Prod.snd) (g.map Prod.snd)) (key : String) :
    Option.Rel (Wider known) (f.lookup key) (g.lookup key) := by
  induction f generalizing g with
  | nil =>
      rw [List.map_eq_nil_iff.1 hkeys]
      exact .none
  | cons p f ih =>
      cases g with
      | nil => cases h
      | cons q g =>
          obtain ⟨key', v⟩ := p
          obtain ⟨key'', v'⟩ := q
          obtain ⟨hhead, htail⟩ := List.cons.inj hkeys
          obtain rfl : key'' = key' := hhead
          cases h with
          | cons hv h =>
              by_cases hkey : key = key''
              · rw [hkey, lookup_self, lookup_self]
                exact .some hv
              · rw [lookup_of_ne hkey, lookup_of_ne hkey]
                exact ih htail h

/-- **A known field is found in a wider object.** -/
theorem lookup (h : WiderFields known f f') (hkeys : keys ⊆ known) (honce : Once keys f)
    {key : String} (hkey : key ∈ keys) :
    Option.Rel (Wider known) (f.lookup key) (f'.lookup key) := by
  obtain ⟨g, more, hsame, hg, hmore, hperm⟩ := h
  have hgonce : Once keys g := by
    rw [Once, hsame]
    exact honce
  rw [lookup_of_perm hgonce (fun p hp hp' => hmore p hp (hkeys hp')) hperm hkey]
  exact lookup_rel hsame hg key

theorem once (h : WiderFields known f f') (hkeys : keys ⊆ known) (honce : Once keys f) :
    Once keys f' := by
  obtain ⟨g, more, hsame, -, hmore, hperm⟩ := h
  have hnone : (more.map Prod.fst).filter (fun k => decide (k ∈ keys)) = [] := by
    rw [List.filter_eq_nil_iff]
    intro k hk hk'
    obtain ⟨p, hp, rfl⟩ := List.mem_map.1 hk
    exact hmore p hp (hkeys (by simpa using hk'))
  have hfilter := (hperm.map Prod.fst).filter fun k => decide (k ∈ keys)
  rw [List.map_append, List.filter_append, hnone, List.append_nil, hsame] at hfilter
  exact hfilter.nodup_iff.2 honce

end WiderFields

/-! ### Formats -/

/-- The format of the values of a type: the writer, the reader, and the keys that are known.  What
is written is read back, and a reader does not notice what it does not know. -/
structure Format (α : Type) where
  write : α → Json
  read : Json → Option α
  keys : List String
  read_write : ∀ a, read (write a) = some a
  stable : ∀ known v v' a, keys ⊆ known → Wider known v v' → read v = some a → read v' = some a

/-- The format of some fields of an object: their keys, and the keys that are known in what they
hold. -/
structure Record (α : Type) where
  keys : List String
  inner : List String
  write : α → Json.Fields
  read : Json.Fields → Option α
  keys_write : ∀ a p, p ∈ write a → p.1 ∈ keys
  nodup : ∀ a, ((write a).map Prod.fst).Nodup
  read_write : ∀ a, read (write a) = some a
  stable : ∀ known f f' a, inner ⊆ known →
    (∀ key ∈ keys, Option.Rel (Wider known) (f.lookup key) (f'.lookup key)) →
      read f = some a → read f' = some a

/-- Names that tell the cases of an enumeration apart. -/
structure Names {α : Type} (name : α → String) (cases : List α) : Prop where
  complete : ∀ a, a ∈ cases
  distinct : (cases.map name).Nodup

variable {α β : Type}

theorem Names.find? {name : α → String} {cases : List α} (h : Names name cases) (a : α) :
    (cases.find? fun b => name b = name a) = some a := by
  obtain ⟨b, hb⟩ := Option.isSome_iff_exists.1
    (List.find?_isSome.2 ⟨a, h.complete a, decide_eq_true rfl⟩ :
      (cases.find? fun b => decide (name b = name a)).isSome)
  have hname : name b = name a := by simpa using List.find?_some hb
  rw [hb, List.inj_on_of_nodup_map h.distinct (h.complete b) (h.complete a) hname]

namespace Format

/-- **Further fields do not change what is read.** -/
theorem read_wider (F : Format α) {a : α} {v : Json} (h : Wider F.keys (F.write a) v) :
    F.read v = some a :=
  F.stable F.keys _ _ _ (List.Subset.refl _) h (F.read_write a)

/-! ### Single values -/

/-- A format of values that hold no others. -/
def leaf (write : α → Json) (read : Json → Option α) (hread : ∀ a, read (write a) = some a)
    (hobject : ∀ f, read (.object f) = none) (harray : ∀ items, read (.array items) = none) :
    Format α where
  write := write
  read := read
  keys := []
  read_write := hread
  stable known v v' a _ h hv := by
    cases h with
    | array => rw [harray] at hv; cases hv
    | object => rw [hobject] at hv; cases hv
    | _ => exact hv

def text : Format String :=
  leaf .string Json.asStr (fun _ => rfl) (fun _ => rfl) (fun _ => rfl)

def bool : Format Bool :=
  leaf .bool Json.asBool (fun _ => rfl) (fun _ => rfl) (fun _ => rfl)

def u64 : Format Unsigned64 :=
  leaf (fun n => .number (.ofU64 n)) Json.asU64 (fun _ => Json.asU64_eq_some.2 rfl) (fun _ => rfl)
    (fun _ => rfl)

def i64 : Format Signed64 :=
  leaf (fun n => .number (.ofI64 n)) Json.asI64 (fun _ => Json.asI64_eq_some.2 rfl) (fun _ => rfl)
    (fun _ => rfl)

/-- A smaller machine integer. -/
def narrow (bits : ℕ) (hbits : bits ≤ 64) : Format { n : ℕ // n < 2 ^ bits } :=
  leaf (fun n => .number (.ofU64 ⟨n.1, n.2.trans_le (Nat.pow_le_pow_right Nat.two_pos hbits)⟩))
    (fun v => v.asU64.bind fun n => if h : n.1 < 2 ^ bits then some ⟨n.1, h⟩ else none)
    (fun n => by rw [Json.asU64_eq_some.2 rfl, Option.bind_some, dif_pos n.2])
    (fun _ => rfl) (fun _ => rfl)

/-- The cases of an enumeration without parts, by their names. -/
def names {name : α → String} {cases : List α} (hnames : Names name cases) : Format α :=
  leaf (fun a => .string (name a)) (fun v => v.asStr.bind fun s => cases.find? fun a => name a = s)
    (fun a => hnames.find? a) (fun _ => rfl) (fun _ => rfl)

/-- The items of an array, one by one. -/
def readAll (F : Format α) : List Json → Option (List α)
  | [] => some []
  | v :: items => (F.read v).bind fun a => (readAll F items).map (a :: ·)

theorem readAll_write (F : Format α) (as : List α) : readAll F (as.map F.write) = some as := by
  induction as with
  | nil => rfl
  | cons a as ih => rw [List.map_cons, readAll, F.read_write, ih, Option.bind_some, Option.map_some]

theorem readAll_wider (F : Format α) {known : List String} (hkeys : F.keys ⊆ known)
    {items items' : List Json} (h : List.Forall₂ (Wider known) items items') {as : List α}
    (hread : readAll F items = some as) : readAll F items' = some as := by
  induction h generalizing as with
  | nil => exact hread
  | cons hv _ ih =>
      obtain ⟨a, ha, hread⟩ := Option.bind_eq_some_iff.1 hread
      obtain ⟨rest, hrest, rfl⟩ := Option.map_eq_some_iff.1 hread
      rw [readAll, F.stable _ _ _ _ hkeys hv ha, ih hrest, Option.bind_some, Option.map_some]

def list (F : Format α) : Format (List α) where
  write as := .array (as.map F.write)
  read v := v.asArray.bind (readAll F)
  keys := F.keys
  read_write as := readAll_write F as
  stable known v v' as hkeys h hv := by
    cases h with
    | array h => exact readAll_wider F hkeys h hv
    | object => cases hv
    | _ => exact hv

end Format

/-! ### Fields -/

namespace Record

/-- One field. -/
def field (key : String) (F : Format α) : Record α where
  keys := [key]
  inner := F.keys
  write a := [(key, F.write a)]
  read f := (f.lookup key).bind F.read
  keys_write a p hp := by
    rw [List.mem_singleton.1 hp]
    exact List.mem_singleton_self key
  nodup a := List.nodup_singleton _
  read_write a := by rw [lookup_self, Option.bind_some, F.read_write]
  stable known f f' a hinner h hread := by
    obtain ⟨v, hv, ha⟩ := Option.bind_eq_some_iff.1 hread
    have hrel := h key (List.mem_singleton_self key)
    rw [hv] at hrel
    obtain ⟨v', hv', hw⟩ := rel_some hrel
    rw [hv', Option.bind_some, F.stable known v v' a hinner hw ha]

/-- A field that need not be there: it may be missing, or it may hold nothing. -/
def readOptional (F : Format α) (found : Option Json) : Option (Option α) :=
  match found with
  | none | some .null => some none
  | some v => (F.read v).map some

theorem readOptional_some (F : Format α) {v : Json} (hv : v ≠ .null) :
    readOptional F (some v) = (F.read v).map some := by
  cases v <;> first | rfl | exact absurd rfl hv

theorem readOptional_wider (F : Format α) {known : List String} {found found' : Option Json}
    {o : Option α} (hkeys : F.keys ⊆ known) (h : Option.Rel (Wider known) found found')
    (hread : readOptional F found = some o) : readOptional F found' = some o := by
  cases h with
  | none => exact hread
  | @some v v' h =>
      by_cases hnull : v = .null
      · subst hnull
        cases h
        exact hread
      · rw [readOptional_some F hnull] at hread
        obtain ⟨a, ha, rfl⟩ := Option.map_eq_some_iff.1 hread
        rw [readOptional_some F (h.ne_null hnull), F.stable known v v' a hkeys h ha,
          Option.map_some]

/-- A field that is left out when there is nothing to write. -/
def omitted (key : String) (F : Format α) (hnull : ∀ a, F.write a ≠ .null) :
    Record (Option α) where
  keys := [key]
  inner := F.keys
  write o := o.toList.map fun a => (key, F.write a)
  read f := readOptional F (f.lookup key)
  keys_write o p hp := by
    obtain ⟨a, -, rfl⟩ := List.mem_map.1 hp
    exact List.mem_singleton_self key
  nodup o := by cases o <;> simp
  read_write o := by
    cases o with
    | none => rfl
    | some a =>
        rw [Option.toList_some, List.map_singleton, lookup_self, readOptional_some F (hnull a),
          F.read_write, Option.map_some]
  stable known f f' o hinner h := readOptional_wider F hinner (h key (List.mem_singleton_self key))

/-- A field that holds nothing when there is nothing to write. -/
def nullable (key : String) (F : Format α) (hnull : ∀ a, F.write a ≠ .null) :
    Record (Option α) where
  keys := [key]
  inner := F.keys
  write o := [(key, (o.map F.write).getD .null)]
  read f := readOptional F (f.lookup key)
  keys_write o p hp := by
    rw [List.mem_singleton.1 hp]
    exact List.mem_singleton_self key
  nodup o := List.nodup_singleton _
  read_write o := by
    rw [lookup_self]
    cases o with
    | none => rfl
    | some a =>
        rw [Option.map_some, Option.getD_some, readOptional_some F (hnull a), F.read_write,
          Option.map_some]
  stable known f f' o hinner h := readOptional_wider F hinner (h key (List.mem_singleton_self key))

/-- A field that stands for a value when it is missing. -/
def defaulted (key : String) (F : Format α) (missing : α) : Record α where
  keys := [key]
  inner := F.keys
  write a := [(key, F.write a)]
  read f := (f.lookup key).elim (some missing) F.read
  keys_write a p hp := by
    rw [List.mem_singleton.1 hp]
    exact List.mem_singleton_self key
  nodup a := List.nodup_singleton _
  read_write a := by rw [lookup_self, Option.elim_some, F.read_write]
  stable known f f' a hinner h hread := by
    have hrel := h key (List.mem_singleton_self key)
    cases hv : f.lookup key with
    | none =>
        rw [hv] at hread hrel
        rw [rel_none hrel, hread]
    | some v =>
        rw [hv] at hread hrel
        obtain ⟨v', hv', hw⟩ := rel_some hrel
        rw [hv', Option.elim_some, F.stable known v v' a hinner hw hread]

/-- No field. -/
def empty : Record Unit where
  keys := []
  inner := []
  write _ := []
  read _ := some ()
  keys_write _ _ hp := absurd hp List.not_mem_nil
  nodup _ := List.nodup_nil
  read_write _ := rfl
  stable _ _ _ _ _ _ h := h

/-- What is written among other fields is read as if it were alone. -/
theorem read_beside (R : Record α) {a : α} {f : Json.Fields}
    (h : ∀ key ∈ R.keys, f.lookup key = (R.write a).lookup key) : R.read f = some a := by
  refine R.stable R.inner (R.write a) f a (List.Subset.refl _) (fun key hkey => ?_) (R.read_write a)
  rw [h key hkey]
  exact rel_refl _ _

/-- Fields together. -/
def and (R : Record α) (S : Record β) (hkeys : ∀ key ∈ R.keys, key ∉ S.keys) :
    Record (α × β) where
  keys := R.keys ++ S.keys
  inner := R.inner ++ S.inner
  write p := R.write p.1 ++ S.write p.2
  read f := (R.read f).bind fun a => (S.read f).map (a, ·)
  keys_write p q hq := by
    rcases List.mem_append.1 hq with hq | hq
    · exact List.mem_append_left _ (R.keys_write _ _ hq)
    · exact List.mem_append_right _ (S.keys_write _ _ hq)
  nodup p := by
    rw [List.map_append]
    refine (R.nodup p.1).append (S.nodup p.2) fun key hR hS => ?_
    obtain ⟨q, hq, rfl⟩ := List.mem_map.1 hR
    obtain ⟨q', hq', heq⟩ := List.mem_map.1 hS
    exact hkeys _ (R.keys_write _ _ hq) (heq ▸ S.keys_write _ _ hq')
  read_write p := by
    have hR : R.read (R.write p.1 ++ S.write p.2) = some p.1 := by
      refine R.read_beside fun key hkey => ?_
      have habsent : (S.write p.2).lookup key = none :=
        lookup_of_absent fun q hq heq => hkeys key hkey (heq ▸ S.keys_write _ _ hq)
      rw [List.lookup_append, habsent, Option.or_none]
    have hS : S.read (R.write p.1 ++ S.write p.2) = some p.2 := by
      refine S.read_beside fun key hkey => ?_
      have habsent : (R.write p.1).lookup key = none :=
        lookup_of_absent fun q hq heq => hkeys key (heq ▸ R.keys_write _ _ hq) hkey
      rw [List.lookup_append, habsent, Option.none_or]
    rw [hR, hS, Option.bind_some, Option.map_some]
  stable known f f' p hinner h hread := by
    obtain ⟨a, ha, hrest⟩ := Option.bind_eq_some_iff.1 hread
    obtain ⟨b, hb, rfl⟩ := Option.map_eq_some_iff.1 hrest
    rw [R.stable known f f' a (fun key hkey => hinner (List.mem_append_left _ hkey))
        (fun key hkey => h key (List.mem_append_left _ hkey)) ha,
      S.stable known f f' b (fun key hkey => hinner (List.mem_append_right _ hkey))
        (fun key hkey => h key (List.mem_append_right _ hkey)) hb, Option.bind_some,
      Option.map_some]

/-- Fields for another type with the same values. -/
def via (R : Record α) (forth : α → β) (back : β → α) (hforth : ∀ b, forth (back b) = b) :
    Record β where
  keys := R.keys
  inner := R.inner
  write b := R.write (back b)
  read f := (R.read f).map forth
  keys_write b := R.keys_write (back b)
  nodup b := R.nodup (back b)
  read_write b := by rw [R.read_write, Option.map_some, hforth]
  stable known f f' b hinner h hread := by
    obtain ⟨a, ha, rfl⟩ := Option.map_eq_some_iff.1 hread
    rw [R.stable known f f' a hinner h ha, Option.map_some]

/-- The object that some fields make up. -/
def toFormat (R : Record α) : Format α where
  write a := .object (R.write a)
  read v := v.asObject.bind fun f => if Once R.keys f then R.read f else none
  keys := R.keys ++ R.inner
  read_write a := by
    rw [Json.asObject_eq_some.2 rfl, Option.bind_some, if_pos (once_of_nodup (R.nodup a)),
      R.read_write]
  stable known v v' a hkeys h hread := by
    obtain ⟨f, hf, hread⟩ := Option.bind_eq_some_iff.1 hread
    obtain rfl := Json.asObject_eq_some.1 hf
    obtain ⟨honce, ha⟩ := Option.ite_none_right_eq_some.1 hread
    obtain ⟨f', rfl, hf⟩ := h.object_left
    have hR : R.keys ⊆ known := fun key hkey => hkeys (List.mem_append_left _ hkey)
    have hinner : R.inner ⊆ known := fun key hkey => hkeys (List.mem_append_right _ hkey)
    rw [Json.asObject_eq_some.2 rfl, Option.bind_some, if_pos (hf.once hR honce)]
    exact R.stable known f f' a hinner (fun key hkey => hf.lookup hR honce hkey) ha

end Record

/-! ### Cases -/

/-- A case of an enumeration: its name, the format of its parts, and the case in the type. -/
structure Variant (σ : Type) where
  tag : String
  Parts : Type
  record : Record Parts
  inj : Parts → σ
  proj : σ → Option Parts
  inj_of_proj : ∀ s parts, proj s = some parts → inj parts = s

section Tagged

variable {σ : Type}

/-- The name and the fields of a value. -/
def Variant.write (c : Variant σ) (s : σ) : Option (String × Json.Fields) :=
  (c.proj s).map fun parts => (c.tag, c.record.write parts)

/-- The fields of a value whose case has been read. -/
def Variant.read (c : Variant σ) (key : String) (f : Json.Fields) : Option σ :=
  if Once (key :: c.record.keys) f then (c.record.read f).map c.inj else none

theorem find?_tag {variants : List (Variant σ)} (htags : (variants.map Variant.tag).Nodup)
    {c : Variant σ} (hc : c ∈ variants) : variants.find? (fun d => d.tag = c.tag) = some c := by
  obtain ⟨d, hd⟩ := Option.isSome_iff_exists.1
    (List.find?_isSome.2 ⟨c, hc, decide_eq_true rfl⟩ :
      (variants.find? fun d => decide (d.tag = c.tag)).isSome)
  have htag : d.tag = c.tag := by simpa using List.find?_some hd
  rw [hd, List.inj_on_of_nodup_map htags (List.mem_of_find?_eq_some hd) hc htag]

/-- The value in the case that is named. -/
def readTagged (key : String) (variants : List (Variant σ)) (f : Json.Fields) : Option σ :=
  (f.lookup key).bind fun t => t.asStr.bind fun tag =>
    (variants.find? fun c => c.tag = tag).bind fun c => c.read key f

theorem readTagged_eq_some {key : String} {variants : List (Variant σ)}
    (htags : (variants.map Variant.tag).Nodup) {f : Json.Fields} {s : σ} :
    readTagged key variants f = some s ↔ ∃ c ∈ variants, f.lookup key = some (.string c.tag) ∧
      Once (key :: c.record.keys) f ∧ ∃ parts, c.record.read f = some parts ∧ c.inj parts = s := by
  simp only [readTagged, Option.bind_eq_some_iff, Json.asStr_eq_some, Variant.read,
    Option.ite_none_right_eq_some, Option.map_eq_some_iff]
  constructor
  · rintro ⟨t, ht, tag, rfl, c, hc, hread⟩
    obtain rfl : c.tag = tag := by simpa using List.find?_some hc
    exact ⟨c, List.mem_of_find?_eq_some hc, ht, hread⟩
  · rintro ⟨c, hc, hlookup, hread⟩
    exact ⟨_, hlookup, c.tag, rfl, c, find?_tag htags hc, hread⟩

/-- The cases of an enumeration, told apart by the name in a field. -/
def tagged (key : String) (variants : List (Variant σ))
    (hcover : ∀ s, (variants.any fun c => (c.proj s).isSome) = true)
    (htags : (variants.map Variant.tag).Nodup)
    (hkey : ∀ c ∈ variants, key ∉ c.record.keys) : Format σ where
  write s :=
    match variants.findSome? (·.write s) with
    | some (tag, fields) => .object ((key, .string tag) :: fields)
    | none => .null
  read v := v.asObject.bind (readTagged key variants)
  keys := key :: variants.flatMap fun c => c.record.keys ++ c.record.inner
  read_write s := by
    obtain ⟨d, hd, hsome⟩ := List.any_eq_true.1 (hcover s)
    have hfound : (variants.findSome? (·.write s)).isSome := by
      refine List.findSome?_isSome_iff.2 ⟨d, hd, ?_⟩
      rw [Variant.write, Option.isSome_map, hsome]
    obtain ⟨⟨tag, fields⟩, hfind⟩ := Option.isSome_iff_exists.1 hfound
    obtain ⟨c, hc, hwrite⟩ := List.exists_of_findSome?_eq_some hfind
    obtain ⟨parts, hparts, heq⟩ := Option.map_eq_some_iff.1 hwrite
    obtain ⟨rfl, rfl⟩ := Prod.mk.inj heq
    rw [hfind]
    have hne : ∀ k ∈ c.record.keys, k ≠ key := fun k hk h => hkey c hc (h ▸ hk)
    refine (readTagged_eq_some htags).2 ⟨c, hc, lookup_self _ _ _, once_of_nodup ?_, parts,
      c.record.read_beside fun k hk => lookup_of_ne (hne k hk) _ _, c.inj_of_proj s parts hparts⟩
    refine List.nodup_cons.2 ⟨fun hmem => ?_, c.record.nodup parts⟩
    obtain ⟨p, hp, hpkey⟩ := List.mem_map.1 hmem
    exact hne _ (c.record.keys_write parts p hp) hpkey
  stable known v v' s hknown h hread := by
    obtain ⟨f, hf, hread⟩ := Option.bind_eq_some_iff.1 hread
    obtain rfl := Json.asObject_eq_some.1 hf
    obtain ⟨c, hc, hlookup, honce, parts, hparts, hs⟩ := (readTagged_eq_some htags).1 hread
    obtain ⟨f', rfl, hf⟩ := h.object_left
    have hsub : ∀ k ∈ c.record.keys ++ c.record.inner, k ∈ known := fun k hk =>
      hknown (List.mem_cons_of_mem key (List.mem_flatMap.2 ⟨c, hc, hk⟩))
    have hkeys : key :: c.record.keys ⊆ known := List.cons_subset.2
      ⟨hknown List.mem_cons_self, fun k hk => hsub k (List.mem_append_left _ hk)⟩
    have hrel := hf.lookup hkeys honce List.mem_cons_self
    rw [hlookup] at hrel
    obtain ⟨t, ht, hw⟩ := rel_some hrel
    cases hw
    exact (readTagged_eq_some htags).2 ⟨c, hc, ht, hf.once hkeys honce, parts,
      c.record.stable known f f' parts (fun k hk => hsub k (List.mem_append_right _ hk))
        (fun k hk => hf.lookup hkeys honce (List.mem_cons_of_mem key hk)) hparts, hs⟩

end Tagged

end Serde

end Hekma
