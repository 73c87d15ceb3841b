/-
**JSON documents.**

A document is a tree over some type of numbers: the literals of a text, the numbers of a program, or
the values they stand for.  Its objects are lists of members, as they are written.  A reader that
keeps objects in maps holds a document in a canonical form: it has the members of an object sorted
by key, and of members with the same key the last one.

Main definitions:

* `JsonTree.insert`, `JsonTree.collect` — a list of members as a map, in the order of the keys;
* `JsonTree` — the documents;
* `JsonTree.map` — replace the numbers;
* `JsonTree.canon` — the canonical form.

Main results:

* `JsonTree.collect_of_sorted` — sorted members are a map already;
* `JsonTree.canon_map` — the canonical form does not depend on the numbers;
* `JsonTree.canon_canon` — **the canonical form is canonical**.
-/

import Mathlib.Data.String.Basic
import Mathlib.Tactic.Common

set_option relaxedAutoImplicit false
set_option autoImplicit false

/-- A document over a type of numbers. -/
inductive JsonTree (N : Type) where
  | null
  | bool (b : Bool)
  | number (n : N)
  | string (s : String)
  | array (items : List (JsonTree N))
  | object (members : List (String × JsonTree N))

namespace JsonTree

/-! ### Members -/

section Members

variable {V W : Type} {k : String} {v : V} {m : List (String × V)}

/-- Insert a member into a map.  It replaces the member with its key. -/
def insert (k : String) (v : V) : List (String × V) → List (String × V)
  | [] => [(k, v)]
  | p :: m => if k < p.1 then (k, v) :: p :: m else if k = p.1 then (k, v) :: m else p :: insert k v m

/-- Insert members one after another. -/
def insertAll (m : List (String × V)) (members : List (String × V)) : List (String × V) :=
  members.foldl (fun m p => insert p.1 p.2 m) m

/-- The map of a list of members. -/
def collect (members : List (String × V)) : List (String × V) := insertAll [] members

/-- The keys increase. -/
def Sorted (m : List (String × V)) : Prop := (m.map Prod.fst).Pairwise (· < ·)

theorem mem_keys_insert {k' : String} :
    k' ∈ (insert k v m).map Prod.fst ↔ k' = k ∨ k' ∈ m.map Prod.fst := by
  induction m with
  | nil => simp [insert]
  | cons p m ih =>
      rw [insert]
      split
      · simp
      · split
        · rename_i heq
          simp [heq]
        · rw [List.map_cons, List.mem_cons, ih, List.map_cons, List.mem_cons]
          exact or_left_comm

theorem Sorted.insert (h : Sorted m) (k : String) (v : V) : Sorted (insert k v m) := by
  induction m with
  | nil => simp [Sorted, JsonTree.insert]
  | cons p m ih =>
      obtain ⟨hp, hm⟩ := List.pairwise_cons.1 h
      rw [JsonTree.insert]
      split
      · rename_i hlt
        refine List.pairwise_cons.2 ⟨fun k' hk' => ?_, h⟩
        rcases List.mem_cons.1 hk' with rfl | hk'
        · exact hlt
        · exact hlt.trans (hp k' hk')
      · rename_i hlt
        split
        · rename_i heq
          refine List.pairwise_cons.2 ⟨fun k' hk' => ?_, hm⟩
          rw [show k = p.1 from heq]
          exact hp k' hk'
        · rename_i hne
          refine List.pairwise_cons.2 ⟨fun k' hk' => ?_, ih hm⟩
          rcases mem_keys_insert.1 hk' with rfl | hk'
          · exact lt_of_le_of_ne (not_lt.1 hlt) (Ne.symm hne)
          · exact hp k' hk'

theorem Sorted.insertAll (h : Sorted m) (members : List (String × V)) :
    Sorted (insertAll m members) := by
  induction members generalizing m with
  | nil => exact h
  | cons p members ih => exact ih (h.insert p.1 p.2)

theorem sorted_nil : Sorted ([] : List (String × V)) := List.Pairwise.nil

theorem sorted_collect (members : List (String × V)) : Sorted (collect members) :=
  sorted_nil.insertAll members

/-- A key above all others is inserted at the end. -/
theorem insert_of_lt (h : ∀ k' ∈ m.map Prod.fst, k' < k) : insert k v m = m ++ [(k, v)] := by
  induction m with
  | nil => rfl
  | cons p m ih =>
      have hp : p.1 < k := h p.1 (by simp)
      rw [insert, if_neg (lt_asymm hp), if_neg (ne_of_gt hp), ih fun k' hk' => h k' (by simp_all)]
      rfl

/-- **Sorted members are a map already.** -/
theorem collect_of_sorted (h : Sorted m) : collect m = m := by
  have hall : ∀ pre post : List (String × V), Sorted (pre ++ post) →
      insertAll pre post = pre ++ post := by
    intro pre post
    induction post generalizing pre with
    | nil => exact fun _ => (List.append_nil pre).symm
    | cons p post ih =>
        intro hsorted
        have hlt : ∀ k' ∈ pre.map Prod.fst, k' < p.1 := by
          rw [Sorted, List.map_append, List.pairwise_append] at hsorted
          exact fun k' hk' => hsorted.2.2 k' hk' p.1 (by simp)
        have hsplit : pre ++ [(p.1, p.2)] ++ post = pre ++ p :: post := by simp
        rw [insertAll, List.foldl_cons, insert_of_lt hlt]
        rw [← hsplit] at hsorted ⊢
        exact ih _ hsorted
  exact hall [] m h

/-- The member of a key in a map. -/
theorem lookup_insert (k' : String) :
    (insert k v m).lookup k' = if k' = k then some v else m.lookup k' := by
  induction m with
  | nil =>
      by_cases hk : k' = k
      · simp [insert, hk]
      · simp [insert, hk, List.lookup_cons, beq_eq_false_iff_ne.2 hk]
  | cons p m ih =>
      obtain ⟨key, w⟩ := p
      rw [insert]
      by_cases hk : k' = k
      · subst hk
        split
        · simp
        · split
          · simp
          · rename_i hne
            simp [List.lookup_cons, beq_eq_false_iff_ne.2 hne, ih]
      · rw [if_neg hk] at ih ⊢
        split
        · rw [List.lookup_cons, beq_eq_false_iff_ne.2 hk]
        · split
          · rename_i heq
            have hkey : k = key := heq
            subst hkey
            simp only [List.lookup_cons, beq_eq_false_iff_ne.2 hk]
          · simp only [List.lookup_cons, ih]

theorem lookup_insertAll (members : List (String × V)) (k' : String) :
    (insertAll m members).lookup k' = (members.reverse.lookup k').or (m.lookup k') := by
  induction members generalizing m with
  | nil => rfl
  | cons p members ih =>
      have hstep := ih (m := insert p.1 p.2 m)
      rw [insertAll, List.foldl_cons]
      rw [insertAll] at hstep
      rw [hstep, lookup_insert, List.reverse_cons, List.lookup_append, Option.or_assoc]
      obtain ⟨k, v⟩ := p
      by_cases hk : k' = k
      · simp [hk]
      · simp [List.lookup_cons, hk, beq_eq_false_iff_ne.2 hk]

/-- The member of a key in the map of some members is the last one with the key. -/
theorem lookup_collect (members : List (String × V)) (k' : String) :
    (collect members).lookup k' = members.reverse.lookup k' := by
  rw [collect, lookup_insertAll, List.lookup_nil, Option.or_none]

variable (f : V → W)

theorem lookup_map (members : List (String × V)) (k' : String) :
    (members.map fun p => (p.1, f p.2)).lookup k' = (members.lookup k').map f := by
  induction members with
  | nil => rfl
  | cons p members ih =>
      rw [List.map_cons, List.lookup_cons, List.lookup_cons, ih]
      cases k' == p.1 <;> rfl

theorem Sorted.map (h : Sorted m) : Sorted (m.map fun p => (p.1, f p.2)) := by
  rwa [Sorted, List.map_map]

theorem map_insert : (insert k v m).map (fun p => (p.1, f p.2)) =
    insert k (f v) (m.map fun p => (p.1, f p.2)) := by
  induction m with
  | nil => rfl
  | cons p m ih =>
      rw [insert, List.map_cons, insert]
      split
      · rfl
      · split
        · rfl
        · rw [List.map_cons, ih]

/-- A map of members keeps its shape when the values are replaced. -/
theorem map_collect (members : List (String × V)) :
    (collect members).map (fun p => (p.1, f p.2)) =
      collect (members.map fun p => (p.1, f p.2)) := by
  have hall : ∀ m : List (String × V), (insertAll m members).map (fun p => (p.1, f p.2)) =
      insertAll (m.map fun p => (p.1, f p.2)) (members.map fun p => (p.1, f p.2)) := by
    induction members with
    | nil => exact fun m => rfl
    | cons p members ih =>
        intro m
        have hstep := ih (insert p.1 p.2 m)
        rw [map_insert] at hstep
        exact hstep
  exact hall []

end Members

/-! ### Documents -/

variable {N M L : Type}

mutual

/-- Replace the numbers of a document. -/
def map (f : N → M) : JsonTree N → JsonTree M
  | .null => .null
  | .bool b => .bool b
  | .number n => .number (f n)
  | .string s => .string s
  | .array items => .array (mapItems f items)
  | .object members => .object (mapMembers f members)

/-- Replace the numbers of the items of an array. -/
def mapItems (f : N → M) : List (JsonTree N) → List (JsonTree M)
  | [] => []
  | d :: items => map f d :: mapItems f items

/-- Replace the numbers of a member. -/
def mapMember (f : N → M) : String × JsonTree N → String × JsonTree M
  | (k, d) => (k, map f d)

/-- Replace the numbers of the members of an object. -/
def mapMembers (f : N → M) : List (String × JsonTree N) → List (String × JsonTree M)
  | [] => []
  | p :: members => mapMember f p :: mapMembers f members

end

mutual

/-- The canonical form of a document. -/
def canon : JsonTree N → JsonTree N
  | .null => .null
  | .bool b => .bool b
  | .number n => .number n
  | .string s => .string s
  | .array items => .array (canonItems items)
  | .object members => .object (collect (canonMembers members))

/-- The canonical forms of the items of an array. -/
def canonItems : List (JsonTree N) → List (JsonTree N)
  | [] => []
  | d :: items => canon d :: canonItems items

/-- A member with the canonical form of its value. -/
def canonMember : String × JsonTree N → String × JsonTree N
  | (k, d) => (k, canon d)

/-- The members of an object with the canonical forms of their values. -/
def canonMembers : List (String × JsonTree N) → List (String × JsonTree N)
  | [] => []
  | p :: members => canonMember p :: canonMembers members

end

theorem mapMembers_eq (f : N → M) (members : List (String × JsonTree N)) :
    mapMembers f members = members.map fun p => (p.1, map f p.2) := by
  induction members with
  | nil => rfl
  | cons p members ih =>
      rw [mapMembers, ih, mapMember, List.map_cons]

theorem canonMembers_eq (members : List (String × JsonTree N)) :
    canonMembers members = members.map fun p => (p.1, canon p.2) := by
  induction members with
  | nil => rfl
  | cons p members ih =>
      rw [canonMembers, ih, canonMember, List.map_cons]

mutual

theorem map_map (f : N → M) (g : M → L) : ∀ d : JsonTree N, map g (map f d) = map (g ∘ f) d
  | .null => rfl
  | .bool _ => rfl
  | .number _ => rfl
  | .string _ => rfl
  | .array items => by rw [map, map, map, mapItems_mapItems f g items]
  | .object members => by rw [map, map, map, mapMembers_mapMembers f g members]

theorem mapItems_mapItems (f : N → M) (g : M → L) : ∀ items : List (JsonTree N),
    mapItems g (mapItems f items) = mapItems (g ∘ f) items
  | [] => rfl
  | d :: items => by rw [mapItems, mapItems, mapItems, map_map f g d, mapItems_mapItems f g items]

theorem mapMember_mapMember (f : N → M) (g : M → L) : ∀ p : String × JsonTree N,
    mapMember g (mapMember f p) = mapMember (g ∘ f) p
  | (k, d) => by rw [mapMember, mapMember, mapMember, map_map f g d]

theorem mapMembers_mapMembers (f : N → M) (g : M → L) : ∀ members : List (String × JsonTree N),
    mapMembers g (mapMembers f members) = mapMembers (g ∘ f) members
  | [] => rfl
  | p :: members => by
      rw [mapMembers, mapMembers, mapMembers, mapMember_mapMember f g p,
        mapMembers_mapMembers f g members]

end

/-- Replacing the numbers of a map of members. -/
theorem mapMembers_collect (f : N → M) (members : List (String × JsonTree N)) :
    mapMembers f (collect members) = collect (mapMembers f members) := by
  rw [mapMembers_eq, mapMembers_eq, map_collect]

mutual

/-- **The canonical form does not depend on the numbers.** -/
theorem canon_map (f : N → M) : ∀ d : JsonTree N, canon (map f d) = map f (canon d)
  | .null => rfl
  | .bool _ => rfl
  | .number _ => rfl
  | .string _ => rfl
  | .array items => by rw [map, canon, canon, map, canonItems_mapItems f items]
  | .object members => by
      rw [map, canon, canon, map, canonMembers_mapMembers f members, mapMembers_collect]

theorem canonItems_mapItems (f : N → M) : ∀ items : List (JsonTree N),
    canonItems (mapItems f items) = mapItems f (canonItems items)
  | [] => rfl
  | d :: items => by
      rw [mapItems, canonItems, canonItems, mapItems, canon_map f d, canonItems_mapItems f items]

theorem canonMember_mapMember (f : N → M) : ∀ p : String × JsonTree N,
    canonMember (mapMember f p) = mapMember f (canonMember p)
  | (k, d) => by rw [mapMember, canonMember, canonMember, mapMember, canon_map f d]

theorem canonMembers_mapMembers (f : N → M) : ∀ members : List (String × JsonTree N),
    canonMembers (mapMembers f members) = mapMembers f (canonMembers members)
  | [] => rfl
  | p :: members => by
      rw [mapMembers, canonMembers, canonMembers, mapMembers, canonMember_mapMember f p,
        canonMembers_mapMembers f members]

end

/-- The canonical forms of the values of a map of members. -/
theorem canonMembers_collect (members : List (String × JsonTree N)) :
    canonMembers (collect members) = collect (canonMembers members) := by
  rw [canonMembers_eq, canonMembers_eq, map_collect]

mutual

/-- **The canonical form is canonical.** -/
theorem canon_canon : ∀ d : JsonTree N, canon (canon d) = canon d
  | .null => rfl
  | .bool _ => rfl
  | .number _ => rfl
  | .string _ => rfl
  | .array items => by rw [canon, canon, canonItems_canonItems items]
  | .object members => by
      rw [canon, canon, canonMembers_collect, canonMembers_canonMembers members,
        collect_of_sorted (sorted_collect _)]

theorem canonItems_canonItems : ∀ items : List (JsonTree N),
    canonItems (canonItems items) = canonItems items
  | [] => rfl
  | d :: items => by rw [canonItems, canonItems, canon_canon d, canonItems_canonItems items]

theorem canonMember_canonMember : ∀ p : String × JsonTree N,
    canonMember (canonMember p) = canonMember p
  | (k, d) => by rw [canonMember, canonMember, canon_canon d]

theorem canonMembers_canonMembers : ∀ members : List (String × JsonTree N),
    canonMembers (canonMembers members) = canonMembers members
  | [] => rfl
  | p :: members => by
      rw [canonMembers, canonMembers, canonMember_canonMember p, canonMembers_canonMembers members]

end

/-! ### Objects in canonical form -/

theorem sorted_of_canon {members : List (String × JsonTree N)}
    (h : canon (.object members) = .object members) : Sorted members := by
  rw [canon] at h
  rw [← JsonTree.object.inj h]
  exact sorted_collect _

/-- **An object in canonical form stays so with one more member.** -/
theorem canon_insert {members : List (String × JsonTree N)}
    (h : canon (.object members) = .object members) (k : String) (d : JsonTree N) :
    canon (.object (insert k d members)) = .object (insert k (canon d) members) := by
  have hsorted := sorted_of_canon h
  rw [canon, canonMembers_eq, collect_of_sorted (hsorted.map canon), ← canonMembers_eq] at h
  rw [canon, canonMembers_eq, map_insert, ← canonMembers_eq, JsonTree.object.inj h,
    collect_of_sorted (hsorted.insert k (canon d))]

end JsonTree
