/-
**Trees of keyed entries.**

A tree is an ordered list of entries, and an entry is a leaf or a tree under a key: the shape of a
table of a configuration language.  A path of keys leads to at most one entry, and the leaves of a
tree can be listed with the paths that lead to them.

Main definitions:

* `KeyTree`, `KeyTree.Entry` — trees, and what stands under a key;
* `KeyTree.get?` — the entry under a key;
* `KeyTree.put`, `KeyTree.set` — an entry put in the order of the keys, or where its key stands;
* `KeyTree.leafAt`, `KeyTree.Clear` — the leaf a path leads to, and the paths a tree says nothing of;
* `KeyTree.leaves` — the leaves in the order of their paths;
* `KeyTree.Distinct`, `KeyTree.Sorted` — no key twice, and the keys in order, at every level.

Main results:

* `KeyTree.get?_put`, `KeyTree.get?_set` — putting an entry changes this one entry;
* `KeyTree.mem_leaves` — the leaves listed are those a path leads to;
* `KeyTree.sorted_put`, `KeyTree.pairwise_leaves` — a tree that is filled in order lists its leaves
  in the order of their paths.
-/

import Mathlib.Tactic
import Mathlib.Data.List.Lex

set_option relaxedAutoImplicit false
set_option autoImplicit false

namespace Hekma

/-- Entries in a row: a leaf or a tree under a key, and the entries that follow. -/
inductive KeyTree (κ α : Type*) where
  | nil
  | leaf (key : κ) (a : α) (rest : KeyTree κ α)
  | sub (key : κ) (child rest : KeyTree κ α)
  deriving DecidableEq

/-- In a list in order, what follows an element is what is greater. -/
theorem mem_later_iff {ι : Type*} {r : ι → ι → Prop} [Std.Asymm r]
    {l earlier later : List ι} {x y : ι} (h : l.Pairwise r) (hsplit : l = earlier ++ x :: later) :
    y ∈ later ↔ y ∈ l ∧ r x y := by
  subst hsplit
  obtain ⟨-, hx, hearlier⟩ := List.pairwise_append.1 h
  constructor
  · intro hy
    exact ⟨by simp [hy], (List.pairwise_cons.1 hx).1 y hy⟩
  · rintro ⟨hy, hxy⟩
    rw [List.mem_append, List.mem_cons] at hy
    rcases hy with hy | rfl | hy
    · exact absurd (hearlier y hy x List.mem_cons_self) (Std.Asymm.asymm _ _ hxy)
    · exact absurd hxy (Std.Asymm.asymm _ _ hxy)
    · exact hy

namespace KeyTree

variable {κ α : Type*}

/-- What stands under a key. -/
inductive Entry (κ α : Type*) where
  | leaf (a : α)
  | sub (t : KeyTree κ α)

/-- An entry in front of others. -/
def cons (key : κ) : Entry κ α → KeyTree κ α → KeyTree κ α
  | .leaf a, rest => leaf key a rest
  | .sub child, rest => sub key child rest

variable [LinearOrder κ]

/-! ### Looking up -/

/-- The entry under a key. -/
def get? : KeyTree κ α → κ → Option (Entry κ α)
  | nil, _ => none
  | leaf key a rest, k => if key = k then some (.leaf a) else rest.get? k
  | sub key child rest, k => if key = k then some (.sub child) else rest.get? k

/-- The leaf a path leads to. -/
def leafAt : KeyTree κ α → List κ → Option α
  | _, [] => none
  | t, k :: path =>
      match t.get? k with
      | none => none
      | some (.leaf a) => if path = [] then some a else none
      | some (.sub child) => child.leafAt path

/-- The leaf a path leads to from what stands under a key. -/
def Entry.leafAt : Entry κ α → List κ → Option α
  | .leaf a, path => if path = [] then some a else none
  | .sub t, path => t.leafAt path

/-- The tree has no entry at the path and no leaf on the way to it. -/
def Clear : KeyTree κ α → List κ → Prop
  | _, [] => False
  | t, k :: path =>
      match t.get? k with
      | none => True
      | some (.leaf _) => False
      | some (.sub child) => child.Clear path

variable {t : KeyTree κ α} {k : κ} {path path' : List κ} {a : α}

theorem get?_leaf_self {rest : KeyTree κ α} : (leaf k a rest).get? k = some (.leaf a) :=
  if_pos rfl

theorem get?_sub_self {child rest : KeyTree κ α} :
    (sub k child rest).get? k = some (.sub child) := if_pos rfl

theorem leafAt_cons_of_none (h : t.get? k = none) : t.leafAt (k :: path) = none := by
  rw [leafAt, h]

theorem leafAt_cons_of_leaf (h : t.get? k = some (.leaf a)) :
    t.leafAt (k :: path) = if path = [] then some a else none := by
  rw [leafAt, h]

theorem leafAt_cons_of_sub {child : KeyTree κ α} (h : t.get? k = some (.sub child)) :
    t.leafAt (k :: path) = child.leafAt path := by
  rw [leafAt, h]

theorem leafAt_cons_of_some {e : Entry κ α} (h : t.get? k = some e) :
    t.leafAt (k :: path) = e.leafAt path := by
  cases e with
  | leaf a => exact leafAt_cons_of_leaf h
  | sub child => exact leafAt_cons_of_sub h

theorem leafAt_congr {t' : KeyTree κ α} (h : t.get? k = t'.get? k) :
    t.leafAt (k :: path) = t'.leafAt (k :: path) := by
  rw [leafAt, leafAt, h]

theorem ne_nil_of_leafAt (h : t.leafAt path = some a) : path ≠ [] := by
  rintro rfl
  rw [leafAt] at h
  cases h

/-- A tree that has a leaf at a path is not clear at a path above or below. -/
theorem not_clear_of_leafAt (h : t.leafAt path = some a)
    (hpath : path <+: path' ∨ path' <+: path) : ¬ t.Clear path' := by
  induction path' generalizing t path with
  | nil => exact id
  | cons k' path' ih =>
      cases path with
      | nil => exact absurd rfl (ne_nil_of_leafAt h)
      | cons k path =>
          obtain ⟨rfl, hrest⟩ : k = k' ∧ (path <+: path' ∨ path' <+: path) := by
            rcases hpath with hp | hp <;> rw [List.cons_prefix_cons] at hp
            · exact ⟨hp.1, .inl hp.2⟩
            · exact ⟨hp.1.symm, .inr hp.2⟩
          rw [Clear]
          cases hget : t.get? k with
          | none =>
              rw [leafAt_cons_of_none hget] at h
              cases h
          | some e =>
              cases e with
              | leaf b => exact id
              | sub child =>
                  rw [leafAt_cons_of_sub hget] at h
                  exact ih h hrest

/-- One of two paths that lead to leaves of a tree is not above the other. -/
theorem eq_of_leafAt_prefix {b : α} (h : t.leafAt path = some a) (h' : t.leafAt path' = some b)
    (hpath : path <+: path') : path = path' := by
  induction path generalizing t path' with
  | nil => exact absurd rfl (ne_nil_of_leafAt h)
  | cons k path ih =>
      cases path' with
      | nil => simp at hpath
      | cons k' path' =>
          obtain ⟨rfl, hrest⟩ := List.cons_prefix_cons.1 hpath
          cases hget : t.get? k with
          | none =>
              rw [leafAt_cons_of_none hget] at h
              cases h
          | some e =>
              cases e with
              | leaf c =>
                  rw [leafAt_cons_of_leaf hget] at h h'
                  have hnil : path = [] := by
                    by_contra hne
                    rw [if_neg hne] at h
                    cases h
                  have hnil' : path' = [] := by
                    by_contra hne
                    rw [if_neg hne] at h'
                    cases h'
                  rw [hnil, hnil']
              | sub child =>
                  rw [leafAt_cons_of_sub hget] at h h'
                  rw [ih h h' hrest]

/-! ### Putting an entry in its place -/

/-- The entry put in place of the one with its key, or before the first key that comes after it. -/
def insertBy (before : κ → κ → Bool) : KeyTree κ α → κ → Entry κ α → KeyTree κ α
  | nil, k, e => cons k e nil
  | leaf key a rest, k, e =>
      if before k key then cons k e (leaf key a rest)
      else if k = key then cons k e rest
      else leaf key a (rest.insertBy before k e)
  | sub key child rest, k, e =>
      if before k key then cons k e (sub key child rest)
      else if k = key then cons k e rest
      else sub key child (rest.insertBy before k e)

/-- The entry put in its place in the order of the keys. -/
def put (t : KeyTree κ α) (k : κ) (e : Entry κ α) : KeyTree κ α :=
  t.insertBy (fun k key => k < key) k e

/-- The entry put in place of the one with its key, or at the end. -/
def set (t : KeyTree κ α) (k : κ) (e : Entry κ α) : KeyTree κ α := t.insertBy (fun _ _ => false) k e

section Insert

variable {before : κ → κ → Bool} {key : κ} {e d : Entry κ α} {rest : KeyTree κ α}

theorem get?_cons (k' : κ) : (cons k e t).get? k' = if k = k' then some e else t.get? k' := by
  cases e <;> rfl

theorem insertBy_cons : (cons key d rest).insertBy before k e =
    if before k key then cons k e (cons key d rest)
    else if k = key then cons k e rest
    else cons key d (rest.insertBy before k e) := by
  cases d <;> rfl

theorem get?_insertBy_cons {k' : κ}
    (ih : (rest.insertBy before k e).get? k' = if k = k' then some e else rest.get? k') :
    ((cons key d rest).insertBy before k e).get? k' =
      if k = k' then some e else (cons key d rest).get? k' := by
  rw [insertBy_cons]
  by_cases hbefore : before k key
  · rw [if_pos hbefore, get?_cons]
  · rw [if_neg hbefore]
    by_cases hkey : k = key
    · subst hkey
      rw [if_pos rfl, get?_cons, get?_cons]
      split_ifs <;> rfl
    · rw [if_neg hkey, get?_cons, get?_cons, ih]
      by_cases h : key = k'
      · rw [if_pos h, if_pos h, if_neg fun heq => hkey (heq.trans h.symm)]
      · rw [if_neg h, if_neg h]

theorem get?_insertBy (k' : κ) :
    (t.insertBy before k e).get? k' = if k = k' then some e else t.get? k' := by
  induction t with
  | nil => exact get?_cons k'
  | leaf key a rest ih => exact get?_insertBy_cons (d := .leaf a) ih
  | sub key child rest _ ih => exact get?_insertBy_cons (d := .sub child) ih

/-- **Putting an entry changes this one entry.** -/
theorem get?_put (k' : κ) : (t.put k e).get? k' = if k = k' then some e else t.get? k' :=
  get?_insertBy k'

theorem get?_set (k' : κ) : (t.set k e).get? k' = if k = k' then some e else t.get? k' :=
  get?_insertBy k'

theorem get?_set_self (t : KeyTree κ α) (k : κ) (e : Entry κ α) :
    (t.set k e).get? k = some e := by
  rw [get?_set, if_pos rfl]

theorem get?_set_of_ne (t : KeyTree κ α) {k k' : κ} (e : Entry κ α) (h : k ≠ k') :
    (t.set k e).get? k' = t.get? k' := by
  rw [get?_set, if_neg h]

/-- An entry set where it already stands. -/
theorem set_of_get? {t : KeyTree κ α} {k : κ} {e : Entry κ α} (h : t.get? k = some e) :
    t.set k e = t := by
  rw [set]
  induction t with
  | nil => cases h
  | leaf key a rest ih =>
      rw [get?] at h
      rw [insertBy, if_neg Bool.false_ne_true]
      by_cases hkey : key = k
      · rw [if_pos hkey] at h
        cases h
        rw [if_pos hkey.symm, hkey]
        rfl
      · rw [if_neg hkey] at h
        rw [if_neg (Ne.symm hkey), ih h]
  | sub key child rest _ ih =>
      rw [get?] at h
      rw [insertBy, if_neg Bool.false_ne_true]
      by_cases hkey : key = k
      · rw [if_pos hkey] at h
        cases h
        rw [if_pos hkey.symm, hkey]
        rfl
      · rw [if_neg hkey] at h
        rw [if_neg (Ne.symm hkey), ih h]

/-- An entry set in place of one that was set. -/
theorem set_set (t : KeyTree κ α) (k : κ) (d e : Entry κ α) : (t.set k d).set k e = t.set k e := by
  simp only [set]
  induction t with
  | nil =>
      rw [insertBy, insertBy_cons, if_neg Bool.false_ne_true, if_pos rfl]
      rfl
  | leaf key a rest ih =>
      simp only [insertBy, if_neg Bool.false_ne_true]
      by_cases hkey : k = key
      · rw [if_pos hkey, if_pos hkey, insertBy_cons, if_neg Bool.false_ne_true, if_pos rfl]
      · rw [if_neg hkey, if_neg hkey, insertBy, if_neg Bool.false_ne_true, if_neg hkey, ih]
  | sub key child rest _ ih =>
      simp only [insertBy, if_neg Bool.false_ne_true]
      by_cases hkey : k = key
      · rw [if_pos hkey, if_pos hkey, insertBy_cons, if_neg Bool.false_ne_true, if_pos rfl]
      · rw [if_neg hkey, if_neg hkey, insertBy, if_neg Bool.false_ne_true, if_neg hkey, ih]

end Insert

/-! ### Every key once, and in order -/

/-- A property of all keys of this level. -/
def AllKeys (P : κ → Prop) : KeyTree κ α → Prop
  | nil => True
  | leaf key _ rest => P key ∧ rest.AllKeys P
  | sub key _ rest => P key ∧ rest.AllKeys P

/-- At every level a relation holds between a key and those that follow. -/
def Ordered (r : κ → κ → Prop) : KeyTree κ α → Prop
  | nil => True
  | leaf key _ rest => rest.AllKeys (r key) ∧ rest.Ordered r
  | sub key child rest => rest.AllKeys (r key) ∧ rest.Ordered r ∧ child.Ordered r

/-- No key stands twice at one level. -/
abbrev Distinct (t : KeyTree κ α) : Prop := t.Ordered (· ≠ ·)

/-- The keys of every level are in order. -/
abbrev Sorted (t : KeyTree κ α) : Prop := t.Ordered (· < ·)

omit [LinearOrder κ] in
theorem AllKeys.imp {P Q : κ → Prop} (hPQ : ∀ k, P k → Q k) (h : t.AllKeys P) : t.AllKeys Q := by
  induction t with
  | nil => trivial
  | leaf key a rest ih => exact ⟨hPQ _ h.1, ih h.2⟩
  | sub key child rest _ ih => exact ⟨hPQ _ h.1, ih h.2⟩

theorem AllKeys.of_get? {P : κ → Prop} {e : Entry κ α} (h : t.AllKeys P) (hget : t.get? k = some e) :
    P k := by
  induction t with
  | nil => cases hget
  | leaf key a rest ih =>
      rw [get?] at hget
      split_ifs at hget with heq
      · exact heq ▸ h.1
      · exact ih h.2 hget
  | sub key child rest _ ih =>
      rw [get?] at hget
      split_ifs at hget with heq
      · exact heq ▸ h.1
      · exact ih h.2 hget

/-- At every level below an entry a relation holds between a key and those that follow. -/
def Entry.Ordered (r : κ → κ → Prop) : Entry κ α → Prop
  | .leaf _ => True
  | .sub t => t.Ordered r

section Ordered

variable {r : κ → κ → Prop} {key : κ} {e d : Entry κ α} {rest : KeyTree κ α}

omit [LinearOrder κ] in
theorem allKeys_cons {P : κ → Prop} : (cons key e rest).AllKeys P ↔ P key ∧ rest.AllKeys P := by
  cases e <;> rfl

omit [LinearOrder κ] in
theorem ordered_cons :
    (cons key e rest).Ordered r ↔ rest.AllKeys (r key) ∧ rest.Ordered r ∧ e.Ordered r := by
  cases e with
  | leaf a => exact ⟨fun h => ⟨h.1, h.2, trivial⟩, fun h => ⟨h.1, h.2.1⟩⟩
  | sub child => exact Iff.rfl

theorem Ordered.entry (h : t.Ordered r) (hget : t.get? k = some e) : e.Ordered r := by
  induction t with
  | nil => cases hget
  | leaf key a rest ih =>
      rw [get?] at hget
      split_ifs at hget
      · cases hget
        trivial
      · exact ih h.2 hget
  | sub key child rest _ ih =>
      rw [get?] at hget
      split_ifs at hget
      · cases hget
        exact h.2.2
      · exact ih h.2.1 hget

theorem Sorted.distinct (h : t.Sorted) : t.Distinct := by
  induction t with
  | nil => trivial
  | leaf key a rest ih => exact ⟨h.1.imp fun _ => ne_of_lt, ih h.2⟩
  | sub key child rest ihc ih => exact ⟨h.1.imp fun _ => ne_of_lt, ih h.2.1, ihc h.2.2⟩

theorem allKeys_insertBy {P : κ → Prop} {before : κ → κ → Bool} (hk : P k) (h : t.AllKeys P) :
    (t.insertBy before k e).AllKeys P := by
  induction t with
  | nil => exact allKeys_cons.2 ⟨hk, trivial⟩
  | leaf key a rest ih =>
      rw [insertBy]
      split_ifs
      · exact allKeys_cons.2 ⟨hk, h⟩
      · exact allKeys_cons.2 ⟨hk, h.2⟩
      · exact ⟨h.1, ih h.2⟩
  | sub key child rest _ ih =>
      rw [insertBy]
      split_ifs
      · exact allKeys_cons.2 ⟨hk, h⟩
      · exact allKeys_cons.2 ⟨hk, h.2⟩
      · exact ⟨h.1, ih h.2⟩

theorem sorted_put_cons (ih : rest.Sorted → (rest.put k e).Sorted)
    (h : (cons key d rest).Sorted) (he : e.Ordered (· < ·)) :
    ((cons key d rest).put k e).Sorted := by
  obtain ⟨hall, hrest, hd⟩ := ordered_cons.1 h
  rw [put, insertBy_cons]
  split_ifs with hlt heq
  · rw [decide_eq_true_iff] at hlt
    refine ordered_cons.2 ⟨allKeys_cons.2 ⟨hlt, ?_⟩, h, he⟩
    exact hall.imp fun _ => hlt.trans
  · exact ordered_cons.2 ⟨heq ▸ hall, hrest, he⟩
  · rw [decide_eq_true_iff] at hlt
    have hgt : key < k := lt_of_le_of_ne (not_lt.1 hlt) fun h => heq h.symm
    exact ordered_cons.2 ⟨allKeys_insertBy hgt hall, ih hrest, hd⟩

/-- An entry is put in its place. -/
theorem sorted_put (h : t.Sorted) (he : e.Ordered (· < ·)) : (t.put k e).Sorted := by
  induction t with
  | nil => exact ordered_cons.2 ⟨trivial, trivial, he⟩
  | leaf key a rest ih => exact sorted_put_cons (d := .leaf a) ih h he
  | sub key child rest _ ih => exact sorted_put_cons (d := .sub child) ih h he

theorem distinct_set_cons (ih : rest.Distinct → (rest.set k e).Distinct)
    (h : (cons key d rest).Distinct) (he : e.Ordered (· ≠ ·)) :
    ((cons key d rest).set k e).Distinct := by
  obtain ⟨hall, hrest, hd⟩ := ordered_cons.1 h
  rw [set, insertBy_cons, if_neg Bool.false_ne_true]
  split_ifs with heq
  · exact ordered_cons.2 ⟨heq ▸ hall, hrest, he⟩
  · exact ordered_cons.2 ⟨allKeys_insertBy (fun h => heq h.symm) hall, ih hrest, hd⟩

/-- No key stands twice after an entry is set. -/
theorem distinct_set (h : t.Distinct) (he : e.Ordered (· ≠ ·)) : (t.set k e).Distinct := by
  induction t with
  | nil => exact ordered_cons.2 ⟨trivial, trivial, he⟩
  | leaf key a rest ih => exact distinct_set_cons (d := .leaf a) ih h he
  | sub key child rest _ ih => exact distinct_set_cons (d := .sub child) ih h he

end Ordered

/-! ### The leaves of a tree -/

/-- The leaves with the paths that lead to them. -/
def leaves : KeyTree κ α → List (List κ × α)
  | nil => []
  | leaf key a rest => ([key], a) :: rest.leaves
  | sub key child rest => child.leaves.map (fun l => (key :: l.1, l.2)) ++ rest.leaves

omit [LinearOrder κ] in
/-- A path of the leaves starts with a key of the tree. -/
theorem head_of_mem_leaves {P : κ → Prop} (h : t.AllKeys P) (hmem : (path, a) ∈ t.leaves) :
    ∃ k rest, path = k :: rest ∧ P k := by
  induction t with
  | nil => cases hmem
  | leaf key b rest ih =>
      rw [leaves, List.mem_cons] at hmem
      rcases hmem with heq | hmem
      · cases heq
        exact ⟨key, [], rfl, h.1⟩
      · exact ih h.2 hmem
  | sub key child rest _ ih =>
      rw [leaves, List.mem_append, List.mem_map] at hmem
      rcases hmem with ⟨l, -, heq⟩ | hmem
      · cases heq
        exact ⟨key, l.1, rfl, h.1⟩
      · exact ih h.2 hmem

/-- **The leaves listed are those a path leads to.** -/
theorem mem_leaves (h : t.Distinct) : (path, a) ∈ t.leaves ↔ t.leafAt path = some a := by
  induction t generalizing path with
  | nil => cases path <;> simp [leaves, leafAt, get?]
  | leaf key b rest ih =>
      rw [leaves, List.mem_cons, ih h.2]
      cases path with
      | nil => simp [leafAt]
      | cons k path =>
          by_cases hkey : key = k
          · subst hkey
            -- the entries that follow have other keys
            have hrest : rest.leafAt (key :: path) ≠ some a := by
              rw [ne_eq, ← ih h.2]
              intro hmem
              obtain ⟨_, _, heq, hne⟩ := head_of_mem_leaves h.1 hmem
              exact hne (List.cons.inj heq).1
            rw [leafAt_cons_of_leaf get?_leaf_self, or_iff_left hrest]
            split_ifs with hnil <;> simp [hnil, eq_comm]
          · have hget : (leaf key b rest).get? k = rest.get? k := if_neg hkey
            rw [leafAt_congr hget, or_iff_right]
            intro heq
            rw [Prod.mk.injEq, List.cons.injEq] at heq
            exact hkey heq.1.1.symm
  | sub key child rest ihc ih =>
      rw [leaves, List.mem_append, List.mem_map, ih h.2.1]
      cases path with
      | nil => simp [leafAt]
      | cons k path =>
          by_cases hkey : key = k
          · subst hkey
            have hrest : rest.leafAt (key :: path) ≠ some a := by
              rw [ne_eq, ← ih h.2.1]
              intro hmem
              obtain ⟨_, _, heq, hne⟩ := head_of_mem_leaves h.1 hmem
              exact hne (List.cons.inj heq).1
            rw [leafAt_cons_of_sub get?_sub_self, or_iff_left hrest, ← ihc h.2.2]
            constructor
            · rintro ⟨l, hl, heq⟩
              cases heq
              exact hl
            · exact fun hmem => ⟨_, hmem, rfl⟩
          · have hget : (sub key child rest).get? k = rest.get? k := if_neg hkey
            rw [leafAt_congr hget, or_iff_right]
            rintro ⟨l, -, heq⟩
            cases heq
            exact hkey rfl

/-- The leaves of a tree that is in order are listed in the order of their paths. -/
theorem pairwise_leaves (h : t.Sorted) : t.leaves.Pairwise fun l l' => l.1 < l'.1 := by
  induction t with
  | nil => exact .nil
  | leaf key a rest ih =>
      refine List.Pairwise.cons (fun l hl => ?_) (ih h.2)
      obtain ⟨k, path, heq, hlt⟩ := head_of_mem_leaves h.1 hl
      rw [heq]
      exact List.Lex.rel hlt
  | sub key child rest ihc ih =>
      refine List.pairwise_append.2 ⟨?_, ih h.2.1, fun l hl l' hl' => ?_⟩
      · rw [List.pairwise_map]
        exact (ihc h.2.2).imp List.Lex.cons
      · obtain ⟨l, -, rfl⟩ := List.mem_map.1 hl
        obtain ⟨k, path, heq, hlt⟩ := head_of_mem_leaves h.1 hl'
        rw [heq]
        exact List.Lex.rel hlt

end KeyTree

end Hekma
