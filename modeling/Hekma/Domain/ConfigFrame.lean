/-
**What a written configuration key leaves alone.**

The value of a dotted key is set in the table itself: the walk enters the table of each segment,
puts an empty one where there is none, and stops with an error at a leaf on its way.  At the last
segment the value replaces whatever stands there.  A leaf is never turned into a table, but a table
is turned into a leaf, and then everything in it is gone.

Main definitions:

* `setDottedInPlace` — the walk on the table, with what it leaves there when it fails;
* `WriteFrame` — a write that fails changes nothing, and one that succeeds changes one leaf;
* `Below` — no leaf of the table is below the key, or the value gives it again.

Main results:

* `setDotted_eq` — the table that is stored is the one the walk leaves;
* `setDottedInPlace_error` — a walk that fails leaves the table as it was;
* `leafAt_setDottedInPlace` — every leaf of a written table;
* `writeFrame_iff` — a write changes one leaf exactly when no leaf is below its key.
-/

import Hekma.Domain.ConfigWrite

set_option relaxedAutoImplicit false
set_option autoImplicit false

namespace Hekma

/-! ### The walk on the table -/

/-- The entry of a segment, with an empty table put there if there is none. -/
def entryOrTable (table : KeyTree String Scalar) (segment : String) : KeyTree String Scalar :=
  match table.get? segment with
  | some _ => table
  | none => table.set segment (.sub .nil)

/-- The way to a segment, in front of which the walk has come along `walked`. -/
def walkedTo (walked segment : String) : String :=
  if walked.isEmpty then segment else walked ++ "." ++ segment

/-- The walk along the segments of a key, and the table it leaves.  The value may be a table too. -/
def walkDotted (key : String) (value : KeyTree.Entry String Scalar) :
    List String → String → KeyTree String Scalar →
      KeyTree String Scalar × Except ConfigError Unit
  | [], _, table => (table, .ok ())
  | [segment], _, table => (table.set segment value, .ok ())
  | segment :: rest, walked, table =>
      let entered := entryOrTable table segment
      match entered.get? segment with
      | some (.sub child) =>
          let (left, answer) := walkDotted key value rest (walkedTo walked segment) child
          (entered.set segment (.sub left), answer)
      | _ => (entered, .error (.writeShapeConflict key (walkedTo walked segment)))

/-- The value of a dotted key set in the table. -/
def setDottedInPlace (key : String) (value : KeyTree.Entry String Scalar)
    (table : KeyTree String Scalar) : KeyTree String Scalar × Except ConfigError Unit :=
  walkDotted key value (segments key) "" table

section Walk

variable {key walked segment next : String} {value : KeyTree.Entry String Scalar}
  {table child : KeyTree String Scalar} {segs path : List String} {e : ConfigError}

/-- A walk that meets a leaf before its last segment. -/
theorem walkDotted_of_leaf {a : Scalar} (h : table.get? segment = some (.leaf a)) :
    walkDotted key value (segment :: next :: segs) walked table =
      (table, .error (.writeShapeConflict key (walkedTo walked segment))) := by
  have hentered : entryOrTable table segment = table := by rw [entryOrTable, h]
  rw [walkDotted]
  · simp only [hentered, h]
  · exact nofun

/-- A walk that enters the table of its first segment. -/
theorem walkDotted_of_slot (h : ∀ a, table.get? segment ≠ some (.leaf a)) :
    walkDotted key value (segment :: next :: segs) walked table =
      ((entryOrTable table segment).set segment (.sub (walkDotted key value (next :: segs)
          (walkedTo walked segment) (slotChildren table segment)).1),
        (walkDotted key value (next :: segs) (walkedTo walked segment)
          (slotChildren table segment)).2) := by
  have hslot : (entryOrTable table segment).get? segment =
      some (.sub (slotChildren table segment)) := by
    rw [entryOrTable, slotChildren]
    cases hget : table.get? segment with
    | none => exact KeyTree.get?_set_self table segment _
    | some e =>
        cases e with
        | leaf a => exact absurd hget (h a)
        | sub child => exact hget
  rw [walkDotted]
  · simp only [hslot]
  · exact List.cons_ne_nil next segs

/-- A segment under which the table has a leaf, or none. -/
theorem leaf_or_slot (table : KeyTree String Scalar) (segment : String) :
    (∃ a, table.get? segment = some (.leaf a)) ∨ ∀ a, table.get? segment ≠ some (.leaf a) := by
  by_cases h : ∃ a, table.get? segment = some (.leaf a)
  · exact .inl h
  · exact .inr fun a ha => h ⟨a, ha⟩

/-! ### A walk that fails -/

/-- Where there is nothing there is no leaf on the way. -/
theorem walkDotted_nil_ok : (walkDotted key value segs walked .nil).2 = .ok () := by
  induction segs generalizing walked with
  | nil => rfl
  | cons segment segs ih =>
      cases segs with
      | nil => rfl
      | cons next segs =>
          rw [walkDotted_of_slot fun a ha => by cases ha]
          exact ih

/-- **A walk that fails leaves the table as it was**: it has put no table on its way before it met
the leaf. -/
theorem walkDotted_error (h : (walkDotted key value segs walked table).2 = .error e) :
    (walkDotted key value segs walked table).1 = table := by
  induction segs generalizing walked table with
  | nil => cases h
  | cons segment segs ih =>
      cases segs with
      | nil => cases h
      | cons next segs =>
          rcases leaf_or_slot table segment with ⟨a, hleaf⟩ | hslot
          · rw [walkDotted_of_leaf hleaf]
          · rw [walkDotted_of_slot hslot] at h ⊢
            cases hget : table.get? segment with
            | none =>
                have hnil : slotChildren table segment = .nil := by rw [slotChildren, hget]
                rw [hnil, walkDotted_nil_ok] at h
                cases h
            | some entry =>
                cases entry with
                | leaf a => exact absurd hget (hslot a)
                | sub child =>
                    have hchild : slotChildren table segment = child := by rw [slotChildren, hget]
                    have hentered : entryOrTable table segment = table := by
                      rw [entryOrTable, hget]
                    rw [hchild] at h ⊢
                    rw [ih h, hentered]
                    exact KeyTree.set_of_get? hget

/-- What makes a walk fail is a leaf on its way. -/
theorem leaf_of_walkDotted_error (h : (walkDotted key value segs walked table).2 = .error e) :
    ∃ init rest a, segs = init ++ rest ∧ rest ≠ [] ∧ table.leafAt init = some a := by
  induction segs generalizing walked table with
  | nil => cases h
  | cons segment segs ih =>
      cases segs with
      | nil => cases h
      | cons next segs =>
          rcases leaf_or_slot table segment with ⟨a, hleaf⟩ | hslot
          · exact ⟨[segment], next :: segs, a, rfl, List.cons_ne_nil _ _,
              KeyTree.leafAt_cons_of_leaf hleaf⟩
          · rw [walkDotted_of_slot hslot] at h
            obtain ⟨init, rest, a, hsegs, hrest, hinit⟩ := ih h
            exact ⟨segment :: init, rest, a, by rw [hsegs, List.cons_append], hrest,
              (leafAt_slot hslot).trans hinit⟩

/-! ### A walk that succeeds -/

/-- **The leaves of a written table**: at and below the key those of the value, elsewhere those
that were there. -/
theorem leafAt_walkDotted (h : (walkDotted key value segs walked table).2 = .ok ())
    (hne : segs ≠ []) :
    (∀ rest, (walkDotted key value segs walked table).1.leafAt (segs ++ rest) =
        value.leafAt rest) ∧
      ∀ path, ¬ segs <+: path →
        (walkDotted key value segs walked table).1.leafAt path = table.leafAt path := by
  induction segs generalizing walked table with
  | nil => exact absurd rfl hne
  | cons segment segs ih =>
      cases segs with
      | nil =>
          -- the last segment is set in place
          rw [walkDotted]
          refine ⟨fun rest => KeyTree.leafAt_cons_of_some (KeyTree.get?_set_self _ _ _), ?_⟩
          intro path hpath
          cases path with
          | nil => rfl
          | cons k path =>
              have hkey : segment ≠ k := by
                rintro rfl
                exact hpath ⟨path, rfl⟩
              exact KeyTree.leafAt_congr (KeyTree.get?_set_of_ne _ _ hkey)
      | cons next segs =>
          -- an inner segment leads into the table that is there, or into a new one
          rcases leaf_or_slot table segment with ⟨a, hleaf⟩ | hslot
          · rw [walkDotted_of_leaf hleaf] at h
            cases h
          · rw [walkDotted_of_slot hslot] at h ⊢
            obtain ⟨hat, hother⟩ := ih h (List.cons_ne_nil _ _)
            constructor
            · intro rest
              rw [List.cons_append, KeyTree.leafAt_cons_of_some (KeyTree.get?_set_self _ _ _)]
              exact hat rest
            · intro path hpath
              cases path with
              | nil => rfl
              | cons k path =>
                  by_cases hkey : segment = k
                  · subst hkey
                    rw [KeyTree.leafAt_cons_of_some (KeyTree.get?_set_self _ _ _),
                      leafAt_slot hslot]
                    refine hother path fun hprefix => hpath ?_
                    exact List.cons_prefix_cons.2 ⟨rfl, hprefix⟩
                  · rw [KeyTree.leafAt_congr (KeyTree.get?_set_of_ne _ _ hkey)]
                    refine KeyTree.leafAt_congr ?_
                    rw [entryOrTable]
                    split
                    · rfl
                    · exact KeyTree.get?_set_of_ne _ _ hkey

end Walk

/-! ### The walk and the table that is stored -/

theorem set_entryOrTable (table : KeyTree String Scalar) (segment : String)
    (e : KeyTree.Entry String Scalar) :
    (entryOrTable table segment).set segment e = table.set segment e := by
  rw [entryOrTable]
  split
  · rfl
  · exact KeyTree.set_set table segment _ e

/-- **The table that is stored is the one the walk leaves**, and the error is the same. -/
theorem setDotted_eq {key walked : String} {value : Scalar} {segs : List String}
    {table : KeyTree String Scalar} :
    setDotted key value segs walked table =
      (walkDotted key (.leaf value) segs walked table).2.map fun _ =>
        (walkDotted key (.leaf value) segs walked table).1 := by
  induction segs generalizing walked table with
  | nil => rfl
  | cons segment segs ih =>
      cases segs with
      | nil => rfl
      | cons next segs =>
          rcases leaf_or_slot table segment with ⟨a, hleaf⟩ | hslot
          · rw [walkDotted_of_leaf hleaf, setDotted, hleaf]
            · rfl
            · exact List.cons_ne_nil next segs
          · rw [walkDotted_of_slot hslot, set_entryOrTable, setDotted]
            · split
              · next a hleaf => exact absurd hleaf (hslot a)
              · rw [show (if walked.isEmpty then segment else walked ++ "." ++ segment) =
                  walkedTo walked segment from rfl, ih]
                cases (walkDotted key (.leaf value) (next :: segs) (walkedTo walked segment)
                  (slotChildren table segment)).2 with
                | error e => rfl
                | ok => rfl
            · exact List.cons_ne_nil next segs

/-! ### The frame of a write -/

/-- What a write has to do: the key leads to the value, every other leaf that was there stays, and
no leaf comes in anywhere but at the key. -/
structure Frame (path : List String) (value : KeyTree.Entry String Scalar)
    (table written : KeyTree String Scalar) : Prop where
  resolves : ∀ rest, written.leafAt (path ++ rest) = value.leafAt rest
  keeps : ∀ other v, other ≠ path → table.leafAt other = some v → written.leafAt other = some v
  adds : ∀ other v, written.leafAt other = some v → path <+: other ∨ table.leafAt other = some v

/-- A write that fails changes nothing, and one that succeeds changes the leaf of its key. -/
def WriteFrame (key : String) (value : KeyTree.Entry String Scalar)
    (table : KeyTree String Scalar) : Prop :=
  match setDottedInPlace key value table with
  | (written, .error _) => written = table
  | (written, .ok ()) => Frame (segments key) value table written

/-- No leaf of the table is below the key, unless the value is a table that gives it again. -/
def NoneBelow (key : String) (value : KeyTree.Entry String Scalar)
    (table : KeyTree String Scalar) : Prop :=
  ∀ rest v, rest ≠ [] → table.leafAt (segments key ++ rest) = some v → value.leafAt rest = some v

/-- **A write changes one leaf exactly when no leaf is below its key.** -/
theorem writeFrame_iff (key : String) (value : KeyTree.Entry String Scalar)
    (table : KeyTree String Scalar) :
    WriteFrame key value table ↔ NoneBelow key value table := by
  rw [WriteFrame, setDottedInPlace]
  cases hwalk : walkDotted key value (segments key) "" table with
  | mk written answer =>
      have hwritten : (walkDotted key value (segments key) "" table).1 = written := by rw [hwalk]
      have hanswer : (walkDotted key value (segments key) "" table).2 = answer := by rw [hwalk]
      cases answer with
      | error e =>
          refine iff_of_true (hwritten.symm.trans (walkDotted_error hanswer)) ?_
          -- the leaf that stopped the walk stands above everything below the key
          intro rest v hrest hleaf
          obtain ⟨init, tail, a, hsegs, htail, hinit⟩ := leaf_of_walkDotted_error hanswer
          have hsame := KeyTree.eq_of_leafAt_prefix hinit hleaf
            ⟨tail ++ rest, by rw [hsegs, List.append_assoc]⟩
          rw [hsegs, List.append_assoc, List.self_eq_append_right] at hsame
          exact absurd (List.append_eq_nil_iff.1 hsame).1 htail
      | ok =>
          obtain ⟨hat, hother⟩ := leafAt_walkDotted hanswer (segments_ne_nil key)
          rw [hwritten] at hat hother
          constructor
          · intro hframe rest v hrest hleaf
            rw [← hat rest]
            refine hframe.keeps _ v (fun hsame => hrest ?_) hleaf
            exact List.append_right_eq_self.1 hsame
          · intro hbelow
            refine ⟨hat, fun other v hne hleaf => ?_, fun other v hleaf => ?_⟩
            · by_cases hprefix : segments key <+: other
              · obtain ⟨rest, rfl⟩ := hprefix
                rw [hat rest]
                exact hbelow rest v (fun hnil => hne (by rw [hnil, List.append_nil])) hleaf
              · rw [hother other hprefix, hleaf]
            · by_cases hprefix : segments key <+: other
              · exact .inl hprefix
              · rw [hother other hprefix] at hleaf
                exact .inr hleaf

/-- A table under `agent.a`, which a write of `agent.a` turns into a leaf. -/
def agentTable : KeyTree String Scalar :=
  .sub "agent" (.sub "a" (.leaf "b" (.string "y") .nil) .nil) .nil

theorem writeFrame_broken : validateWrite "agent.a" "x" = .ok () ∧
    agentTable.leafAt ["agent", "a", "b"] = some (.string "y") ∧
    (setDottedInPlace "agent.a" (.leaf (.string "x")) agentTable).1.leafAt ["agent", "a", "b"] =
      none ∧
    ¬ WriteFrame "agent.a" (.leaf (.string "x")) agentTable := by
  refine ⟨by decide +kernel, rfl, rfl, fun h => ?_⟩
  have hframe : Frame ["agent", "a"] (.leaf (.string "x")) agentTable
      (.sub "agent" (.leaf "a" (.string "x") .nil) .nil) := h
  cases hframe.keeps ["agent", "a", "b"] (.string "y") (by decide) rfl

end Hekma
