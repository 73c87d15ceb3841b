/-
**Resolving the configuration layers.**

A configuration is the merge of four tables: the engine's defaults, the defaults of the agent's
kind, the configuration of the instance, and the overrides of an invocation.  The tables are merged
as trees, the weakest first: a leaf of a stronger layer replaces the leaf or the subtree in its
place, and a table of a stronger layer replaces a leaf in its place.  The leaves of the merged tree
are then named by their dotted keys.

The merge itself goes by the segments of a key, and by these the strongest layer wins.  The names do
not keep the segments apart: the quoted key `"a.b"` and the key `b` of the table `a` have the same
name, and of two leaves with one name the later in the order of the segments wins, whichever layer
it is from.

Main definitions:

* `SourceLayer`, `ConfigLayer`, `ResolvedValue`, `EffectiveConfig` — the layers, and what they are
  resolved to;
* `mergeTableInto`, `flattenInto`, `resolve` — the merge of the tables and the names of its leaves;
* `Standing` — the leaves that no stronger layer shadows, segment by segment;
* `StrongestWins` — the strongest layer wins by the dotted keys;
* `SpelledApart` — no standing leaf has a name that clashes with that of an unrelated path.

Main results:

* `leafAt_mergedTree` — the leaves of the merged tree are the standing ones;
* `strongestWins_iff` — the strongest layer wins by the dotted keys if and only if the layers are
  spelled apart.
-/

import Hekma.Lib.KeyTree
import Mathlib.Data.String.Basic
import Std.Data.TreeMap

set_option relaxedAutoImplicit false
set_option autoImplicit false

namespace Hekma

/-! ### The layers -/

/-- The layer that supplied a value, the weakest first. -/
inductive SourceLayer where
  | engineDefault | kindDefault | instanceConfig | invocationOverride
  deriving DecidableEq, Repr

namespace SourceLayer

/-- The place of a layer in the order of precedence. -/
def rank : SourceLayer → ℕ
  | engineDefault => 0
  | kindDefault => 1
  | instanceConfig => 2
  | invocationOverride => 3

theorem rank_injective : Function.Injective rank := by
  intro a b h
  cases a <;> cases b <;> first | rfl | cases h

instance : LinearOrder SourceLayer := LinearOrder.lift' rank rank_injective

/-- The four layers, the weakest first. -/
def order : List SourceLayer := [engineDefault, kindDefault, instanceConfig, invocationOverride]

theorem mem_order (s : SourceLayer) : s ∈ order := by
  cases s <;> decide

theorem pairwise_order : order.Pairwise (· < ·) := by decide

end SourceLayer

variable {α : Type*}

/-- One layer: a parsed table.  No key stands twice in a table. -/
structure ConfigLayer (α : Type*) where
  table : KeyTree String α
  distinct : table.Distinct

/-- A value and the layer that supplied it. -/
structure ResolvedValue (α : Type*) where
  value : α
  source : SourceLayer
  deriving DecidableEq, Repr

/-- The resolved leaves by their dotted keys. -/
structure EffectiveConfig (α : Type*) where
  leaves : Std.TreeMap String (ResolvedValue α)

/-- The resolved leaf of a dotted key. -/
def EffectiveConfig.get (c : EffectiveConfig α) (key : String) : Option (ResolvedValue α) :=
  c.leaves[key]?

/-! ### The merge -/

/-- The children in a slot: those of a subtree, and none in an empty slot or in place of a leaf. -/
def slotChildren {β : Type*} (children : KeyTree String β) (key : String) : KeyTree String β :=
  match children.get? key with
  | some (.sub slot) => slot
  | _ => .nil

/-- A table merged into the children of a node. -/
def mergeTableInto (source : SourceLayer) :
    KeyTree String (ResolvedValue α) → KeyTree String α → KeyTree String (ResolvedValue α)
  | children, .nil => children
  | children, .leaf key value rest =>
      mergeTableInto source (children.put key (.leaf ⟨value, source⟩)) rest
  | children, .sub key childTable rest =>
      let slot := mergeTableInto source (slotChildren children key) childTable
      mergeTableInto source (children.put key (.sub slot)) rest

/-- The layers merged, the weakest first. -/
def mergedTree (layers : SourceLayer → ConfigLayer α) : KeyTree String (ResolvedValue α) :=
  SourceLayer.order.foldl (fun root s => mergeTableInto s root (layers s).table) .nil

/-- The name of a key under the name of its table. -/
def dotted (under key : String) : String :=
  if under.isEmpty then key else under ++ "." ++ key

/-- The leaves of a node, named under the name of the node. -/
def flattenInto : KeyTree String (ResolvedValue α) → String →
    Std.TreeMap String (ResolvedValue α) → Std.TreeMap String (ResolvedValue α)
  | .nil, _, out => out
  | .leaf key r rest, under, out => flattenInto rest under (out.insert (dotted under key) r)
  | .sub key child rest, under, out =>
      flattenInto rest under (flattenInto child (dotted under key) out)

/-- The four layers resolved. -/
def resolve (layers : SourceLayer → ConfigLayer α) : EffectiveConfig α :=
  ⟨flattenInto (mergedTree layers) "" ∅⟩

/-! ### What the merge keeps -/

section Merge

variable {source : SourceLayer} {children : KeyTree String (ResolvedValue α)}
  {table : KeyTree String α} {key : String} {path : List String} {r : ResolvedValue α}

/-- The slot of a key after a table is merged into the children. -/
def mergedSlot (source : SourceLayer) (children : KeyTree String (ResolvedValue α))
    (table : KeyTree String α) (key : String) : Option (KeyTree.Entry String (ResolvedValue α)) :=
  match table.get? key with
  | none => children.get? key
  | some (.leaf value) => some (.leaf ⟨value, source⟩)
  | some (.sub childTable) =>
      some (.sub (mergeTableInto source (slotChildren children key) childTable))

theorem get?_of_allKeys {β : Type*} {t : KeyTree String β} (h : t.AllKeys (key ≠ ·)) :
    t.get? key = none := by
  cases hget : t.get? key with
  | none => rfl
  | some e => exact absurd rfl (h.of_get? hget)

/-- **A merge decides every slot by itself.** -/
theorem get?_mergeTableInto (h : table.Distinct) :
    (mergeTableInto source children table).get? key = mergedSlot source children table key := by
  induction table generalizing children with
  | nil => rfl
  | leaf key' value rest ih =>
      rw [mergeTableInto, ih h.2, mergedSlot, mergedSlot, KeyTree.get?]
      by_cases heq : key' = key
      · subst heq
        rw [get?_of_allKeys h.1, if_pos rfl, KeyTree.get?_put, if_pos rfl]
      · simp only [if_neg heq, slotChildren, KeyTree.get?_put]
  | sub key' childTable rest _ ih =>
      rw [mergeTableInto, ih h.2.1, mergedSlot, mergedSlot, KeyTree.get?]
      by_cases heq : key' = key
      · subst heq
        rw [get?_of_allKeys h.1, if_pos rfl, KeyTree.get?_put, if_pos rfl]
      · simp only [if_neg heq, slotChildren, KeyTree.get?_put]

theorem leafAt_slotChildren (h : (slotChildren children key).leafAt path = some r) :
    children.leafAt (key :: path) = some r := by
  rw [slotChildren] at h
  split at h
  · next slot hget => rw [KeyTree.leafAt_cons_of_sub hget, h]
  · cases path <;> cases h

/-- A leaf below a slot that a table of a stronger layer takes over. -/
theorem leafAt_slotChildren_of_clear {childTable : KeyTree String α} (h : childTable.Clear path)
    (hleaf : children.leafAt (key :: path) = some r) :
    (slotChildren children key).leafAt path = some r := by
  rw [slotChildren]
  cases hget : children.get? key with
  | none =>
      rw [KeyTree.leafAt_cons_of_none hget] at hleaf
      cases hleaf
  | some e =>
      cases e with
      | leaf r' =>
          -- the leaf is at the slot itself, and there the stronger layer has a table
          rw [KeyTree.leafAt_cons_of_leaf hget] at hleaf
          split_ifs at hleaf with hnil
          subst hnil
          exact h.elim
      | sub slot =>
          rw [KeyTree.leafAt_cons_of_sub hget] at hleaf
          exact hleaf

/-- **The leaves after a merge**: those of the table, and those the table says nothing of. -/
theorem leafAt_mergeTableInto (h : table.Distinct) :
    (mergeTableInto source children table).leafAt path = some r ↔
      (table.leafAt path = some r.value ∧ r.source = source) ∨
        (table.Clear path ∧ children.leafAt path = some r) := by
  induction path generalizing children table with
  | nil => simp [KeyTree.leafAt]
  | cons key path ih =>
      have hslot : (mergeTableInto source children table).get? key =
          mergedSlot source children table key := get?_mergeTableInto h
      rw [mergedSlot] at hslot
      cases hget : table.get? key with
      | none =>
          rw [hget] at hslot
          simp [KeyTree.leafAt, KeyTree.Clear, hslot, hget]
      | some e =>
          rw [hget] at hslot
          cases e with
          | leaf value =>
              rw [KeyTree.leafAt_cons_of_leaf hslot, KeyTree.leafAt_cons_of_leaf hget,
                KeyTree.Clear, hget, false_and, or_false]
              by_cases hnil : path = []
              · cases r
                simp [hnil, eq_comm]
              · simp [hnil]
          | sub childTable =>
              rw [KeyTree.leafAt_cons_of_sub hslot, KeyTree.leafAt_cons_of_sub hget,
                KeyTree.Clear, hget, ih (h.entry hget)]
              refine or_congr Iff.rfl (and_congr_right fun hclear => ?_)
              exact ⟨leafAt_slotChildren, leafAt_slotChildren_of_clear hclear⟩

theorem sorted_slotChildren (h : children.Sorted) : (slotChildren children key).Sorted := by
  rw [slotChildren]
  split
  · next slot hget => exact h.entry hget
  · trivial

theorem sorted_mergeTableInto (h : children.Sorted) :
    (mergeTableInto source children table).Sorted := by
  induction table generalizing children with
  | nil => exact h
  | leaf key value rest ih => exact ih (KeyTree.sorted_put h trivial)
  | sub key childTable rest ihc ih =>
      exact ih (KeyTree.sorted_put h (ihc (sorted_slotChildren h)))

end Merge

/-! ### The leaves that no stronger layer shadows -/

section Standing

variable {layers : SourceLayer → ConfigLayer α} {path path' : List String} {source : SourceLayer}
  {v : α} {r : ResolvedValue α}

/-- The layer has a value at the path. -/
def ConfigLayer.Defines (layer : ConfigLayer α) (path : List String) (v : α) : Prop :=
  layer.table.leafAt path = some v

instance [DecidableEq α] (layer : ConfigLayer α) (path : List String) (v : α) :
    Decidable (layer.Defines path v) := inferInstanceAs (Decidable (_ = _))

/-- A value of a layer that no stronger layer shadows: each has neither a value at the path or on
the way to it nor a table in its place. -/
def Standing (layers : SourceLayer → ConfigLayer α) (source : SourceLayer) (path : List String)
    (v : α) : Prop :=
  (layers source).Defines path v ∧ ∀ s, source < s → (layers s).table.Clear path

/-- The layers of a list merged one after the other. -/
theorem leafAt_foldl (sources : List SourceLayer) (root : KeyTree String (ResolvedValue α)) :
    (sources.foldl (fun root s => mergeTableInto s root (layers s).table) root).leafAt path =
        some r ↔
      (∃ earlier later, sources = earlier ++ r.source :: later ∧
        (layers r.source).Defines path r.value ∧ ∀ s ∈ later, (layers s).table.Clear path) ∨
      (root.leafAt path = some r ∧ ∀ s ∈ sources, (layers s).table.Clear path) := by
  induction sources generalizing root with
  | nil => simp
  | cons s sources ih =>
      rw [List.foldl_cons, ih, leafAt_mergeTableInto (layers s).distinct, List.forall_mem_cons]
      constructor
      · rintro (⟨earlier, later, rfl, hv, hlater⟩ | ⟨⟨hv, rfl⟩ | ⟨hclear, hroot⟩, hrest⟩)
        · exact .inl ⟨s :: earlier, later, rfl, hv, hlater⟩
        · exact .inl ⟨[], sources, rfl, hv, hrest⟩
        · exact .inr ⟨hroot, hclear, hrest⟩
      · rintro (⟨earlier, later, heq, hv, hlater⟩ | ⟨hroot, hclear, hrest⟩)
        · cases earlier with
          | nil =>
              obtain ⟨rfl, rfl⟩ := List.cons.inj heq
              exact .inr ⟨.inl ⟨hv, rfl⟩, hlater⟩
          | cons s' earlier =>
              obtain ⟨rfl, rfl⟩ := List.cons.inj heq
              exact .inl ⟨earlier, later, rfl, hv, hlater⟩
        · exact .inr ⟨.inr ⟨hclear, hroot⟩, hrest⟩

/-- **The leaves of the merged tree are the standing ones.** -/
theorem leafAt_mergedTree :
    (mergedTree layers).leafAt path = some r ↔ Standing layers r.source path r.value := by
  have hmem := SourceLayer.mem_order r.source
  rw [mergedTree, leafAt_foldl]
  constructor
  · rintro (⟨earlier, later, hsplit, hv, hlater⟩ | ⟨hnil, -⟩)
    · refine ⟨hv, fun s hs => hlater s ?_⟩
      rw [mem_later_iff SourceLayer.pairwise_order hsplit]
      exact ⟨SourceLayer.mem_order s, hs⟩
    · cases path <;> cases hnil
  · rintro ⟨hv, hclear⟩
    obtain ⟨earlier, later, hsplit⟩ := List.append_of_mem hmem
    refine .inl ⟨earlier, later, hsplit, hv, fun s hs => hclear s ?_⟩
    rw [mem_later_iff SourceLayer.pairwise_order hsplit] at hs
    exact hs.2

theorem sorted_mergedTree : (mergedTree layers).Sorted := by
  rw [mergedTree]
  suffices ∀ (sources : List SourceLayer) (root : KeyTree String (ResolvedValue α)), root.Sorted →
      (sources.foldl (fun root s => mergeTableInto s root (layers s).table) root).Sorted from
    this _ _ trivial
  intro sources
  induction sources with
  | nil => exact fun root h => h
  | cons s sources ih => exact fun root h => ih _ (sorted_mergeTableInto h)

/-- Two standing leaves are at unrelated paths, or they are one. -/
theorem Standing.unrelated {source' : SourceLayer} {v' : α} (h : Standing layers source path v)
    (h' : Standing layers source' path' v') (hne : path ≠ path') : ¬ path <+: path' := by
  intro hpath
  rcases lt_trichotomy source source' with hlt | rfl | hlt
  · exact KeyTree.not_clear_of_leafAt h'.1 (.inr hpath) (h.2 _ hlt)
  · exact hne (KeyTree.eq_of_leafAt_prefix h.1 h'.1 hpath)
  · exact KeyTree.not_clear_of_leafAt h.1 (.inl hpath) (h'.2 _ hlt)

end Standing

/-! ### The names of the leaves -/

/-- The name of a path under a name. -/
def nameUnder (under : String) (path : List String) : String := path.foldl dotted under

/-- The dotted key of a path. -/
def dottedKey (path : List String) : String := nameUnder "" path

section Names

variable {layers : SourceLayer → ConfigLayer α} {key : String} {r : ResolvedValue α}

theorem flattenInto_eq (t : KeyTree String (ResolvedValue α)) (under : String)
    (out : Std.TreeMap String (ResolvedValue α)) :
    flattenInto t under out =
      t.leaves.foldl (fun out l => out.insert (nameUnder under l.1) l.2) out := by
  induction t generalizing under out with
  | nil => rfl
  | leaf key r rest ih =>
      rw [flattenInto, ih, KeyTree.leaves, List.foldl_cons]
      rfl
  | sub key child rest ihc ih =>
      rw [flattenInto, ih, ihc, KeyTree.leaves, List.foldl_append, List.foldl_map]
      rfl

/-- The last of the values inserted under a key is found there. -/
theorem get?_foldl_insert {ι : Type*} (name : ι → String) (value : ι → ResolvedValue α)
    (l : List ι) (out : Std.TreeMap String (ResolvedValue α)) :
    (l.foldl (fun out x => out.insert (name x) (value x)) out)[key]? = some r ↔
      (∃ earlier x later, l = earlier ++ x :: later ∧ name x = key ∧ value x = r ∧
        ∀ y ∈ later, name y ≠ key) ∨
      (out[key]? = some r ∧ ∀ y ∈ l, name y ≠ key) := by
  induction l generalizing out with
  | nil => simp
  | cons x l ih =>
      rw [List.foldl_cons, ih, Std.TreeMap.getElem?_insert, List.forall_mem_cons]
      constructor
      · rintro (⟨earlier, y, later, rfl, hy⟩ | ⟨hout, hrest⟩)
        · exact .inl ⟨x :: earlier, y, later, rfl, hy⟩
        · split_ifs at hout with hname
          · rw [Std.compare_eq_iff_eq] at hname
            exact .inl ⟨[], x, l, rfl, hname, Option.some.inj hout, hrest⟩
          · rw [Std.compare_eq_iff_eq] at hname
            exact .inr ⟨hout, hname, hrest⟩
      · rintro (⟨earlier, y, later, heq, hname, hvalue, hlater⟩ | ⟨hout, hname, hrest⟩)
        · cases earlier with
          | nil =>
              obtain ⟨rfl, rfl⟩ := List.cons.inj heq
              refine .inr ⟨?_, hlater⟩
              rw [if_pos (Std.compare_eq_iff_eq.2 hname), hvalue]
          | cons z earlier =>
              obtain ⟨rfl, rfl⟩ := List.cons.inj heq
              exact .inl ⟨earlier, y, later, rfl, hname, hvalue, hlater⟩
        · refine .inr ⟨?_, hrest⟩
          rw [if_neg (mt Std.compare_eq_iff_eq.1 hname), hout]

/-- A key that was inserted is found. -/
theorem exists_foldl_insert {ι : Type*} (name : ι → String) (value : ι → ResolvedValue α)
    (l : List ι) (out : Std.TreeMap String (ResolvedValue α))
    (h : (∃ r, out[key]? = some r) ∨ ∃ x ∈ l, name x = key) :
    ∃ r, (l.foldl (fun out x => out.insert (name x) (value x)) out)[key]? = some r := by
  induction l generalizing out with
  | nil => exact h.elim id fun ⟨_, hx, _⟩ => absurd hx List.not_mem_nil
  | cons y l ih =>
      refine ih _ ?_
      rw [Std.TreeMap.getElem?_insert]
      rcases h with ⟨r, hr⟩ | ⟨x, hx, hname⟩
      · by_cases hy : compare (name y) key = .eq
        · exact .inl ⟨value y, if_pos hy⟩
        · exact .inl ⟨r, by rw [if_neg hy, hr]⟩
      · rcases List.mem_cons.1 hx with rfl | hx
        · exact .inl ⟨value x, if_pos (Std.compare_eq_iff_eq.2 hname)⟩
        · exact .inr ⟨x, hx, hname⟩

/-- **The resolved leaf of a key**: of the standing leaves with this name, the one at the last
path. -/
theorem get_resolve : (resolve layers).get key = some r ↔
    ∃ path, dottedKey path = key ∧ Standing layers r.source path r.value ∧
      ∀ source later v, Standing layers source later v → dottedKey later = key →
        ¬ path < later := by
  have hsorted : (mergedTree layers).Sorted := sorted_mergedTree
  have hpairs := KeyTree.pairwise_leaves hsorted
  have hmem {path : List String} {r : ResolvedValue α} :
      (path, r) ∈ (mergedTree layers).leaves ↔ Standing layers r.source path r.value := by
    rw [KeyTree.mem_leaves hsorted.distinct, leafAt_mergedTree]
  have hasymm : Std.Asymm fun l l' : List String × ResolvedValue α => l.1 < l'.1 :=
    ⟨fun _ _ => lt_asymm⟩
  rw [EffectiveConfig.get, resolve, flattenInto_eq, get?_foldl_insert]
  constructor
  · rintro (⟨earlier, ⟨path, r⟩, later, hsplit, rfl, rfl, hlater⟩ | ⟨hempty, -⟩)
    · refine ⟨path, rfl, hmem.1 (hsplit ▸ List.mem_append_cons_self), fun source q v hq hname hlt => ?_⟩
      refine hlater (q, ⟨v, source⟩) ?_ hname
      exact (mem_later_iff hpairs hsplit).2 ⟨hmem.2 hq, hlt⟩
    · cases hempty
  · rintro ⟨path, hname, hstanding, hlast⟩
    obtain ⟨earlier, later, hsplit⟩ := List.append_of_mem (hmem.2 hstanding)
    refine .inl ⟨earlier, _, later, hsplit, hname, rfl, fun y hy hkey => ?_⟩
    have hy' := (mem_later_iff hpairs hsplit).1 hy
    exact hlast _ _ _ (hmem.1 hy'.1) hkey hy'.2

variable {source : SourceLayer} {path : List String} {v : α}

/-- Every standing leaf has its name resolved, to a leaf that is not at an earlier path. -/
theorem get_resolve_of_standing (h : Standing layers source path v) :
    ∃ r last, (resolve layers).get (dottedKey path) = some r ∧
      Standing layers r.source last r.value ∧ path ≤ last ∧ dottedKey last = dottedKey path := by
  have hmem : (path, ⟨v, source⟩) ∈ (mergedTree layers).leaves := by
    rw [KeyTree.mem_leaves sorted_mergedTree.distinct, leafAt_mergedTree]
    exact h
  obtain ⟨r, hr⟩ : ∃ r, (resolve layers).get (dottedKey path) = some r := by
    rw [EffectiveConfig.get, resolve, flattenInto_eq]
    exact exists_foldl_insert _ _ _ _ (.inr ⟨_, hmem, rfl⟩)
  obtain ⟨last, hname, hlast, hmax⟩ := get_resolve.1 hr
  exact ⟨r, last, hr, hlast, not_lt.1 (hmax _ _ _ h rfl), hname⟩

/-- One leaf stands at a path. -/
theorem Standing.unique {source' : SourceLayer} {v' : α} (h : Standing layers source path v)
    (h' : Standing layers source' path v') : source = source' ∧ v = v' := by
  have hleaf := leafAt_mergedTree (r := ⟨v, source⟩).2 h
  rw [leafAt_mergedTree (r := ⟨v', source'⟩).2 h'] at hleaf
  cases hleaf
  exact ⟨rfl, rfl⟩

end Names

/-! ### By the dotted keys -/

/-- A key stands strictly under another. -/
def StrictlyUnder (key above : String) : Prop := ∃ rest, key = above ++ "." ++ rest

/-- Two paths have one name, or the name of one stands under that of the other. -/
def Clash (path path' : List String) : Prop :=
  dottedKey path = dottedKey path' ∨ StrictlyUnder (dottedKey path) (dottedKey path') ∨
    StrictlyUnder (dottedKey path') (dottedKey path)

/-- The strongest layer wins by the dotted keys. -/
structure StrongestWins (layers : SourceLayer → ConfigLayer α) : Prop where
  /-- A resolved leaf is from the strongest layer with a value at its key or at one above. -/
  winner : ∀ key r, (resolve layers).get key = some r →
    (∃ path, dottedKey path = key ∧ (layers r.source).Defines path r.value) ∧
    ∀ source path v, (layers source).Defines path v →
      (dottedKey path = key ∨ StrictlyUnder key (dottedKey path)) → source ≤ r.source
  /-- It stands neither under nor above a leaf of a stronger layer. -/
  orphan : ∀ key r source path v, (resolve layers).get key = some r →
    (layers source).Defines path v → r.source < source →
      ¬ StrictlyUnder key (dottedKey path) ∧ ¬ StrictlyUnder (dottedKey path) key
  /-- No resolved key stands under another. -/
  apart : ∀ key r key' r', (resolve layers).get key = some r →
    (resolve layers).get key' = some r' → ¬ StrictlyUnder key key'

/-- A standing leaf at a later path has the same name. -/
def Respelled (layers : SourceLayer → ConfigLayer α) (path : List String) : Prop :=
  ∃ source later v, Standing layers source later v ∧ dottedKey later = dottedKey path ∧
    path < later

/-- Neither of two paths leads to the other. -/
def Unrelated (path path' : List String) : Prop := ¬ path <+: path' ∧ ¬ path' <+: path

/-- The layers are spelled apart: the name of a standing leaf, unless a later one has it as well,
clashes neither with that of an unrelated path of a stronger layer nor, other than by being the
same, with that of an unrelated path of a standing leaf. -/
def SpelledApart (layers : SourceLayer → ConfigLayer α) : Prop :=
  ∀ source path v, Standing layers source path v → Respelled layers path ∨
    ∀ source' path' v', Unrelated path path' → Clash path path' →
      ((layers source').Defines path' v' → ¬ source < source') ∧
      (Standing layers source' path' v' → dottedKey path = dottedKey path')

section StrongestWins

variable {layers : SourceLayer → ConfigLayer α} {path path' : List String}

theorem not_strictlyUnder_self (key : String) : ¬ StrictlyUnder key key := by
  rintro ⟨rest, h⟩
  have hlen := congrArg String.length h
  simp only [String.length_append] at hlen
  have hdot : ".".length = 1 := by decide
  omega

/-- What a stronger layer defines is unrelated to a standing leaf. -/
theorem Standing.unrelated_of_lt {source source' : SourceLayer} {v v' : α}
    (h : Standing layers source path v) (h' : (layers source').Defines path' v')
    (hlt : source < source') : Unrelated path path' :=
  ⟨fun hp => KeyTree.not_clear_of_leafAt h' (.inr hp) (h.2 _ hlt),
    fun hp => KeyTree.not_clear_of_leafAt h' (.inl hp) (h.2 _ hlt)⟩

/-- The resolved leaf of a key is at a path that no later one respells. -/
theorem exists_standing_of_get {key : String} {r : ResolvedValue α}
    (h : (resolve layers).get key = some r) : ∃ path, dottedKey path = key ∧
      Standing layers r.source path r.value ∧ ¬ Respelled layers path := by
  obtain ⟨path, rfl, hstanding, hlast⟩ := get_resolve.1 h
  refine ⟨path, rfl, hstanding, ?_⟩
  rintro ⟨source, later, v, hlater, hname, hlt⟩
  exact hlast source later v hlater hname hlt

/-- Layers that are spelled apart: nothing of a stronger layer clashes with a resolved leaf. -/
theorem SpelledApart.not_clash (h : SpelledApart layers) {source source' : SourceLayer} {v v' : α}
    (hstanding : Standing layers source path v) (hlast : ¬ Respelled layers path)
    (hdefines : (layers source').Defines path' v') (hlt : source < source') :
    ¬ Clash path path' := by
  intro hclash
  have happart := (h source path v hstanding).resolve_left hlast source' path' v'
    (hstanding.unrelated_of_lt hdefines hlt) hclash
  exact happart.1 hdefines hlt

theorem SpelledApart.strongestWins (h : SpelledApart layers) : StrongestWins layers where
  winner key r hr := by
    obtain ⟨path, rfl, hstanding, hlast⟩ := exists_standing_of_get hr
    refine ⟨⟨path, rfl, hstanding.1⟩, fun source path' v hdefines hname => ?_⟩
    by_contra hlt
    refine h.not_clash hstanding hlast hdefines (not_le.1 hlt) ?_
    exact hname.imp Eq.symm .inl
  orphan key r source path' v hr hdefines hlt := by
    obtain ⟨path, rfl, hstanding, hlast⟩ := exists_standing_of_get hr
    have hclash := h.not_clash hstanding hlast hdefines hlt
    exact ⟨fun hunder => hclash (.inr (.inl hunder)), fun hunder => hclash (.inr (.inr hunder))⟩
  apart key r key' r' hr hr' hunder := by
    obtain ⟨path, rfl, hstanding, hlast⟩ := exists_standing_of_get hr
    obtain ⟨path', rfl, hstanding', -⟩ := exists_standing_of_get hr'
    have hne : path ≠ path' := by
      rintro rfl
      exact not_strictlyUnder_self _ hunder
    have happart := (h _ path _ hstanding).resolve_left hlast r'.source path' r'.value
      ⟨hstanding.unrelated hstanding' hne, hstanding'.unrelated hstanding hne.symm⟩
      (.inr (.inl hunder))
    refine not_strictlyUnder_self (dottedKey path') ?_
    rwa [happart.2 hstanding'] at hunder

theorem StrongestWins.spelledApart (h : StrongestWins layers) : SpelledApart layers := by
  intro source path v hstanding
  by_cases hlast : Respelled layers path
  · exact .inl hlast
  · refine .inr fun source' path' v' _ hclash => ?_
    obtain ⟨r, last, hr, hstanding', hle, hname⟩ := get_resolve_of_standing hstanding
    -- no later path has the name, so the resolved leaf is the standing one
    obtain rfl : path = last := by
      by_contra hne
      exact hlast ⟨_, last, _, hstanding', hname, lt_of_le_of_ne hle hne⟩
    obtain ⟨rfl, rfl⟩ := hstanding.unique hstanding'
    constructor
    · intro hdefines hlt
      have horphan := h.orphan _ r source' path' v' hr hdefines hlt
      rcases hclash with heq | hunder | hunder
      · exact absurd ((h.winner _ r hr).2 source' path' v' hdefines (.inl heq.symm))
          (not_le.2 hlt)
      · exact horphan.1 hunder
      · exact horphan.2 hunder
    · intro hother
      obtain ⟨r', last', hr', -⟩ := get_resolve_of_standing hother
      rcases hclash with heq | hunder | hunder
      · exact heq
      · exact absurd hunder (h.apart _ r _ r' hr hr')
      · exact absurd hunder (h.apart _ r' _ r hr' hr)

/-- **The strongest layer wins by the dotted keys exactly when the layers are spelled apart.** -/
theorem strongestWins_iff (layers : SourceLayer → ConfigLayer α) :
    StrongestWins layers ↔ SpelledApart layers :=
  ⟨StrongestWins.spelledApart, SpelledApart.strongestWins⟩

/-- The instance's table quotes the key of the address that the engine overrides at a start. -/
def quotedBaseUrl : SourceLayer → ConfigLayer String
  | .instanceConfig => ⟨.leaf "metering.base_url" "http://elsewhere" .nil, ⟨trivial, trivial⟩⟩
  | .invocationOverride =>
      ⟨.sub "metering" (.leaf "base_url" "http://127.0.0.1:4100" .nil) .nil,
        ⟨trivial, trivial, trivial, trivial⟩⟩
  | _ => ⟨.nil, trivial⟩

/-- The override loses against the quoted key. -/
theorem not_strongestWins_quotedBaseUrl : ¬ StrongestWins quotedBaseUrl := by
  intro h
  have hget : (resolve quotedBaseUrl).get "metering.base_url" =
      some ⟨"http://elsewhere", .instanceConfig⟩ := by decide +kernel
  have hover : (quotedBaseUrl .invocationOverride).Defines ["metering", "base_url"]
      "http://127.0.0.1:4100" := by decide +kernel
  have hle := (h.winner _ _ hget).2 _ _ _ hover (.inl (by decide +kernel))
  exact absurd hle (by decide)

end StrongestWins

/-! ### Keys without dots -/

section Plain

variable {layers : SourceLayer → ConfigLayer α} {path path' : List String}

/-- No key of the path is empty or contains a dot. -/
def Plain (path : List String) : Prop := ∀ key ∈ path, key ≠ "" ∧ '.' ∉ key.toList

theorem dotted_of_ne {under : String} (hunder : under ≠ "") (key : String) :
    dotted under key = under ++ "." ++ key := by
  rw [dotted, if_neg (by simpa using hunder)]

theorem splitOn_dot (under rest : String) :
    (under ++ "." ++ rest).toList.splitOn '.' =
      under.toList.splitOn '.' ++ rest.toList.splitOn '.' := by
  have hdot : ".".toList = ['.'] := by decide
  rw [String.toList_append, String.toList_append, hdot, List.append_assoc, List.singleton_append,
    List.splitOn_append_cons_self]

theorem splitOn_nameUnder {under : String} (hunder : under ≠ "") (hplain : Plain path) :
    (nameUnder under path).toList.splitOn '.' =
      under.toList.splitOn '.' ++ path.map String.toList := by
  induction path generalizing under with
  | nil => simp [nameUnder]
  | cons key path ih =>
      have hname : nameUnder under (key :: path) = nameUnder (under ++ "." ++ key) path := by
        rw [← dotted_of_ne hunder]
        rfl
      have hne : under ++ "." ++ key ≠ "" := by simp
      have hkey : key.toList.splitOn '.' = [key.toList] :=
        List.splitOn_eq_singleton (hplain key List.mem_cons_self).2
      rw [hname, ih hne fun k hk => hplain k (List.mem_cons_of_mem key hk), splitOn_dot, hkey,
        List.append_assoc, List.singleton_append, List.map_cons]

/-- The segments of a plain path are found again in its name. -/
theorem splitOn_dottedKey (hplain : Plain path) (hne : path ≠ []) :
    (dottedKey path).toList.splitOn '.' = path.map String.toList := by
  cases path with
  | nil => exact absurd rfl hne
  | cons key path =>
      have hkey := hplain key List.mem_cons_self
      have hname : dottedKey (key :: path) = nameUnder key path := rfl
      rw [hname, splitOn_nameUnder hkey.1 fun k hk => hplain k (List.mem_cons_of_mem key hk),
        List.splitOn_eq_singleton hkey.2, List.singleton_append, List.map_cons]

theorem toList_injective : Function.Injective String.toList := fun _ _ => String.toList_inj.1

end Plain

end Hekma
