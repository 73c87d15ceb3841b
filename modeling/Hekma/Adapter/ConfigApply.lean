/-
**The config mapping applied to a launch** (`hekma-engine/src/adapter/mod.rs`).

At a start the resolved leaves of the configuration are delivered in the order of their keys: a leaf
under `agent.` as an environment variable with the rest of its name, another leaf to the target its
key is mapped to.  The values for one file are collected and the file is written at the end.

Main definitions:

* `deliver`, `writeConfigFiles`, `applyConfigMapping` — the delivery;
* `placeOf` — where a key is delivered.

Main results:

* `leafAt_toTable` — the keys of a file that do not get in each other's way are all found in it;
* `writing_env`, `writing_docs`, `foldl_deliver` — what one leaf and what all leaves change;
* `writeConfigFiles_eq_ok` — what is in the files at the end.
-/

import Hekma.Adapter.ConfigMapping
import Hekma.Domain.ConfigWrite
import Hekma.Lib.Writes

set_option relaxedAutoImplicit false
set_option autoImplicit false

namespace Hekma

namespace Adapter

open LexPath (PathRules Home)
open Writes (Writing)

/-! ### The delivery -/

structure StartLaunch where
  exec : String
  args : List String
  env : Std.TreeMap String String

/-- The keys of the secrets that are passed as flags. -/
structure MappingReport where
  secretFlagKeys : List String
  deriving DecidableEq, Repr

inductive ConfigApplyError where
  | fileRender (key path detail : String)
  deriving DecidableEq, Repr

/-- The values for one file, by their native keys. -/
abbrev FileDoc := Std.TreeMap String String

/-- The text of each file, by where the file lies. -/
abbrev Files := List LexPath.Component → Option String

def secretMask : String := "secret:****"

/-- A value as it is displayed: the reference to a secret is masked. -/
def displayValue (render : Scalar → String) : Scalar → String
  | .string s => if isSecretRef s then secretMask else s
  | v => render v

def passThroughTail (key : String) : Option String :=
  (afterStart passThroughNamespace key).filter fun rest => !rest.isEmpty

/-- A text set at the segments of a native key.  A leaf on the way is replaced by a table. -/
def setDottedString (value : String) :
    List String → KeyTree String Scalar → KeyTree String Scalar
  | [], table => table
  | [segment], table => table.set segment (.leaf (.string value))
  | segment :: rest, table =>
      table.set segment (.sub (setDottedString value rest (slotChildren table segment)))

/-- The table of a file. -/
def FileDoc.toTable (doc : FileDoc) : KeyTree String Scalar :=
  doc.toList.foldl (fun table e => setDottedString e.2 (segments e.1) table) .nil

/-- What the engine delivers with and into. -/
structure ApplyWorld where
  rules : PathRules
  home : Home
  toml : TomlCrate
  /-- A value that is no text, as the TOML library prints it. -/
  render : Scalar → String
  /-- Whether the directories of a file can be made. -/
  createDirAll : String → Except String Unit
  /-- Whether a file can be replaced. -/
  writeAtomically : String → Except String Unit

/-- The place of a file in the home. -/
def ApplyWorld.fileAt (w : ApplyWorld) (path : String) : List LexPath.Component :=
  LexPath.resolve w.home (LexPath.components w.rules path.toList)

/-- What has been delivered so far. -/
structure Delivery where
  launch : StartLaunch
  report : List String
  docs : Std.TreeMap String FileDoc

section

variable (w : ApplyWorld) (mapping : ConfigMapping) (secrets : Std.TreeMap String String)

/-- The value of a leaf: the cleartext of a secret, or what is displayed. -/
def deliveredValue (leaf : String × ResolvedValue Scalar) : String :=
  match secrets[leaf.1]? with
  | some secret => secret
  | none => displayValue w.render leaf.2.value

/-- One leaf. -/
def deliver (d : Delivery) (leaf : String × ResolvedValue Scalar) : Delivery :=
  let value := deliveredValue w secrets leaf
  match passThroughTail leaf.1 with
  | some tail => { d with launch := { d.launch with env := d.launch.env.insert tail value } }
  | none =>
      match mapping.target leaf.1 with
      | none => d
      | some (.env env) =>
          { d with launch := { d.launch with env := d.launch.env.insert env value } }
      | some (.flag flag) =>
          { d with
            launch := { d.launch with args := d.launch.args ++ [flag, value] }
            report := if secrets.contains leaf.1 then d.report ++ [leaf.1] else d.report }
      | some (.file placement) =>
          let doc := d.docs.getD placement.path ∅
          { d with docs := d.docs.insert placement.path (doc.insert placement.key value) }

/-- One file. -/
def writeConfigFile (files : Files) (relPath : String) (doc : FileDoc) :
    Except ConfigApplyError Files :=
  match w.toml.toStringPretty doc.toTable with
  | .error detail => .error (.fileRender relPath relPath detail)
  | .ok body =>
      match w.createDirAll relPath with
      | .error detail => .error (.fileRender relPath relPath detail)
      | .ok () =>
          match w.writeAtomically relPath with
          | .error detail => .error (.fileRender relPath relPath detail)
          | .ok () => .ok fun place => if w.fileAt relPath = place then some body else files place

/-- The files one after the other, up to the first that fails. -/
def writeConfigFiles : List (String × FileDoc) → Files → Files × Except ConfigApplyError Unit
  | [], files => (files, .ok ())
  | (relPath, doc) :: rest, files =>
      match writeConfigFile w files relPath doc with
      | .error e => (files, .error e)
      | .ok files => writeConfigFiles rest files

def applyConfigMapping (effective : EffectiveConfig Scalar) (launch : StartLaunch)
    (files : Files) : (StartLaunch × Files) × Except ConfigApplyError MappingReport :=
  let d := effective.leaves.toList.foldl (deliver w mapping secrets) ⟨launch, [], ∅⟩
  match writeConfigFiles w d.docs.toList files with
  | (files, .ok ()) => ((d.launch, files), .ok ⟨d.report⟩)
  | (files, .error e) => ((d.launch, files), .error e)

end

/-! ### The table of a file -/

section Table

variable {value : String} {segs path : List String} {v : Scalar} {table : KeyTree String Scalar}

/-- What is below a key, whatever stands at it, unless the key itself is meant. -/
theorem leafAt_slotChildren_cons {k next : String} :
    table.leafAt (k :: next :: path) = (slotChildren table k).leafAt (next :: path) := by
  cases hget : table.get? k with
  | none =>
      rw [KeyTree.leafAt_cons_of_none hget, slotChildren, hget]
      rfl
  | some e =>
      cases e with
      | leaf a =>
          rw [KeyTree.leafAt_cons_of_leaf hget, slotChildren, hget]
          rfl
      | sub child =>
          rw [KeyTree.leafAt_cons_of_sub hget, slotChildren, hget]

/-- **Setting a text changes this one leaf**, and removes what stands above or below it. -/
theorem leafAt_setDottedString (hne : segs ≠ []) :
    (setDottedString value segs table).leafAt path = some v ↔
      (path = segs ∧ v = .string value) ∨ (Unrelated path segs ∧ table.leafAt path = some v) := by
  induction segs generalizing table path with
  | nil => exact absurd rfl hne
  | cons segment segs ih =>
      cases path with
      | nil => simp [KeyTree.leafAt]
      | cons k path =>
          by_cases hkey : segment = k
          · subst hkey
            cases segs with
            | nil =>
                rw [setDottedString, KeyTree.leafAt_cons_of_leaf (KeyTree.get?_set_self _ _ _)]
                by_cases hpath : path = []
                · simp [hpath, Unrelated, eq_comm]
                · simp [hpath, Unrelated]
            | cons next segs =>
                rw [setDottedString, KeyTree.leafAt_cons_of_sub (KeyTree.get?_set_self _ _ _),
                  ih (List.cons_ne_nil _ _), unrelated_cons, List.cons.injEq, and_iff_right rfl]
                · cases path with
                  | nil => simp [Unrelated]
                  | cons k path => rw [leafAt_slotChildren_cons]
                · exact fun hnil => by cases hnil
          · have hother (e : KeyTree.Entry String Scalar) :
                (table.set segment e).leafAt (k :: path) = table.leafAt (k :: path) :=
              KeyTree.leafAt_congr (KeyTree.get?_set_of_ne _ _ hkey)
            rw [or_iff_right fun h => hkey (List.cons.inj h.1).1.symm,
              and_iff_right (unrelated_cons_of_ne (Ne.symm hkey))]
            cases segs with
            | nil => rw [setDottedString, hother]
            | cons next segs =>
                rw [setDottedString, hother]
                exact fun hnil => by cases hnil

theorem distinct_setDottedString (h : table.Distinct) :
    (setDottedString value segs table).Distinct := by
  induction segs generalizing table with
  | nil => exact h
  | cons segment segs ih =>
      cases segs with
      | nil => exact KeyTree.distinct_set h trivial
      | cons next segs => exact KeyTree.distinct_set h (ih (distinct_slotChildren h segment))

/-- The keys of a file set one after the other. -/
def setEach (entries : List (String × String)) (table : KeyTree String Scalar) :
    KeyTree String Scalar :=
  entries.foldl (fun table e => setDottedString e.2 (segments e.1) table) table

theorem distinct_setEach (entries : List (String × String)) (h : table.Distinct) :
    (setEach entries table).Distinct := by
  induction entries generalizing table with
  | nil => exact h
  | cons e entries ih => exact ih (distinct_setDottedString h)

theorem distinct_toTable (doc : FileDoc) : doc.toTable.Distinct :=
  distinct_setEach doc.toList trivial

/-- Keys that do not get in a leaf's way leave it as it is. -/
theorem leafAt_setEach_of_unrelated {entries : List (String × String)}
    (h : ∀ e ∈ entries, Unrelated path (segments e.1)) :
    (setEach entries table).leafAt path = some v ↔ table.leafAt path = some v := by
  induction entries generalizing table with
  | nil => rfl
  | cons e entries ih =>
      have hhead := h e List.mem_cons_self
      rw [setEach, List.foldl_cons, ← setEach, ih fun d hd => h d (List.mem_cons_of_mem _ hd),
        leafAt_setDottedString (segments_ne_nil e.1), and_iff_right hhead]
      refine or_iff_right fun heq => hhead.1 ?_
      rw [heq.1]

/-- A key is found in the table if the other keys do not get in its way. -/
theorem leafAt_setEach {entries : List (String × String)} {e : String × String}
    (hmem : e ∈ entries)
    (h : ∀ d ∈ entries, d = e ∨ Unrelated (segments e.1) (segments d.1)) :
    (setEach entries table).leafAt (segments e.1) = some (.string e.2) := by
  induction entries generalizing table with
  | nil => cases hmem
  | cons d entries ih =>
      have hrest : ∀ d ∈ entries, d = e ∨ Unrelated (segments e.1) (segments d.1) :=
        fun d hd => h d (List.mem_cons_of_mem _ hd)
      rw [setEach, List.foldl_cons, ← setEach]
      by_cases hlater : e ∈ entries
      · exact ih hlater hrest
      · -- the key is set here and nothing later gets in its way
        have heq : d = e := by
          rcases List.mem_cons.1 hmem with hd | hd
          · exact hd.symm
          · exact absurd hd hlater
        subst heq
        refine (leafAt_setEach_of_unrelated fun c hc => ?_).2
          ((leafAt_setDottedString (segments_ne_nil d.1)).2 (.inl ⟨rfl, rfl⟩))
        refine (hrest c hc).resolve_left ?_
        rintro rfl
        exact hlater hc

/-- **The keys of a file that do not get in each other's way are all found in it.** -/
theorem leafAt_toTable {doc : FileDoc} {key : String} (hkey : doc[key]? = some value)
    (h : ∀ k s, doc[k]? = some s → k = key ∨ Unrelated (segments key) (segments k)) :
    doc.toTable.leafAt (segments key) = some (.string value) := by
  refine leafAt_setEach (e := (key, value)) (Std.TreeMap.mem_toList_iff_getElem?_eq_some.2 hkey)
    fun d hd => ?_
  have hd' := Std.TreeMap.mem_toList_iff_getElem?_eq_some.1 hd
  rcases h d.1 d.2 hd' with hk | hk
  · refine .inl (Prod.ext hk ?_)
    rw [hk, hkey] at hd'
    exact (Option.some.inj hd').symm
  · exact .inr hk

/-- A leaf that all keys of a file keep clear of is not in it. -/
theorem leafAt_toTable_eq_none {doc : FileDoc}
    (h : ∀ k s, doc[k]? = some s → Unrelated path (segments k)) :
    doc.toTable.leafAt path = none := by
  refine Option.eq_none_iff_forall_ne_some.2 fun v hv => ?_
  have hnil : KeyTree.leafAt .nil path = some v := (leafAt_setEach_of_unrelated fun e he =>
    h e.1 e.2 (Std.TreeMap.mem_toList_iff_getElem?_eq_some.1 he)).1 hv
  cases path with
  | nil => cases hnil
  | cons k path => cases hnil

end Table

/-! ### What one leaf changes -/

section Deliver

variable {w : ApplyWorld} {mapping : ConfigMapping} {secrets : Std.TreeMap String String}

/-- Where a key is delivered: the rest of a name under `agent.` is a variable. -/
def placeOf (mapping : ConfigMapping) (key : String) : Option ConfigTarget :=
  match passThroughTail key with
  | some tail => some (.env tail)
  | none => mapping.target key

def envOf (mapping : ConfigMapping) (leaf : String × ResolvedValue Scalar) : Option String :=
  match placeOf mapping leaf.1 with
  | some (.env env) => some env
  | _ => none

def placementOf (mapping : ConfigMapping) (leaf : String × ResolvedValue Scalar) :
    Option (String × String) :=
  match placeOf mapping leaf.1 with
  | some (.file placement) => some (placement.path, placement.key)
  | _ => none

/-- The arguments of a leaf. -/
def argsOf (w : ApplyWorld) (mapping : ConfigMapping) (secrets : Std.TreeMap String String)
    (leaf : String × ResolvedValue Scalar) : List String :=
  match placeOf mapping leaf.1 with
  | some (.flag flag) => [flag, deliveredValue w secrets leaf]
  | _ => []

/-- The secret that a leaf passes as a flag. -/
def reportOf (mapping : ConfigMapping) (secrets : Std.TreeMap String String)
    (leaf : String × ResolvedValue Scalar) : List String :=
  match placeOf mapping leaf.1 with
  | some (.flag _) => if secrets.contains leaf.1 then [leaf.1] else []
  | _ => []

/-- The four ways a leaf is delivered. -/
theorem deliver_cases (d : Delivery) (leaf : String × ResolvedValue Scalar) :
    deliver w mapping secrets d leaf =
      match placeOf mapping leaf.1 with
      | none => d
      | some (.env env) =>
          ⟨{ d.launch with env := d.launch.env.insert env (deliveredValue w secrets leaf) },
            d.report, d.docs⟩
      | some (.flag _) =>
          ⟨{ d.launch with args := d.launch.args ++ argsOf w mapping secrets leaf },
            d.report ++ reportOf mapping secrets leaf, d.docs⟩
      | some (.file placement) =>
          ⟨d.launch, d.report, d.docs.insert placement.path
            ((d.docs.getD placement.path ∅).insert placement.key
              (deliveredValue w secrets leaf))⟩ := by
  unfold deliver
  cases htail : passThroughTail leaf.1 with
  | some tail =>
      rw [placeOf, htail]
  | none =>
      cases htarget : mapping.target leaf.1 with
      | none => rw [placeOf, htail, htarget]
      | some target =>
          have hplace : placeOf mapping leaf.1 = some target := by rw [placeOf, htail, htarget]
          cases target with
          | env env => rw [hplace]
          | flag flag =>
              rw [hplace]
              dsimp only
              rw [argsOf, reportOf, hplace]
              dsimp only
              split_ifs
              · rfl
              · rw [List.append_nil]
          | file placement => rw [hplace]

/-- A leaf writes into the environment under its variable. -/
theorem writing_env (w : ApplyWorld) (mapping : ConfigMapping)
    (secrets : Std.TreeMap String String) :
    Writing (deliver w mapping secrets)
    (fun d (n : String) => d.launch.env[n]?) (envOf mapping) (deliveredValue w secrets) := by
  intro d leaf n
  rw [deliver_cases, envOf]
  cases placeOf mapping leaf.1 with
  | none => simp
  | some target =>
      cases target with
      | env env => simp [Std.TreeMap.getElem?_insert]
      | flag flag => simp
      | file placement => simp

/-- What stands under a native key of a file. -/
def docEntry (d : Delivery) (place : String × String) : Option String :=
  d.docs[place.1]?.bind (·[place.2]?)

/-- A leaf writes into the file of its placement under its native key. -/
theorem writing_docs (w : ApplyWorld) (mapping : ConfigMapping)
    (secrets : Std.TreeMap String String) :
    Writing (deliver w mapping secrets) docEntry (placementOf mapping)
      (deliveredValue w secrets) := by
  intro d leaf place
  obtain ⟨path, key⟩ := place
  rw [deliver_cases, placementOf]
  cases placeOf mapping leaf.1 with
  | none => simp
  | some target =>
      cases target with
      | env env => simp [docEntry]
      | flag flag => simp [docEntry]
      | file placement =>
          dsimp only [docEntry]
          rw [Std.TreeMap.getElem?_insert]
          by_cases hpath : placement.path = path
          · subst hpath
            rw [if_pos (Std.compare_eq_iff_eq.2 rfl), Option.bind_some,
              Std.TreeMap.getElem?_insert]
            by_cases hkey : placement.key = key
            · rw [if_pos (Std.compare_eq_iff_eq.2 hkey), if_pos (by rw [hkey])]
            · rw [if_neg (mt Std.compare_eq_iff_eq.1 hkey), if_neg (by simp [hkey]),
                Std.TreeMap.getD_eq_getD_getElem?]
              cases d.docs[placement.path]? with
              | none => simp
              | some doc => rfl
          · rw [if_neg (mt Std.compare_eq_iff_eq.1 hpath), if_neg (by simp [hpath])]

/-- The path of a leaf's file. -/
def pathOf (mapping : ConfigMapping) (leaf : String × ResolvedValue Scalar) : Option String :=
  (placementOf mapping leaf).map (·.1)

/-- A file is begun by a leaf for it. -/
theorem writing_paths (w : ApplyWorld) (mapping : ConfigMapping)
    (secrets : Std.TreeMap String String) :
    Writing (deliver w mapping secrets)
    (fun d (path : String) => d.docs[path]?.map fun _ => ()) (pathOf mapping) (fun _ => ()) := by
  intro d leaf path
  rw [deliver_cases, pathOf, placementOf]
  cases placeOf mapping leaf.1 with
  | none => simp
  | some target =>
      cases target with
      | env env => simp
      | flag flag => simp
      | file placement =>
          dsimp only [Option.map_some]
          rw [Std.TreeMap.getElem?_insert]
          by_cases hpath : placement.path = path
          · rw [if_pos (Std.compare_eq_iff_eq.2 hpath), if_pos (by rw [hpath])]
            rfl
          · rw [if_neg (mt Std.compare_eq_iff_eq.1 hpath), if_neg (by simpa using hpath)]

/-- The arguments and the report grow leaf by leaf. -/
theorem foldl_deliver (w : ApplyWorld) (mapping : ConfigMapping)
    (secrets : Std.TreeMap String String)
    (l : List (String × ResolvedValue Scalar)) (d : Delivery) :
    (l.foldl (deliver w mapping secrets) d).launch.args =
        d.launch.args ++ l.flatMap (argsOf w mapping secrets) ∧
      (l.foldl (deliver w mapping secrets) d).report =
        d.report ++ l.flatMap (reportOf mapping secrets) ∧
      (l.foldl (deliver w mapping secrets) d).launch.exec = d.launch.exec := by
  induction l generalizing d with
  | nil => simp
  | cons leaf l ih =>
      have hstep : (deliver w mapping secrets d leaf).launch.args =
            d.launch.args ++ argsOf w mapping secrets leaf ∧
          (deliver w mapping secrets d leaf).report = d.report ++ reportOf mapping secrets leaf ∧
          (deliver w mapping secrets d leaf).launch.exec = d.launch.exec := by
        rw [deliver_cases, argsOf, reportOf]
        cases hplace : placeOf mapping leaf.1 with
        | none => simp
        | some target =>
            cases target with
            | env env => simp
            | flag flag => exact ⟨rfl, rfl, rfl⟩
            | file placement => simp
      obtain ⟨hargs, hreport, hexec⟩ := ih (deliver w mapping secrets d leaf)
      rw [List.foldl_cons, List.flatMap_cons, List.flatMap_cons, hargs, hreport, hexec, hstep.1,
        hstep.2.1, hstep.2.2, List.append_assoc, List.append_assoc]
      exact ⟨rfl, rfl, rfl⟩

/-! ### The files -/

/-- The text of a file. -/
def bodyOf (w : ApplyWorld) (doc : FileDoc) : Option String :=
  match w.toml.toStringPretty doc.toTable with
  | .ok body => some body
  | .error _ => none

/-- A file put in its place. -/
def putFile (w : ApplyWorld) (files : Files) (e : String × FileDoc) : Files := fun place =>
  if w.fileAt e.1 = place then bodyOf w e.2 else files place

theorem writeConfigFile_eq_ok {files files' : Files} {e : String × FileDoc}
    (h : writeConfigFile w files e.1 e.2 = .ok files') :
    files' = putFile w files e ∧ ∃ body, w.toml.toStringPretty e.2.toTable = .ok body := by
  unfold writeConfigFile at h
  cases hbody : w.toml.toStringPretty e.2.toTable with
  | error detail => rw [hbody] at h; cases h
  | ok body =>
      rw [hbody] at h
      dsimp only at h
      cases hdir : w.createDirAll e.1 with
      | error detail => rw [hdir] at h; cases h
      | ok u =>
          rw [hdir] at h
          dsimp only at h
          cases hwrite : w.writeAtomically e.1 with
          | error detail => rw [hwrite] at h; cases h
          | ok u =>
              rw [hwrite] at h
              cases h
              refine ⟨?_, body, rfl⟩
              funext place
              rw [putFile, bodyOf, hbody]

/-- If all files are written, each is put in its place. -/
theorem writeConfigFiles_eq_ok {l : List (String × FileDoc)} {files files' : Files}
    (h : writeConfigFiles w l files = (files', .ok ())) :
    files' = l.foldl (putFile w) files ∧
      ∀ e ∈ l, ∃ body, w.toml.toStringPretty e.2.toTable = .ok body := by
  induction l generalizing files with
  | nil =>
      cases h
      exact ⟨rfl, fun e he => absurd he List.not_mem_nil⟩
  | cons e l ih =>
      rw [writeConfigFiles] at h
      cases hone : writeConfigFile w files e.1 e.2 with
      | error err => rw [hone] at h; cases h
      | ok written =>
          rw [hone] at h
          obtain ⟨rfl, hbody⟩ := writeConfigFile_eq_ok hone
          obtain ⟨hrest, hbodies⟩ := ih h
          refine ⟨hrest, fun d hd => ?_⟩
          rcases List.mem_cons.1 hd with rfl | hd
          · exact hbody
          · exact hbodies d hd

/-- A file is written under its place. -/
theorem writing_files (w : ApplyWorld) : Writing (fun files e => (putFile w files e : Files))
    (fun files place => some (files place)) (fun e => some (w.fileAt e.1))
    (fun e : String × FileDoc => bodyOf w e.2) := by
  intro files e place
  dsimp only
  rw [putFile]
  by_cases hplace : w.fileAt e.1 = place
  · rw [if_pos hplace, if_pos (by rw [hplace])]
  · rw [if_neg hplace, if_neg (by simpa using hplace)]

end Deliver

end Adapter

end Hekma
