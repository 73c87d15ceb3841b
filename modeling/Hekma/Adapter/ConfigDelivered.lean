/-
**What a launch finds of its configuration** (`hekma-engine/src/adapter/mod.rs`).

Every mapped leaf is delivered to the target of its key, and every leaf under `agent.` to the
variable with the rest of its name.  In the environment and in a file the last value wins: a mapped
variable may take the place of the variable a leaf under `agent.` asks for, and where a host takes
two spellings of a path for one file, the file that is written last takes the place of the other.

Main definitions:

* `Separate` — the targets of a mapping are distinct;
* `Delivered` — every value is found in its place, and everything else is as before;
* `Unobstructed` — no two leaves get in each other's way.

Main results:

* `delivered_iff` — **when the delivery is exact**.
-/

import Hekma.Adapter.ConfigApply

set_option relaxedAutoImplicit false
set_option autoImplicit false

namespace Hekma

namespace Adapter

open LexPath (PathRules Home)

section

variable (w : ApplyWorld) (mapping : ConfigMapping) (secrets : Std.TreeMap String String)
  (effective : EffectiveConfig Scalar)

/-- The targets of a mapping are pairwise distinct, and the native keys of one file are not
prefixes of each other. -/
structure Separate : Prop where
  distinct : ∀ key key' target, mapping.target key = some target →
    mapping.target key' = some target → key = key'
  apart : ∀ key key' p p', mapping.target key = some (.file p) →
    mapping.target key' = some (.file p') → key ≠ key' → w.fileAt p.path = w.fileAt p'.path →
    Unrelated (segments p.key) (segments p'.key)

/-- A leaf that is mapped to a target. -/
def Mapped (key : String) (value : String) (target : ConfigTarget) : Prop :=
  ∃ v, effective.get key = some v ∧ value = deliveredValue w secrets (key, v) ∧
    passThroughTail key = none ∧ mapping.target key = some target

/-- A leaf under the namespace that is passed through. -/
def Passed (key : String) (value : String) (tail : String) : Prop :=
  ∃ v, effective.get key = some v ∧ value = deliveredValue w secrets (key, v) ∧
    passThroughTail key = some tail

/-- The value is found at its target. -/
def Placed (after : StartLaunch) (files : Files) (value : String) : ConfigTarget → Prop
  | .env env => after.env[env]? = some value
  | .flag flag => [flag, value] <:+: after.args
  | .file p => ∃ text layer, files (w.fileAt p.path) = some text ∧
      w.toml.parse text = .ok layer ∧ layer.table.leafAt (segments p.key) = some (.string value)

/-- **Every value is found in its place, and everything else is as before.** -/
structure Delivered (before after : StartLaunch) (files files' : Files) (report : MappingReport) :
    Prop where
  mapped : ∀ key value target, Mapped w mapping secrets effective key value target →
    Placed w after files' value target
  passed : ∀ key value tail, Passed w secrets effective key value tail →
    after.env[tail]? = some value
  env : ∀ n, (∀ key value, ¬ Mapped w mapping secrets effective key value (.env n)) →
    (∀ key value, ¬ Passed w secrets effective key value n) → after.env[n]? = before.env[n]?
  args : after.args =
    before.args ++ effective.leaves.toList.flatMap (argsOf w mapping secrets)
  exec : after.exec = before.exec
  files : ∀ place, (∀ key value p, Mapped w mapping secrets effective key value (.file p) →
    w.fileAt p.path ≠ place) → files' place = files place
  report : ∀ key, key ∈ report.secretFlagKeys ↔
    secrets.contains key = true ∧
      ∃ value flag, Mapped w mapping secrets effective key value (.flag flag)

/-- No mapped variable takes the place of one that is passed through, and no two paths of mapped
files lead to one file. -/
structure Unobstructed : Prop where
  tails : ∀ key value key' value' n, Mapped w mapping secrets effective key value (.env n) →
    Passed w secrets effective key' value' n → value = value'
  paths : ∀ key value key' value' p p', Mapped w mapping secrets effective key value (.file p) →
    Mapped w mapping secrets effective key' value' (.file p') →
    w.fileAt p.path = w.fileAt p'.path → p.path = p'.path

end

section Leaves

variable {w : ApplyWorld} {mapping : ConfigMapping} {secrets : Std.TreeMap String String}
  {effective : EffectiveConfig Scalar} {key value : String} {leaf : String × ResolvedValue Scalar}

theorem mem_leaves : leaf ∈ effective.leaves.toList ↔ effective.get leaf.1 = some leaf.2 :=
  Std.TreeMap.mem_toList_iff_getElem?_eq_some

/-- A leaf with a place is mapped to it, or passed through to it. -/
theorem placed_cases (w : ApplyWorld) (secrets : Std.TreeMap String String) {target : ConfigTarget}
    (hmem : leaf ∈ effective.leaves.toList)
    (hplace : placeOf mapping leaf.1 = some target) :
    Mapped w mapping secrets effective leaf.1 (deliveredValue w secrets leaf) target ∨
      ∃ tail, target = .env tail ∧
        Passed w secrets effective leaf.1 (deliveredValue w secrets leaf) tail := by
  have hget := mem_leaves.1 hmem
  rw [placeOf] at hplace
  cases htail : passThroughTail leaf.1 with
  | some tail =>
      rw [htail] at hplace
      exact .inr ⟨tail, (Option.some.inj hplace).symm, leaf.2, hget, rfl, htail⟩
  | none =>
      rw [htail] at hplace
      exact .inl ⟨leaf.2, hget, rfl, htail, hplace⟩

theorem Mapped.exists_leaf {target : ConfigTarget}
    (h : Mapped w mapping secrets effective key value target) :
    ∃ leaf ∈ effective.leaves.toList, leaf.1 = key ∧ placeOf mapping leaf.1 = some target ∧
      value = deliveredValue w secrets leaf := by
  obtain ⟨v, hget, hvalue, htail, htarget⟩ := h
  exact ⟨(key, v), mem_leaves.2 hget, rfl, by rw [placeOf, htail, htarget], hvalue⟩

theorem Passed.exists_leaf (mapping : ConfigMapping) {tail : String}
    (h : Passed w secrets effective key value tail) :
    ∃ leaf ∈ effective.leaves.toList, leaf.1 = key ∧ placeOf mapping leaf.1 = some (.env tail) ∧
      value = deliveredValue w secrets leaf := by
  obtain ⟨v, hget, hvalue, htail⟩ := h
  exact ⟨(key, v), mem_leaves.2 hget, rfl, by rw [placeOf, htail], hvalue⟩

/-- A key has one value. -/
theorem Mapped.unique {value' : String} {target target' : ConfigTarget}
    (h : Mapped w mapping secrets effective key value target)
    (h' : Mapped w mapping secrets effective key value' target') :
    value = value' ∧ target = target' := by
  obtain ⟨v, hget, rfl, -, htarget⟩ := h
  obtain ⟨v', hget', rfl, -, htarget'⟩ := h'
  rw [hget] at hget'
  rw [htarget] at htarget'
  exact ⟨by rw [Option.some.inj hget'], Option.some.inj htarget'⟩

/-- What follows the namespace determines the key. -/
theorem key_of_passThroughTail {tail : String} (h : passThroughTail key = some tail) :
    key = passThroughNamespace ++ tail := by
  obtain ⟨hafter, -⟩ := Option.filter_eq_some_iff.1 h
  unfold afterStart at hafter
  split_ifs at hafter with hprefix
  obtain ⟨rest, hrest⟩ := List.isPrefixOf_iff_prefix.1 hprefix
  rw [← hrest, List.drop_left] at hafter
  rw [← String.toList_inj, String.toList_append, ← hrest, ← Option.some.inj hafter,
    String.toList_ofList]

theorem Passed.unique {key' value' tail : String} (h : Passed w secrets effective key value tail)
    (h' : Passed w secrets effective key' value' tail) : value = value' := by
  obtain ⟨v, hget, rfl, htail⟩ := h
  obtain ⟨v', hget', rfl, htail'⟩ := h'
  obtain rfl : key = key' :=
    (key_of_passThroughTail htail).trans (key_of_passThroughTail htail').symm
  rw [hget] at hget'
  rw [Option.some.inj hget']

theorem placementOf_eq_some {place : String × String} :
    placementOf mapping leaf = some place ↔
      placeOf mapping leaf.1 = some (.file ⟨place.1, place.2⟩) := by
  rw [placementOf]
  cases placeOf mapping leaf.1 with
  | none => simp
  | some target =>
      cases target with
      | env env => simp
      | flag flag => simp
      | file p =>
          constructor
          · intro h
            cases h
            rfl
          · intro h
            cases h
            rfl

theorem envOf_eq_some {n : String} :
    envOf mapping leaf = some n ↔ placeOf mapping leaf.1 = some (.env n) := by
  rw [envOf]
  cases placeOf mapping leaf.1 with
  | none => simp
  | some target => cases target <;> simp

end Leaves

/-! ### What has been delivered at the end -/

section Ended

variable {w : ApplyWorld} {mapping : ConfigMapping} {secrets : Std.TreeMap String String}
  {effective : EffectiveConfig Scalar} {key value : String} {before after : StartLaunch}
  {files files' : Files} {report : MappingReport}

/-- The leaves delivered in order. -/
def delivery (w : ApplyWorld) (mapping : ConfigMapping) (secrets : Std.TreeMap String String)
    (effective : EffectiveConfig Scalar) (before : StartLaunch) : Delivery :=
  effective.leaves.toList.foldl (deliver w mapping secrets) ⟨before, [], ∅⟩

/-- A successful run has delivered all leaves and written all files. -/
theorem applied (h : applyConfigMapping w mapping secrets effective before files =
      ((after, files'), .ok report)) :
    after = (delivery w mapping secrets effective before).launch ∧
      report.secretFlagKeys = (delivery w mapping secrets effective before).report ∧
      files' = (delivery w mapping secrets effective before).docs.toList.foldl (putFile w) files ∧
      ∀ e ∈ (delivery w mapping secrets effective before).docs.toList,
        ∃ body, w.toml.toStringPretty e.2.toTable = .ok body := by
  unfold applyConfigMapping at h
  rw [← delivery] at h
  dsimp only at h
  cases hfiles : writeConfigFiles w (delivery w mapping secrets effective before).docs.toList
      files with
  | mk written result =>
      rw [hfiles] at h
      cases result with
      | error e => cases h
      | ok u =>
          cases h
          obtain ⟨hwritten, hbodies⟩ := writeConfigFiles_eq_ok hfiles
          exact ⟨rfl, rfl, hwritten, hbodies⟩

/-- Leaves with one target are one leaf. -/
theorem Separate.agree (hsep : Separate w mapping) {key' value' : String} {target : ConfigTarget}
    (h : Mapped w mapping secrets effective key value target)
    (h' : Mapped w mapping secrets effective key' value' target) : value' = value := by
  obtain ⟨v, hget, hvalue, htail, htarget⟩ := h
  obtain ⟨v', hget', hvalue', htail', htarget'⟩ := h'
  obtain rfl := hsep.distinct key' key target htarget' htarget
  exact (Mapped.unique ⟨v', hget', hvalue', htail', htarget'⟩
    ⟨v, hget, hvalue, htail, htarget⟩).1

/-- The file of a mapped leaf has its value. -/
theorem docs_complete (before : StartLaunch) (hsep : Separate w mapping) {p : FilePlacement}
    (h : Mapped w mapping secrets effective key value (.file p)) :
    ∃ doc, (delivery w mapping secrets effective before).docs[p.path]? = some doc ∧
      doc[p.key]? = some value := by
  obtain ⟨leaf, hmem, rfl, hplace, rfl⟩ := h.exists_leaf
  have hname : placementOf mapping leaf = some (p.path, p.key) := placementOf_eq_some.2 hplace
  have hagree : ∀ y ∈ effective.leaves.toList, placementOf mapping y = some (p.path, p.key) →
      deliveredValue w secrets y = deliveredValue w secrets leaf := by
    intro y hy hyname
    rcases placed_cases w secrets hy (placementOf_eq_some.1 hyname) with
      hy' | ⟨tail, htail, -⟩
    · exact hsep.agree h hy'
    · cases htail
  have hfound := (writing_docs w mapping secrets).found hmem hname hagree ⟨before, [], ∅⟩
  obtain ⟨doc, hdoc, hentry⟩ := Option.bind_eq_some_iff.1 hfound
  exact ⟨doc, hdoc, hentry⟩

/-- A value in a file is that of a mapped leaf. -/
theorem docs_sound {path k s : String} {doc : FileDoc}
    (hdoc : (delivery w mapping secrets effective before).docs[path]? = some doc)
    (hentry : doc[k]? = some s) :
    ∃ key value, Mapped w mapping secrets effective key value (.file ⟨path, k⟩) := by
  by_contra hnone
  push Not at hnone
  have hkept := (writing_docs w mapping secrets).kept
    (l := effective.leaves.toList) (n := (path, k)) (fun y hy hyname => ?_) ⟨before, [], ∅⟩
  · have hlook : docEntry (delivery w mapping secrets effective before) (path, k) = some s := by
      rw [docEntry, hdoc, Option.bind_some, hentry]
    rw [delivery, hkept, docEntry] at hlook
    simp at hlook
  · rcases placed_cases w secrets hy (placementOf_eq_some.1 hyname) with
      hy' | ⟨tail, htail, -⟩
    · exact hnone _ _ hy'
    · cases htail

/-- A file is written for a mapped leaf. -/
theorem docs_path {e : String × FileDoc}
    (he : e ∈ (delivery w mapping secrets effective before).docs.toList) :
    ∃ key value p, Mapped w mapping secrets effective key value (.file p) ∧ p.path = e.1 := by
  by_contra hnone
  push Not at hnone
  have hkept := (writing_paths w mapping secrets).kept
    (l := effective.leaves.toList) (n := e.1) (fun y hy hyname => ?_) ⟨before, [], ∅⟩
  · have hdoc := Std.TreeMap.mem_toList_iff_getElem?_eq_some.1 he
    rw [delivery] at hdoc
    rw [hdoc] at hkept
    simp at hkept
  · obtain ⟨place, hplace, hpath⟩ := Option.map_eq_some_iff.1 hyname
    rcases placed_cases w secrets hy (placementOf_eq_some.1 hplace) with
      hy' | ⟨tail, htail, -⟩
    · exact hnone _ _ _ hy' hpath
    · cases htail

/-- The two ways a variable is set. -/
theorem env_found (hsep : Separate w mapping)
    (htails : ∀ key value key' value' n, Mapped w mapping secrets effective key value (.env n) →
      Passed w secrets effective key' value' n → value = value')
    {leaf : String × ResolvedValue Scalar} {n : String} (hmem : leaf ∈ effective.leaves.toList)
    (hplace : placeOf mapping leaf.1 = some (.env n)) :
    (delivery w mapping secrets effective before).launch.env[n]? =
      some (deliveredValue w secrets leaf) := by
  refine (writing_env w mapping secrets).found hmem (envOf_eq_some.2 hplace)
    (fun y hy hyname => ?_) ⟨before, [], ∅⟩
  have hx := placed_cases w secrets hmem hplace
  have hy := placed_cases w secrets hy (envOf_eq_some.1 hyname)
  rcases hx with hx | ⟨tail, htail, hx⟩ <;> rcases hy with hy | ⟨tail', htail', hy⟩
  · exact hsep.agree hx hy
  · cases htail'
    exact (htails _ _ _ _ _ hx hy).symm
  · cases htail
    exact htails _ _ _ _ _ hy hx
  · cases htail
    cases htail'
    exact hy.unique hx

/-- A mapped file is found if no other path leads to it. -/
theorem file_found (hround : w.toml.RoundTrips) (hsep : Separate w mapping)
    (hpaths : ∀ key value key' value' p p', Mapped w mapping secrets effective key value (.file p) →
      Mapped w mapping secrets effective key' value' (.file p') →
      w.fileAt p.path = w.fileAt p'.path → p.path = p'.path)
    (hbodies : ∀ e ∈ (delivery w mapping secrets effective before).docs.toList,
      ∃ body, w.toml.toStringPretty e.2.toTable = .ok body)
    {p : FilePlacement} (h : Mapped w mapping secrets effective key value (.file p)) :
    ∃ text layer, (delivery w mapping secrets effective before).docs.toList.foldl (putFile w) files
        (w.fileAt p.path) = some text ∧
      w.toml.parse text = .ok layer ∧
      layer.table.leafAt (segments p.key) = some (.string value) := by
  obtain ⟨doc, hdoc, hentry⟩ := docs_complete before hsep h
  have he : (p.path, doc) ∈ (delivery w mapping secrets effective before).docs.toList :=
    Std.TreeMap.mem_toList_iff_getElem?_eq_some.2 hdoc
  obtain ⟨body, hbody⟩ := hbodies _ he
  have hagree : ∀ y ∈ (delivery w mapping secrets effective before).docs.toList,
      some (w.fileAt y.1) = some (w.fileAt p.path) → bodyOf w y.2 = bodyOf w doc := by
    intro y hy hplace
    obtain ⟨key', value', p', h', hp'⟩ := docs_path hy
    have hpath : y.1 = p.path := by
      rw [← hp']
      refine hpaths _ _ _ _ _ _ h' h ?_
      rw [hp', Option.some.inj hplace]
    have hy := Std.TreeMap.mem_toList_iff_getElem?_eq_some.1 hy
    rw [hpath, hdoc] at hy
    rw [Option.some.inj hy]
  have hfound := (writing_files w).found he rfl hagree files
  obtain ⟨layer, hparse, hleaf⟩ := hround _ body (distinct_toTable doc) hbody
  refine ⟨body, layer, ?_, hparse, ?_⟩
  · rw [Option.some.inj hfound, bodyOf, hbody]
  · rw [hleaf]
    refine leafAt_toTable hentry fun k s hks => ?_
    obtain ⟨key', value', h'⟩ := docs_sound hdoc hks
    by_cases hkey : key' = key
    · subst hkey
      have htarget := ConfigTarget.file.inj (h.unique h').2
      exact .inl (by rw [htarget])
    · obtain ⟨-, -, -, -, htarget⟩ := h
      obtain ⟨-, -, -, -, htarget'⟩ := h'
      exact .inr (hsep.apart _ _ _ _ htarget htarget' (Ne.symm hkey) rfl)

/-- A file that another path leads to does not keep the values of the first. -/
theorem file_lost (hround : w.toml.RoundTrips) (hsep : Separate w mapping)
    {p : FilePlacement} (h : Mapped w mapping secrets effective key value (.file p))
    {e : String × FileDoc} (he : e ∈ (delivery w mapping secrets effective before).docs.toList)
    (hplace : w.fileAt e.1 = w.fileAt p.path) (hne : e.1 ≠ p.path)
    (hfile : files (w.fileAt p.path) = bodyOf w e.2)
    (hbody : ∃ body, w.toml.toStringPretty e.2.toTable = .ok body) :
    ¬ Placed w after files value (.file p) := by
  rintro ⟨text, layer, htext, hparse, hleaf⟩
  obtain ⟨body, hbody⟩ := hbody
  obtain ⟨layer', hparse', hleaves⟩ := hround _ body (distinct_toTable e.2) hbody
  rw [hfile, bodyOf, hbody] at htext
  obtain rfl := Option.some.inj htext
  rw [hparse] at hparse'
  cases hparse'
  rw [hleaves, leafAt_toTable_eq_none] at hleaf
  · cases hleaf
  · intro k s hks
    have hdoc := Std.TreeMap.mem_toList_iff_getElem?_eq_some.1 he
    obtain ⟨key', value', h'⟩ := docs_sound hdoc hks
    have hkey : key ≠ key' := by
      rintro rfl
      obtain rfl := ConfigTarget.file.inj (h.unique h').2
      exact hne rfl
    obtain ⟨-, -, -, -, htarget⟩ := h
    obtain ⟨-, -, -, -, htarget'⟩ := h'
    exact hsep.apart _ _ _ _ htarget htarget' hkey hplace.symm

/-- The report names the mapped secrets that are passed as flags. -/
theorem mem_report : (∃ leaf ∈ effective.leaves.toList, key ∈ reportOf mapping secrets leaf) ↔
    secrets.contains key = true ∧
      ∃ value flag, Mapped w mapping secrets effective key value (.flag flag) := by
  constructor
  · rintro ⟨leaf, hmem, hkey⟩
    rw [reportOf] at hkey
    cases hplace : placeOf mapping leaf.1 with
    | none => rw [hplace] at hkey; cases hkey
    | some target =>
        rw [hplace] at hkey
        cases target with
        | env n => cases hkey
        | file p => cases hkey
        | flag flag =>
            dsimp only at hkey
            split_ifs at hkey with hsecret
            · obtain rfl := List.mem_singleton.1 hkey
              rcases placed_cases w secrets hmem hplace with
                h | ⟨tail, htail, -⟩
              · exact ⟨hsecret, _, flag, h⟩
              · cases htail
            · cases hkey
  · rintro ⟨hsecret, value, flag, h⟩
    obtain ⟨leaf, hmem, rfl, hplace, -⟩ := h.exists_leaf
    refine ⟨leaf, hmem, ?_⟩
    rw [reportOf, hplace]
    dsimp only
    rw [if_pos hsecret]
    exact List.mem_singleton_self _

/-! ### Main result -/

/-- **When the delivery is exact**: no mapped variable takes the place of one that is passed
through, and no two paths of mapped files lead to one file. -/
theorem delivered_iff (hround : w.toml.RoundTrips) (hsep : Separate w mapping)
    (happlied : applyConfigMapping w mapping secrets effective before files =
      ((after, files'), .ok report)) :
    Delivered w mapping secrets effective before after files files' report ↔
      Unobstructed w mapping secrets effective := by
  obtain ⟨rfl, hreport, rfl, hbodies⟩ := applied happlied
  obtain ⟨hargs, hreports, hexec⟩ := foldl_deliver w mapping secrets
    effective.leaves.toList ⟨before, [], ∅⟩
  rw [← delivery] at hargs hreports hexec
  constructor
  · intro hdelivered
    refine ⟨?_, ?_⟩
    · intro key value key' value' n h h'
      have henv := hdelivered.mapped _ _ _ h
      rw [Placed, hdelivered.passed _ _ _ h'] at henv
      exact (Option.some.inj henv).symm
    · intro key value key' value' p p' h h' hplace
      by_contra hne
      -- the last of the files in this place
      obtain ⟨doc, hdoc, -⟩ := docs_complete before hsep h
      have hmem := Std.TreeMap.mem_toList_iff_getElem?_eq_some.2 hdoc
      have hsome : ∃ e ∈ (delivery w mapping secrets effective before).docs.toList,
          some (w.fileAt e.1) = some (w.fileAt p.path) := ⟨_, hmem, rfl⟩
      obtain ⟨e, he, hname, hlook⟩ := (writing_files w).exists_of_mem hsome files
      by_cases hpath : e.1 = p.path
      · refine file_lost hround hsep h' he ?_ ?_ ?_ (hbodies e he) (hdelivered.mapped _ _ _ h')
        · rw [Option.some.inj hname, hplace]
        · exact fun heq => hne (hpath.symm.trans heq)
        · rw [← hplace, Option.some.inj hlook]
      · exact file_lost hround hsep h he (Option.some.inj hname) hpath (Option.some.inj hlook)
          (hbodies e he) (hdelivered.mapped _ _ _ h)
  · intro hfree
    refine ⟨?_, ?_, ?_, hargs, hexec, ?_, ?_⟩
    · intro key value target h
      obtain ⟨leaf, hmem, rfl, hplace, rfl⟩ := h.exists_leaf
      cases target with
      | env n => exact env_found hsep hfree.tails hmem hplace
      | flag flag =>
          have hone : [flag, deliveredValue w secrets leaf] = argsOf w mapping secrets leaf := by
            rw [argsOf, hplace]
          rw [Placed, hargs, hone]
          exact List.infix_append_of_infix_right
            (List.infix_of_mem_flatten (List.mem_map_of_mem hmem))
      | file p => exact file_found hround hsep hfree.paths hbodies h
    · intro key value tail h
      obtain ⟨leaf, hmem, rfl, hplace, rfl⟩ := h.exists_leaf mapping
      exact env_found hsep hfree.tails hmem hplace
    · intro n hmapped hpassed
      refine (writing_env w mapping secrets).kept
        (fun y hy hyname => ?_) ⟨before, [], ∅⟩
      rcases placed_cases w secrets hy (envOf_eq_some.1 hyname) with
        hy' | ⟨tail, htail, hy'⟩
      · exact hmapped _ _ hy'
      · cases htail
        exact hpassed _ _ hy'
    · intro place hplace
      refine Option.some.inj ((writing_files w).kept (fun e he hname => ?_) files)
      obtain ⟨key, value, p, h, hp⟩ := docs_path he
      refine hplace _ _ _ h ?_
      rw [hp, Option.some.inj hname]
    · intro key
      rw [hreport, hreports, List.nil_append, List.mem_flatMap]
      exact mem_report

/-- On a host with slashes, the paths of a valid mapping lead to files of their own: only variables
can get in each other's way. -/
theorem unobstructed_of_slashes (hrules : w.rules = slashes) (hvalid : mapping.validate = .ok ())
    (htails : ∀ key value key' value' n, Mapped w mapping secrets effective key value (.env n) →
      Passed w secrets effective key' value' n → value = value') :
    Unobstructed w mapping secrets effective := by
  refine ⟨htails, ?_⟩
  rintro key value key' value' p p' ⟨-, -, -, -, htarget⟩ ⟨-, -, -, -, htarget'⟩ hplace
  rw [ApplyWorld.fileAt, ApplyWorld.fileAt, hrules] at hplace
  exact String.toList_inj.1 (eq_of_resolve_slashes
    (isSafeRelativePath_of_validate hvalid htarget)
    (isSafeRelativePath_of_validate hvalid htarget') hplace)

end Ended

/-! ### Two configurations -/

/-- A table with a model. -/
def modelLayer : ConfigLayer Scalar :=
  ⟨.sub "llm" (.leaf "model" (.string "gpt-4") .nil) .nil, ⟨trivial, trivial, trivial, trivial⟩⟩

/-- A host with slashes where every file can be written. -/
def slashWorld : ApplyWorld where
  rules := slashes
  home := ⟨none, ["home".toList, "demo".toList]⟩
  toml := Setting.printsOnly modelLayer "[llm]\nmodel = \"gpt-4\"\n"
  render _ := ""
  createDirAll _ := .ok ()
  writeAtomically _ := .ok ()

/-- The mapping of the model alone. -/
def mapsModel (target : ConfigTarget) : ConfigMapping := ⟨Std.TreeMap.empty.insert "model" target⟩

/-- A configuration with a model and a variable that is passed through. -/
def modelAnd (variable_ : String) : EffectiveConfig Scalar :=
  ⟨(Std.TreeMap.empty.insert "model" ⟨.string "gpt-4", .instanceConfig⟩).insert
    ("agent." ++ variable_) ⟨.string "local", .instanceConfig⟩⟩

def bareLaunch : StartLaunch := ⟨"agent", ["--serve"], Std.TreeMap.empty⟩

theorem target_mapsModel {target target' : ConfigTarget} {key : String}
    (h : (mapsModel target).target key = some target') : key = "model" ∧ target' = target := by
  rw [ConfigMapping.target, mapsModel, Std.TreeMap.getElem?_insert] at h
  split_ifs at h with hcmp
  · exact ⟨(Std.compare_eq_iff_eq.1 hcmp).symm, (Option.some.inj h).symm⟩
  · simp at h

theorem separate_mapsModel (w : ApplyWorld) (target : ConfigTarget) :
    Separate w (mapsModel target) := by
  refine ⟨fun key key' t h h' => (target_mapsModel h).1.trans (target_mapsModel h').1.symm, ?_⟩
  intro key key' p p' h h' hne
  exact absurd ((target_mapsModel h).1.trans (target_mapsModel h').1.symm) hne

/-- A model in a file and a variable that is passed through are both delivered. -/
theorem delivered_file : ∃ after files' report,
    applyConfigMapping slashWorld (mapsModel (.file ⟨"conf/agent.toml", "llm.model"⟩)) ∅
        (modelAnd "PORT") bareLaunch (fun _ => none) = ((after, files'), .ok report) ∧
      Delivered slashWorld (mapsModel (.file ⟨"conf/agent.toml", "llm.model"⟩)) ∅
        (modelAnd "PORT") bareLaunch after (fun _ => none) files' report := by
  have hok : (applyConfigMapping slashWorld
      (mapsModel (.file ⟨"conf/agent.toml", "llm.model"⟩)) ∅ (modelAnd "PORT") bareLaunch
      (fun _ => none)).2.isOk = true := by
    decide +kernel
  cases happlied : applyConfigMapping slashWorld
      (mapsModel (.file ⟨"conf/agent.toml", "llm.model"⟩)) ∅ (modelAnd "PORT") bareLaunch
      (fun _ => none) with
  | mk ended result =>
      rw [happlied] at hok
      cases result with
      | error e => cases hok
      | ok report =>
          refine ⟨ended.1, ended.2, report, rfl, (delivered_iff
            (Setting.roundTrips_printsOnly _ _) (separate_mapsModel _ _) happlied).2 ?_⟩
          refine unobstructed_of_slashes rfl (by decide +kernel) ?_
          rintro key value key' value' n ⟨-, -, -, -, htarget⟩ -
          cases (target_mapsModel htarget).2

/-- A mapped variable takes the place of the one that is passed through. -/
theorem passed_variable_lost : ∃ after files' report,
    applyConfigMapping slashWorld (mapsModel (.env "MODEL")) ∅ (modelAnd "MODEL") bareLaunch
        (fun _ => none) = ((after, files'), .ok report) ∧
      (mapsModel (.env "MODEL")).validate = .ok () ∧
      Separate slashWorld (mapsModel (.env "MODEL")) ∧ slashWorld.toml.RoundTrips ∧
      ¬ Delivered slashWorld (mapsModel (.env "MODEL")) ∅ (modelAnd "MODEL") bareLaunch after
        (fun _ => none) files' report := by
  have hok : (applyConfigMapping slashWorld (mapsModel (.env "MODEL")) ∅ (modelAnd "MODEL")
      bareLaunch (fun _ => none)).2.isOk = true := by
    decide +kernel
  cases happlied : applyConfigMapping slashWorld (mapsModel (.env "MODEL")) ∅ (modelAnd "MODEL")
      bareLaunch (fun _ => none) with
  | mk ended result =>
      rw [happlied] at hok
      cases result with
      | error e => cases hok
      | ok report =>
          refine ⟨ended.1, ended.2, report, rfl, by decide +kernel, separate_mapsModel _ _,
            Setting.roundTrips_printsOnly _ _, fun h => ?_⟩
          have hmapped := h.mapped "model" "gpt-4" (.env "MODEL")
            ⟨⟨.string "gpt-4", .instanceConfig⟩, by decide +kernel, by decide +kernel,
              by decide +kernel, by decide +kernel⟩
          have hpassed := h.passed "agent.MODEL" "local" "MODEL"
            ⟨⟨.string "local", .instanceConfig⟩, by decide +kernel, by decide +kernel,
              by decide +kernel⟩
          rw [Placed, hpassed] at hmapped
          exact absurd (Option.some.inj hmapped) (by decide +kernel)

end Adapter

end Hekma
