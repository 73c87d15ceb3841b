/-
**The secrets of a start** (`domain/supervisor/spawn.rs`, `domain/registry.rs`,
`ports/secret_resolver.rs`, `adapter/mod.rs`).

Before an instance is launched, every leaf of its configuration that refers to a secret is resolved,
from the environment or from the secrets file, and the cleartext is delivered to the agent: as a
variable, as an argument or in a file of its own.  What the start reports, which variables and files
it touches, how many arguments it passes and the snapshot it writes are for everybody to see.

Two worlds in which the same secrets are held, with other cleartexts, look the same from there.  The
one exception is the notice that a variable was overwritten: it is left out when the secret is what
the variable had before.

Main definitions:

* `StartSecrets.deliverConfig` — the configuration of a start, from the secrets to the snapshot;
* `StartSecrets.Outcome.seen` — what is for everybody to see;
* `StartSecrets.AlikeButSecrets` — worlds that differ in the cleartexts of secrets only.

Main results:

* `StartSecrets.agree_resolveSecrets` — resolving fails in both worlds with one error, or finds
  secrets for the same keys;
* `StartSecrets.seen_of_alike` — **what is seen of a start does not tell such worlds apart**.

Left out of a start is what comes before and after: the launch, its checks, the listener.
-/

import Hekma.Adapter.ConfigApply
import Hekma.Lib.Agree
import Hekma.Supervisor.ReadOnly

set_option relaxedAutoImplicit false
set_option autoImplicit false

namespace Hekma.StartSecrets

open Adapter (ApplyWorld ConfigApplyError ConfigMapping Delivery FileDoc Files MappingReport
  StartLaunch applyConfigMapping argsOf deliver deliveredValue displayValue envOf placeOf pathOf
  reportOf writeConfigFile writeConfigFiles)
open Effects (Prog SameOutcome)
open Facade (FileState Parts fileSecret modeIsOwnerOnly requireSecret resolveSecrets)

/-! ### The configuration of a start -/

/-- The variables of the launch that are overwritten. -/
def shadowedEnvKeys (before after : Std.TreeMap String String) : List String :=
  before.toList.filterMap fun e =>
    after[e.1]?.bind fun value => if value ≠ e.2 then some e.1 else none

def shadowNotice (name : String) (shadowed : List String) : String :=
  name ++ ": the config mapping overwrote launch environment variable(s) " ++
    String.intercalate ", " shadowed ++
    " — the config value wins for this start (documented precedence). Rename the env target or " ++
    "unset the config key if the original value was intended."

def flagNotice (name : String) (keys : List String) : String :=
  name ++ ": secret-carrying config key(s) [" ++ String.intercalate ", " keys ++
    "] resolve into FLAG targets — their cleartext is passed on the agent's command line, where " ++
    "argv is readable by other local users (ps, /proc/<pid>/cmdline). Prefer an env or file " ++
    "target for these keys."

def ConfigApplyError.message : ConfigApplyError → String
  | .fileRender key path detail =>
      "could not render config key '" ++ key ++ "' into the file '" ++ path ++
        "' in the Agent Home: " ++ detail

structure EffectiveConfigEntry where
  key : String
  value : String
  source : SourceLayer
  deriving DecidableEq

/-- The snapshot of a configuration: its leaves as they are displayed. -/
def snapshotFromEffective (render : Scalar → String) (effective : EffectiveConfig Scalar) :
    List EffectiveConfigEntry :=
  effective.leaves.toList.map fun leaf => ⟨leaf.1, displayValue render leaf.2.value, leaf.2.source⟩

/-- The secrets by their keys. -/
def secretMap (resolved : List (String × String)) : Std.TreeMap String String :=
  resolved.foldl (fun map e => map.insert e.1 e.2) ∅

/-- What a start has at hand: what it delivers into, the mapping of the adapter, where the snapshot
goes and whether it can be written. -/
structure StartParts where
  into : ApplyWorld
  mapping : ConfigMapping
  snapshotPath : String
  writeSnapshot : Except String Unit

/-- What a start has done when its configuration is delivered, or could not be. -/
structure Outcome where
  diagnostics : List String
  launch : StartLaunch
  files : Files
  snapshot : Option (List EffectiveConfigEntry)
  result : Except Wire.EngineError Unit

/-- The notices of a delivery. -/
def notices (name : String) (shadowed flagged : List String) : List String :=
  (if shadowed.isEmpty then [] else [shadowNotice name shadowed]) ++
    (if flagged.isEmpty then [] else [flagNotice name flagged])

section

variable {δ π ρ : Type} (parts : Parts δ π ρ) (s : StartParts)

/-- The configuration of a start: the secrets are resolved, the leaves delivered, the notices given
and the snapshot written.  The configuration that is delivered has the values of the engine over
those of the operator; the snapshot is of the latter. -/
def deliverConfig (name : String) (effective mappingEffective : EffectiveConfig Scalar)
    (launch : StartLaunch) (files : Files) (w : Facade.World δ π) : Outcome :=
  match (resolveSecrets parts mappingEffective w).1 with
  | .error detail => ⟨[], launch, files, none, .error (.secret name detail)⟩
  | .ok resolved =>
      match applyConfigMapping s.into s.mapping (secretMap resolved) mappingEffective launch
        files with
      | ((launch', files'), .error e) =>
          ⟨[], launch', files', none, .error (.adapterUnresolved name (ConfigApplyError.message e))⟩
      | ((launch', files'), .ok report) =>
          let told := notices name (shadowedEnvKeys launch.env launch'.env) report.secretFlagKeys
          match s.writeSnapshot with
          | .error detail =>
              ⟨told, launch', files', none, .error (.snapshot name s.snapshotPath detail)⟩
          | .ok () =>
              ⟨told, launch', files', some (snapshotFromEffective s.into.render effective), .ok ()⟩

end

/-! ### What is seen -/

/-- What everybody sees of a start: what it reports, the program, the number of its arguments, the
names of its variables, where files lie, and the snapshot. -/
structure Seen where
  diagnostics : List String
  exec : String
  args : ℕ
  envNames : List String
  files : List LexPath.Component → Bool
  snapshot : Option (List EffectiveConfigEntry)
  result : Except Wire.EngineError Unit

def Outcome.seen (o : Outcome) : Seen where
  diagnostics := o.diagnostics
  exec := o.launch.exec
  args := o.launch.args.length
  envNames := o.launch.env.keys
  files place := (o.files place).isSome
  snapshot := o.snapshot
  result := o.result

/-! ### Worlds that differ in the cleartexts -/

section

variable {δ π ρ : Type} (parts : Parts δ π ρ)

/-- The secrets that the bytes of the secrets file hold. -/
def secretsIn (bytes : List UInt8) : Except String (String → Option String) :=
  match Utf8.fromUtf8 bytes with
  | none => .error "stream did not contain valid UTF-8"
  | some text => parts.readers.secretTable (String.ofList text)

/-- Secrets files that hold the same secrets, with whatever cleartexts. -/
inductive FileAlike : FileState → FileState → Prop
  | missing : FileAlike .missing .missing
  | unreadable (err : Wire.IoError) : FileAlike (.unreadable err) (.unreadable err)
  | file (mode : ℕ) {bytes bytes' : List UInt8}
      (h : SameOutcome (fun held held' : String → Option String =>
        ∀ name, (held name).isSome = (held' name).isSome) (secretsIn parts bytes)
          (secretsIn parts bytes')) :
      FileAlike (.file mode bytes) (.file mode bytes')

/-- Worlds in which the same secrets are held, with whatever cleartexts. -/
structure AlikeButSecrets (w w' : Facade.World δ π) : Prop where
  environment : ∀ name, (w.environment name).isSome = (w'.environment name).isSome
  secretsFile : FileAlike parts (w.files parts.secretsFile) (w'.files parts.secretsFile)

/-- The cleartext of a secret, if it is held. -/
def cleartext (w : Facade.World δ π) (name : String) : Option String :=
  (requireSecret parts name w).1.toOption

end

/-! ### Resolving -/

section Resolving

variable {δ π ρ : Type} {parts : Parts δ π ρ} {w w' : Facade.World δ π}

theorem rel_of_isSome {α β : Type} {o : Option α} {o' : Option β} (h : o.isSome = o'.isSome) :
    Option.Rel (fun _ _ => True) o o' := by
  cases o <;> cases o'
  · exact .none
  · cases h
  · cases h
  · exact .some trivial

theorem isSome_of_rel {α β : Type} {V : α → β → Prop} {o : Option α} {o' : Option β}
    (h : Option.Rel V o o') : o.isSome = o'.isSome := by
  cases h <;> rfl

/-- What the secrets file says of a secret. -/
theorem fileSecret_file {mode : ℕ} {bytes : List UInt8} (name : String)
    (hfile : w.files parts.secretsFile = .file mode bytes) (hmode : modeIsOwnerOnly mode = true) :
    fileSecret parts name w =
      (((secretsIn parts bytes).mapError fun detail => "the engine secrets file at '" ++
        parts.readers.pathText parts.secretsFile ++ "' could not be read/parsed: " ++ detail).map
          fun held => held name, w) := by
  simp only [fileSecret, Prog.bind_apply, Prog.ask, hfile, hmode, Facade.readToString,
    Facade.readBytes, Prog.mapError, Prog.ofOption, Prog.ofExcept, secretsIn, Bool.not_true,
    Bool.false_eq_true, if_false]
  cases Utf8.fromUtf8 bytes with
  | none => rfl
  | some text =>
      dsimp only [Option.map_some, Option.elim_some, Except.mapError]
      cases parts.readers.secretTable (String.ofList text) <;> rfl

/-- The secrets file holds the same secrets in both worlds. -/
theorem agree_fileSecret (name : String) :
    Prog.Agree (AlikeButSecrets parts) (Option.Rel fun _ _ => True) (fileSecret parts name)
      (fileSecret parts name : Prog (Facade.World δ π) String _) := by
  intro w w' hw
  have hfile := hw.secretsFile
  generalize hs : w.files parts.secretsFile = state at hfile
  generalize hs' : w'.files parts.secretsFile = state' at hfile
  cases hfile with
  | missing =>
      simp only [fileSecret, Prog.bind_apply, Prog.ask, hs, hs', Prog.pure_apply]
      exact ⟨.ok .none, hw⟩
  | unreadable err =>
      simp only [fileSecret, Prog.bind_apply, Prog.ask, hs, hs', Prog.fail]
      exact ⟨.error _, hw⟩
  | file mode h =>
      by_cases hmode : modeIsOwnerOnly mode = true
      · rw [fileSecret_file name hs hmode, fileSecret_file name hs' hmode]
        exact ⟨(h.mapError _).map fun held held' hheld => rel_of_isSome (hheld name), hw⟩
      · simp only [fileSecret, Prog.bind_apply, Prog.ask, hs, hs', Prog.fail, hmode,
          Bool.not_false, if_true]
        exact ⟨.error _, hw⟩

theorem agree_requireSecret (name : String) :
    Prog.Agree (AlikeButSecrets parts) (fun _ _ => True) (requireSecret parts name)
      (requireSecret parts name) := by
  refine (Prog.agree_ask (V := Option.Rel fun _ _ => True) fun w w' hw => ?_).bind
    fun held held' hheld => ?_
  · exact rel_of_isSome (hw.environment name)
  · cases hheld with
    | some h => exact Prog.agree_pure trivial
    | none =>
        exact (agree_fileSecret name).bind fun value value' hvalue => Prog.agree_ofOption _ hvalue

/-- The keys of the secrets of a configuration, and the names of the secrets. -/
def secretLeaves (effective : EffectiveConfig Scalar) : List (String × String) :=
  effective.leaves.toList.filterMap fun leaf =>
    (Facade.secretName leaf.2.value).map fun name => (leaf.1, name)

/-- Both texts are what a variable had before under which they are delivered, or neither is. -/
def SameShadow (mapping : ConfigMapping) (base : Std.TreeMap String String) (key v v' : String) :
    Prop :=
  ∀ var old, placeOf mapping key = some (.env var) → base[var]? = some old → (v = old ↔ v' = old)

/-- The same secrets are held in both worlds, and they cover up the same variables. -/
structure AlikeFor (parts : Parts δ π ρ) (mapping : ConfigMapping)
    (base : Std.TreeMap String String) (effective : EffectiveConfig Scalar)
    (w w' : Facade.World δ π) : Prop where
  alike : AlikeButSecrets parts w w'
  shadow : ∀ leaf ∈ secretLeaves effective, ∀ v v', cleartext parts w leaf.2 = some v →
    cleartext parts w' leaf.2 = some v' → SameShadow mapping base leaf.1 v v'

variable {mapping : ConfigMapping} {base : Std.TreeMap String String}
  {effective : EffectiveConfig Scalar}

/-- **Resolving fails in both worlds with one error, or finds secrets for the same keys.** -/
theorem agree_resolveSecrets :
    Prog.Agree (AlikeFor parts mapping base effective)
      (List.Forall₂ fun p p' => p.1 = p'.1 ∧ SameShadow mapping base p.1 p.2 p'.2)
      (resolveSecrets parts effective)
      (resolveSecrets parts effective : Prog (Facade.World δ π) String _) := by
  refine Prog.agree_mapM fun leaf hleaf => ?_
  obtain ⟨key, name⟩ := leaf
  have hframes : (requireSecret parts name : Prog (Facade.World δ π) String _).Frames :=
    Facade.frames_requireSecret name
  refine Prog.Agree.bind (V := SameShadow mapping base key) ?_ fun v v' h =>
    Prog.agree_pure ⟨rfl, h⟩
  refine ((agree_requireSecret name).restrict hframes hframes fun _ _ hw => hw.alike).answers ?_
  intro w w' v v' hw hv hv' _
  refine hw.shadow (key, name) hleaf v v' ?_ ?_
  · rw [cleartext, hv]
    rfl
  · rw [cleartext, hv']
    rfl

/-- Secrets for the same keys. -/
def MapsAlike (mapping : ConfigMapping) (base secrets secrets' : Std.TreeMap String String) :
    Prop :=
  ∀ key, Option.Rel (SameShadow mapping base key) secrets[key]? secrets'[key]?

theorem mapsAlike_insert {secrets secrets' : Std.TreeMap String String} {key v v' : String}
    (h : MapsAlike mapping base secrets secrets') (hv : SameShadow mapping base key v v') :
    MapsAlike mapping base (secrets.insert key v) (secrets'.insert key v') := by
  intro key'
  rw [Std.TreeMap.getElem?_insert, Std.TreeMap.getElem?_insert]
  split
  · next heq =>
      obtain rfl := Std.compare_eq_iff_eq.1 heq
      exact .some hv
  · exact h key'

theorem mapsAlike_secretMap {resolved resolved' : List (String × String)}
    (h : List.Forall₂ (fun p p' => p.1 = p'.1 ∧ SameShadow mapping base p.1 p.2 p'.2) resolved
      resolved') :
    MapsAlike mapping base (secretMap resolved) (secretMap resolved') := by
  have hstart : MapsAlike mapping base ∅ ∅ := fun key => by
    rw [Std.TreeMap.getElem?_emptyc]
    exact .none
  suffices hfold : ∀ secrets secrets', MapsAlike mapping base secrets secrets' →
      MapsAlike mapping base (resolved.foldl (fun map e => map.insert e.1 e.2) secrets)
        (resolved'.foldl (fun map e => map.insert e.1 e.2) secrets') from hfold ∅ ∅ hstart
  clear hstart
  induction h with
  | nil => exact fun _ _ hmaps => hmaps
  | @cons p p' resolved resolved' hp _ ih =>
      intro secrets secrets' hmaps
      obtain ⟨key, v⟩ := p
      obtain ⟨key', v'⟩ := p'
      obtain ⟨rfl, hv⟩ := hp
      exact ih _ _ (mapsAlike_insert hmaps hv)

end Resolving

/-! ### Delivering -/

section Delivering

variable {s : StartParts} {base secrets secrets' : Std.TreeMap String String}

/-- What has been delivered in both worlds, but for the cleartexts. -/
structure DeliveredAlike (base : Std.TreeMap String String) (d d' : Delivery) : Prop where
  exec : d.launch.exec = d'.launch.exec
  args : d.launch.args.length = d'.launch.args.length
  report : d.report = d'.report
  env : ∀ var : String, Option.Rel (fun v v' => ∀ old, base[var]? = some old → (v = old ↔ v' = old))
    d.launch.env[var]? d'.launch.env[var]?
  docs : ∀ path : String, d.docs[path]?.isSome = d'.docs[path]?.isSome

theorem deliveredValue_alike (h : MapsAlike s.mapping base secrets secrets')
    (leaf : String × ResolvedValue Scalar) :
    SameShadow s.mapping base leaf.1 (deliveredValue s.into secrets leaf)
      (deliveredValue s.into secrets' leaf) := by
  have hleaf := h leaf.1
  rw [deliveredValue, deliveredValue]
  generalize secrets[leaf.1]? = found at hleaf
  generalize secrets'[leaf.1]? = found' at hleaf
  cases hleaf with
  | none => exact fun _ _ _ _ => Iff.rfl
  | some h => exact h

/-- One leaf. -/
theorem deliveredAlike_deliver (h : MapsAlike s.mapping base secrets secrets') {d d' : Delivery}
    (hd : DeliveredAlike base d d') (leaf : String × ResolvedValue Scalar) :
    DeliveredAlike base (deliver s.into s.mapping secrets d leaf)
      (deliver s.into s.mapping secrets' d' leaf) := by
  have hvalue := deliveredValue_alike h leaf
  rw [Adapter.deliver_cases, Adapter.deliver_cases]
  cases hplace : placeOf s.mapping leaf.1 with
  | none => exact hd
  | some target =>
      cases target with
      | env env =>
          refine ⟨hd.exec, hd.args, hd.report, fun var => ?_, hd.docs⟩
          dsimp only
          rw [Std.TreeMap.getElem?_insert, Std.TreeMap.getElem?_insert]
          split
          · next heq =>
              obtain rfl := Std.compare_eq_iff_eq.1 heq
              exact .some fun old hold => hvalue env old hplace hold
          · exact hd.env var
      | flag flag =>
          refine ⟨hd.exec, ?_, ?_, hd.env, hd.docs⟩
          · dsimp only
            rw [List.length_append, List.length_append, hd.args, argsOf, argsOf, hplace]
            rfl
          · dsimp only
            have hsame : secrets.contains leaf.1 = secrets'.contains leaf.1 := by
              rw [Std.TreeMap.contains_eq_isSome_getElem?, Std.TreeMap.contains_eq_isSome_getElem?]
              exact isSome_of_rel (h leaf.1)
            rw [hd.report, reportOf, reportOf, hplace, hsame]
      | file placement =>
          refine ⟨hd.exec, hd.args, hd.report, hd.env, fun path => ?_⟩
          dsimp only
          rw [Std.TreeMap.getElem?_insert, Std.TreeMap.getElem?_insert]
          split
          · rfl
          · exact hd.docs path

theorem deliveredAlike_foldl (h : MapsAlike s.mapping base secrets secrets')
    (leaves : List (String × ResolvedValue Scalar)) {d d' : Delivery}
    (hd : DeliveredAlike base d d') :
    DeliveredAlike base (leaves.foldl (deliver s.into s.mapping secrets) d)
      (leaves.foldl (deliver s.into s.mapping secrets') d') := by
  induction leaves generalizing d d' with
  | nil => exact hd
  | cons leaf leaves ih => exact ih (deliveredAlike_deliver h hd leaf)

theorem deliveredAlike_refl (base : Std.TreeMap String String) (d : Delivery) :
    DeliveredAlike base d d := by
  refine ⟨rfl, rfl, rfl, fun var => ?_, fun _ => rfl⟩
  cases d.launch.env[var]? with
  | none => exact .none
  | some v => exact .some fun _ _ => Iff.rfl

/-- Files that lie in the same places. -/
def FilesAlike (files files' : Files) : Prop :=
  ∀ place, (files place).isSome = (files' place).isSome

/-- One file. -/
theorem filesAlike_writeConfigFile
    (hprint : ∀ doc : FileDoc, ∃ body, s.into.toml.toStringPretty doc.toTable = .ok body)
    {files files' : Files} (hfiles : FilesAlike files files')
    (relPath : String) (doc doc' : FileDoc) :
    SameOutcome FilesAlike (writeConfigFile s.into files relPath doc)
      (writeConfigFile s.into files' relPath doc') := by
  obtain ⟨body, hbody⟩ := hprint doc
  obtain ⟨body', hbody'⟩ := hprint doc'
  simp only [writeConfigFile, hbody, hbody']
  cases s.into.createDirAll relPath with
  | error detail => exact .error _
  | ok _ =>
      cases s.into.writeAtomically relPath with
      | error detail => exact .error _
      | ok _ =>
          refine .ok fun place => ?_
          split
          · rfl
          · exact hfiles place

theorem filesAlike_writeConfigFiles
    (hprint : ∀ doc : FileDoc, ∃ body, s.into.toml.toStringPretty doc.toTable = .ok body)
    {docs docs' : List (String × FileDoc)}
    (hdocs : docs.map Prod.fst = docs'.map Prod.fst) {files files' : Files}
    (hfiles : FilesAlike files files') :
    FilesAlike (writeConfigFiles s.into docs files).1 (writeConfigFiles s.into docs' files').1 ∧
      (writeConfigFiles s.into docs files).2 = (writeConfigFiles s.into docs' files').2 := by
  induction docs generalizing docs' files files' with
  | nil =>
      rw [List.map_eq_nil_iff.1 hdocs.symm]
      exact ⟨hfiles, rfl⟩
  | cons e docs ih =>
      cases docs' with
      | nil => cases hdocs
      | cons e' docs' =>
          obtain ⟨relPath, doc⟩ := e
          obtain ⟨relPath', doc'⟩ := e'
          obtain ⟨hpath, htail⟩ := List.cons.inj hdocs
          obtain rfl : relPath = relPath' := hpath
          have hone := filesAlike_writeConfigFile hprint hfiles relPath doc doc'
          rw [writeConfigFiles, writeConfigFiles]
          generalize writeConfigFile s.into files relPath doc = out at hone
          generalize writeConfigFile s.into files' relPath doc' = out' at hone
          cases hone with
          | error e => exact ⟨hfiles, rfl⟩
          | ok hwritten => exact ih htail hwritten

/-- Maps that hold something under the same keys list the same keys. -/
theorem keys_eq_of_isSome {α β : Type} {t : Std.TreeMap String α} {t' : Std.TreeMap String β}
    (h : ∀ k : String, t[k]?.isSome = t'[k]?.isSome) : t.keys = t'.keys := by
  have hunit : (t.map fun _ _ => ()).Equiv (t'.map fun _ _ => ()) :=
    .of_forall_mem_unit_iff fun k => by
      rw [Std.TreeMap.mem_map, Std.TreeMap.mem_map, Std.TreeMap.mem_iff_isSome_getElem?,
        Std.TreeMap.mem_iff_isSome_getElem?, h k]
  have hkeys := hunit.keys_eq
  rwa [Std.TreeMap.keys_map, Std.TreeMap.keys_map] at hkeys

/-- What a delivery leaves behind in both worlds. -/
structure AppliedAlike (base : Std.TreeMap String String)
    (r r' : (StartLaunch × Files) × Except ConfigApplyError MappingReport) : Prop where
  exec : r.1.1.exec = r'.1.1.exec
  args : r.1.1.args.length = r'.1.1.args.length
  env : ∀ var : String, Option.Rel (fun v v' => ∀ old, base[var]? = some old →
    (v = old ↔ v' = old)) r.1.1.env[var]? r'.1.1.env[var]?
  files : FilesAlike r.1.2 r'.1.2
  result : r.2 = r'.2

theorem appliedAlike_applyConfigMapping
    (hprint : ∀ doc : FileDoc, ∃ body, s.into.toml.toStringPretty doc.toTable = .ok body)
    (h : MapsAlike s.mapping base secrets secrets')
    (effective : EffectiveConfig Scalar) (launch : StartLaunch) (files : Files) :
    AppliedAlike base
      (applyConfigMapping s.into s.mapping secrets effective launch files)
      (applyConfigMapping s.into s.mapping secrets' effective launch files) := by
  have hd := deliveredAlike_foldl h effective.leaves.toList
    (deliveredAlike_refl base ⟨launch, [], ∅⟩)
  rw [applyConfigMapping, applyConfigMapping]
  generalize effective.leaves.toList.foldl (deliver s.into s.mapping secrets) _ = d at hd
  generalize effective.leaves.toList.foldl (deliver s.into s.mapping secrets') _ = d' at hd
  have hdocs : d.docs.toList.map Prod.fst = d'.docs.toList.map Prod.fst := by
    rw [Std.TreeMap.map_fst_toList_eq_keys, Std.TreeMap.map_fst_toList_eq_keys]
    exact keys_eq_of_isSome hd.docs
  obtain ⟨hfiles, hresult⟩ := filesAlike_writeConfigFiles hprint hdocs
    (fun _ => rfl : FilesAlike files files)
  generalize writeConfigFiles s.into d.docs.toList files = out at hfiles hresult
  generalize writeConfigFiles s.into d'.docs.toList files = out' at hfiles hresult
  obtain ⟨files₁, result⟩ := out
  obtain ⟨files₂, result'⟩ := out'
  obtain rfl : result = result' := hresult
  cases result with
  | ok u => exact ⟨hd.exec, hd.args, hd.env, hfiles, by rw [hd.report]⟩
  | error e => exact ⟨hd.exec, hd.args, hd.env, hfiles, rfl⟩

end Delivering

/-! ### What everybody sees -/

/-- The same variables are overwritten. -/
theorem shadowedEnvKeys_alike {base env env' : Std.TreeMap String String}
    (h : ∀ var : String, Option.Rel (fun v v' => ∀ old, base[var]? = some old →
      (v = old ↔ v' = old)) env[var]? env'[var]?) :
    shadowedEnvKeys base env = shadowedEnvKeys base env' := by
  refine List.filterMap_congr fun e he => ?_
  have hold : base[e.1]? = some e.2 := Std.TreeMap.mem_toList_iff_getElem?_eq_some.1 he
  have hvar := h e.1
  generalize env[e.1]? = found at hvar
  generalize env'[e.1]? = found' at hvar
  cases hvar with
  | none => rfl
  | some hv => simp only [Option.bind_some, ne_eq, hv e.2 hold]

/-- **What is seen of a start does not tell apart worlds in which the same secrets are held**, if
they cover up the same variables.  A table of texts can always be printed. -/
theorem seen_of_alike {δ π ρ : Type} (parts : Parts δ π ρ) (s : StartParts)
    (hprint : ∀ doc : FileDoc, ∃ body, s.into.toml.toStringPretty doc.toTable = .ok body)
    (name : String) (effective mappingEffective : EffectiveConfig Scalar) (launch : StartLaunch)
    (files : Files) (w w' : Facade.World δ π)
    (halike : AlikeFor parts s.mapping launch.env mappingEffective w w') :
    (deliverConfig parts s name effective mappingEffective launch files w).seen =
      (deliverConfig parts s name effective mappingEffective launch files w').seen := by
  have hresolved := (agree_resolveSecrets w w' halike).1
  rw [deliverConfig, deliverConfig]
  generalize (resolveSecrets parts mappingEffective w).1 = out at hresolved
  generalize (resolveSecrets parts mappingEffective w').1 = out' at hresolved
  cases hresolved with
  | error detail => rfl
  | @ok resolved resolved' h =>
      have happlied := appliedAlike_applyConfigMapping hprint (mapsAlike_secretMap h)
        mappingEffective launch files
      dsimp only
      generalize applyConfigMapping s.into s.mapping (secretMap resolved) mappingEffective launch
        files = r at happlied
      generalize applyConfigMapping s.into s.mapping (secretMap resolved') mappingEffective launch
        files = r' at happlied
      obtain ⟨⟨launch₁, files₁⟩, result⟩ := r
      obtain ⟨⟨launch₂, files₂⟩, result'⟩ := r'
      obtain ⟨hexec, hargs, henv, hfiles, hresult⟩ := happlied
      obtain rfl : result = result' := hresult
      have hkeys : launch₁.env.keys = launch₂.env.keys :=
        keys_eq_of_isSome fun var => isSome_of_rel (henv var)
      have hplaces : (fun place => (files₁ place).isSome) = fun place => (files₂ place).isSome :=
        funext hfiles
      cases result with
      | error e =>
          dsimp only at hexec hargs ⊢
          rw [Outcome.seen, Outcome.seen]
          dsimp only
          rw [hexec, hargs, hkeys, hplaces]
      | ok report =>
          dsimp only at hexec hargs henv ⊢
          rw [shadowedEnvKeys_alike henv]
          cases s.writeSnapshot <;> dsimp only [Outcome.seen] <;>
            rw [hexec, hargs, hkeys, hplaces]


/-! ### One secret -/

/-- A key that refers to a secret. -/
def secretConfig : EffectiveConfig Scalar :=
  ⟨Std.TreeMap.empty.insert "model" ⟨.string "secret:KEY", .instanceConfig⟩⟩

/-- The key is delivered as a variable. -/
def envStart : StartParts where
  into :=
    { rules := Adapter.slashes
      home := ⟨none, []⟩
      toml := ⟨fun _ => .error "no table", fun _ => .ok ""⟩
      render := fun _ => ""
      createDirAll := fun _ => .ok ()
      writeAtomically := fun _ => .ok () }
  mapping := ⟨Std.TreeMap.empty.insert "model" (.env "API_KEY")⟩
  snapshotPath := "effective-config.json"
  writeSnapshot := .ok ()

/-- A launch with a variable of that name. -/
def keyLaunch : StartLaunch := ⟨"agent", ["--serve"], Std.TreeMap.empty.insert "API_KEY" "unset"⟩

def noDatabase : Wire.StoreError := .backend "no database"

/-- An engine with nothing but a state directory. -/
def bareParts : Parts Unit Unit Unit where
  stateBase := []
  statements :=
    { userVersion := fun _ => Facade.schemaVersion
      migrated := ()
      select := fun _ _ => (.error noDatabase, ())
      openChild := fun _ _ _ _ => (.error (.notFound ""), ())
      close := fun _ _ _ => (.error (.notFound ""), ()) }
  readers :=
    { pathText := fun path => String.intercalate "/" path
      snapshot := fun _ => .error "no snapshot"
      effective := fun _ => ()
      manifestKeys := fun _ => .ok []
      nativeKeys := fun _ => []
      validateKeys := fun _ => .ok ()
      toml := envStart.into.toml
      secretTable := fun _ => .ok fun _ => none
      isAcpKind := fun _ => false
      resolveAcpMeteringSource := fun _ => "self-reported"
      failedCauseDetail := fun _ => none
      logLines := fun _ => .ok []
      mint := fun _ => 0 }
  probeAlive := fun _ _ => none
  verbs :=
    { registerWithAdapter := fun _ _ => .fail (.store noDatabase)
      remove := fun _ _ _ => .fail (.store noDatabase)
      start := fun _ => .fail (.store noDatabase)
      startDetached := fun _ => .fail (.store noDatabase)
      stop := fun _ _ => .fail (.store noDatabase)
      pause := fun _ => .fail (.store noDatabase)
      resume := fun _ => .fail (.store noDatabase)
      drain := fun _ _ => .fail (.store noDatabase)
      sendInput := fun _ _ => .fail (.store noDatabase)
      setRestartPolicy := fun _ _ => .fail (.store noDatabase)
      setConfig := fun name _ _ => .fail (.notFound name)
      syncRunLabels := fun name => .fail (.notFound name)
      attachMemory := fun _ _ => .fail (.store noDatabase)
      detachMemory := fun _ => .fail (.store noDatabase)
      ackCore := fun _ => .fail (.store noDatabase) }
  texts := ⟨fun _ => "", fun _ => "", fun _ => "", fun _ => ""⟩

/-- A world in which the secret is held in the environment. -/
def keyWorld (cleartext : String) : Facade.World Unit Unit where
  stateDb := none
  files _ := .missing
  processes := ()
  environment name := if name = "KEY" then some cleartext else none
  now := ""

theorem alike_keyWorld {v v' : String} (hv : v ≠ "unset") (hv' : v' ≠ "unset") :
    AlikeFor bareParts envStart.mapping keyLaunch.env secretConfig (keyWorld v) (keyWorld v') := by
  refine ⟨⟨fun name => ?_, .missing⟩, ?_⟩
  · dsimp only [keyWorld]
    split <;> rfl
  · intro leaf hleaf u u' hu hu' var old _ hold
    have hleaves : secretLeaves secretConfig = [("model", "KEY")] := by decide +kernel
    obtain rfl := List.mem_singleton.1 (hleaves ▸ hleaf)
    obtain rfl : v = u := Option.some.inj hu
    obtain rfl : v' = u' := Option.some.inj hu'
    -- the launch has one variable
    have hunset : old = "unset" := by
      rw [keyLaunch, Std.TreeMap.getElem?_insert] at hold
      split at hold
      · exact (Option.some.inj hold).symm
      · cases hold
    rw [hunset]
    exact iff_of_false hv hv'

/-- Two keys look the same. -/
theorem seen_of_two_keys :
    (deliverConfig bareParts envStart "demo" secretConfig secretConfig keyLaunch (fun _ => none)
        (keyWorld "first")).seen =
      (deliverConfig bareParts envStart "demo" secretConfig secretConfig keyLaunch (fun _ => none)
        (keyWorld "second")).seen :=
  seen_of_alike bareParts envStart (fun _ => ⟨"", rfl⟩) "demo" secretConfig secretConfig keyLaunch
    (fun _ => none) (keyWorld "first") (keyWorld "second")
    (alike_keyWorld (by decide) (by decide))

/-- A key that is what the variable had before is found out by the notice that is missing. -/
example : (deliverConfig bareParts envStart "demo" secretConfig secretConfig keyLaunch
    (fun _ => none) (keyWorld "first")).diagnostics.length = 1 ∧
    (deliverConfig bareParts envStart "demo" secretConfig secretConfig keyLaunch
      (fun _ => none) (keyWorld "unset")).diagnostics = [] := by
  decide +kernel

end Hekma.StartSecrets
