/-
**The validation of a manifest** (`hekma-adapter-api/src/manifest.rs`).

A manifest describes an adapter.  When it is registered its sections are checked one after the
other, and the first that fails is named.

Main definitions:

* `ExitCodes.classes`, `Drain.spec` — the sections of exit codes and of the drain;
* `Manifest.validate` — the whole check.

Main results:

* `validate_eq_ok` — what a valid manifest's config mapping, liveness and drain sections passed;
* `components_of_spec` — the components of the idle file of a drain.
-/

import Hekma.Adapter.ConfigMapping
import Hekma.Adapter.Probes
import Hekma.Supervisor.State

set_option relaxedAutoImplicit false
set_option autoImplicit false

namespace Hekma

namespace Adapter

open Checks (refuse bind_eq_ok refuse_eq_ok each)
open LexPath (PathRules Component)

/-! ### Exit codes -/

/-- The exit codes section. -/
structure ExitCodes where
  restartRequested : List ℕ
  clean : List ℕ
  deriving DecidableEq, Repr

/-- Every code can be observed on every host. -/
def checkCodeRange (field : String) (code : ℕ) : Except ManifestError Unit :=
  refuse (decide (255 < code))
    (.invalidField s!"{field} list in the `[exit_codes]` section"
      (s!"{code} is out of range — exit codes must be 0..=255, the portable exit-code domain " ++
        "(unix exit status carries the low 8 bits, so a wider code could never be observed there)"))

/-- No code stands in a list twice. -/
def checkDistinctCodes (field : String) : List ℕ → List ℕ → Except ManifestError Unit
  | _, [] => .ok ()
  | seen, code :: codes => do
      refuse (seen.contains code)
        (.invalidField s!"{field} list in the `[exit_codes]` section"
          (s!"{code} appears more than once — declare each code at most once per list"))
      checkDistinctCodes field (code :: seen) codes

def checkCodes (list : String × List ℕ) : Except ManifestError Unit := do
  each (checkCodeRange list.1) list.2
  checkDistinctCodes list.1 [] list.2

/-- The section resolved: the two lists, if they are in order and disjoint. -/
def ExitCodes.classes (codes : ExitCodes) : Except ManifestError ExitCodes := do
  each checkCodes [("`restart_requested`", codes.restartRequested), ("`clean`", codes.clean)]
  let overlap := codes.restartRequested.filter codes.clean.contains
  let names := ", ".intercalate (overlap.map toString)
  refuse (!overlap.isEmpty)
    (.invalidField "`[exit_codes]` section"
      (s!"code(s) {names} appear in BOTH `restart_requested` and `clean` — a code can belong to " ++
        "only ONE class (an exit is either a relaunch request or a clean finish, never both); " ++
        "remove it from one list"))
  return codes

/-! ### The drain -/

/-- The drain section. -/
structure Drain where
  idleFile : Option (List Char)
  timeoutMs : ℕ
  deriving DecidableEq

/-- The resolved drain section. -/
structure DrainSpec where
  idleFile : Option (List Char)
  timeoutMs : ℕ
  deriving DecidableEq

def Component.isRootDir : Component → Bool
  | .rootDir => true
  | _ => false

def Component.isParentDir : Component → Bool
  | .parentDir => true
  | _ => false

/-- The checks of an idle file, read by the rules of the host. -/
def checkIdleFile (r : PathRules) (path : List Char) : Except ManifestError Unit := do
  let field := "`idle_file` field in the `[drain]` section"
  let shown := String.ofList path
  refuse (Text.trim path).isEmpty (.invalidField field "the value is empty")
  refuse (containsControlChar path)
    (.invalidField field
      ("the drain idle_file path contains a control character (NUL and the rest of the C0/C1 " ++
        "control bytes are forbidden — they would corrupt the path)"))
  refuse (LexPath.isAbsolute r path || (LexPath.components r path).any Component.isRootDir)
    (.invalidField field
      (s!"'{shown}' is an ABSOLUTE path — the idle_file is resolved against the instance's " ++
        "Agent Home and must be relative (an absolute path would read a file outside the " ++
        "engine's path authority)"))
  refuse ((LexPath.components r path).any LexPath.Component.isDrive)
    (.invalidField field
      (s!"'{shown}' carries a Windows drive prefix (a drive-relative or drive-qualified path) " ++
        "— the idle_file is resolved against the instance's Agent Home and must be a plain " ++
        "relative path (a drive-relative path would resolve OUTSIDE the Agent Home the engine " ++
        "has authority over)"))
  refuse ((LexPath.components r path).any Component.isParentDir)
    (.invalidField field
      (s!"'{shown}' contains a `..` component — the idle_file must stay INSIDE the Agent Home " ++
        "(the same escape refusal the `[config]` file targets enforce)"))

def Drain.spec (r : PathRules) (drain : Drain) : Except ManifestError DrainSpec := do
  let bound := drain.timeoutMs
  refuse (!(1 ≤ bound && bound ≤ 600000))
    (.invalidField "`timeout_ms` field in the `[drain]` section"
      (s!"{bound} is out of range — the drain bound must be 1..=600_000 milliseconds (zero " ++
        "cannot bound a wait; ten minutes is the declared ceiling)"))
  match drain.idleFile with
  | none => return ⟨none, bound⟩
  | some path => do
      checkIdleFile r path
      return ⟨some path, bound⟩

/-! ### The manifest -/

structure AdapterIdentity where
  kind : List Char

/-- A command of the lifecycle. -/
structure OpTemplate where
  exec : List Char
  args : List (List Char)

structure Lifecycle where
  start : Option OpTemplate
  pause : Option OpTemplate
  resume : Option OpTemplate

inductive Capability where
  | pause
  | interaction

inductive OsId where
  | linux
  | macos
  | windows
  | other

structure CapabilityDeclaration where
  byCapability : List (Capability × List (OsId × SupportLevel))

inductive MeteringSource where
  | selfReported
  | engineObserved

/-- The sections of a manifest that the validation reads. -/
structure Manifest where
  contractVersion : Option (List Char)
  adapter : Option AdapterIdentity
  lifecycle : Option Lifecycle
  capabilities : Option CapabilityDeclaration
  metering : Option MeteringSource
  config : Option ConfigMapping
  readiness : Option Readiness
  liveness : Option Liveness
  exitCodes : Option ExitCodes
  drain : Option Drain

def isAsciiLowercase (c : Char) : Bool := 'a' ≤ c && c ≤ 'z'

def isValidAdapterKind (kind : List Char) : Bool :=
  match kind with
  | [] => false
  | c :: rest =>
      (isAsciiLowercase c || c.isDigit) &&
        rest.all fun c => isAsciiLowercase c || c.isDigit || c = '_' || c = '-'

def strictSemverRequirement : String :=
  "strict `X.Y.Z` required — no `v` prefix, no partial versions like `1` or `1.0`; " ++
    "prerelease/build suffixes such as `1.0.0-rc.1` parse and negotiate by major"

/-- The version of the contract is there and a version. -/
def checkContractVersion (isSemver : List Char → Bool) (version : Option (List Char)) :
    Except ManifestError Unit :=
  match version with
  | none => .error (.missingSection "`contract_version` field")
  | some v => do
      let shown := String.ofList v
      let requirement := strictSemverRequirement
      refuse (Text.trim v).isEmpty (.missingSection "`contract_version` field")
      refuse (!isSemver (Text.trim v))
        (.invalidField "`contract_version`"
          s!"'{shown}' is not a valid semver version ({requirement})")

def checkAdapter (adapter : Option AdapterIdentity) : Except ManifestError Unit :=
  match adapter with
  | none => .error (.missingSection "`[adapter]` section")
  | some a => do
      let shown := String.ofList a.kind
      refuse (Text.trim a.kind).isEmpty
        (.missingSection "`kind` field in the `[adapter]` section")
      refuse (!isValidAdapterKind a.kind)
        (.invalidField "`kind` field in the `[adapter]` section"
          (s!"'{shown}' must match ^[a-z0-9][a-z0-9_-]*$ (lowercase letters, digits, '_' or " ++
            "'-', not starting with '_' or '-')"))

/-- A command that is rendered into causes has no control characters. -/
def checkTemplate (op : String) (template : Option OpTemplate) : Except ManifestError Unit :=
  match template with
  | none => .ok ()
  | some template => do
      refuse (containsControlChar template.exec)
        (.invalidField s!"`exec` field in the `[lifecycle.{op}]` op template"
          ("the exec contains a control character (NUL and the rest of the C0/C1 control bytes " ++
            "are forbidden — the command renders into transition causes and diagnostics)"))
      each (fun arg : List Char × ℕ =>
        let index := arg.2
        refuse (containsControlChar arg.1)
          (.invalidField s!"`args[{index}]` element in the `[lifecycle.{op}]` op template"
            ("the argument contains a control character (NUL and the rest of the C0/C1 control " ++
              "bytes are forbidden — the command renders into transition causes and " ++
              "diagnostics)"))) template.args.zipIdx

/-- The lifecycle starts, and what pauses an agent also resumes it. -/
def checkLifecycle (lifecycle : Option Lifecycle) : Except ManifestError Unit :=
  match lifecycle with
  | none => .error (.missingSection "`[lifecycle]` section")
  | some l => do
      refuse l.start.isNone (.missingSection "`start` op in the `[lifecycle]` section")
      let declared := if l.pause.isSome then "`pause`" else "`resume`"
      let missing := if l.pause.isSome then "`resume`" else "`pause`"
      refuse (l.pause.isSome != l.resume.isSome)
        (.invalidField "`[lifecycle]` section"
          (s!"{declared} is declared WITHOUT {missing} — the lifecycle pause/resume templates " ++
            "form a PAIR (a cooperative pause the adapter cannot reverse would strand the " ++
            "instance paused forever); declare both, or neither (an OS-signal pause needs no " ++
            "templates)"))
      checkTemplate "pause" l.pause
      checkTemplate "resume" l.resume

def CapabilityDeclaration.hasAnySupport (c : CapabilityDeclaration) : Bool :=
  c.byCapability.any fun perOs => perOs.2.any fun level => level.2 != .unsupported

/-- A section that may be absent. -/
def checkSection {α β : Type} (check : α → Except ManifestError β) (value : Option α) :
    Except ManifestError Unit :=
  match value with
  | none => .ok ()
  | some v => do
      let _ ← check v
      return ()

def checkConfig (mapping : ConfigMapping) : Except ManifestError Unit :=
  mapping.validate.mapError fun failed =>
    let key := failed.1
    .invalidField s!"`[config.{key}]` mapping in the `[config]` section" failed.2

/-- The heartbeat file that a manifest declares. -/
def Manifest.heartbeatFile (m : Manifest) : Option HeartbeatFileCheck :=
  m.liveness.bind (·.heartbeatFile)

/-- The idle file that a manifest declares. -/
def Manifest.idleFile (m : Manifest) : Option (List Char) := m.drain.bind (·.idleFile)

/-- The idle file of the drain is not spelled like the heartbeat file. -/
def Manifest.validateDrainLivenessDisjoint (m : Manifest) : Except ManifestError Unit :=
  match m.idleFile, m.heartbeatFile with
  | some idle, some heartbeat =>
      let shown := String.ofList idle
      refuse (idle = heartbeat.path)
        (.invalidField "`idle_file` field in the `[drain]` section"
          (s!"'{shown}' is ALSO the declared `[liveness.heartbeat_file].path` — the drain " ++
            "idle_file and the liveness heartbeat must be DIFFERENT files (the heartbeat beats " ++
            "while the agent is ALIVE, so the drain's freshness wait on it would complete " ++
            "vacuously regardless of in-flight work)"))
  | _, _ => .ok ()

section

variable {Ip : Type} (ip : IpSyntax Ip) (isSemver : List Char → Bool) (r : PathRules)

def Manifest.validate (m : Manifest) : Except ManifestError Unit := do
  checkContractVersion isSemver m.contractVersion
  checkAdapter m.adapter
  checkLifecycle m.lifecycle
  refuse (!m.capabilities.any (·.hasAnySupport))
    (.missingSection "`[capabilities]` section (it declares no supported capabilities)")
  refuse m.metering.isNone (.missingSection "`[metering]` section")
  checkSection checkConfig m.config
  checkSection (·.gate ip) m.readiness
  checkSection (·.check ip) m.liveness
  checkSection (·.classes) m.exitCodes
  checkSection (·.spec r) m.drain
  m.validateDrainLivenessDisjoint

end

/-! ### What a valid manifest passed -/

variable {Ip : Type} {ip : IpSyntax Ip} {isSemver : List Char → Bool} {r : PathRules}
  {m : Manifest}

theorem checkSection_eq_ok {α β : Type} {check : α → Except ManifestError β} {value : Option α}
    {u : Unit} :
    checkSection check value = .ok u ↔ ∀ v, value = some v → ∃ b, check v = .ok b := by
  cases value with
  | none => simp [checkSection]
  | some v =>
      rw [checkSection, bind_eq_ok]
      constructor
      · rintro ⟨b, hb, -⟩ w hw
        exact ⟨b, by rw [← Option.some.inj hw]; exact hb⟩
      · intro h
        obtain ⟨b, hb⟩ := h v rfl
        exact ⟨b, hb, rfl⟩

/-- The sections of a valid manifest that name files. -/
structure FilesChecked (r : PathRules) (m : Manifest) : Prop where
  config : ∀ mapping, m.config = some mapping → mapping.validate = .ok ()
  drain : ∀ drain, m.drain = some drain → ∃ spec, drain.spec r = .ok spec
  disjoint : ∀ idle heartbeat, m.idleFile = some idle → m.heartbeatFile = some heartbeat →
    idle ≠ heartbeat.path

theorem validate_eq_ok (h : m.validate ip isSemver r = .ok ()) : FilesChecked r m := by
  simp only [Manifest.validate, bind_eq_ok, refuse_eq_ok, exists_and_left, exists_const] at h
  obtain ⟨-, -, -, -, -, -, -, -, u, hconfig, -, -, -, -, -, -, v, hdrain, hdisjoint⟩ := h
  refine ⟨fun mapping hmapping => ?_, checkSection_eq_ok.1 hdrain, ?_⟩
  · obtain ⟨b, hb⟩ := checkSection_eq_ok.1 hconfig mapping hmapping
    rw [checkConfig] at hb
    cases hvalid : mapping.validate with
    | ok w => rfl
    | error e => rw [hvalid] at hb; cases hb
  · intro idle heartbeat hidle hheartbeat
    rw [Manifest.validateDrainLivenessDisjoint, hidle, hheartbeat] at hdisjoint
    simpa using hdisjoint

/-- **The components of the idle file of a drain**: names, and the home itself. -/
theorem components_of_spec {drain : Drain} {spec : DrainSpec} {path : List Char}
    (h : drain.spec r = .ok spec) (hidle : drain.idleFile = some path) :
    ∀ c ∈ LexPath.components r path, c = .curDir ∨ ∃ n, c = .normal n := by
  simp only [Drain.spec, bind_eq_ok, refuse_eq_ok, exists_and_left, exists_const] at h
  obtain ⟨-, h⟩ := h
  rw [hidle] at h
  simp only [checkIdleFile, bind_eq_ok, refuse_eq_ok, exists_and_left, exists_const,
    Bool.or_eq_false_iff, List.any_eq_false] at h
  obtain ⟨⟨-, -, ⟨-, hroot⟩, hdrive, hparent⟩, -⟩ := h
  intro c hc
  cases c with
  | drive d => exact absurd rfl (hdrive _ hc)
  | rootDir => exact absurd rfl (hroot _ hc)
  | curDir => exact .inl rfl
  | parentDir => exact absurd rfl (hparent _ hc)
  | normal n => exact .inr ⟨n, rfl⟩

end Adapter

end Hekma
