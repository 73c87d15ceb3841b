/-
**Where the files of a manifest lie** (`hekma-adapter-api/src/config.rs`, `manifest.rs`).

The files of the config mapping and the idle file of the drain are resolved against the agent's
home.  The idle file is touched when the agent has nothing left to do, the heartbeat file as long
as it is alive: a drain that waits for the one must not be told by the other.

The validation compares the two paths as texts, and it takes an idle file that names the home
itself.  So a valid manifest may declare one file twice, in two spellings.

Main definitions:

* `PathsConfined` — the files lie inside the home, and the idle file is not the heartbeat file.

Main results:

* `pathsConfined_iff` — **when the files of a valid manifest are confined**.
-/

import Hekma.Adapter.Manifest

set_option relaxedAutoImplicit false
set_option autoImplicit false

namespace Hekma

namespace Adapter

open LexPath (PathRules Home Inside components)

/-- The files of the config mapping and the idle file lie strictly inside the home, and the idle
file and the heartbeat file are not the same. -/
structure PathsConfined (r : PathRules) (home : Home) (m : Manifest) : Prop where
  mapped : ∀ mapping key placement, m.config = some mapping →
    mapping.target key = some (.file placement) →
    Inside home (LexPath.resolve home (components everyHost placement.path.toList))
  idle : ∀ idle, m.idleFile = some idle → Inside home (LexPath.resolve home (components r idle))
  disjoint : ∀ idle heartbeat, m.idleFile = some idle → m.heartbeatFile = some heartbeat →
    LexPath.resolve home (components r idle) ≠ LexPath.resolve home (components r heartbeat.path)

/-- The idle file has a name. -/
def NamesIdleFile (r : PathRules) (m : Manifest) : Prop :=
  ∀ idle, m.idleFile = some idle → ∃ n, .normal n ∈ components r idle

/-- The path of the heartbeat file is no other spelling of the idle file's. -/
def HeartbeatSpelledApart (r : PathRules) (home : Home) (m : Manifest) : Prop :=
  ∀ idle heartbeat, m.idleFile = some idle → m.heartbeatFile = some heartbeat →
    ¬ LexPath.Respelled home (components r idle) (components r heartbeat.path)

variable {Ip : Type} {ip : IpSyntax Ip} {isSemver : List Char → Bool} {r : PathRules}
  {m : Manifest}

theorem components_idleFile (h : FilesChecked r m) {idle : List Char}
    (hidle : m.idleFile = some idle) :
    ∀ c ∈ components r idle, c = .curDir ∨ ∃ n, c = .normal n := by
  obtain ⟨drain, hdrain, hfile⟩ := Option.bind_eq_some_iff.1 hidle
  obtain ⟨spec, hspec⟩ := h.drain drain hdrain
  exact components_of_spec hspec hfile

/-- **When the files of a valid manifest are confined**: the idle file has a name, and the
heartbeat file's path is no other spelling of the idle file's. -/
theorem pathsConfined_iff (h : m.validate ip isSemver r = .ok ()) (home : Home) :
    PathsConfined r home m ↔ NamesIdleFile r m ∧ HeartbeatSpelledApart r home m := by
  have hfiles := validate_eq_ok h
  have hspell (path : List Char) := LexPath.spelling_components r path
  constructor
  · intro hconfined
    constructor
    · intro idle hidle
      exact (LexPath.inside_iff (components_idleFile hfiles hidle)).1 (hconfined.idle idle hidle)
    · intro idle heartbeat hidle hheartbeat hrespelled
      exact hconfined.disjoint idle heartbeat hidle hheartbeat
        (LexPath.resolve_of_respelled hrespelled)
  · rintro ⟨hnames, happart⟩
    refine ⟨?_, ?_, ?_⟩
    · intro mapping key placement hmapping hrule
      exact inside_of_isSafeRelativePath
        (isSafeRelativePath_of_validate (hfiles.config mapping hmapping) hrule) home
    · intro idle hidle
      exact (LexPath.inside_iff (components_idleFile hfiles hidle)).2 (hnames idle hidle)
    · intro idle heartbeat hidle hheartbeat hsame
      exact happart idle heartbeat hidle hheartbeat
        ((LexPath.respelled_iff (hspell idle) (hspell heartbeat.path)).2 hsame)

/-! ### Two manifests -/

def demoHome : Home := ⟨none, ["home".toList, "demo".toList]⟩

/-- A manifest of an agent with a heartbeat file and an idle file. -/
def declares (heartbeat idle : String) : Manifest where
  contractVersion := some "1.0.0".toList
  adapter := some ⟨"demo".toList⟩
  lifecycle := some ⟨some ⟨"demo-agent".toList, []⟩, none, none⟩
  capabilities := some ⟨[(.interaction, [(.linux, .guaranteed)])]⟩
  metering := some .selfReported
  config := none
  readiness := none
  liveness := some ⟨some ⟨heartbeat.toList, 5000⟩, none⟩
  exitCodes := none
  drain := some ⟨some idle.toList, 5000⟩

/-- A parser of versions that knows one. -/
def oneVersion (s : List Char) : Bool := s = "1.0.0".toList

/-- Different files in the home are confined. -/
theorem pathsConfined_apart :
    PathsConfined slashes demoHome (declares "heartbeat.marker" "run/idle.marker") := by
  have hvalid : (declares "heartbeat.marker" "run/idle.marker").validate dotted oneVersion slashes =
      .ok () := by
    decide +kernel
  refine (pathsConfined_iff hvalid demoHome).2 ⟨?_, ?_⟩
  · intro idle hidle
    cases hidle
    exact ⟨"run".toList, by decide +kernel⟩
  · intro idle heartbeat hidle hheartbeat hrespelled
    cases hidle
    cases hheartbeat
    have hsame := LexPath.resolve_of_respelled hrespelled
    revert hsame
    decide +kernel

/-- A valid manifest may declare one file as the heartbeat and, with a dot in front, as the idle
file. -/
theorem idle_is_heartbeat :
    (declares "idle.marker" "./idle.marker").validate dotted oneVersion slashes = .ok () ∧
      ¬ PathsConfined slashes demoHome (declares "idle.marker" "./idle.marker") := by
  refine ⟨by decide +kernel, fun h => ?_⟩
  exact h.disjoint "./idle.marker".toList ⟨"idle.marker".toList, 5000⟩ rfl rfl (by decide +kernel)

end Adapter

end Hekma
