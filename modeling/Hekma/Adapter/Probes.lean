/-
**The probes of a manifest** (`hekma-adapter-api/src/manifest.rs`).

A manifest may declare a readiness probe and a liveness check.  Each section is resolved into the
one probe the engine runs: the runner does not look at the section again.

Main definitions:

* `Readiness.gate` — the readiness section resolved;
* `Liveness.check` — the liveness section resolved;
* `Accepted` — the URLs of the resolved probes.

Main results:

* `gate_httpGet`, `check_httpGet` — the URL of a resolved probe passed the checks of a URL;
* `accepted_probed_iff` — **when an accepted URL is probed where it was validated**.
-/

import Hekma.Adapter.ProbeUrl

set_option relaxedAutoImplicit false
set_option autoImplicit false

namespace Hekma

namespace Adapter

open Checks (refuse bind_eq_ok refuse_eq_ok)

/-- A field that is there. -/
def required {α : Type} (value : Option α) (field : String) : Except ManifestError α :=
  match value with
  | none => .error (.missingSection field)
  | some v => .ok v

/-! ### Readiness -/

inductive ReadinessKind where
  | httpGet
  | fileFresh
  | logContains
  deriving DecidableEq, Repr

def ReadinessKind.asStr : ReadinessKind → String
  | .httpGet => "http-get"
  | .fileFresh => "file-fresh"
  | .logContains => "log-contains"

/-- The readiness section as it is read. -/
structure Readiness where
  kind : ReadinessKind
  timeoutMs : ℕ
  url : Option (List Char)
  expectedStatus : Option ℕ
  path : Option (List Char)
  maxAgeMs : Option ℕ
  line : Option (List Char)

structure HttpGetProbe where
  url : List Char
  expectedStatus : ℕ
  deriving DecidableEq

structure FileFreshProbe where
  path : List Char
  maxAgeMs : ℕ
  deriving DecidableEq

structure LogContainsProbe where
  line : List Char
  deriving DecidableEq

/-- The one probe of a section. -/
inductive ReadinessProbe where
  | httpGet (probe : HttpGetProbe)
  | fileFresh (probe : FileFreshProbe)
  | logContains (probe : LogContainsProbe)
  deriving DecidableEq

structure ReadinessGate where
  timeoutMs : ℕ
  probe : ReadinessProbe
  deriving DecidableEq

/-- The refusal of a control character in a text of the readiness section. -/
def controlCharError (field what : String) : ManifestError :=
  .invalidField s!"{field} field in the `[readiness]` section"
    (s!"the readiness {what} contains a control character (NUL and the rest of the " ++
      "C0/C1 control bytes are forbidden — they would corrupt the matched output or the path)")

/-- The words of the readiness section. -/
def readinessWords : UrlWords where
  field := "`url` field in the `[readiness]` section"
  controlChar := controlCharError "`url`" "URL"
  target := "the readiness probe targets the agent's own loopback listener, so only http:// is " ++
    "accepted (no TLS, no other schemes)"
  role := "readiness probe"
  action := "probe"
  host := "the probe URL must name the agent's listener host (e.g. http://127.0.0.1:8080/health)"

/-- A status an HTTP server can answer with. -/
def isStatusCode (status : ℕ) : Bool := 100 ≤ status && status ≤ 599

variable {Ip : Type} (ip : IpSyntax Ip)

/-- The probe that the kind of the section names, from the fields of that kind. -/
def Readiness.ownProbe (r : Readiness) : Except ManifestError ReadinessProbe :=
  match r.kind with
  | .httpGet => do
      let url ← requiredStr r.url "`url` field in the `[readiness]` section"
      admitUrl ip readinessWords url
      let expectedStatus ← required r.expectedStatus
        ("`expected_status` field in the `[readiness]` section (the http-get probe's ready " ++
          "status)")
      refuse (!isStatusCode expectedStatus)
        (.invalidField "`expected_status` field in the `[readiness]` section"
          (s!"{expectedStatus} is not an HTTP status code — must be 100..=599 (1xx " ++
            "informational through 5xx server error)"))
      return .httpGet ⟨url, expectedStatus⟩
  | .fileFresh => do
      let path ← requiredStr r.path "`path` field in the `[readiness]` section"
      refuse (containsControlChar path) (controlCharError "`path`" "file path")
      let maxAgeMs ← required r.maxAgeMs
        "`max_age_ms` field in the `[readiness]` section (the file-fresh probe's maximum age)"
      let budget := r.timeoutMs
      refuse (maxAgeMs == 0)
        (.invalidField "`max_age_ms` field in the `[readiness]` section"
          ("0 is not a freshness window — the file could never count as fresh; the minimum is " ++
            "1 millisecond"))
      refuse (decide (budget < maxAgeMs))
        (.invalidField "`max_age_ms` field in the `[readiness]` section"
          (s!"{maxAgeMs} exceeds the probe's own timeout_ms ({budget}) — a file cannot be " ++
            "required fresher than the probe is allowed to wait"))
      return .fileFresh ⟨path, maxAgeMs⟩
  | .logContains => do
      let line ← requiredStr r.line "`line` field in the `[readiness]` section"
      refuse (containsControlChar line) (controlCharError "`line`" "line")
      return .logContains ⟨line⟩

/-- The fields of the other kinds, and whether the section has them. -/
def Readiness.foreign (r : Readiness) : List (String × Bool) :=
  match r.kind with
  | .httpGet =>
      [("`path`", r.path.isSome), ("`max_age_ms`", r.maxAgeMs.isSome), ("`line`", r.line.isSome)]
  | .fileFresh =>
      [("`url`", r.url.isSome), ("`expected_status`", r.expectedStatus.isSome),
        ("`line`", r.line.isSome)]
  | .logContains =>
      [("`url`", r.url.isSome), ("`expected_status`", r.expectedStatus.isSome),
        ("`path`", r.path.isSome), ("`max_age_ms`", r.maxAgeMs.isSome)]

/-- The fields a kind carries, as the refusal of the others lists them. -/
def ReadinessKind.own : ReadinessKind → String
  | .httpGet => "`url`, `expected_status`"
  | .fileFresh => "`path`, `max_age_ms`"
  | .logContains => "`line`"

def Readiness.gate (r : Readiness) : Except ManifestError ReadinessGate := do
  let budget := r.timeoutMs
  refuse (budget == 0 || decide (600000 < budget))
    (.invalidField "`timeout_ms` field in the `[readiness]` section"
      (s!"{budget} is out of range — the declared probe budget must be between 1 and 600000 " ++
        "milliseconds"))
  let probe ← r.ownProbe ip
  match r.foreign.find? (·.2) with
  | some (field, _) =>
      let kind := r.kind.asStr
      let own := r.kind.own
      .error (.invalidField s!"{field} field in the `[readiness]` section"
        s!"not a `{kind}` probe field — the `{kind}` kind carries only its own fields ({own})")
  | none => return ⟨budget, probe⟩

/-! ### Liveness -/

structure HeartbeatFileCheck where
  path : List Char
  maxAgeMs : ℕ
  deriving DecidableEq

structure HttpGetCheck where
  url : List Char
  expectedStatus : ℕ
  maxAgeMs : ℕ
  deriving DecidableEq

/-- The one check of a section. -/
inductive LivenessCheck where
  | heartbeatFile (check : HeartbeatFileCheck)
  | httpGet (check : HttpGetCheck)
  deriving DecidableEq

/-- The liveness section as it is read. -/
structure Liveness where
  heartbeatFile : Option HeartbeatFileCheck
  httpGet : Option HttpGetCheck

/-- The words of the liveness section. -/
def livenessWords : UrlWords where
  field := "`url` field in the `[liveness.http_get]` sub-table"
  controlChar := .invalidField "`url` field in the `[liveness.http_get]` sub-table"
    ("the liveness URL contains a control character (NUL and the rest of the C0/C1 control " ++
      "bytes are forbidden — a newline in a URL is header-injection material)")
  target := "the liveness check targets the agent's own loopback listener, so only http:// is " ++
    "accepted (no TLS, no other schemes)"
  role := "liveness check"
  action := "check"
  host := "the check URL must name the agent's listener host (e.g. http://127.0.0.1:8080/health)"

/-- The window lies between a poll and the longest that supervision may wait. -/
def maxAgeOk (maxAgeMs : ℕ) : Except ManifestError Unit := do
  refuse (decide (maxAgeMs < 250))
    (.invalidField "`max_age_ms` field in the `[liveness]` section"
      (s!"{maxAgeMs} is below the liveness floor — the window must be between 250 and 600000 " ++
        "milliseconds. The reaper polls the declared signal on a ~250 ms tick, so a window " ++
        "shorter than one tick could expire without the engine ever observing the failure; " ++
        "250 ms is the smallest observable window"))
  refuse (decide (600000 < maxAgeMs))
    (.invalidField "`max_age_ms` field in the `[liveness]` section"
      (s!"{maxAgeMs} is out of range — the liveness window must be between 250 and 600000 " ++
        "milliseconds"))

def HeartbeatFileCheck.check (heartbeat : HeartbeatFileCheck) :
    Except ManifestError LivenessCheck := do
  let path ← requiredStr (some heartbeat.path)
    "`path` field in the `[liveness.heartbeat_file]` sub-table"
  refuse (containsControlChar path)
    (.invalidField "`path` field in the `[liveness.heartbeat_file]` sub-table"
      ("the liveness heartbeat path contains a control character (NUL and the rest of the " ++
        "C0/C1 control bytes are forbidden — they would corrupt the path)"))
  maxAgeOk heartbeat.maxAgeMs
  return .heartbeatFile heartbeat

def HttpGetCheck.check (http : HttpGetCheck) : Except ManifestError LivenessCheck := do
  let url ← requiredStr (some http.url) "`url` field in the `[liveness.http_get]` sub-table"
  admitUrl ip livenessWords url
  let status := http.expectedStatus
  refuse (!isStatusCode status)
    (.invalidField "`expected_status` field in the `[liveness.http_get]` sub-table"
      (s!"{status} is not an HTTP status code — must be 100..=599 (1xx informational through " ++
        "5xx server error)"))
  maxAgeOk http.maxAgeMs
  return .httpGet http

def Liveness.check (l : Liveness) : Except ManifestError LivenessCheck :=
  match l.heartbeatFile, l.httpGet with
  | some _, some _ =>
      .error (.invalidField "`[liveness]` section"
        ("declares BOTH checks (`heartbeat_file` and `http_get`) — exactly ONE liveness check " ++
          "per manifest; drop one sub-table"))
  | none, none =>
      .error (.invalidField "`[liveness]` section"
        ("declares NO check — add exactly ONE of `[liveness.heartbeat_file]` or " ++
          "`[liveness.http_get]`, or drop the empty `[liveness]` section"))
  | some heartbeat, none => heartbeat.check
  | none, some http => http.check ip

/-! ### The URL of a resolved probe -/

variable {ip}

/-- The URL of a resolved readiness probe is that of the section, and passed the checks. -/
theorem gate_httpGet {r : Readiness} {g : ReadinessGate} {probe : HttpGetProbe}
    (h : r.gate ip = .ok g) (hprobe : g.probe = .httpGet probe) :
    r.url = some probe.url ∧ admitUrl ip readinessWords probe.url = .ok () := by
  simp only [Readiness.gate, bind_eq_ok, refuse_eq_ok, exists_and_left, exists_const] at h
  obtain ⟨-, own, hown, h⟩ := h
  cases hforeign : r.foreign.find? (·.2) with
  | some found => rw [hforeign] at h; cases h
  | none =>
      rw [hforeign] at h
      cases h
      dsimp only at hprobe
      subst hprobe
      unfold Readiness.ownProbe at hown
      cases hkind : r.kind with
      | httpGet =>
          rw [hkind] at hown
          simp only [bind_eq_ok, refuse_eq_ok, exists_and_left, exists_const] at hown
          obtain ⟨url, hurl, u, hadmit, status, -, -, hok⟩ := hown
          cases hok
          exact ⟨(requiredStr_eq_ok.1 hurl).1, hadmit⟩
      | fileFresh =>
          rw [hkind] at hown
          simp only [bind_eq_ok, refuse_eq_ok, exists_and_left, exists_const] at hown
          obtain ⟨path, -, -, age, -, -, -, hok⟩ := hown
          cases hok
      | logContains =>
          rw [hkind] at hown
          simp only [bind_eq_ok, refuse_eq_ok, exists_and_left, exists_const] at hown
          obtain ⟨line, -, -, hok⟩ := hown
          cases hok

/-- The resolved liveness check is that of the section, and its URL passed the checks. -/
theorem check_httpGet {l : Liveness} {http : HttpGetCheck} (h : l.check ip = .ok (.httpGet http)) :
    l.httpGet = some http ∧ admitUrl ip livenessWords http.url = .ok () := by
  unfold Liveness.check at h
  cases hheartbeat : l.heartbeatFile with
  | some heartbeat =>
      cases hhttp : l.httpGet with
      | some declared => rw [hheartbeat, hhttp] at h; cases h
      | none =>
          rw [hheartbeat, hhttp] at h
          simp only [HeartbeatFileCheck.check, bind_eq_ok, refuse_eq_ok, exists_and_left,
            exists_const] at h
          obtain ⟨path, -, -, -, -, hok⟩ := h
          cases hok
  | none =>
      cases hhttp : l.httpGet with
      | none => rw [hheartbeat, hhttp] at h; cases h
      | some declared =>
          rw [hheartbeat, hhttp] at h
          simp only [HttpGetCheck.check, bind_eq_ok, refuse_eq_ok, exists_and_left,
            exists_const] at h
          obtain ⟨url, hurl, u, hadmit, -, v, -, hok⟩ := h
          cases hok
          obtain ⟨heq, -⟩ := requiredStr_eq_ok.1 hurl
          rw [← Option.some.inj heq] at hadmit
          exact ⟨rfl, hadmit⟩

/-- The URLs of the probes that a manifest's sections are resolved into. -/
inductive Accepted (ip : IpSyntax Ip) : List Char → Prop
  | readiness {r : Readiness} {g : ReadinessGate} {probe : HttpGetProbe}
      (hok : r.gate ip = .ok g) (hprobe : g.probe = .httpGet probe) : Accepted ip probe.url
  | liveness {l : Liveness} {http : HttpGetCheck} (hok : l.check ip = .ok (.httpGet http)) :
      Accepted ip http.url

theorem Accepted.admitted {url : List Char} (h : Accepted ip url) :
    ∃ w, admitUrl ip w url = .ok () := by
  cases h with
  | readiness hok hprobe => exact ⟨_, (gate_httpGet hok hprobe).2⟩
  | liveness hok => exact ⟨_, (check_httpGet hok).2⟩

/-- **When an accepted URL is probed where it was validated**: a query stands behind a path, and a
port without brackets has no sign.  In no case is another address dialled. -/
theorem accepted_probed_iff {url : List Char} (h : Accepted ip url) :
    (∀ t, httpTarget ip url = some t →
      validatedEndpoint ip (validatedAuthority url) = some (t.addr, t.port) ∧
        ip.isLoopback t.addr = true) ∧
      (Probed ip url ↔ PathBeforeQuery url ∧ PlainPort (validatedAuthority url)) := by
  obtain ⟨w, hadmit⟩ := h.admitted
  exact ⟨fun t ht => httpTarget_loopback hadmit ht, probed_iff hadmit⟩

/-! ### Two URLs -/

/-- A part of a dotted address. -/
def parseOctet (s : List Char) : Option ℕ :=
  let n := Nat.ofDigitChars 10 s 0
  if s ≠ [] ∧ s.all Char.isDigit ∧ (s.head? = some '0' → s = ['0']) ∧ n ≤ 255 then some n else none

/-- The parts of a dotted address. -/
def parseDotted (s : List Char) : Option (List ℕ) := do
  let (a, s) ← Text.splitOnce '.' s
  let (b, s) ← Text.splitOnce '.' s
  let (c, d) ← Text.splitOnce '.' s
  return [← parseOctet a, ← parseOctet b, ← parseOctet c, ← parseOctet d]

/-- The dotted addresses. -/
def dotted : IpSyntax (List ℕ) where
  parse s := if s.all isLiteralChar then parseDotted s else none
  isLoopback addr := addr.head? = some 127
  display addr := ".".intercalate (addr.map toString)
  literal s addr h := by
    by_contra hall
    rw [if_neg hall] at h
    cases h

/-- A readiness section that asks for a URL. -/
def asksFor (url : String) : Readiness :=
  ⟨.httpGet, 5000, some url.toList, some 200, none, none, none⟩

/-- A URL with a query behind a path is probed. -/
theorem accepted_probed_health :
    Probed dotted "http://127.0.0.1:8080/health?full=1".toList := by
  have hgate : (asksFor "http://127.0.0.1:8080/health?full=1").gate dotted =
      .ok ⟨5000, .httpGet ⟨"http://127.0.0.1:8080/health?full=1".toList, 200⟩⟩ := by
    decide +kernel
  have hcond := (accepted_probed_iff (.readiness hgate rfl)).2
  refine hcond.2 ⟨by unfold PathBeforeQuery; decide +kernel, fun _ host port hport => ?_⟩
  have hplain : Text.rsplitOnce ':' (validatedAuthority
      "http://127.0.0.1:8080/health?full=1".toList) =
        some ("127.0.0.1".toList, "8080".toList) := by
    decide +kernel
  rw [hplain] at hport
  cases hport
  decide +kernel

/-- A URL with a query and no path is accepted, and no attempt dials it. -/
theorem query_without_path_not_probed :
    (asksFor "http://127.0.0.1:8080?ready=1").gate dotted =
        .ok ⟨5000, .httpGet ⟨"http://127.0.0.1:8080?ready=1".toList, 200⟩⟩ ∧
      (httpTarget dotted "http://127.0.0.1:8080?ready=1".toList).isNone = true ∧
      ¬ Probed dotted "http://127.0.0.1:8080?ready=1".toList := by
  have hnone : (httpTarget dotted "http://127.0.0.1:8080?ready=1".toList).isNone = true := by
    decide +kernel
  refine ⟨by decide +kernel, hnone, ?_⟩
  rintro ⟨addr, port, target, -, -, -, ht⟩
  rw [ht] at hnone
  cases hnone

end Adapter

end Hekma
