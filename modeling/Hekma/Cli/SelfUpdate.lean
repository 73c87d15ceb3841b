/-
**The manual self-update** (`cli/self_update.rs`).

A newer release is downloaded with the file of its checksum, its archive is compared with that
checksum, the binaries are taken from the archive by their file names wherever they lie, and the
installer puts them in place.  What kind of entry a binary comes from is not looked at, so a
directory of the right name is installed as an empty file; and after a rename that failed the list
of what was replaced names what was staged.

Main definitions:

* `SelfUpdate.publishedDigest`, `SelfUpdate.verifyChecksum` — the checksum file;
* `SelfUpdate.extractFrom`, `SelfUpdate.extractBinaries` — the binaries of an archive;
* `SelfUpdate.updateManualBinary` — the update;
* `SelfUpdate.Update.Exact` — an update installs exactly or says what it did.

Main results:

* `SelfUpdate.extractFrom_eq_ok` — what an extraction finds, and that it has read every entry;
* `SelfUpdate.Update.exact_iff` — **an update is exact if no rename fails and the entries are
  files**, or it ends before its renames, or the archive names a binary twice.
-/

import Hekma.Capture.Sha256
import Hekma.Cli.Installer
import Hekma.Lib.Checks
import Hekma.Lib.Text
import Hekma.Lib.Utf8

set_option relaxedAutoImplicit false
set_option autoImplicit false

namespace Hekma.SelfUpdate

open Checks (bind_eq_ok)
open Staging (Call Drive)

/-! ### The archive and its checksum -/

/-- A component of a path, its name as the bytes that stand there. -/
inductive PathPart where
  | drive
  | root
  | curDir
  | parentDir
  | normal (name : Bytes)

inductive EntryKind where
  | regular
  | directory
  | symlink
  | other
  deriving DecidableEq

/-- An entry of an archive as its reader gives it. -/
structure Entry where
  path : Except String (List PathPart)
  kind : EntryKind
  content : Except String Bytes

abbrev Archive := Except String (List (Except String Entry))

structure Platform where
  os : String
  arch : String

structure ReleaseTarget where
  triple : String
  extension : String
  binaryNames : List String
  deriving DecidableEq

structure ReleaseClient where
  latestReleaseTag : Except String String
  download : String → Except String Bytes

/-- The libraries: versions, the digest and the readers of archives. -/
structure Tools (ν : Type) where
  parseVersion : List Char → Option ν
  sha256 : Bytes → Bytes
  tarGz : Bytes → Archive
  zip : Bytes → Archive

inductive SelfUpdateOutcome where
  | alreadyCurrent
  | updated
  deriving DecidableEq

/-- A failure of a library, with what was being done. -/
def failedAs {α : Type} (doing : String) : Except String α → Except SelfUpdateFailed α
  | .ok a => .ok a
  | .error error => .error (.other s!"{doing}: {error}")

/-- The last component of a path, if it is a name. -/
def fileName (path : List PathPart) : Option Bytes :=
  match path.getLast? with
  | some (.normal name) => some name
  | _ => none

/-- The wanted binary with this file name. -/
def wantedBinaryName (fileName : Option (List Char)) (wanted : List String) : Option String :=
  fileName.bind fun fileName => wanted.find? fun candidate => fileName = candidate.toList

/-- The wanted binary that a path names. -/
def wantedAt (wanted : List String) (path : List PathPart) : Option String :=
  wantedBinaryName ((fileName path).bind Utf8.fromUtf8) wanted

/-- The entries of an archive in turn.  `part` is what the reader calls a path. -/
def extractFrom (part : String) (wanted : List String) :
    List (Except String Entry) → List (String × Bytes) →
    Except SelfUpdateFailed (List (String × Bytes))
  | [], found => .ok found
  | entry :: entries, found => do
      let entry ← failedAs "Could not read release archive entry" entry
      let path ← failedAs s!"Could not read release archive entry {part}" entry.path
      match wantedAt wanted path with
      | none => extractFrom part wanted entries found
      | some name => do
          let binary ← failedAs s!"Could not extract {name} from release archive" entry.content
          extractFrom part wanted entries (found ++ [(name, binary)])

section

variable {ν : Type} [LT ν] [DecidableLT ν] (tools : Tools ν)

def extractFromTarGz (archive : Bytes) (wanted : List String) (found : List (String × Bytes)) :
    Except SelfUpdateFailed (List (String × Bytes)) := do
  let entries ← failedAs "Could not read release archive" (tools.tarGz archive)
  extractFrom "path" wanted entries found

def extractFromZip (archive : Bytes) (wanted : List String) (found : List (String × Bytes)) :
    Except SelfUpdateFailed (List (String × Bytes)) := do
  let entries ← failedAs "Could not read release archive" (tools.zip archive)
  extractFrom "name" wanted entries found

/-- The extraction for the extension of the archive. -/
def extractByExtension (archive : Bytes) (target : ReleaseTarget) :
    Except SelfUpdateFailed (List (String × Bytes)) :=
  match target.extension with
  | "tar.gz" => extractFromTarGz tools archive target.binaryNames []
  | "zip" => extractFromZip tools archive target.binaryNames []
  | extension => .error (.other s!"Unsupported release archive extension: {extension}")

def extractBinaries (archive : Bytes) (target : ReleaseTarget) :
    Except SelfUpdateFailed (List (String × Bytes)) := do
  let found ← extractByExtension tools archive target
  let missing := target.binaryNames.filter fun name => !found.any fun x => x.1 = name
  if !missing.isEmpty then
    .error (.other ("Release archive did not contain " ++ ", ".intercalate missing ++ "."))
  else .ok found

/-- The first word of a text. -/
def firstWord (text : List Char) : Option (List Char) :=
  match text.dropWhile Text.isWhitespace with
  | [] => none
  | word => some (word.takeWhile fun c => !Text.isWhitespace c)

def isAsciiHexdigit (c : Char) : Bool :=
  c.isDigit || ('a' ≤ c && c ≤ 'f') || ('A' ≤ c && c ≤ 'F')

/-- The digest that a checksum file publishes, if there is a valid one. -/
def publishedDigest (checksumFile : Bytes) : Option (List Char) :=
  (((Utf8.fromUtf8 checksumFile).bind firstWord).map
    fun value => (Text.trim value).map Char.toLower).filter
      fun value => (Utf8.encode value).length = 64 && value.all isAsciiHexdigit

def sha256Hex (bytes : Bytes) : List Char :=
  (tools.sha256 bytes).flatMap fun byte =>
    [Nat.digitChar (byte.toNat / 16), Nat.digitChar (byte.toNat % 16)]

def verifyChecksum (archive checksumFile : Bytes) (asset : String) :
    Except SelfUpdateFailed Unit :=
  match publishedDigest checksumFile with
  | none =>
      .error (.other s!"Checksum file for {asset} did not contain a valid SHA-256 value.")
  | some expected =>
      if expected ≠ sha256Hex tools archive then
        .error (.other s!"Checksum verification failed for {asset}.")
      else .ok ()

/-! ### The update -/

def parseVersion (version : String) : Option ν :=
  tools.parseVersion ((Text.trim version.toList).dropWhile (· = 'v'))

def isNewerVersion (currentVersion latestTag : String) : Bool :=
  match parseVersion tools currentVersion, parseVersion tools latestTag with
  | some current, some latest => current < latest
  | _, _ => false

def unixBinaries : List String := ["hekma", "hkm"]

def windowsBinaries : List String := ["hekma.exe", "hkm.exe"]

def releaseTarget (platform : Platform) : Except SelfUpdateFailed ReleaseTarget :=
  match platform.os, platform.arch with
  | "macos", "x86_64" => .ok ⟨"x86_64-apple-darwin", "tar.gz", unixBinaries⟩
  | "macos", "aarch64" => .ok ⟨"aarch64-apple-darwin", "tar.gz", unixBinaries⟩
  | "linux", "x86_64" => .ok ⟨"x86_64-unknown-linux-gnu", "tar.gz", unixBinaries⟩
  | "windows", "x86_64" => .ok ⟨"x86_64-pc-windows-msvc", "zip", windowsBinaries⟩
  | os, arch =>
      .error (.other (s!"No prebuilt Hekma binary is available for {os}/{arch}. " ++
        "Install Rust and run: cargo install hekma --force"))

/-- A release as it was downloaded. -/
structure Release where
  target : ReleaseTarget
  asset : String
  archive : Bytes
  checksum : Bytes
  deriving DecidableEq

def releaseBaseUrl : String := "https://github.com/Ktesio/hekma/releases/download"

/-- The first part of the update: the latest release, if it is newer. -/
def fetchRelease (currentVersion : String) (platform : Platform) (client : ReleaseClient) :
    Except SelfUpdateFailed (Option Release) := do
  let latestTag ← client.latestReleaseTag.mapError .other
  if !isNewerVersion tools currentVersion latestTag then
    return none
  let target ← releaseTarget platform
  let asset := "hekma-" ++ latestTag ++ "-" ++ target.triple ++ "." ++ target.extension
  let assetUrl := releaseBaseUrl ++ "/" ++ latestTag ++ "/" ++ asset
  let archive ← (client.download assetUrl).mapError .other
  let checksum ← (client.download (assetUrl ++ ".sha256")).mapError .other
  return some ⟨target, asset, archive, checksum⟩

/-- The second part: what is to be installed. -/
def Release.binaries (release : Release) : Except SelfUpdateFailed (List (String × Bytes)) := do
  verifyChecksum tools release.archive release.checksum release.asset
  extractBinaries tools release.archive release.target

def updateManualBinary (host : Host) (currentExe : CurrentExe) (currentVersion : String)
    (platform : Platform) (client : ReleaseClient) (d : Drive String Bytes) :
    Except SelfUpdateFailed SelfUpdateOutcome × Drive String Bytes :=
  match fetchRelease tools currentVersion platform client with
  | .error e => (.error e, d)
  | .ok none => (.ok .alreadyCurrent, d)
  | .ok (some release) =>
      match release.binaries tools with
      | .error e => (.error e, d)
      | .ok binaries =>
          match replaceCurrentBinaries host currentExe binaries d with
          | (.error e, d) => (.error e, d)
          | (.ok _, d) => (.ok .updated, d)

end

/-! ### What an extraction finds -/

section

variable {part : String} {wanted : List String} {entries : List (Except String Entry)}
  {found found' : List (String × Bytes)}

def Entry.wantedName (wanted : List String) (e : Entry) : Option String :=
  match e.path with
  | .ok path => wantedAt wanted path
  | .error _ => none

/-- The binary that an entry gives. -/
def Entry.binary (wanted : List String) (e : Entry) : Option (String × Bytes) :=
  (e.wantedName wanted).bind fun name => e.content.toOption.map (name, ·)

theorem failedAs_eq_ok {α : Type} {doing : String} {x : Except String α} {a : α} :
    failedAs doing x = .ok a ↔ x = .ok a := by
  cases x with
  | error e => simp [failedAs]
  | ok b => simp [failedAs]

theorem mem_of_wantedName {e : Entry} {name : String} (h : e.wantedName wanted = some name) :
    name ∈ wanted := by
  unfold Entry.wantedName at h
  split at h
  · obtain ⟨f, -, hf⟩ := Option.bind_eq_some_iff.1 h
    exact List.mem_of_find?_eq_some hf
  · cases h

/-- An extraction that succeeds has read every entry, and has found the binaries of those that are
wanted, in their order. -/
theorem extractFrom_eq_ok (h : extractFrom part wanted entries found = .ok found') :
    ∃ es : List Entry, entries = es.map .ok ∧ found' = found ++ es.filterMap (·.binary wanted) ∧
      (found'.map Prod.fst = found.map Prod.fst ++ es.filterMap (·.wantedName wanted)) := by
  induction entries generalizing found with
  | nil =>
      cases h
      exact ⟨[], rfl, by simp, by simp⟩
  | cons entry entries ih =>
      rw [extractFrom, bind_eq_ok] at h
      obtain ⟨e, he, h⟩ := h
      rw [bind_eq_ok] at h
      obtain ⟨path, hpath, h⟩ := h
      rw [failedAs_eq_ok] at he hpath
      subst he
      cases hname : wantedAt wanted path with
      | none =>
          rw [hname] at h
          obtain ⟨es, rfl, hfound, hnames⟩ := ih h
          have hnone : e.wantedName wanted = none := by simp [Entry.wantedName, hpath, hname]
          refine ⟨e :: es, rfl, ?_, ?_⟩
          · simp [hfound, Entry.binary, hnone]
          · simp [hnames, hnone]
      | some name =>
          simp only [hname, bind_eq_ok, failedAs_eq_ok] at h
          obtain ⟨binary, hbinary, h⟩ := h
          obtain ⟨es, rfl, hfound, hnames⟩ := ih h
          have hsome : e.wantedName wanted = some name := by simp [Entry.wantedName, hpath, hname]
          refine ⟨e :: es, rfl, ?_, ?_⟩
          · simp [hfound, Entry.binary, hsome, hbinary, Except.toOption]
          · simp [hnames, hsome]

end

/-! ### Exact updates -/

/-- What an update is given, and the files of the installation directory. -/
structure Update (ν : Type) where
  tools : Tools ν
  host : Host
  client : ReleaseClient
  platform : Platform
  currentExe : CurrentExe
  currentVersion : String
  files : String → Option Bytes

/-- The entries of a release, as far as they can be read. -/
def Release.entries {ν : Type} (release : Release) (tools : Tools ν) : List Entry :=
  let entries := if release.target.extension = "tar.gz" then tools.tarGz release.archive
    else tools.zip release.archive
  match entries with
  | .ok entries => entries.filterMap Except.toOption
  | .error _ => []

/-- The declared binaries that the entries of a release name, one after the other. -/
def Release.names {ν : Type} (release : Release) (tools : Tools ν) : List String :=
  (release.entries tools).filterMap (·.wantedName release.target.binaryNames)

/-- The entry has this file name. -/
def Entry.Named (e : Entry) (name : String) : Prop :=
  ∃ path, e.path = .ok path ∧ fileName path = some (Utf8.encode name.toList)

namespace Update

variable {ν : Type} [LT ν] [DecidableLT ν] (u : Update ν)

def fetched : Except SelfUpdateFailed (Option Release) :=
  fetchRelease u.tools u.currentVersion u.platform u.client

def run : Except SelfUpdateFailed SelfUpdateOutcome × Drive String Bytes :=
  updateManualBinary u.tools u.host u.currentExe u.currentVersion u.platform u.client ⟨u.files, []⟩

/-- The update installs exactly or says what it did. -/
structure Exact : Prop where
  /-- Nothing is written unless the digest of the archive is the published one. -/
  verified : u.run.2.calls ≠ [] → ∃ release, u.fetched = .ok (some release) ∧
    publishedDigest release.checksum = some (sha256Hex u.tools release.archive)
  /-- Each declared binary is a regular file of the archive. -/
  installed : u.run.1 = .ok .updated → ∃ release, u.fetched = .ok (some release) ∧
    ∀ name ∈ release.target.binaryNames, ∃ e ∈ release.entries u.tools, ∃ binary,
      e.Named name ∧ e.kind = .regular ∧ e.content = .ok binary ∧ u.run.2.files name = some binary
  /-- A failure before the first rename leaves the binaries, and nothing of what was staged. -/
  undone : ∀ e, u.run.1 = .error e → (∀ c ∈ u.run.2.calls, c.isRename = false) →
    (∀ name, NotDotted name → u.run.2.files name = u.files name) ∧
    ∀ path, u.run.2.files path = if ∃ ok, .write path ok ∈ u.run.2.calls then none else u.files path
  /-- A failure after it names the binaries whose rename succeeded. -/
  reported : ∀ e, u.run.1 = .error e → (∃ c ∈ u.run.2.calls, c.isRename = true) →
    ∃ replaced failures, e = .partlyReplaced replaced failures ∧
      ∀ name, name ∈ replaced ↔ .rename name true ∈ u.run.2.calls

/-- The update comes to its renames: the release is newer and verified, its archive is read and
complete, the executable is there, and no write fails. -/
def ComesToRenames (release : Release) : Prop :=
  u.fetched = .ok (some release) ∧ (∃ binaries, release.binaries u.tools = .ok binaries) ∧
    Renames u.host u.currentExe (release.names u.tools)

/-- No first rename of a declared binary fails. -/
def NoRenameFails (release : Release) : Prop :=
  ∀ name ∈ release.target.binaryNames, u.host.renameFault name 0 = none

/-- The entries of declared names are regular files. -/
def OnlyFiles (release : Release) : Prop :=
  ∀ e ∈ release.entries u.tools, e.wantedName release.target.binaryNames ≠ none →
    e.kind = .regular

end Update

/-! ### The binaries of a release -/

section

variable {ν : Type} {tools : Tools ν} {release : Release}
  {binaries : List (String × Bytes)}

theorem wantedName_eq_some {e : Entry} {wanted : List String} {name : String} :
    e.wantedName wanted = some name ↔ name ∈ wanted ∧ e.Named name := by
  constructor
  · intro h
    refine ⟨mem_of_wantedName h, ?_⟩
    unfold Entry.wantedName at h
    split at h
    · next path hpath =>
        obtain ⟨f, hf, hfind⟩ := Option.bind_eq_some_iff.1 h
        obtain ⟨bytes, hbytes, hdecoded⟩ := Option.bind_eq_some_iff.1 hf
        have hname : f = name.toList := by simpa using List.find?_some hfind
        refine ⟨path, hpath, ?_⟩
        rw [hbytes, ← hname, Utf8.fromUtf8_eq_some.1 hdecoded]
    · cases h
  · rintro ⟨hmem, path, hpath, hname⟩
    have hfind : wanted.find? (fun candidate => name.toList = candidate.toList) = some name := by
      cases hsearch : wanted.find? fun candidate => name.toList = candidate.toList with
      | none =>
          have hno := List.find?_eq_none.1 hsearch name hmem
          simp at hno
      | some other =>
          have heq : name.toList = other.toList := by simpa using List.find?_some hsearch
          rw [String.toList_injective heq]
    simp [Entry.wantedName, hpath, wantedAt, hname, wantedBinaryName, hfind]

/-- Names that occur once have one entry. -/
theorem eq_of_nodup_filterMap {α β : Type} {f : α → Option β} {l : List α} {a a' : α} {b : β}
    (h : (l.filterMap f).Nodup) (ha : a ∈ l) (ha' : a' ∈ l) (hf : f a = some b)
    (hf' : f a' = some b) : a = a' := by
  induction l with
  | nil => cases ha
  | cons x l ih =>
      have hother : ∀ y ∈ l, f x = some b → f y = some b → False := by
        intro y hy hx hyb
        rw [List.filterMap_cons_some hx] at h
        exact (List.nodup_cons.1 h).1 (List.mem_filterMap.2 ⟨y, hy, hyb⟩)
      rcases List.mem_cons.1 ha with rfl | hl
      · rcases List.mem_cons.1 ha' with rfl | hl'
        · rfl
        · exact (hother a' hl' hf hf').elim
      · rcases List.mem_cons.1 ha' with rfl | hl'
        · exact (hother a hl hf' hf).elim
        · have htail : (l.filterMap f).Nodup := by
            refine h.sublist ?_
            exact (List.sublist_cons_self x l).filterMap f
          exact ih htail hl hl'

/-- What an extraction finds is what the entries of the release give. -/
theorem found_of_extract {found : List (String × Bytes)}
    (h : extractByExtension tools release.archive release.target = .ok found) :
    found = (release.entries tools).filterMap (·.binary release.target.binaryNames) ∧
      found.map Prod.fst = release.names tools := by
  have hread : ∀ (part : String) (archive : Archive),
      (match archive with
        | .ok entries => entries.filterMap Except.toOption
        | .error _ => []) = release.entries tools →
      (failedAs "Could not read release archive" archive >>= fun entries =>
        extractFrom part release.target.binaryNames entries []) = .ok found →
      found = (release.entries tools).filterMap (·.binary release.target.binaryNames) ∧
        found.map Prod.fst = release.names tools := by
    intro part archive harchive hextract
    obtain ⟨entries, hentries, hextract⟩ := bind_eq_ok.1 hextract
    rw [failedAs_eq_ok] at hentries
    obtain ⟨es, rfl, hfound, hnames⟩ := extractFrom_eq_ok hextract
    have hes : release.entries tools = es := by
      rw [← harchive, hentries]
      simp [List.filterMap_map, Function.comp_def, Except.toOption]
    exact ⟨by simpa [hes] using hfound, by simpa [Release.names, hes] using hnames⟩
  unfold extractByExtension at h
  split at h
  · next hext =>
      exact hread "path" (tools.tarGz release.archive) (by simp [Release.entries, hext]) h
  · next hext =>
      exact hread "name" (tools.zip release.archive) (by simp [Release.entries, hext]) h
  · cases h

theorem publishedDigest_of_verify {archive checksum : Bytes} {asset : String}
    (h : verifyChecksum tools archive checksum asset = .ok ()) :
    publishedDigest checksum = some (sha256Hex tools archive) := by
  unfold verifyChecksum at h
  split at h
  · cases h
  · next expected hexpected =>
      split_ifs at h with hne
      rw [hexpected, not_not.1 hne]

/-- What a release gives to install: its digest is the published one, the binaries are what its
entries give, and every declared binary is among them. -/
theorem binaries_eq_ok (h : release.binaries tools = .ok binaries) :
    publishedDigest release.checksum = some (sha256Hex tools release.archive) ∧
    binaries = (release.entries tools).filterMap (·.binary release.target.binaryNames) ∧
    binaries.map Prod.fst = release.names tools ∧
    ∀ name ∈ release.target.binaryNames, name ∈ release.names tools := by
  rw [Release.binaries, bind_eq_ok] at h
  obtain ⟨⟨⟩, hverify, h⟩ := h
  rw [extractBinaries, bind_eq_ok] at h
  obtain ⟨found, hfound, h⟩ := h
  obtain ⟨hfilter, hnames⟩ := found_of_extract hfound
  dsimp only at h
  split_ifs at h with hmissing
  cases h
  refine ⟨publishedDigest_of_verify hverify, hfilter, hnames, fun name hname => ?_⟩
  rw [← hnames]
  rw [Bool.not_eq_true, Bool.not_eq_false', List.isEmpty_iff, List.filter_eq_nil_iff] at hmissing
  have hfoundName := hmissing name hname
  simpa using hfoundName

end

/-! ### When an update is exact -/

theorem notDotted_of_target {platform : Platform} {target : ReleaseTarget}
    (h : releaseTarget platform = .ok target) : ∀ name ∈ target.binaryNames, NotDotted name := by
  have hunix : ∀ name ∈ unixBinaries, NotDotted name := by decide
  have hwindows : ∀ name ∈ windowsBinaries, NotDotted name := by decide
  unfold releaseTarget at h
  split at h
  · cases h
    exact hunix
  · cases h
    exact hunix
  · cases h
    exact hunix
  · cases h
    exact hwindows
  · cases h

namespace Update

variable {ν : Type} [LT ν] [DecidableLT ν] {u : Update ν} {release : Release}

theorem notDotted_of_fetched (h : u.fetched = .ok (some release)) :
    ∀ name ∈ release.target.binaryNames, NotDotted name := by
  rw [fetched, fetchRelease, bind_eq_ok] at h
  obtain ⟨tag, -, h⟩ := h
  split_ifs at h
  · cases h
  · rw [bind_eq_ok] at h
    obtain ⟨target, htarget, h⟩ := h
    dsimp only at h
    rw [bind_eq_ok] at h
    obtain ⟨archive, -, h⟩ := h
    rw [bind_eq_ok] at h
    obtain ⟨checksum, -, h⟩ := h
    cases h
    exact notDotted_of_target htarget

/-- An update that does nothing to the directory is exact if it does not claim to have updated. -/
theorem exact_of_nothing {r : Except SelfUpdateFailed SelfUpdateOutcome}
    (h : u.run = (r, ⟨u.files, []⟩)) (hr : r ≠ .ok .updated) : u.Exact where
  verified hcalls := by simp [h] at hcalls
  installed hupdated := by simp [h, hr] at hupdated
  undone e _ _ := by simp [h]
  reported e _ hcalls := by simp [h] at hcalls

/-- The update once the binaries are there. -/
theorem run_eq {binaries : List (String × Bytes)} (hfetched : u.fetched = .ok (some release))
    (hbinaries : release.binaries u.tools = .ok binaries) {r : Except SelfUpdateFailed Unit}
    {d : Drive String Bytes}
    (h : replaceCurrentBinaries u.host u.currentExe binaries ⟨u.files, []⟩ = (r, d)) :
    u.run = (r.map fun _ => .updated, d) := by
  unfold fetched at hfetched
  simp only [run, updateManualBinary, hfetched, hbinaries, h]
  cases r <;> rfl

/-- An update that stops before its renames is exact. -/
theorem exact_of_stoppedEarly {r : Except SelfUpdateFailed Unit} {d : Drive String Bytes}
    (hfetched : u.fetched = .ok (some release))
    (hdigest : publishedDigest release.checksum = some (sha256Hex u.tools release.archive))
    (hrun : u.run = (r.map fun _ => .updated, d)) (h : StoppedEarly u.host u.files r d) :
    u.Exact := by
  obtain ⟨⟨message, rfl⟩, l, hl, hcalls, htemps, hfiles⟩ := h
  rw [List.nil_append] at hl
  subst hl
  refine ⟨fun _ => ⟨release, hfetched, hdigest⟩, ?_, fun e _ _ => ?_, fun e _ hrename => ?_⟩
  · intro hupdated
    rw [hrun] at hupdated
    cases hupdated
  · rw [hrun]
    refine ⟨fun name hname => ?_, fun path => by simpa using hfiles path⟩
    rw [hfiles name, if_neg]
    rintro (hnil | ⟨ok, hwrite⟩)
    · cases hnil
    · obtain ⟨other, heq⟩ := htemps name ok hwrite
      exact hname.ne_tempName other heq
  · obtain ⟨c, hc, hrename⟩ := hrename
    rw [hrun] at hc
    rw [hcalls c hc] at hrename
    cases hrename

/-- What an update has done that came to its renames. -/
structure Outcome (u : Update ν) (release : Release) (order failures : List String)
    (d : Drive String Bytes) : Prop where
  noFailure : failures = [] ↔ (release.names u.tools).Nodup ∧ u.NoRenameFails release
  declared : ∀ name, name ∈ order ↔ name ∈ release.target.binaryNames
  renamed : ∀ name, .rename name true ∈ d.calls ↔
    name ∈ release.target.binaryNames ∧ u.host.renameFault name 0 = none
  tried : ∀ name ∈ order, ∃ c ∈ d.calls, c.isRename = true
  files : ∀ name ∈ release.target.binaryNames, u.host.renameFault name 0 = none →
    ∃ e ∈ release.entries u.tools, ∃ binary,
      e.wantedName release.target.binaryNames = some name ∧ e.content = .ok binary ∧
      d.files name = some binary

omit [LT ν] [DecidableLT ν] in
theorem outcome_of_tried {binaries : List (String × Bytes)}
    (hbinaries : release.binaries u.tools = .ok binaries) {r : Except SelfUpdateFailed Unit}
    {d : Drive String Bytes} (h : Tried u.host binaries u.files r d) :
    ∃ order failures, Outcome u release order failures d ∧
      r = if failures = [] then .ok () else .error (.partlyReplaced order failures) := by
  obtain ⟨order, failures, d₁, hperm, hstaged, hrenamed, hr⟩ := h
  obtain ⟨-, hfilter, hnames, hdeclared⟩ := binaries_eq_ok hbinaries
  have hsucceeds : ∀ name, Succeeds u.host d₁ name ↔ u.host.renameFault name 0 = none := by
    intro name
    rw [Succeeds, (hstaged.not_renames name).1]
    exact and_iff_right rfl
  have horder : ∀ name, name ∈ order ↔ name ∈ release.target.binaryNames := by
    intro name
    rw [hperm.mem_iff, hnames]
    refine ⟨fun hname => ?_, hdeclared name⟩
    obtain ⟨e, -, he⟩ := List.mem_filterMap.1 hname
    exact mem_of_wantedName he
  refine ⟨order, failures, ⟨?_, horder, fun name => ?_, fun name hname =>
    hrenamed.exists_isRename hname, fun name hname hok => ?_⟩, hr⟩
  · rw [hrenamed.failures, hperm.nodup_iff, hnames]
    simp only [true_and, hsucceeds, horder, NoRenameFails]
  · rw [hrenamed.renamed, (hstaged.not_renames name).2, horder, hsucceeds]
    simp
  · have hmem : name ∈ order := (horder name).2 hname
    obtain ⟨b, hb, hfile⟩ := hstaged.temps name (hperm.mem_iff.1 hmem)
    rw [hfilter] at hb
    obtain ⟨e, he, hbinary⟩ := List.mem_filterMap.1 hb
    obtain ⟨n, hn, hcontent⟩ := Option.bind_eq_some_iff.1 hbinary
    obtain ⟨b', hb', heq⟩ := Option.map_eq_some_iff.1 hcontent
    obtain ⟨rfl, rfl⟩ := Prod.mk.inj heq
    refine ⟨e, he, b', hn, ?_, ?_⟩
    · cases hc : e.content with
      | error err => simp [hc, Except.toOption] at hb'
      | ok c => simpa [hc, Except.toOption] using hb'
    · rw [hrenamed.targets n hmem ((hsucceeds n).2 hok), hfile]

/-- An update whose renames have all succeeded. -/
theorem exact_iff_of_updated {order : List String} {d : Drive String Bytes}
    (hfetched : u.fetched = .ok (some release))
    (hdigest : publishedDigest release.checksum = some (sha256Hex u.tools release.archive))
    (ho : Outcome u release order [] d) (hrun : u.run = (.ok .updated, d)) :
    u.Exact ↔ u.OnlyFiles release := by
  obtain ⟨hnodup, hrenames⟩ := ho.noFailure.1 rfl
  constructor
  · intro hexact e he hne
    obtain ⟨name, hname⟩ := Option.ne_none_iff_exists'.1 hne
    obtain ⟨release', hfetched', hall⟩ := hexact.installed (by rw [hrun])
    obtain rfl : release = release' := by simpa [hfetched] using hfetched'
    obtain ⟨e', he', binary, hnamed, hkind, -⟩ := hall name (mem_of_wantedName hname)
    have hname' := wantedName_eq_some.2 ⟨mem_of_wantedName hname, hnamed⟩
    rw [eq_of_nodup_filterMap hnodup he he' hname hname']
    exact hkind
  · intro hfiles
    refine ⟨fun _ => ⟨release, hfetched, hdigest⟩, fun _ => ⟨release, hfetched, ?_⟩, ?_, ?_⟩
    · intro name hname
      obtain ⟨e, he, binary, hwanted, hcontent, hfile⟩ := ho.files name hname (hrenames name hname)
      refine ⟨e, he, binary, (wantedName_eq_some.1 hwanted).2, hfiles e he ?_, hcontent, ?_⟩
      · rw [hwanted]
        exact Option.some_ne_none name
      · rw [hrun, hfile]
    · intro e herror
      rw [hrun] at herror
      cases herror
    · intro e herror
      rw [hrun] at herror
      cases herror

/-- An update of whose renames some have failed. -/
theorem exact_iff_of_partlyReplaced {order failures : List String} {d : Drive String Bytes}
    (hfetched : u.fetched = .ok (some release))
    (hdigest : publishedDigest release.checksum = some (sha256Hex u.tools release.archive))
    (ho : Outcome u release order failures d) (hne : failures ≠ [])
    (hrun : u.run = (.error (.partlyReplaced order failures), d)) :
    u.Exact ↔ u.NoRenameFails release := by
  -- something was staged, or nothing could have failed
  have horder : ∃ name, name ∈ order := by
    by_contra hnone
    push Not at hnone
    refine hne (ho.noFailure.2
      ⟨?_, fun name hname => absurd ((ho.declared name).2 hname) (hnone name)⟩)
    refine List.nodup_iff_forall_not_duplicate.2 fun name hdup => hnone name ?_
    obtain ⟨e, -, he⟩ := List.mem_filterMap.1 hdup.mem
    exact (ho.declared name).2 (mem_of_wantedName he)
  obtain ⟨name, hname⟩ := horder
  obtain ⟨c, hc, hrename⟩ := ho.tried name hname
  constructor
  · intro hexact n hn
    obtain ⟨replaced, failures', heq, hnamed⟩ :=
      hexact.reported (.partlyReplaced order failures) (by rw [hrun])
        ⟨c, by rw [hrun]; exact hc, hrename⟩
    cases heq
    have hrenamed := (hnamed n).1 ((ho.declared n).2 hn)
    rw [hrun] at hrenamed
    exact ((ho.renamed n).1 hrenamed).2
  · intro hrenames
    refine ⟨fun _ => ⟨release, hfetched, hdigest⟩, ?_, ?_, ?_⟩
    · intro hupdated
      rw [hrun] at hupdated
      cases hupdated
    · intro e _ hcalls
      rw [hrun] at hcalls
      rw [hcalls c hc] at hrename
      cases hrename
    · intro e herror _
      rw [hrun] at herror ⊢
      cases herror
      refine ⟨order, failures, rfl, fun n => ?_⟩
      rw [ho.declared, ho.renamed]
      exact ⟨fun hn => ⟨hn, hrenames n hn⟩, fun h => h.1⟩

theorem exact_iff_of_binaries {binaries : List (String × Bytes)}
    (hfetched : u.fetched = .ok (some release))
    (hbinaries : release.binaries u.tools = .ok binaries) :
    u.Exact ↔ (u.ComesToRenames release → u.NoRenameFails release ∧
      (¬ (release.names u.tools).Nodup ∨ u.OnlyFiles release)) := by
  obtain ⟨hdigest, hfilter, hnames, -⟩ := binaries_eq_ok hbinaries
  have hdot : ∀ x ∈ binaries, NotDotted x.1 := by
    intro x hx
    have hname : x.1 ∈ release.names u.tools := hnames ▸ List.mem_map_of_mem hx
    obtain ⟨e, -, he⟩ := List.mem_filterMap.1 hname
    exact notDotted_of_fetched hfetched x.1 (mem_of_wantedName he)
  obtain ⟨r, d, hreplace⟩ : ∃ r d, replaceCurrentBinaries u.host u.currentExe binaries
      ⟨u.files, []⟩ = (r, d) := ⟨_, _, rfl⟩
  have hrun := run_eq hfetched hbinaries hreplace
  rcases replaceCurrentBinaries_cases hdot u.files hreplace with
    ⟨hnot, hstopped⟩ | ⟨hrenames, htried⟩
  · refine iff_of_true (exact_of_stoppedEarly hfetched hdigest hrun hstopped) fun hcomes => ?_
    exact absurd hcomes.2.2 (hnames ▸ hnot)
  · have hcomes : u.ComesToRenames release :=
      ⟨hfetched, ⟨binaries, hbinaries⟩, hnames ▸ hrenames⟩
    rw [forall_prop_of_true hcomes]
    obtain ⟨order, failures, ho, rfl⟩ := outcome_of_tried hbinaries htried
    by_cases hnil : failures = []
    · subst hnil
      obtain ⟨hnodup, hok⟩ := ho.noFailure.1 rfl
      rw [exact_iff_of_updated hfetched hdigest ho hrun]
      simp [hnodup, hok]
    · rw [if_neg hnil] at hrun
      rw [exact_iff_of_partlyReplaced hfetched hdigest ho hnil hrun]
      refine ⟨fun hok => ⟨hok, .inl fun hnodup => hnil (ho.noFailure.2 ⟨hnodup, hok⟩)⟩, And.left⟩

/-- **An update is exact if no rename fails and the entries are files**, or it ends before its
renames, or the archive names a binary twice. -/
theorem exact_iff : u.Exact ↔ ∀ release, u.ComesToRenames release →
    u.NoRenameFails release ∧ (¬ (release.names u.tools).Nodup ∨ u.OnlyFiles release) := by
  cases hfetched : u.fetched with
  | error e =>
      have hrun : u.run = (.error e, ⟨u.files, []⟩) := by
        unfold fetched at hfetched
        simp [run, updateManualBinary, hfetched]
      refine iff_of_true (exact_of_nothing hrun (by simp)) fun release hcomes => ?_
      cases hfetched.symm.trans hcomes.1
  | ok fetched =>
      cases fetched with
      | none =>
          have hrun : u.run = (.ok .alreadyCurrent, ⟨u.files, []⟩) := by
            unfold Update.fetched at hfetched
            simp [run, updateManualBinary, hfetched]
          refine iff_of_true (exact_of_nothing hrun (by simp)) fun release hcomes => ?_
          cases hfetched.symm.trans hcomes.1
      | some release =>
          have hiff : (∀ release', u.ComesToRenames release' → u.NoRenameFails release' ∧
              (¬ (release'.names u.tools).Nodup ∨ u.OnlyFiles release')) ↔
              (u.ComesToRenames release → u.NoRenameFails release ∧
                (¬ (release.names u.tools).Nodup ∨ u.OnlyFiles release)) := by
            refine ⟨fun h => h release, fun h release' hcomes => ?_⟩
            obtain rfl : release = release' := by simpa [hfetched] using hcomes.1
            exact h hcomes
          rw [hiff]
          cases hbinaries : release.binaries u.tools with
          | error e =>
              have hrun : u.run = (.error e, ⟨u.files, []⟩) := by
                unfold Update.fetched at hfetched
                simp [run, updateManualBinary, hfetched, hbinaries]
              refine iff_of_true (exact_of_nothing hrun (by simp)) fun hcomes => ?_
              obtain ⟨binaries, hok⟩ := hcomes.2.1
              cases hbinaries.symm.trans hok
          | ok binaries => exact exact_iff_of_binaries hfetched hbinaries

end Update

/-! ### A release with directories in the place of its binaries -/

/-- A zip archive with the directories `hekma.exe/` and `hkm.exe/`. -/
def twoDirectories : Bytes :=
  [80, 75, 3, 4, 20, 0, 0, 0, 0, 0, 0, 0, 33, 0, 0, 0, 0, 0, 0, 0, 0, 0, 0, 0, 0, 0, 10, 0, 0, 0,
   104, 101, 107, 109, 97, 46, 101, 120, 101, 47, 80, 75, 3, 4, 20, 0, 0, 0, 0, 0, 0, 0, 33, 0,
   0, 0, 0, 0, 0, 0, 0, 0, 0, 0, 0, 0, 8, 0, 0, 0, 104, 107, 109, 46, 101, 120, 101, 47, 80, 75,
   1, 2, 20, 3, 20, 0, 0, 0, 0, 0, 0, 0, 33, 0, 0, 0, 0, 0, 0, 0, 0, 0, 0, 0, 0, 0, 10, 0, 0, 0,
   0, 0, 0, 0, 0, 0, 16, 0, 0, 0, 0, 0, 0, 0, 104, 101, 107, 109, 97, 46, 101, 120, 101, 47, 80,
   75, 1, 2, 20, 3, 20, 0, 0, 0, 0, 0, 0, 0, 33, 0, 0, 0, 0, 0, 0, 0, 0, 0, 0, 0, 0, 0, 8, 0, 0,
   0, 0, 0, 0, 0, 0, 0, 16, 0, 0, 0, 40, 0, 0, 0, 104, 107, 109, 46, 101, 120, 101, 47, 80, 75,
   5, 6, 0, 0, 0, 0, 2, 0, 2, 0, 110, 0, 0, 0, 78, 0, 0, 0, 0, 0]

def twoDirectoriesChecksum : Bytes :=
  Utf8.encode ("bb9333a8b93d661baa3be52d39abfcd9695817cecd9d62c22cd1bf490f78ba1c" ++
    "  hekma-v0.2.0-x86_64-pc-windows-msvc.zip").toList

def directoryEntry (name : String) : Entry where
  path := .ok [.normal (Utf8.encode name.toList)]
  kind := .directory
  content := .ok []

def directoriesTools : Tools ℕ where
  parseVersion v :=
    if v = "0.1.0".toList then some 0 else if v = "0.2.0".toList then some 1 else none
  sha256 := Digest.digest
  tarGz _ := .error "invalid gzip header"
  zip archive :=
    if archive = twoDirectories then
      .ok [.ok (directoryEntry "hekma.exe"), .ok (directoryEntry "hkm.exe")]
    else .error "invalid Zip archive"

def directoriesClient : ReleaseClient where
  latestReleaseTag := .ok "v0.2.0"
  download url := .ok
    (if url.toList.getLast? = some '6' then twoDirectoriesChecksum else twoDirectories)

/-- An update to this release, with the answers to its renames. -/
def directoriesUpdate (renameFault : String → ℕ → Option String) : Update ℕ where
  tools := directoriesTools
  host :=
    { writeFault := fun _ _ => none
      renameFault := renameFault
      notFound := "The system cannot find the file specified. (os error 2)"
      pid := 4711
      display := fun name => "C:/hekma/" ++ name }
  client := directoriesClient
  platform := ⟨"windows", "x86_64"⟩
  currentExe := ⟨some "C:/hekma", some "hekma.exe", true, "C:/hekma/hekma.exe"⟩
  currentVersion := "0.1.0"
  files name := if name = "hekma.exe" ∨ name = "hkm.exe" then some [77, 90] else none

def directoriesRelease : Release where
  target := ⟨"x86_64-pc-windows-msvc", "zip", windowsBinaries⟩
  asset := "hekma-v0.2.0-x86_64-pc-windows-msvc.zip"
  archive := twoDirectories
  checksum := twoDirectoriesChecksum

theorem fetchRelease_directories :
    fetchRelease directoriesTools "0.1.0" ⟨"windows", "x86_64"⟩ directoriesClient =
      .ok (some directoriesRelease) := by decide +kernel

theorem binaries_directories :
    directoriesRelease.binaries directoriesTools = .ok [("hekma.exe", []), ("hkm.exe", [])] := by
  decide +kernel

theorem run_directories (renameFault : String → ℕ → Option String) :
    (directoriesUpdate renameFault).run =
      let (r, d) := replaceCurrentBinaries (directoriesUpdate renameFault).host
        (directoriesUpdate renameFault).currentExe [("hekma.exe", []), ("hkm.exe", [])]
        ⟨(directoriesUpdate renameFault).files, []⟩
      (r.map fun _ => .updated, d) := by
  have hfetched : (directoriesUpdate renameFault).fetched = .ok (some directoriesRelease) :=
    fetchRelease_directories
  have hbinaries : directoriesRelease.binaries (directoriesUpdate renameFault).tools =
      .ok [("hekma.exe", []), ("hkm.exe", [])] := binaries_directories
  exact Update.run_eq hfetched hbinaries rfl

/-- The rename of the sibling is refused. -/
def siblingLocked (name : String) (_ : ℕ) : Option String :=
  if name = "hkm.exe" then some "Access is denied. (os error 5)" else none

/-- The directories are installed as empty files; and when the rename of the sibling fails, it is
named as replaced. -/
theorem not_exact_directories : ¬ (directoriesUpdate fun _ _ => none).Exact ∧
    ¬ (directoriesUpdate siblingLocked).Exact := by
  constructor
  · intro hexact
    have hupdated : (directoriesUpdate fun _ _ => none).run.1 = .ok .updated := by
      rw [run_directories]
      decide +kernel
    obtain ⟨release, hfetched, hall⟩ := hexact.installed hupdated
    obtain rfl : directoriesRelease = release := by
      have hsame := fetchRelease_directories.symm.trans hfetched
      simpa using hsame
    obtain ⟨e, he, -, -, hkind, -⟩ := hall "hekma.exe" (by decide)
    have hdirectories : ∀ e ∈ directoriesRelease.entries directoriesTools,
        e.kind = .directory := by decide +kernel
    cases (hdirectories e he).symm.trans hkind
  · intro hexact
    have herror : (directoriesUpdate siblingLocked).run.1 = .error (.partlyReplaced
        ["hkm.exe", "hekma.exe"]
        ["could not replace C:/hekma/hkm.exe: Access is denied. (os error 5)"]) := by
      rw [run_directories]
      decide +kernel
    have hrenamed : Call.rename "hekma.exe" true ∈ (directoriesUpdate siblingLocked).run.2.calls ∧
        Call.rename "hkm.exe" true ∉ (directoriesUpdate siblingLocked).run.2.calls := by
      rw [run_directories]
      decide +kernel
    obtain ⟨replaced, failures, heq, hnamed⟩ := hexact.reported _ herror ⟨_, hrenamed.1, rfl⟩
    cases heq
    exact hrenamed.2 ((hnamed "hkm.exe").1 (by decide))

end Hekma.SelfUpdate
