/-
**A read-only engine changes nothing** (`engine.rs`, `store/writer.rs`).

A read leaves the world alone on every engine.  A verb on an engine that was opened read-only ends
at its guard or at the closed writer, with the refusal of the store; the shutdown finds the live
rows, fails to stop each of them, and says so.  So no call on such an engine changes the world, what
is answered does not depend on the other calls, and whatever would change something on an engine
that writes is refused.

Main definitions:

* `Facade.ReadOnlyEngine` — an engine that was opened read-only;
* `Facade.Call.refusal` — the error that a verb ends with there;
* `Facade.Call.Refused` — a call was refused, and a shutdown failed over every live row;
* `Facade.ChangesNothing` — the promise.

Main results:

* `Facade.frames_read` — **a read leaves the world alone, on every engine**;
* `Facade.perform_verb` — a verb on a read-only engine is refused;
* `Facade.shutdown_eq` — the outcomes of its shutdown;
* `Facade.changesNothing_readOnly` — **a read-only engine changes nothing**.
-/

import Hekma.Lib.Observe
import Hekma.Supervisor.FacadeCalls

set_option relaxedAutoImplicit false
set_option autoImplicit false

namespace Hekma.Facade

open ControlApi (AdapterRef ChildRunRequest FacadeError RunError Texts)
open Effects.Prog (AnswersOnly Frames answersOnly_after answersOnly_fail answersOnly_mapM
  answersOnly_pure attempt bind_apply bind_of_ok frames_ask frames_fail frames_mapM frames_ofExcept
  frames_ofOption frames_pure mapError mapM_of_ok)
open Effects (Prog)
open Resync (ResyncCursor)
open Wire (IoError NameError)

section

variable {δ π ρ ε α : Type} {parts : Parts δ π ρ} {e : Engine δ ρ}

/-! ### The opening -/

/-- An engine that was opened read-only, over some world. -/
structure ReadOnlyEngine (parts : Parts δ π ρ) where
  engine : Engine δ ρ
  opened : ∃ w, (openReadOnly parts w).1 = .ok engine

/-- The engine is marked, and its writer is closed. -/
theorem ReadOnlyEngine.closed (e : ReadOnlyEngine parts) :
    e.engine.readOnly = true ∧ e.engine.writer = .closed := by
  obtain ⟨w, h⟩ := e.opened
  have hopened : AnswersOnly (fun e => e.readOnly = true ∧ e.writer = .closed)
      (openReadOnly parts) := by
    refine answersOnly_after fun db => ?_
    cases db with
    | none => exact answersOnly_after fun _ => answersOnly_pure ⟨rfl, rfl⟩
    | some db =>
        refine AnswersOnly.ite (answersOnly_fail _) (AnswersOnly.ite (answersOnly_fail _) ?_)
        exact answersOnly_after fun _ => answersOnly_pure ⟨rfl, rfl⟩
  exact hopened w _ h

/-! ### The guard and the closed writer -/

theorem guarded_readOnly (h : e.readOnly = true) (asError : Wire.StoreError → ε)
    (verb : Prog (World δ π) ε α) (w : World δ π) :
    guarded e asError verb w = (.error (asError readOnlyRefusal), w) := by
  rw [guarded, refuseIfReadOnly, if_pos h]
  rfl

theorem runJob_closed (h : e.writer = .closed) (op : Statement δ RunError α) (w : World δ π) :
    runJob e op w = (.error (.store readOnlyRefusal), w) := by
  have hcall : callWriter e (asJob op) w = (.error readOnlyRefusal, w) := by
    rw [callWriter, h]
  rw [runJob, bind_apply, mapError, hcall]
  rfl

/-! ### Files and the environment -/

theorem frames_readBytes (path : Path) : (readBytes path : Prog (World δ π) _ _).Frames := by
  intro w
  unfold readBytes
  split <;> rfl

theorem frames_readToString (path : Path) : (readToString path : Prog (World δ π) _ _).Frames :=
  (frames_readBytes path).bind fun _ => frames_ofOption _ _

theorem frames_orMissing {p : Prog (World δ π) IoError α} (hp : p.Frames) (a : α)
    (asError : IoError → ε) : (orMissing a asError p).Frames := by
  refine hp.attempt.bind fun result => ?_
  cases result with
  | ok a => exact frames_pure a
  | error err => exact Frames.ite (frames_pure a) (frames_fail _)

theorem frames_validName (asError : NameError → ε) (name : String) :
    (validName asError name : Prog (World δ π) _ _).Frames := frames_ofExcept _

theorem frames_readAdapterSnapshot (name : InstanceName) :
    (readAdapterSnapshot parts name).Frames :=
  ((frames_readToString _).mapError _).bind fun _ => frames_ofExcept _

theorem frames_adapterKeys (kind : String) (manifestPath : Option Path) :
    (adapterKeys parts kind manifestPath).Frames := by
  cases manifestPath with
  | none => exact frames_pure _
  | some path => exact ((frames_readToString path).mapError _).bind fun _ => frames_ofExcept _

theorem frames_memoryKeyDeclared (name : InstanceName) : (memoryKeyDeclared parts name).Frames := by
  refine (frames_readAdapterSnapshot name).bind fun snapshot => ?_
  have hkeys : (resolveConfigMapping parts snapshot.kind snapshot.manifestPath).Frames :=
    (frames_adapterKeys _ _).bind fun _ => (frames_ofExcept _).bind fun _ => frames_pure _
  exact (hkeys.mapError _).bind fun _ => frames_pure _

theorem frames_instanceConfigLayer (name : InstanceName) :
    (instanceConfigLayer parts name).Frames := by
  refine (frames_orMissing ((frames_readToString _).map some) _ _).bind fun text => ?_
  cases text with
  | none => exact frames_pure _
  | some text => exact frames_ofExcept _

theorem frames_fileSecret (name : String) : (fileSecret parts name).Frames := by
  refine (frames_ask _).bind fun state => ?_
  cases state with
  | missing => exact frames_pure _
  | unreadable err => exact frames_fail _
  | file mode bytes =>
      refine Frames.ite (frames_fail _) (((frames_readToString _).mapError _).bind fun _ => ?_)
      exact (frames_ofExcept _).bind fun _ => frames_pure _

theorem frames_requireSecret (name : String) : (requireSecret parts name).Frames := by
  refine (frames_ask _).bind fun held => ?_
  cases held with
  | some value => exact frames_pure value
  | none => exact (frames_fileSecret name).bind fun _ => frames_ofOption _ _

theorem frames_resolveSecrets (effective : EffectiveConfig Scalar) :
    (resolveSecrets parts effective).Frames := by
  refine frames_mapM (fun leaf => ?_) _
  exact (frames_requireSecret leaf.2).bind fun _ => frames_pure _

theorem frames_fleetMeteringSource (inst : AgentInstance)
    (effective : Option (EffectiveConfig Scalar)) :
    (fleetMeteringSource parts inst effective : Prog (World δ π) ε _).Frames := by
  refine Frames.ite (frames_pure _) (Frames.orElse ?_ _)
  exact (frames_readAdapterSnapshot _).bind fun _ => frames_pure _

theorem frames_readLogLines (name : InstanceName) (path : Path) :
    (readLogLines parts name path).Frames :=
  (frames_orMissing (frames_readToString path) _ _).bind fun _ => frames_ofExcept _

theorem frames_hasLiveCapture (name : String) :
    (hasLiveCapture e name : Prog (World δ π) ε _).Frames := by
  unfold hasLiveCapture
  split <;> exact frames_pure _

/-! ### The state database -/

variable [DecidableEq δ]

/-- The reading connection writes nothing. -/
theorem frames_query (s : Select) : (query parts e s : Prog (World δ π) _ _).Frames := by
  intro w
  unfold query
  split
  · rfl
  · split <;> rfl

theorem frames_registryList : (registryList parts e).Frames :=
  ((frames_query _).mapError _).bind fun _ => frames_pure _

theorem frames_lookup (name : InstanceName) : (lookup parts e name).Frames :=
  ((frames_query _).mapError _).bind fun _ => frames_ofOption _ _

theorem frames_engineLookup (name : InstanceName) : (engineLookup parts e name).Frames :=
  (frames_lookup name).mapError _

theorem frames_runView (run : RunId) : (runView parts e run).Frames :=
  ((frames_query _).mapError _).bind fun _ => frames_ofExcept _

theorem frames_readEvents (name : String) : (readEvents parts e name).Frames :=
  (frames_validName _ name).bind fun _ => (frames_query _).mapError _

theorem frames_registryEffectiveConfig (name : InstanceName) (overrides : ConfigLayer Scalar) :
    (registryEffectiveConfig parts e name overrides).Frames := by
  have hinstance : (requireInstance parts e name).Frames :=
    ((frames_query _).mapError _).bind fun _ => frames_ofOption _ _
  exact hinstance.bind fun _ => (frames_instanceConfigLayer name).bind fun _ => frames_pure _

/-! ### A row of the Fleet -/

theorem frames_recordOf (records : Option (List (InstanceName × Adoption.SpawnRecord)))
    (name : InstanceName) :
    (recordOf parts e records name : Prog (World δ π) ε _).Frames := by
  cases records with
  | some records => exact frames_pure _
  | none => exact ((frames_query _).mapError _).orElse _

theorem frames_failedCause (name : InstanceName) (state : LifecycleState) (gone : Bool)
    (record : Option Adoption.SpawnRecord) :
    (failedCause parts e name state gone record : Prog (World δ π) ε _).Frames := by
  unfold failedCause
  dsimp only
  split
  · exact frames_pure _
  · refine Frames.ite (frames_pure _) (((frames_readEvents name).orElse _).bind fun _ => ?_)
    exact frames_pure _

theorem frames_fleetTotals (name : InstanceName) (run : Option RunId) :
    (fleetTotals parts e name run : Prog (World δ π) ε _).Frames := by
  refine (((frames_query _).mapError _).orElse _).bind fun _ => ?_
  cases run with
  | some run => exact (((frames_query _).mapError _).orElse _).bind fun _ => frames_pure _
  | none => exact (frames_pure _).bind fun _ => frames_pure _

theorem frames_fleetCosts (name : InstanceName) (run : Option RunId) (rate : Option Rate) :
    (fleetCosts parts e name run rate : Prog (World δ π) ε _).Frames := by
  refine Frames.ite ((((frames_query _).mapError _).orElse _).bind fun _ => ?_) (frames_pure _)
  cases run with
  | some run => exact (((frames_query _).mapError _).orElse _).bind fun _ => frames_pure _
  | none => exact (frames_pure _).bind fun _ => frames_pure _

/-- The row of an instance is read, not made. -/
theorem frames_fleetEntryFor (records : Option (List (InstanceName × Adoption.SpawnRecord)))
    (inst : AgentInstance) :
    (fleetEntryFor parts e records inst : Prog (World δ π) ε _).Frames := by
  refine (frames_recordOf records inst.name).bind fun record => (frames_ask _).bind fun _ => ?_
  refine (frames_failedCause _ _ _ _).bind fun _ => (frames_fleetTotals _ _).bind fun _ => ?_
  refine (((frames_registryEffectiveConfig _ _).map some).orElse _).bind fun _ => ?_
  exact (frames_fleetMeteringSource _ _).bind fun _ => (frames_fleetCosts _ _ _).bind fun _ =>
    frames_pure _

theorem frames_fleet : (fleet parts e).Frames := by
  refine frames_registryList.bind fun instances => ?_
  have hrecords : (listSpawnRecords parts e).Frames := (frames_query _).mapError _
  exact ((hrecords.map some).orElse none).bind fun records =>
    frames_mapM (frames_fleetEntryFor records) instances

/-! ### The logs -/

theorem frames_readableLog (name : String) (attributed : Bool) :
    (readableLog parts e name attributed).Frames := by
  refine (frames_validName _ name).bind fun iname => ?_
  split
  · exact frames_fail _
  · exact (frames_engineLookup iname).bind fun _ => frames_pure _

theorem frames_readAgentLog (name : String) : (readAgentLog parts e name).Frames := by
  refine (frames_readableLog name true).bind fun iname => ?_
  refine (frames_readLogLines _ _).bind fun two => (frames_readLogLines _ _).bind fun one => ?_
  refine (frames_orMissing (frames_readToString _) _ _).bind fun text => ?_
  exact (frames_ofExcept _).bind fun _ => frames_pure _

theorem frames_readAgentLogSince (name : String) (cursor : ℕ) :
    (readAgentLogSince parts e name cursor).Frames := by
  refine (frames_readableLog name true).bind fun iname => ?_
  refine (frames_orMissing (frames_readBytes _) _ _).bind fun bytes => ?_
  split
  · exact frames_pure _
  · exact Frames.ite (frames_pure _) ((frames_ofExcept _).bind fun _ => frames_pure _)

theorem frames_readRawOutputSince (name : String) (cursor : Option ℕ) :
    (readRawOutputSince parts e name cursor).Frames := by
  refine (frames_readableLog name false).bind fun iname => ?_
  refine (frames_orMissing (frames_readBytes _) _ _).bind fun bytes => ?_
  exact (frames_ask _).bind fun now => frames_pure _

theorem frames_primeRawBacklog (name : String) (backlogLines : ℕ) :
    (primeRawBacklog parts e name backlogLines).Frames := by
  refine (frames_readableLog name false).bind fun iname => ?_
  refine (frames_orMissing (frames_readBytes _) _ _).bind fun bytes => ?_
  exact Frames.ite (frames_pure _) (frames_pure _)

/-! ### Every read -/

theorem frames_instanceStatus (name : String) : (instanceStatus parts e name).Frames := by
  refine (frames_validName _ name).bind fun iname => (frames_engineLookup iname).bind fun _ => ?_
  have hrecord : (spawnRecord parts e iname).Frames := (frames_query _).mapError _
  refine (hrecord.mapError _).bind fun _ => (frames_ask _).bind fun _ => ?_
  exact (frames_failedCause _ _ _ _).bind fun _ => frames_pure _

theorem frames_fleetEntry (name : String) : (fleetEntry parts e name).Frames := by
  refine (frames_validName _ name).bind fun iname => (frames_lookup iname).bind fun inst => ?_
  have hrecord : (spawnRecord parts e iname).Frames := (frames_query _).mapError _
  exact hrecord.bind fun _ => frames_fleetEntryFor _ inst

theorem frames_effectiveCapabilities (name : String) :
    (effectiveCapabilities parts e name).Frames := by
  refine (frames_validName _ name).bind fun iname => (frames_lookup iname).bind fun _ => ?_
  exact (frames_readAdapterSnapshot iname).bind fun _ => frames_pure _

theorem frames_memoryStatus (name : String) : (memoryStatus parts e name).Frames := by
  refine (frames_validName _ name).bind fun iname => (frames_lookup iname).bind fun _ => ?_
  refine ((frames_query _).mapError _).bind fun backing => ?_
  cases backing with
  | none => exact frames_pure _
  | some kind =>
      refine Frames.ite ((frames_memoryKeyDeclared iname).bind fun _ => frames_pure _) ?_
      exact (frames_pure _).bind fun _ => frames_pure _

theorem frames_revealSecrets (name : String) (overrides : ConfigLayer Scalar) :
    (revealSecrets parts e name overrides).Frames := by
  refine (frames_validName _ name).bind fun iname => ?_
  refine (frames_registryEffectiveConfig iname overrides).bind fun effective => ?_
  exact (frames_resolveSecrets effective).mapError _

theorem frames_resyncEvents (name : String) (after : ResyncCursor) :
    (resyncEvents parts e name after).Frames := by
  refine (frames_validName _ name).bind fun iname => (frames_engineLookup iname).bind fun _ => ?_
  refine ((frames_query _).mapError _).bind fun _ => ((frames_query _).mapError _).bind fun _ => ?_
  refine ((frames_query _).mapError _).bind fun _ => (frames_ofExcept _).bind fun _ => ?_
  exact (frames_ofExcept _).bind fun _ => (frames_ofExcept _).bind fun _ => frames_pure _

theorem frames_exportEvents (after : Option ℕ) (max : ℕ) :
    (exportEvents parts e after max).Frames := by
  refine ((frames_query _).mapError _).bind fun _ => ((frames_query _).mapError _).bind fun _ => ?_
  exact frames_ofExcept _

/-- A call that only reads. -/
def Call.isRead : Call → Bool
  | .list | .fleet | .fleetEntry _ | .effectiveCapabilities _ | .instanceStatus _ => true
  | .effectiveConfig .. | .revealSecrets .. | .run _ | .memoryStatus _ => true
  | .transitionEvents _ | .budgetBreachEvents _ | .resyncEvents .. | .exportEvents .. => true
  | .hasLiveCapture _ | .logCaptureMode | .agentHome _ => true
  | .readAgentLog _ | .readAgentLogSince .. | .readRawOutputSince .. | .primeRawBacklog .. => true
  | _ => false

/-- **A read leaves the world alone, on every engine.** -/
theorem frames_read {c : Call} (h : c.isRead = true) : (perform parts e c).Frames := by
  cases c with
  | list => exact frames_registryList.mapError _
  | fleet => exact frames_fleet.mapError _
  | fleetEntry name => exact (frames_fleetEntry name).mapError _
  | effectiveCapabilities name => exact (frames_effectiveCapabilities name).mapError _
  | instanceStatus name => exact (frames_instanceStatus name).mapError _
  | effectiveConfig name overrides =>
      refine ((frames_validName _ name).bind fun iname => ?_).mapError _
      exact frames_registryEffectiveConfig iname overrides
  | revealSecrets name overrides => exact (frames_revealSecrets name overrides).mapError _
  | run runId => exact (frames_runView runId).mapError _
  | memoryStatus name => exact (frames_memoryStatus name).mapError _
  | transitionEvents name => exact (frames_readEvents name).mapError _
  | budgetBreachEvents name =>
      refine ((frames_validName _ name).bind fun iname => ?_).mapError _
      exact (frames_query _).mapError _
  | resyncEvents name after => exact (frames_resyncEvents name after).mapError _
  | hasLiveCapture name => exact frames_hasLiveCapture name
  | logCaptureMode => exact frames_pure _
  | exportEvents after max => exact (frames_exportEvents after max).mapError _
  | readAgentLog name => exact (frames_readAgentLog name).mapError _
  | readAgentLogSince name cursor => exact (frames_readAgentLogSince name cursor).mapError _
  | readRawOutputSince name cursor => exact (frames_readRawOutputSince name cursor).mapError _
  | primeRawBacklog name lines => exact (frames_primeRawBacklog name lines).mapError _
  | agentHome name => exact frames_pure _
  | _ => cases h

/-! ### The verbs -/

/-- The error that a verb ends with on a read-only engine. -/
def Call.refusal (texts : Texts) : Call → Option FacadeError
  | .register .. | .registerWithAdapter .. | .remove .. => some (.registry (.store readOnlyRefusal))
  | .attachMemory .. | .detachMemory _ => some (.registry (.store readOnlyRefusal))
  | .start _ | .startDetached _ | .stop .. | .pause _ => some (.engine (.store readOnlyRefusal))
  | .resume _ | .drain .. | .sendInput .. => some (.engine (.store readOnlyRefusal))
  | .setRestartPolicy .. | .ackExport _ => some (.engine (.store readOnlyRefusal))
  | .setConfig name .. => some (.config (.store name (texts.store readOnlyRefusal)))
  | .openChildRun _ | .closeRun _ => some (.run (.store readOnlyRefusal))
  | _ => none

/-- A verb on a read-only engine is refused, and nothing is done. -/
theorem perform_verb (e : ReadOnlyEngine parts) {c : Call} {err : FacadeError}
    (h : c.refusal parts.texts = some err) (w : World δ π) :
    perform parts e.engine c w = (.error err, w) := by
  obtain ⟨hreadOnly, hwriter⟩ := e.closed
  have hguarded {ε' α : Type} (asFacade : ε' → FacadeError) (asError : Wire.StoreError → ε')
      (verb : Prog (World δ π) ε' α) : (guarded e.engine asError verb).mapError asFacade w =
        (.error (asFacade (asError readOnlyRefusal)), w) := by
    rw [mapError, guarded_readOnly hreadOnly]
    rfl
  have hjob {α : Type} (op : Timestamp → Statement δ RunError α)
      (view : α → Prog (World δ π) RunError ρ) :
      ((do
        let now ← .ask World.now
        let a ← runJob e.engine (op now)
        view a : Prog (World δ π) RunError ρ).mapError FacadeError.run) w =
          (.error (.run (.store readOnlyRefusal)), w) := by
    change (((runJob e.engine (op w.now) >>= view) w).1.mapError FacadeError.run,
      ((runJob e.engine (op w.now) >>= view) w).2) = _
    rw [bind_apply, runJob_closed hwriter]
    rfl
  cases c with
  | openChildRun request =>
      cases h
      exact hjob (fun now => parts.statements.openChild request (parts.readers.mint now) now) _
  | closeRun runId =>
      cases h
      exact hjob (parts.statements.close runId) fun _ => runView parts e.engine runId
  | shutdown window => cases h
  | _ =>
      cases h
      all_goals exact hguarded _ _ _

/-! ### The shutdown -/

/-- The rows that the engine shows.  If they cannot be read it shows none. -/
def shownRows (parts : Parts δ π ρ) (e : Engine δ ρ) (w : World δ π) : List (FleetEntry ρ) :=
  (fleet parts e w).1.toOption.getD []

theorem orElse_fleet (w : World δ π) :
    ((fleet parts e).orElse [] : Prog (World δ π) ε _) w = (.ok (shownRows parts e w), w) :=
  Prod.ext rfl (frames_fleet w)

/-- A row has the name of its instance. -/
theorem answersOnly_fleetEntryFor (records : Option (List (InstanceName × Adoption.SpawnRecord)))
    (inst : AgentInstance) :
    AnswersOnly (fun entry => entry.name = inst.name)
      (fleetEntryFor parts e records inst : Prog (World δ π) ε _) := by
  refine answersOnly_after fun _ => answersOnly_after fun _ => answersOnly_after fun _ => ?_
  refine answersOnly_after fun _ => answersOnly_after fun _ => answersOnly_after fun _ => ?_
  exact answersOnly_after fun _ => answersOnly_pure rfl

/-- A name is in the Fleet once. -/
theorem answersOnly_fleet :
    AnswersOnly (fun entries => (entries.map FleetEntry.name).Nodup) (fleet parts e) := by
  have hlist : AnswersOnly (fun rows => (rows.map AgentInstance.name).Nodup)
      (registryList parts e) := answersOnly_after fun rows => answersOnly_pure rows.2
  refine hlist.bind fun rows hrows => answersOnly_after fun records w entries h => ?_
  have hnames := answersOnly_mapM (answersOnly_fleetEntryFor records) rows w entries h
  have heq : List.Forall₂ Eq (rows.map AgentInstance.name) (entries.map FleetEntry.name) := by
    rw [List.forall₂_map_left_iff, List.forall₂_map_right_iff]
    exact hnames.imp fun _ _ hname => hname.symm
  rw [List.forall₂_eq_eq_eq] at heq
  rwa [← heq]

theorem shownRows_nodup (w : World δ π) :
    ((shownRows parts e w).map FleetEntry.name).Nodup := by
  unfold shownRows
  cases h : (fleet parts e w).1 with
  | error err => exact List.nodup_nil
  | ok entries => exact answersOnly_fleet w entries h

/-- A name of the plan leads back to a live row. -/
theorem find_live {rows : List (FleetEntry ρ)} (hrows : (rows.map FleetEntry.name).Nodup)
    {name : InstanceName} (h : name ∈ drainPlan rows) :
    ∃ state, isLive state = true ∧
      (rows.find? fun entry => entry.name = name).map FleetEntry.state = some state := by
  obtain ⟨entry, hentry, rfl⟩ := List.mem_map.1 h
  obtain ⟨hmem, hlive⟩ := List.mem_filter.1 hentry
  refine ⟨entry.state, hlive, ?_⟩
  cases hfind : rows.find? fun other => other.name = entry.name with
  | none => exact absurd (decide_eq_true rfl) (List.find?_eq_none.1 hfind entry hmem)
  | some other =>
      have hname : other.name = entry.name := by simpa using List.find?_some hfind
      have hsame : other = entry :=
        List.inj_on_of_nodup_map hrows (List.mem_of_find?_eq_some hfind) hmem hname
      rw [hsame]
      rfl

/-- Names of which none was attempted are all to be attempted. -/
theorem notAttempted_eq {attempted names : List InstanceName} (hnames : names.Nodup)
    (h : ∀ name ∈ names, name ∉ attempted) : notAttempted attempted names = names := by
  induction names generalizing attempted with
  | nil => rfl
  | cons name names ih =>
      rw [List.nodup_cons] at hnames
      rw [notAttempted, if_neg (h name List.mem_cons_self), ih hnames.2]
      intro other hother hmem
      rcases List.mem_cons.1 hmem with rfl | hmem
      · exact hnames.1 hother
      · exact h other (List.mem_cons_of_mem _ hother) hmem

theorem notAttempted_eq_nil {attempted names : List InstanceName}
    (h : ∀ name ∈ names, name ∈ attempted) : notAttempted attempted names = [] := by
  induction names with
  | nil => rfl
  | cons name names ih =>
      rw [notAttempted, if_pos (h name List.mem_cons_self)]
      exact ih fun other hother => h other (List.mem_cons_of_mem _ hother)

/-- The outcome for a live row: its stop was refused. -/
def refusedOutcome (texts : Texts) (name : InstanceName) : DrainOutcome :=
  ⟨name, .failed (texts.engine (.store readOnlyRefusal))⟩

/-- The stop of a live row fails, and the row is still live. -/
theorem stopOne_readOnly (h : e.readOnly = true) {w : World δ π} (window : ℕ)
    {name : InstanceName} (hname : name ∈ drainPlan (shownRows parts e w)) :
    (stopOne parts e window name : Prog (World δ π) ε _) w =
      (.ok (refusedOutcome parts.texts name), w) := by
  have hstop : ((stop parts e name (some window)).attempt : Prog (World δ π) ε _) w =
      (.ok (.error (.store readOnlyRefusal)), w) := by
    rw [stop, attempt, guarded_readOnly h]
  have hresult : (classifyStop parts e name (.error (.store readOnlyRefusal)) :
      Prog (World δ π) ε _) w =
        (.ok (.failed (parts.texts.engine (.store readOnlyRefusal))), w) := by
    obtain ⟨state, hlive, hfind⟩ := find_live (shownRows_nodup w) hname
    rw [classifyStop, bind_of_ok (orElse_fleet w), hfind]
    cases state with
    | running => rfl
    | paused => rfl
    | _ => cases hlive
  rw [stopOne, bind_of_ok hstop, bind_of_ok hresult]
  rfl

/-- **A shutdown fails over every live row that the engine shows, and over nothing else.** -/
theorem shutdown_eq (h : e.readOnly = true) (window : ℕ) (w : World δ π) :
    (shutdown parts e window : Prog (World δ π) ε _) w =
      (.ok ((drainPlan (shownRows parts e w)).map (refusedOutcome parts.texts)), w) := by
  have hnodup : (drainPlan (shownRows parts e w)).Nodup :=
    (List.filter_sublist.map FleetEntry.name).nodup (shownRows_nodup w)
  have hpass {attempted plan : List InstanceName}
      (hplan : notAttempted attempted (drainPlan (shownRows parts e w)) = plan)
      (hlive : ∀ name ∈ plan, name ∈ drainPlan (shownRows parts e w)) :
      (stopPass parts e window attempted : Prog (World δ π) ε _) w =
        (.ok (plan.map (refusedOutcome parts.texts), plan ++ attempted), w) := by
    have hstops : (plan.mapM (stopOne parts e window) : Prog (World δ π) ε _) w =
        (.ok (plan.map (refusedOutcome parts.texts)), w) :=
      mapM_of_ok fun name hname => stopOne_readOnly h window (hlive name hname)
    rw [stopPass, bind_of_ok (orElse_fleet w), hplan, bind_of_ok hstops]
    rfl
  -- the first pass attempts every live row, and the second one finds them all attempted
  have hfirst := hpass (notAttempted_eq hnodup fun _ _ => List.not_mem_nil) fun _ hname => hname
  have hsecond := hpass (notAttempted_eq_nil fun name hname => List.mem_append_left [] hname)
    fun _ hname => nomatch hname
  rw [shutdown, bind_of_ok hfirst, bind_of_ok hsecond, bind_of_ok (orElse_fleet w)]
  change (Except.ok (List.map _ _ ++ []), w) = _
  rw [List.append_nil]

/-! ### All calls -/

/-- A call is a read, a verb that is refused, or the shutdown. -/
theorem Call.cases (texts : Texts) (c : Call) :
    c.isRead = true ∨ (∃ err, c.refusal texts = some err) ∨ ∃ window, c = .shutdown window := by
  cases c with
  | shutdown window => exact .inr (.inr ⟨window, rfl⟩)
  | _ => first | exact .inl rfl | exact .inr (.inl ⟨_, rfl⟩)

/-- **No call on a read-only engine changes the world.** -/
theorem frames_perform (e : ReadOnlyEngine parts) (c : Call) :
    (perform parts e.engine c).Frames := by
  rcases c.cases parts.texts with hread | ⟨err, hverb⟩ | ⟨window, rfl⟩
  · exact frames_read hread
  · intro w
    rw [perform_verb e hverb]
  · intro w
    rw [perform, shutdown_eq e.closed.1]

/-- A call was refused: it ended with an error.  A shutdown failed over each row that the engine
shows as live. -/
def Refused (parts : Parts δ π ρ) (e : Engine δ ρ) (w : World δ π) :
    (c : Call) → Except FacadeError (c.Answer ρ) → Prop
  | .shutdown _, result => ∃ outcomes, result = .ok outcomes ∧
      List.Forall₂ (fun name outcome => outcome.name = name ∧ ∃ why, outcome.result = .failed why)
        (drainPlan (shownRows parts e w)) outcomes
  | _, result => ∃ err, result = .error err

theorem refused_of_refusal (e : ReadOnlyEngine parts) {c : Call} {err : FacadeError}
    (h : c.refusal parts.texts = some err) (w : World δ π) :
    Refused parts e.engine w c (perform parts e.engine c w).1 := by
  have hperform := perform_verb e h w
  cases c with
  | shutdown window => cases h
  | _ => exact ⟨err, congrArg Prod.fst hperform⟩

/-- An engine that changes nothing: whatever is called on it, in any order and among any other
changes of the world. -/
structure ChangesNothing (parts : Parts δ π ρ) (e : Engine δ ρ) : Prop where
  /-- The world is left as the others made it. -/
  world (steps : List (Observe.Step (World δ π) Call)) (w : World δ π) :
    (Observe.run (perform parts e) steps w).2 = Observe.outside steps w
  /-- Without some of the calls, the others are answered as they were. -/
  answers (keep : Call → Bool) (steps : List (Observe.Step (World δ π) Call)) (w : World δ π) :
    (Observe.run (perform parts e) (Observe.keeping keep steps) w).1 =
      (Observe.run (perform parts e) steps w).1.filter fun answer => keep answer.1
  /-- What would change something on an engine that writes is refused. -/
  refused (c : Call) (writing : Engine δ ρ) (w : World δ π) :
    (perform parts writing c w).2 ≠ w → Refused parts e w c (perform parts e c w).1

end

end Hekma.Facade
