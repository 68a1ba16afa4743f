import Refit.Proofs.Files.Path
import Refit.Proofs.Run.Finalization

open List

namespace Refit

open Event

variable {session : Session} {calls : List Performed}

namespace Performed

/-- Whether an operation made a file. -/
def creates (call : Performed) : Bool :=
  call.succeeded && (call.operation = .writeText || call.operation = .copyFile)

/-- Whether an operation took a backup. -/
def backsUp (call : Performed) : Bool := call.succeeded && call.operation = .copyTree

/-- The paths of the files that operations made. -/
def creations (calls : List Performed) : List String := (calls.filter creates).map (·.path.toString)

theorem creations_append (calls more : List Performed) :
    creations (calls ++ more) = creations calls ++ creations more := by
  simp [creations]

end Performed

theorem Call.performed_creates {call : Call} (creates : call.creates = true) (disk : Disk) :
    Performed.creates ⟨call.operation, call.path, true, disk⟩ = true ∧
      Performed.backsUp ⟨call.operation, call.path, true, disk⟩ = false := by
  cases call with
  | write | copy => exact ⟨rfl, rfl⟩
  | makeDirectory | backUp => cases creates

namespace Event

def migrated : Event → List String
  | delivered call => [call.path.toString]
  | pretended path => [path.toString]
  | _ => []

def created : Event → List String
  | delivered call | added call => [call.path.toString]
  | _ => []

def call? : Event → Option (FileOperation × Path)
  | failed call | delivered call | added call => some (call.operation, call.path)
  | made path => some (.ensureDirectory, path)
  | backedUp path => some (.copyTree, path)
  | _ => none

end Event

namespace Session

open Performed

variable {event : Event} {s t start : Session} {base : List Performed} {output : Path}

theorem createdPaths_append (data : RollbackData) (path : String) :
    RollbackData.createdPaths { data with operations := data.operations ++ [⟨.create, path⟩] } =
      data.createdPaths ++ [path] := by
  simp [RollbackData.createdPaths]

/-- What a step with some operations does to the log and to the outcome. -/
structure Accounts (event : Event) (s t : Session) (calls : List Performed) : Prop where
  history : t.world.history = s.world.history ++ calls
  named : ∀ call ∈ calls, event.call? = some (call.operation, call.path)
  created : t.rollback.createdPaths = s.rollback.createdPaths ++ event.created
  creations : creations calls = event.created
  migrated : t.outcome.migratedFiles = s.outcome.migratedFiles ++ event.migrated
  unattached : t.outcome.rollbackData = s.outcome.rollbackData
  backup : (calls.any Performed.backsUp = false ∧ t.rollback.backupPath = s.rollback.backupPath) ∨
    ∃ path, event = .backedUp path ∧ calls.any Performed.backsUp = true ∧ t.rollback.backupPath = path.toString

theorem Step.accounts (step : Step event s t) : ∃ calls, Accounts event s t calls := by
  cases step with
  | failed _ call _ run =>
    obtain ⟨disk, _, rfl⟩ := Call.perform_error run
    refine ⟨[⟨call.operation, call.path, false, disk⟩], rfl, ?_, ?_, rfl, ?_, rfl, .inl ⟨rfl, rfl⟩⟩ <;>
      simp [Event.call?, Event.created, Event.migrated]
  | made _ path _ run =>
    obtain ⟨disk, _, rfl⟩ := Call.perform_ok run
    refine ⟨[⟨.ensureDirectory, path, true, disk⟩], rfl, ?_, ?_, rfl, ?_, rfl, .inl ⟨rfl, rfl⟩⟩ <;>
      simp [Event.call?, Event.created, Event.migrated]
  | backedUp _ path _ run =>
    obtain ⟨disk, _, rfl⟩ := Call.perform_ok run
    refine ⟨[⟨.copyTree, path, true, disk⟩], rfl, ?_, ?_, rfl, ?_, rfl, .inr ⟨path, rfl, rfl, rfl⟩⟩ <;>
      simp [Event.call?, Event.created, Event.migrated, RollbackData.createdPaths]
  | delivered _ call _ creates run =>
    obtain ⟨disk, _, rfl⟩ := Call.perform_ok run
    have made := Call.performed_creates creates disk
    refine ⟨[⟨call.operation, call.path, true, disk⟩], rfl, ?_, createdPaths_append _ _, ?_, rfl, rfl,
      .inl ⟨?_, rfl⟩⟩ <;> simp [Event.call?, Performed.creations, made, Event.created]
  | added _ call _ creates run =>
    obtain ⟨disk, _, rfl⟩ := Call.perform_ok run
    have made := Call.performed_creates creates disk
    refine ⟨[⟨call.operation, call.path, true, disk⟩], rfl, ?_, createdPaths_append _ _, ?_, ?_, rfl,
      .inl ⟨?_, rfl⟩⟩ <;> simp [Event.call?, Performed.creations, made, Event.created, Event.migrated, Session.created]
  | pretended _ path _ =>
    refine ⟨[], ?_, ?_, ?_, rfl, rfl, rfl, .inl ⟨rfl, rfl⟩⟩ <;> simp [Event.created, migrated, change]
  | _ =>
    refine ⟨[], ?_, ?_, ?_, rfl, ?_, rfl, .inl ⟨rfl, rfl⟩⟩ <;>
      simp [Event.created, Event.migrated, change, World.note, World.readClock, Outcome.counted,
        Outcome.countChange]

/-- The log of a session agrees with the calls since a history. -/
structure Ledger (base calls : List Performed) (s : Session) : Prop where
  history : s.world.history = base ++ calls
  created : s.rollback.createdPaths = creations calls
  backup : s.rollback.backupPath.isEmpty = !calls.any Performed.backsUp
  unattached : s.outcome.rollbackData = none

theorem Ledger.step {more : List Performed} (ledger : Ledger base calls s)
    (accounts : Accounts event s t more) (absolute : ∀ path, event = .backedUp path → path.isAbsolute = true) :
    Ledger base (calls ++ more) t where
  history := by rw [accounts.history, ledger.history, append_assoc]
  created := by rw [accounts.created, ledger.created, creations_append, accounts.creations]
  backup := by
    rcases accounts.backup with ⟨none, same⟩ | ⟨path, is, some, put⟩
    · rw [same, ledger.backup, any_append, none, Bool.or_false]
    · rw [put, Path.toString_isEmpty (absolute path is), any_append, some, Bool.or_true]
      rfl
  unattached := by rw [accounts.unattached, ledger.unattached]

theorem Step.migrated_eq_created (step : Step event s t) (real : s.options.dryRun = false)
    (prepares : event.prepares start) : event.migrated = event.created := by
  cases step with
  | pretended _ _ dry => exact absurd (real.symm.trans dry) (by simp)
  | added =>
    simp [Event.prepares, validates, analyzes, Event.backsUp, setsUp, migrates]
      at prepares
  | _ => rfl

theorem backupPath_isAbsolute (absolute : session.output.isAbsolute = true)
    (moment : Moment) : (Stage.backupPath session moment).isAbsolute = true := by
  unfold Stage.backupPath Path.join
  split
  · next given => exact given
  · exact absolute

theorem isAbsolute_of_prepares (absolute : start.output.isAbsolute = true) {path : Path}
    (prepares : Event.prepares start (.backedUp path)) : path.isAbsolute = true := by
  simp only [Event.prepares, validates, analyzes, Event.backsUp, setsUp, migrates,
    false_or, or_false] at prepares
  obtain ⟨moment, rfl⟩ := prepares
  exact backupPath_isAbsolute absolute moment

theorem Ledger.prepared (absolute : start.output.isAbsolute = true) (real : s.options.dryRun = false)
    (trace : Trace (Event.prepares start) s t) (ledger : Ledger base [] s)
    (migrated : s.outcome.migratedFiles = []) :
    ∃ calls, Ledger base calls t ∧ t.outcome.migratedFiles = creations calls := by
  induction trace with
  | refl => exact ⟨[], ledger, migrated⟩
  | tail before last ih =>
    obtain ⟨calls, ledger, migrated⟩ := ih
    obtain ⟨event, prepares, step⟩ := last
    obtain ⟨more, accounts⟩ := step.accounts
    have still : _ = s.options := (Trace.sameRun before).options
    refine ⟨calls ++ more, ledger.step accounts (fun path is => ?_), ?_⟩
    · exact isAbsolute_of_prepares absolute (is ▸ prepares)
    · rw [accounts.migrated, migrated, creations_append, accounts.creations,
        step.migrated_eq_created (by rw [still, real]) prepares]

/-- An operation that writes a file which belongs to the output as a whole. -/
def WritesArtifact (output : Path) (operation : FileOperation) (path : Path) : Prop :=
  operation = .writeText ∧ ∃ names ∈ artifactPlaces, path = output.below names

theorem finalizes_cases (finalizes : event.finalizes output) :
    event.migrated = [] ∧ (∀ path, event ≠ .backedUp path) ∧
      ∀ operation path, event.call? = some (operation, path) → WritesArtifact output operation path := by
  cases event with
  | failed call | added call =>
    obtain ⟨names, listed, content, rfl⟩ := finalizes
    refine ⟨rfl, by simp, fun operation path called => ?_⟩
    cases called
    exact ⟨rfl, names, listed, rfl⟩
  | logged | timed | problem | counted => exact ⟨rfl, by simp, by simp [Event.call?]⟩
  | _ => cases finalizes

theorem Ledger.finalized (trace : Trace (Event.finalizes output) s t) (ledger : Ledger base calls s) :
    ∃ more, Ledger base (calls ++ more) t ∧ t.outcome.migratedFiles = s.outcome.migratedFiles ∧
      ∀ call ∈ more, WritesArtifact output call.operation call.path := by
  induction trace with
  | refl => exact ⟨[], by simpa using ledger, rfl, by simp⟩
  | tail before last ih =>
    obtain ⟨more, ledger, migrated, places⟩ := ih
    obtain ⟨event, finalizes, step⟩ := last
    obtain ⟨next, accounts⟩ := step.accounts
    obtain ⟨none, notBackup, artifact⟩ := finalizes_cases finalizes
    refine ⟨more ++ next, ?_, ?_, ?_⟩
    · rw [← append_assoc]
      exact ledger.step accounts (fun path is => absurd is (notBackup path))
    · rw [accounts.migrated, none, append_nil, migrated]
    · intro call member
      rcases mem_append.1 member with earlier | later
      · exact places call earlier
      · exact artifact _ _ (accounts.named call later)

end Session

namespace Migration

open Session Performed

variable {s : Session}

theorem ledger_session {migration : Migration} {source : String} {texts : List ExtractedText} {world : World}
    (begins : migration.session source texts world = .ok session) :
    Ledger world.history [] session ∧ session.outcome.migratedFiles = [] ∧
      session.options = migration.options ∧ session.output.isAbsolute = true := by
  obtain ⟨sourcePath, outputPath, _, resolved, rfl⟩ := session_eq_ok begins
  refine ⟨⟨(append_nil _).symm, rfl, rfl, rfl⟩, rfl, rfl, ?_⟩
  unfold Disk.resolveUser at resolved
  split at resolved
  · cases resolved
  · split at resolved
    · cases resolved
    · cases resolved
      rfl

theorem ledger_settled {base : List Performed} (ended : Except Fault Unit)
    (ledger : Ledger base calls s) :
    Ledger base calls (settled ended s) ∧ (settled ended s).outcome.migratedFiles = s.outcome.migratedFiles := by
  cases ended with
  | ok => exact ⟨ledger, rfl⟩
  | error => exact ⟨⟨ledger.history, ledger.created, ledger.backup, ledger.unattached⟩, rfl⟩

theorem rollbackData_conclude {base : List Performed} (started : Moment)
    (ledger : Ledger base calls s) :
    (conclude started s).outcome.rollbackData =
      if calls.any Performed.backsUp then some (conclude started s).rollback else none := by
  have attached : (conclude started s).outcome.rollbackData =
      if s.rollback.backupPath.isEmpty then s.outcome.rollbackData else some s.rollback := rfl
  rw [attached, ledger.backup, ledger.unattached]
  cases calls.any Performed.backsUp <;> rfl

/-- The log of a real run lists the files that the run made, in their order, whatever failed. First
    come the migrated files, then those of the finalization; and the log is handed out if and only
    if a backup was taken. -/
theorem rollbackLog_exact (migration : Migration) (source : String) (observer : Option Observer)
    (texts : List ExtractedText) (world : World) (started : Moment) {session final : Session}
    {told : List Progress} (real : migration.options.dryRun = false)
    (begins : migration.session source texts world = .ok session)
    (ends : runSession observer started session = (final, told)) :
    ∃ earlier finishing,
      (beforeFinalization observer session).world.history = world.history ++ earlier ∧
      final.world.history = world.history ++ earlier ++ finishing ∧
      final.rollback.createdPaths = creations (earlier ++ finishing) ∧
      final.outcome.migratedFiles = creations earlier ∧
      (∀ call ∈ finishing, WritesArtifact session.output call.operation call.path) ∧
      final.outcome.rollbackData =
        if (earlier ++ finishing).any Performed.backsUp then some final.rollback else none := by
  obtain ⟨fresh, unmigrated, same, absolute⟩ := ledger_session begins
  obtain ⟨earlier, held, migrated⟩ := fresh.prepared absolute (by rw [same, real])
    (prepared_trace observer session) unmigrated
  obtain ⟨finishing, done, kept, places⟩ := held.finalized (completed_trace observer session)
  rw [runSession_eq] at ends
  obtain ⟨rfl, rfl⟩ := Prod.mk.inj ends
  have before := (ledger_settled (prepared observer session).1 held).1
  obtain ⟨settled, unchanged⟩ := ledger_settled (completed observer session).1 done
  refine ⟨earlier, finishing, before.history, ?_, settled.created, ?_, places, ?_⟩
  · exact settled.history.trans (append_assoc _ _ _).symm
  · exact unchanged.trans (kept.trans migrated)
  · exact rollbackData_conclude started settled

def bareAdapter (files : List (String × String)) : Adapter where
  name := "bare"
  description := "Bare"
  recognises _ _ := pure true
  analyze _ path _ := pure
    { root := path.toString, source := "bare", framework := "react", language := "javascript"
      packageManager := "npm", layout := { sourceDir := "src", componentsDir := "components" } }
  component _ _ _ := throw .notAnalyzed
  page _ _ _ := throw .notAnalyzed
  companion _ _ _ := throw .notAnalyzed
  styles _ _ := pure []
  carriedStyles _ _ _ _ := pure []
  configuration _ := pure files
  manifest _ := pure .null
  render _ _ := .error .notAnalyzed

def bareMigration : Migration :=
  { options := { OptionsOf.plain false "/out" with createBackup := true }
    adapter := some (bareAdapter [("a.txt", "a"), ("b.txt", "b"), ("c.txt", "c")])
    candidates := [] }

/-- A world that has no space for one of the files. -/
def bareWorld : World :=
  { disk :=
      { root := .directory [("project", .directory [("x.txt", .file [])])], workingDirectory := [], homes := [] }
    clock := ⟨⟨0, 0⟩, 0⟩
    refuses := fun operation path => operation = .writeText && path.name = "b.txt"
    calls := []
    log := Log.Router.initial
    stamp := "" }

theorem rollbackLog_exact_bare :
    ∃ session final told, bareMigration.options.dryRun = false ∧
      bareMigration.session "/project" [] bareWorld = .ok session ∧
      runSession none bareWorld.clock.now session = (final, told) ∧
      final.rollback.createdPaths = ["/out/a.txt", "/out/c.txt", "/out/package.json"] ∧
      ∃ earlier finishing,
        (beforeFinalization none session).world.history = bareWorld.history ++ earlier ∧
        final.world.history = bareWorld.history ++ earlier ++ finishing ∧
        final.rollback.createdPaths = creations (earlier ++ finishing) ∧
        final.outcome.migratedFiles = creations earlier ∧
        (∀ call ∈ finishing, WritesArtifact session.output call.operation call.path) ∧
        final.outcome.rollbackData =
          if (earlier ++ finishing).any Performed.backsUp then some final.rollback else none :=
  ⟨_, _, _, rfl, rfl, rfl, by decide +kernel,
    rollbackLog_exact bareMigration "/project" none [] bareWorld bareWorld.clock.now rfl rfl rfl⟩

end Migration
end Refit
