import Refit.Proofs.CommandLine.Call

namespace Refit

open Disk Path DiskAction World Migration

variable {world after : World} {session : Session}

namespace Rollback

theorem exec_perform_eq (operation : FileOperation) (path : Path) (action : DiskAction Unit) (world : World) :
    exec (perform operation path action) world = World.perform operation path action world := by
  rcases performed : World.perform operation path action world with ⟨outcome, after⟩
  rw [perform, exec_get_bind, performed]
  cases outcome <;> rfl

/-- A backup was copied onto an output. -/
structure Copied (output : Path) (start after : World) : Prop where
  calls : after.calls = start.calls ++ [(.copyTree, output)]
  changes : Disk.Changes (fun _ => True) start.disk after.disk

theorem Copied.note {output : Path} {start : World} (copied : Copied output start after) (record : Log.Record) :
    Copied output start (after.note record) :=
  ⟨copied.calls, copied.changes.trans ((note_touched after record).changes.mono (fun _ _ => trivial))⟩

theorem copies (tidy : world.disk.root.tidy = true) (source output : Path) (before after : String) :
    Copied output world (exec (do
      note before
      perform .copyTree output (copyTree source output)
      note after) world).2 := by
  have logged := (note_touched world ⟨.info, part, before⟩).changes
  obtain ⟨_, touched⟩ := backUp_touches (logged.tidy tidy) source output
  have called := Call.calls_perform (Call.backUp source output) (world.note ⟨.info, part, before⟩)
  have copied : Copied output world
      (World.perform .copyTree output (copyTree source output) (world.note ⟨.info, part, before⟩)).2 :=
    ⟨called, (logged.mono (fun _ _ => trivial)).trans (touched.changes.mono (fun _ _ => trivial))⟩
  rw [exec_bind, note, exec_modify]
  dsimp only
  rw [exec_bind, exec_perform_eq]
  rcases performed : World.perform .copyTree output (copyTree source output)
    (world.note ⟨.info, part, before⟩) with ⟨outcome, last⟩
  rw [performed] at copied
  cases outcome with
  | error fault => exact copied
  | ok => exact copied.note _

theorem rollBack_cases {data : RollbackData} {world : World} (created : data.operations = [])
    (tidy : world.disk.root.tidy = true) (outputPath : String) :
    (exec (rollBack (some data) outputPath) world).2 = world ∨
      Copied (ofString outputPath) world (exec (rollBack (some data) outputPath) world).2 := by
  have none : data.createdPaths.reverse = [] := by simp [RollbackData.createdPaths, created]
  unfold rollBack
  dsimp only
  rw [none]
  split
  · exact .inl rfl
  rw [exec_get_bind]
  split
  · exact .inl rfl
  right
  rw [exec_bind]
  exact copies tidy _ _ _ _

end Rollback

namespace Migration

theorem Rejected.rollbackData {final : Session} (rejected : Rejected session final)
    (fresh : session.rollback = {}) (unattached : session.outcome.rollbackData = none)
    (attached : final.outcome.rollbackData =
      if final.rollback.backupPath.isEmpty then session.outcome.rollbackData else some final.rollback) :
    final.outcome.rollbackData = none ∨
    session.options.createBackup = true ∧ session.options.dryRun = false ∧
      final.world.calls = session.world.calls ++ [(.copyTree, intended session)] ∧
      final.outcome.rollbackData = some { backupPath := (intended session).toString } := by
  rw [unattached] at attached
  have none (same : final.rollback = session.rollback) : final.outcome.rollbackData = none := by
    rw [attached, same, fresh]
    rfl
  rcases rejected.called with ⟨_, same⟩ | ⟨wanted, real, called, same | taken⟩
  · exact .inl (none same)
  · exact .inl (none same)
  · rw [attached, taken, fresh]
    split
    · exact .inl rfl
    · exact .inr ⟨wanted, real, called, rfl⟩

end Migration

namespace CommandLine

open Stage (isPopulated)

/-- The backup that a migration into an output is to take. -/
def MigrateRequest.backup? (asked : MigrateRequest) (world : World) (output : Path) : Option Path :=
  (world.disk.resolveUser (ofString asked.path)).toOption.map
    (fun source => output.parent.child (Stage.backupName source world.readClock.2.clock.now))

/-- A rollback has copied the backup of a migration onto its output. -/
structure Overwrites (asked : MigrateRequest) (options : Options) (start after : World) : Prop where
  undoes : asked.rollbackOnFailure = true
  backup : options.createBackup = true
  real : options.dryRun = false
  called : ∃ backup, asked.backup? start (Path.ofString options.outputPath) = some backup ∧
    after.calls = start.calls ++ [(.copyTree, backup), (.copyTree, Path.ofString options.outputPath)]
  changes : Disk.Changes (fun _ => True) start.disk after.disk

variable {asked : MigrateRequest} {migration : Migration} {world : World}

/-- A world in which something was written to the console since another one. -/
def Spoken (start world : World) : Prop :=
  ∃ log, log.handlers = start.log.handlers ∧ world = { start with log := log }

theorem Spoken.refl (world : World) : Spoken world world := ⟨world.log, rfl, rfl⟩

theorem spoken_fail (out complaint : String) (world : World) : Spoken world (exec (fail out complaint) world).2 :=
  ⟨world.log.print complaint, rfl, rfl⟩

theorem Spoken.calls {start : World} (spoken : Spoken start world) : world.calls = start.calls := by
  obtain ⟨_, _, rfl⟩ := spoken
  rfl

theorem Spoken.spares {start : World} (spoken : Spoken start world) (output : Path) :
    World.Spares output start world := by
  obtain ⟨log, same, rfl⟩ := spoken
  exact .of_same rfl same

theorem runMigration_ends {outcome : Outcome} {told : List Progress}
    (ran : migration.migrate (ofString asked.path).toString (some (fun _ => .ok ())) [] world =
      (.ok (outcome, told), after)) :
    ∃ before, Spoken after before ∧
      (Spoken before (exec (runMigration asked migration) world).2 ∨
      ∃ data, outcome.rollbackData = some data ∧ asked.rollbackOnFailure = true ∧
        Spoken (exec (Rollback.rollBack (some data) migration.options.outputPath) before).2
          (exec (runMigration asked migration) world).2) := by
  rw [exec_runMigration ran]
  refine ⟨{ after with log := after.log.print (errorLines outcome) }, ⟨after.log.print _, rfl, rfl⟩, ?_⟩
  unfold conclusion
  split
  · exact .inl (.refl _)
  cases kept : outcome.rollbackData with
  | none => exact .inl (spoken_fail _ _ _)
  | some data =>
    dsimp only
    split
    · next undoes =>
        rw [Bool.and_eq_true] at undoes
        refine .inr ⟨data, rfl, undoes.1, ?_⟩
        rw [exec_tryCatch, exec_bind, Migration.rollBack, kept]
        rcases exec (Rollback.rollBack (some data) migration.options.outputPath)
          { after with log := after.log.print (errorLines outcome) } with ⟨outcome, last⟩
        cases outcome with
        | ok => exact spoken_fail _ _ last
        | error fault =>
          dsimp only
          split
          · exact spoken_fail _ _ last
          · exact spoken_fail _ _ last
          · exact .refl last
    · exact .inl (spoken_fail _ _ _)

/-- The session that a call starts its migration with. -/
structure Begins (asked : MigrateRequest) (migration : Migration) (world : World) (session : Session) : Prop where
  source : session.source.Resolved
  output : session.output = Path.ofString migration.options.outputPath
  options : session.options = migration.options
  timed : session.world = world.readClock.2
  fresh : session.rollback = {}
  unattached : session.outcome.rollbackData = none
  backup : asked.backup? world session.output = some (Migration.intended session)

theorem begins_of_session (start : ∀ name ∈ world.disk.workingDirectory, Path.ValidName name)
    (output : (ofString migration.options.outputPath).Resolved)
    (begins : migration.session (ofString asked.path).toString [] world.readClock.2 = .ok session) :
    Begins asked migration world session := by
  obtain ⟨sourcePath, outputPath, foundSource, foundOutput, rfl⟩ := session_eq_ok begins
  rw [ofString_toString (ofString_valid _)] at foundSource
  rw [Disk.resolveUser_resolved _ output] at foundOutput
  split at foundOutput
  · cases foundOutput
  · cases foundOutput
    have source : sourcePath.Resolved :=
      Disk.resolved_of_resolveUser start (ofString_valid asked.path) foundSource
    refine ⟨source, rfl, rfl, rfl, rfl, rfl, ?_⟩
    have here : world.disk.resolveUser (ofString asked.path) = .ok sourcePath := foundSource
    rw [MigrateRequest.backup?, here, Migration.intended, Stage.backupPath_eq source.valid]
    rfl

theorem runMigration_spares (tidy : world.disk.root.tidy = true)
    (start : ∀ name ∈ world.disk.workingDirectory, Path.ValidName name)
    (output : (ofString migration.options.outputPath).Resolved)
    (populated : isPopulated world.disk (ofString migration.options.outputPath) = true)
    (nonempty : (ofString migration.options.outputPath).names ≠ [])
    (different : asked.backup? world (ofString migration.options.outputPath) ≠
      some (ofString migration.options.outputPath)) :
    World.Spares (ofString migration.options.outputPath) world (exec (runMigration asked migration) world).2 ∨
      Overwrites asked migration.options world (exec (runMigration asked migration) world).2 := by
  cases begins : migration.session (ofString asked.path).toString [] world.readClock.2 with
  | error fault =>
    have failed : migration.migrate (ofString asked.path).toString (some (fun _ => .ok ())) [] world =
        (.error fault, world.readClock.2) := by simp only [Migration.migrate, begins]
    rw [runMigration, exec_get_bind, failed]
    exact .inl (.of_same rfl rfl)
  | ok session =>
    have begun := begins_of_session start output begins
    rw [← begun.output] at output populated nonempty different ⊢
    rw [begun.backup] at different
    have disk : session.world.disk = world.disk := by rw [begun.timed]; rfl
    obtain ⟨_, rejected, attached⟩ := runSession_rejected (by rw [disk]; exact populated)
      (by rw [disk]; exact tidy) begun.source output nonempty (fun same => different (congrArg some same))
      (some (fun _ => .ok ())) world.readClock.1
    obtain ⟨before, spoken, ended⟩ := runMigration_ends (migrate_eq begins (some (fun _ => .ok ())))
    have spared : World.Spares session.output world before := by
      have timed : World.Spares session.output world session.world := by
        rw [begun.timed]
        exact .of_same rfl rfl
      exact (timed.trans rejected.spares).trans (spoken.spares _)
    rcases ended with quiet | ⟨data, kept, undoes, last⟩
    · exact .inl (spared.trans (quiet.spares _))
    · rcases rejected.rollbackData begun.fresh begun.unattached attached with none | ⟨wanted, real, called, taken⟩
      · cases none.symm.trans kept
      · cases taken.symm.trans kept
        have still := spared.changes.tidy tidy
        rcases @Rollback.rollBack_cases { backupPath := (Migration.intended session).toString } before rfl still
          migration.options.outputPath with same | copied
        · rw [same] at last
          exact .inl (spared.trans (last.spares _))
        · rw [begun.options] at wanted real
          refine .inr ⟨undoes, wanted, real, ⟨_, begun.output ▸ begun.backup, ?_⟩,
            (spared.changes.trans copied.changes).trans (last.spares session.output).changes⟩
          rw [last.calls, copied.calls, spoken.calls, called, begun.timed, List.append_assoc]
          rfl

theorem backup?_congr {after : World} (start : after.disk.workingDirectory = world.disk.workingDirectory)
    (homes : after.disk.homes = world.disk.homes) (clock : after.clock = world.clock) (output : Path) :
    asked.backup? after output = asked.backup? world output := by
  have now : after.readClock.2.clock.now = world.readClock.2.clock.now := by rw [readClock, readClock, clock]
  rw [MigrateRequest.backup?, MigrateRequest.backup?, Disk.resolveUser_congr start homes, now]

variable {config : Config} {options : Options} {plugins : List PluginEntry}

theorem migrate_spares (set : settings asked world.disk = .ok (config, options)) (tidy : world.disk.root.tidy = true)
    (start : ∀ name ∈ world.disk.workingDirectory, Path.ValidName name)
    (populated : isPopulated world.disk (ofString options.outputPath) = true)
    (nonempty : (ofString options.outputPath).names ≠ [])
    (different : asked.backup? world (ofString options.outputPath) ≠ some (ofString options.outputPath)) :
    World.Spares (ofString options.outputPath) world (exec (migrate plugins asked) world).2 ∨
      Overwrites asked options world (exec (migrate plugins asked) world).2 := by
  have output := output_resolved start set
  rcases migrate_cases set with ⟨complaint, run⟩ | ⟨records, ended⟩
  · rw [run]
    exact .inl ((spoken_fail _ _ _).spares _)
  have relogged := (World.Relogged.refl world).noteAll records
  have spared : World.Spares (ofString options.outputPath) world (world.noteAll records) := .of_relogged relogged
  rcases ended with ⟨fault, run⟩ | ⟨adapter, candidates, run⟩
  · rw [run]
    exact .inl spared
  · have clock : (world.noteAll records).clock = world.clock := by rw [noteAll_rest]
    have calls : (world.noteAll records).calls = world.calls := calls_noteAll world records
    have backup := @backup?_congr asked _ _ spared.changes.workingDirectory spared.changes.homes clock
    rw [run]
    rcases @runMigration_spares asked ⟨options, adapter, candidates⟩ (world.noteAll records)
      (spared.changes.tidy tidy) (by rw [spared.changes.workingDirectory]; exact start) output
      (Stage.isPopulated_of_changes spared.changes populated) nonempty (by rw [backup]; exact different) with
      kept | overwrites
    · exact .inl (spared.trans kept)
    · obtain ⟨undoes, wanted, real, ⟨path, named, called⟩, changes⟩ := overwrites
      rw [backup] at named
      rw [calls] at called
      exact .inr ⟨undoes, wanted, real, ⟨path, named, called⟩, spared.changes.trans changes⟩

/-- A call that migrates into a populated output leaves everything in the output as it was, provided that
    the way to the log file does not lead there. The one exception is a call that asks for a backup and for
    a rollback, and is no dry run: it copies its backup onto the output. -/
theorem call_spares_output (plugins : List PluginEntry) {texts : List String} {request : Request} (reads : Request.read texts = .ok request)
    (asks : request.task = .migrate asked) {logged : World} (regular : world.disk.Regular)
    (logs : (exec (WorldAction.configureLog request.verbose (request.logFile.map ofString)) world).2 = logged)
    (set : settings asked logged.disk = .ok (config, options))
    (populated : isPopulated world.disk (ofString options.outputPath) = true)
    (nonempty : (ofString options.outputPath).names ≠ [])
    (different : asked.backup? world (ofString options.outputPath) ≠ some (ofString options.outputPath))
    (away : ∀ file ∈ request.logFile, ∀ stop ∈ stops world.disk (ofString file),
      ¬ (ofString options.outputPath).names <+: stop) :
    (∀ below, (exec (call plugins texts) world).2.disk.at? ((ofString options.outputPath).names ++ below) =
      world.disk.at? ((ofString options.outputPath).names ++ below)) ∨
      Overwrites asked options world (exec (call plugins texts) world).2 := by
  have equipped := WorldAction.configureLog_equips request.verbose (request.logFile.map ofString) world
  rw [logs] at equipped
  have changes := equipped.touched.changes.mono (fun _ _ => trivial)
  have off (below : List String) : ¬ ∃ path ∈ request.logFile.map ofString,
      (ofString options.outputPath).names ++ below ∈ stops world.disk path :=
    unstopped (fun file given on => away file given _ on (List.prefix_append _ _))
  have before (below : List String) := equipped.touched.at? (off below) (off below)
  rw [exec_call reads, exec_run_migrate asks, exec_bind]
  rcases first : exec (WorldAction.configureLog request.verbose (request.logFile.map ofString)) world with
    ⟨outcome, after⟩
  obtain rfl : after = logged := (congrArg Prod.snd first).symm.trans logs
  cases outcome with
  | error fault => exact .inl before
  | ok =>
    have backup := @backup?_congr asked _ _ changes.workingDirectory changes.homes equipped.clock
    rcases migrate_spares set (changes.tidy regular.tidy) (by rw [changes.workingDirectory]; exact regular.start)
      (Stage.isPopulated_of_changes changes populated) nonempty (by rw [backup]; exact different) with
      spares | overwrites
    · left
      intro below
      exact (spares.same below (fun there => off below (equipped.logs _ there))).trans (before below)
    · obtain ⟨undoes, wanted, real, ⟨path, named, called⟩, further⟩ := overwrites
      rw [backup] at named
      rw [equipped.calls] at called
      exact .inr ⟨undoes, wanted, real, ⟨path, named, called⟩, changes.trans further⟩

/-- A call that asks for a rollback, with or without a backup. -/
def rollbackTexts (backup : Bool) : List String :=
  ["--log-file", "run.log", "migrate", "project", "-o", "out"] ++ (if backup then ["--backup"] else []) ++
    ["--rollback-on-failure"]

def rollbackAsked (backup : Bool) : MigrateRequest :=
  { path := "project"
    adapter := none
    overrides :=
      [("output_path", .string "out"), ("target_platform", .null), ("target_styling", .null),
       ("preserve_structure", .null), ("create_backup", if backup then .bool true else .null), ("migrate_tests", .null),
       ("migrate_stories", .null), ("convert_to_typescript", .null), ("add_localization", .null),
       ("add_compliance", .null), ("dry_run", .null)]
    rollbackOnFailure := true }

def rollbackRequest (backup : Bool) : Request :=
  { verbose := false, logFile := some "run.log", task := .migrate (rollbackAsked backup) }

/-- A world with a project, and with an output that has a file of the same name. -/
def clashingWorld : World :=
  { occupiedWorld with
    disk :=
      { root := .directory
          [("out", .directory [("lovable.json", .file [1])]), ("project", .directory [("lovable.json", .file [])])]
        workingDirectory := []
        homes := [] } }

theorem call_spares_output_unbacked :
    Request.read (rollbackTexts false) = .ok (rollbackRequest false) ∧
      isPopulated clashingWorld.disk (ofString "/out") = true ∧
      (exec (call [] (rollbackTexts false)) clashingWorld).2.disk.at? ["out", "lovable.json"] = some (.file [1]) := by
  have reads : Request.read (rollbackTexts false) = .ok (rollbackRequest false) := rfl
  have regular : clashingWorld.disk.Regular := ⟨by decide, by decide, by decide⟩
  have populated : isPopulated clashingWorld.disk (ofString "/out") = true := by decide
  have set : settings (rollbackAsked false)
      (exec (WorldAction.configureLog false (some (ofString "run.log"))) clashingWorld).2.disk =
      .ok ({ root := ⟨.slash, ["project"]⟩ }, OptionsOf.plain false "/out") := rfl
  refine ⟨reads, populated, ?_⟩
  rcases call_spares_output [] reads rfl regular rfl set populated (by decide) (by decide +kernel) (by decide +kernel) with
    same | overwrites
  · exact same ["lovable.json"]
  · exact absurd overwrites.backup (by decide)

theorem call_overwrites_output :
    Request.read (rollbackTexts true) = .ok (rollbackRequest true) ∧
      isPopulated clashingWorld.disk (ofString "/out") = true ∧
      (rollbackAsked true).backup? clashingWorld (ofString "/out") ≠ some (ofString "/out") ∧
      (∀ stop ∈ stops clashingWorld.disk (ofString "run.log"), ¬ ["out"] <+: stop) ∧
      clashingWorld.disk.at? ["out", "lovable.json"] = some (.file [1]) ∧
      (exec (call [] (rollbackTexts true)) clashingWorld).2.disk.at? ["out", "lovable.json"] = some (.file []) :=
  ⟨rfl, by decide, by decide +kernel, by decide +kernel, by decide, by decide +kernel⟩

end CommandLine
end Refit
