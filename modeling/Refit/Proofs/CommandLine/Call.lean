import Refit.CommandLine.Run
import Refit.Proofs.Config.Merging
import Refit.Proofs.Run.Rejection

open List

namespace Refit

open Disk Path DiskAction

variable {place : List String}

namespace Disk

variable {disk : Disk} {path : Path} {content : List UInt8} {names : List String}

theorem mem_stops :
    place ∈ CommandLine.stops disk path ↔ ∃ names, names <+: disk.absoluteNames path ∧ place = flatten [] names := by
  simp only [CommandLine.stops, CommandLine.wayTo, mem_eraseDups, mem_map, mem_range]
  constructor
  · rintro ⟨_, ⟨length, _, rfl⟩, rfl⟩
    exact ⟨_, take_prefix _ _, rfl⟩
  · rintro ⟨names, part, rfl⟩
    refine ⟨names, ⟨names.length, ?_, ?_⟩, rfl⟩
    · have := part.length_le
      omega
    · exact (prefix_iff_eq_take.1 part).symm

theorem absoluteNames_prefix (part : names <+: path.names) :
    disk.absoluteNames ⟨path.root, names⟩ <+: disk.absoluteNames path := by
  have kind : (⟨path.root, names⟩ : Path).isAbsolute = path.isAbsolute := rfl
  unfold absoluteNames
  rw [kind]
  split
  · exact part
  · exact (prefix_append_right_inj _).2 part

theorem placeOf_mem_stops (part : names <+: path.names) :
    disk.placeOf ⟨path.root, names⟩ ∈ CommandLine.stops disk path :=
  mem_stops.2 ⟨_, absoluteNames_prefix part, placeOf_eq disk _⟩

def contentAt (disk : Disk) (place : List String) : Option (List UInt8) :=
  match disk.at? place with
  | some (.file content) => some content
  | _ => none

theorem contentAt_some :
    disk.contentAt place = some content ↔ disk.at? place = some (.file content) := by
  unfold contentAt
  split <;> simp_all

theorem Changes.contentAt {put : List String → Prop} {after : Disk}
    (changes : Changes put disk after) (off : ¬ put place) : after.contentAt place = disk.contentAt place := by
  ext content
  simp only [contentAt_some]
  exact ⟨changes.fresh place content off, changes.kept place content off⟩

theorem locate_plain (plain : ".." ∉ place)
    (stands : disk.at? place = some (.file content)) : disk.locate ⟨.slash, place⟩ = .ok place :=
  locateFrom_plain plain (ne_of_eq_of_ne stands (Option.some_ne_none _))

theorem resolveUser_congr {after : Disk} (start : after.workingDirectory = disk.workingDirectory)
    (homes : after.homes = disk.homes) (path : Path) : after.resolveUser path = disk.resolveUser path := by
  simp only [resolveUser, expandUser, resolve, absoluteNames, start, homes]

end Disk

namespace World

variable {places : List String → Prop} {start world : World}

/-- A console and a log were put in place: the disk changed at some places only, and all log files are there. -/
structure Equipped (places : List String → Prop) (start world : World) : Prop where
  touched : Touched places places start.disk world.disk
  rest : world = { start with disk := world.disk, log := world.log }
  logs : ∀ place, world.LogPlace place → places place
  heard : world.log.streams ≠ []

theorem Equipped.calls (equipped : Equipped places start world) :
    world.calls = start.calls := by rw [equipped.rest]

theorem Equipped.clock (equipped : Equipped places start world) :
    world.clock = start.clock := by rw [equipped.rest]

end World

namespace WorldAction

theorem exec_onDisk (action : DiskAction Unit) (world : World) :
    exec (onDisk action) world =
      ((exec action world.disk).1.mapError .file, { world with disk := (exec action world.disk).2 }) := by
  rcases acted : exec action world.disk with ⟨outcome, disk⟩
  rw [onDisk, exec_get_bind, show action.run.run world.disk = (outcome, disk) from acted]
  cases outcome <;> rfl

theorem touch_cases (plain : ".." ∉ place) (world : World) :
    (∃ fault, exec (touch ⟨.slash, place⟩) world = (.error fault, world)) ∨
    ∃ disk, exec (touch ⟨.slash, place⟩) world = (.ok (), { world with disk := disk }) ∧
      disk.contentAt place = some ((world.disk.contentAt place).getD []) ∧
      ∀ {made put}, put place → Touched made put world.disk disk := by
  have there : world.disk.placeOf ⟨.slash, place⟩ = place := flatten_plain plain
  rw [touch, exec_get_bind]
  split
  · next is =>
      obtain ⟨_, content, located, stands⟩ := isFile_iff.1 is
      rw [eq_placeOf located, there] at stands
      exact .inr ⟨world.disk, rfl, by simp [contentAt_some.2 stands], fun _ => .refl⟩
  · next isNot =>
      have absent : world.disk.contentAt place = none := by
        refine Option.eq_none_iff_forall_ne_some.2 (fun content found => isNot ?_)
        exact isFile_iff.2 ⟨place, content, locate_plain plain (contentAt_some.1 found), contentAt_some.1 found⟩
      rw [exec_onDisk]
      rcases writeBytes_cases ⟨.slash, place⟩ [] world.disk with ⟨fault, run⟩ | ⟨other, located, notDirectory, run⟩
      · rw [run]
        exact .inl ⟨.file fault, rfl⟩
      · obtain rfl : other = place := (eq_placeOf located).trans there
        have stands := (writeBytes_ok run).2.2.stands
        rw [there] at stands
        rw [run, absent]
        exact .inr ⟨_, rfl, contentAt_some.2 stands, fun here => .single (.file _ _ located notDirectory here)⟩

/-- What a configuration comes to: a console alone, or a console and a log file that keeps its content. -/
theorem configureLog_cases (verbose : Bool) (file : Option Path) (world : World) :
    (∃ outcome disk, exec (configureLog verbose file) world =
        (outcome, { world with disk := disk, log := world.log.withConsole verbose file.isSome }) ∧
      (file = none ∨ ∃ fault, outcome = .error fault) ∧
      ∀ put, Touched (fun place => ∃ path ∈ file, place ∈ CommandLine.stops world.disk path) put world.disk disk) ∨
    ∃ path disk, file = some path ∧ exec (configureLog verbose file) world =
        (.ok (), { world with
          disk := disk, log := (world.log.withConsole verbose true).withFile ⟨.slash, world.disk.placeOf path⟩ }) ∧
      disk.contentAt (world.disk.placeOf path) = some ((world.disk.contentAt (world.disk.placeOf path)).getD []) ∧
      ∀ put, put (world.disk.placeOf path) →
        Touched (fun place => ∃ path ∈ file, place ∈ CommandLine.stops world.disk path) put world.disk disk := by
  cases file with
  | none => exact .inl ⟨.ok (), world.disk, rfl, .inl rfl, fun _ => .refl⟩
  | some path =>
    have made (put : List String → Prop) :
        Alters (fun place => ∃ other ∈ some path, place ∈ CommandLine.stops world.disk other) put
          (makeDirectories path.parent) world.disk := by
      refine makeAll_alters (fun rest part => ⟨path, rfl, Disk.placeOf_mem_stops ?_⟩)
      have above : rest.reverse <+: path.parent.names := by
        rw [← reverse_suffix, reverse_reverse]
        exact part
      have parent : path.parent.names <+: path.names := dropLast_prefix _
      exact above.trans parent
    have plain : ".." ∉ world.disk.placeOf path := no_dots_of_flatten (by simp)
    have opened : exec (configureLog verbose (some path)) world = exec (do
        onDisk (makeDirectories path.parent)
        touch ⟨.slash, world.disk.placeOf path⟩
        route (·.withFile ⟨.slash, world.disk.placeOf path⟩))
        { world with log := world.log.withConsole verbose true } := rfl
    rw [opened, exec_bind, exec_onDisk]
    dsimp only
    unfold Alters at made
    rcases first : exec (makeDirectories path.parent) world.disk with ⟨outcome, middle⟩
    rw [first] at made
    cases outcome with
    | error fault => exact .inl ⟨_, middle, rfl, .inr ⟨_, rfl⟩, made⟩
    | ok =>
      have same : middle.contentAt (world.disk.placeOf path) = _ := (made (fun _ => False)).changes.contentAt id
      dsimp only [Except.mapError]
      rw [exec_bind]
      rcases touch_cases plain { world with disk := middle, log := world.log.withConsole verbose true } with
        ⟨fault, failed⟩ | ⟨disk, done, holds, touched⟩
      · rw [failed]
        exact .inl ⟨_, middle, rfl, .inr ⟨fault, rfl⟩, made⟩
      · rw [done]
        exact .inr ⟨path, disk, rfl, rfl, by rw [holds, same], fun put there => (made put).trans (touched there)⟩

theorem configureLog_equips (verbose : Bool) (file : Option Path) (world : World) :
    World.Equipped (fun place => ∃ path ∈ file, place ∈ CommandLine.stops world.disk path) world
      (exec (configureLog verbose file) world).2 := by
  rcases configureLog_cases verbose file world with
    ⟨outcome, disk, run, _, touched⟩ | ⟨path, disk, rfl, run, _, touched⟩
  · rw [run]
    refine ⟨touched _, rfl, ?_, by simp [Log.Router.withConsole]⟩
    rintro place ⟨path, member, _⟩
    simp [Log.Router.withConsole] at member
  · have there : world.disk.placeOf path ∈ CommandLine.stops world.disk path := Disk.placeOf_mem_stops prefix_rfl
    rw [run]
    refine ⟨touched _ ⟨path, rfl, there⟩, rfl, ?_, by simp [Log.Router.withConsole, Log.Router.withFile]⟩
    rintro place ⟨other, member, rfl⟩
    simp only [Log.Router.withConsole, Log.Router.withFile, cons_append, nil_append, mem_cons, reduceCtorEq,
      not_mem_nil, or_false, false_or, Log.Handler.file.injEq] at member
    rw [member, show Disk.placeOf disk ⟨.slash, world.disk.placeOf path⟩ = _ from flatten_plain (no_dots_of_flatten (by simp))]
    exact ⟨path, rfl, there⟩

end WorldAction

namespace CommandLine

variable {request : Request} {disk : Disk} {plugins : List PluginEntry}

theorem exec_report {α : Type} (work : Report α) (world : World) : exec (report work) world = world.report work := by
  rcases told : world.report work with ⟨outcome, after⟩
  rw [report, exec_get_bind, told]
  cases outcome <;> rfl

theorem exec_call {texts : List String} (reads : Request.read texts = .ok request) (world : World) :
    exec (call plugins texts) world =
      ((exec (request.run plugins) world).1.map
        (fun ending => { ending with err := String.join (exec (request.run plugins) world).2.log.streams }),
        (exec (request.run plugins) world).2) := by
  rw [call, reads]
  rw [exec_bind]
  rcases exec (request.run plugins) world with ⟨outcome, after⟩
  cases outcome <;> rfl

variable {asked : MigrateRequest} {config : Config} {options : Options} {world : World}

theorem exec_run_migrate (asks : request.task = .migrate asked) (world : World) :
    exec (request.run plugins) world =
      exec (do
        WorldAction.configureLog request.verbose (request.logFile.map ofString)
        migrate plugins asked) world := by
  rw [Request.run, asks]

theorem unstopped (off : ∀ file ∈ request.logFile, place ∉ stops disk (ofString file)) :
    ¬ ∃ path ∈ request.logFile.map ofString, place ∈ stops disk path := by
  rintro ⟨path, member, on⟩
  obtain ⟨file, given, rfl⟩ := Option.map_eq_some_iff.1 (Option.mem_def.1 member)
  exact off file given on

section

variable {ruled candidates : List Adapter} (set : settings asked world.disk = .ok (config, options))
include set

theorem exec_migrate_set :
    exec (migrate plugins asked) world = exec (do
      let adapters ← offered (registry plugins options (IgnoreRule.ofPatterns config.excludePaths))
      let candidates ← offered (registry plugins options [])
      migrateAmong asked config options (registry plugins options (IgnoreRule.ofPatterns config.excludePaths))
        adapters candidates) world := by
  rw [migrate, exec_get_bind, set]

theorem exec_migrate_offered
    (found : (registry plugins options (IgnoreRule.ofPatterns config.excludePaths)).adapters = .ok ruled)
    (free : (registry plugins options []).adapters = .ok candidates) :
    exec (migrate plugins asked) world =
      exec (migrateAmong asked config options
        (registry plugins options (IgnoreRule.ofPatterns config.excludePaths)) ruled candidates) world := by
  rw [exec_migrate_set set, offered, offered, found, free]
  rfl

/-- What a migration with given settings comes to: a complaint, a fault of a plugin or of the search for an adapter,
    or a run. -/
theorem migrate_cases :
    (∃ complaint, exec (migrate plugins asked) world = exec (fail "" complaint) world) ∨
    ∃ records, (∃ fault, exec (migrate plugins asked) world = (.error fault, world.noteAll records)) ∨
      ∃ adapter candidates, exec (migrate plugins asked) world =
        exec (runMigration asked ⟨options, adapter, candidates⟩) (world.noteAll records) := by
  cases found : (registry plugins options (IgnoreRule.ofPatterns config.excludePaths)).adapters with
  | error fault =>
    refine .inr ⟨[], .inl ⟨.registry fault, ?_⟩⟩
    rw [exec_migrate_set set, offered, found]
    rfl
  | ok ruled =>
    cases free : (registry plugins options []).adapters with
    | error fault =>
      refine .inr ⟨[], .inl ⟨.registry fault, ?_⟩⟩
      rw [exec_migrate_set set, offered, offered, found, free]
      rfl
    | ok candidates =>
      rw [exec_migrate_offered set found free, migrateAmong]
      cases adapterName asked config with
      | none =>
        dsimp only
        rw [exec_get_bind, exec_bind, exec_report]
        unfold World.report
        rcases (Stage.select world.disk (ofString asked.path) ruled).run.run [] with ⟨outcome, records⟩
        refine .inr ⟨records, ?_⟩
        cases outcome with
        | error fault => exact .inl ⟨fault, rfl⟩
        | ok selected => exact .inr ⟨selected, candidates, rfl⟩
      | some name =>
        dsimp only
        split
        · next fault _ => exact .inl ⟨_, rfl⟩
        · next adapter _ => exact .inr ⟨[], .inr ⟨some adapter, candidates, rfl⟩⟩

end

theorem ofSettings_output {given : List (String × Json.Value)} {chosen : OptionsOf Json.Value}
    (made : OptionsOf.ofSettings disk given = .ok chosen) :
    ∃ text path, disk.resolveUser (ofString text) = .ok path ∧ chosen.outputPath = path.toString := by
  obtain ⟨_, ⟨text, path, _, _, leads, rfl⟩, _⟩ := OptionsOf.ofSettings_ok_iff.1 made
  exact ⟨text, path, leads, rfl⟩

theorem output_resolved (start : ∀ name ∈ world.disk.workingDirectory, Path.ValidName name)
    (set : settings asked world.disk = .ok (config, options)) : (ofString options.outputPath).Resolved := by
  obtain ⟨found, _, given⟩ := bind_ok set
  obtain ⟨chosen, made, is⟩ := bind_ok given
  cases is
  obtain ⟨text, path, leads, named⟩ := ofSettings_output made
  have resolved := Disk.resolved_of_resolveUser start (ofString_valid text) leads
  rwa [show (chosen.map Json.Value.isTrue).outputPath = path.toString from named, ofString_toString resolved.valid]

variable {migration : Migration} {outcome : Outcome} {told : List Progress} {after : World}

def conclusion (asked : MigrateRequest) (migration : Migration) (outcome : Outcome) (out : String) : WorldAction Ending :=
  if outcome.success then pure { code := 0, out := out }
  else
    let final := "Migration finished with errors. Run with --verbose for more details.\n"
    match outcome.rollbackData with
    | some data =>
      if asked.rollbackOnFailure && !data.backupPath.isEmpty then
        tryCatch
          (do
            migration.rollBack outcome
            fail (out ++ ("Rolled back " ++ migration.options.outputPath ++ " from " ++ data.backupPath ++ "\n")) final)
          (fun fault =>
            match fault with
            | .noBackup => fail out ("Rollback failed: " ++ fault.message ++ "\n")
            | .backupMissing _ => fail out ("Rollback failed: " ++ fault.message ++ "\n")
            | _ => throw fault)
      else fail out final
    | none => fail out final

theorem exec_runMigration
    (ran : migration.migrate (ofString asked.path).toString (some (fun _ => .ok ())) [] world =
      (.ok (outcome, told), after)) :
    exec (runMigration asked migration) world =
      exec (conclusion asked migration outcome
          (String.join (told.map progressLine) ++ summaryLine outcome migration.options.dryRun ++ warningLines outcome))
        { after with log := after.log.print (errorLines outcome) } := by
  rw [runMigration, exec_get_bind, ran]
  rfl

end CommandLine
end Refit
