import Refit.CommandLine.Request
import Refit.Config.File
import Refit.Run.Logging
import Refit.Run.Migration
import Refit.Template.Standard

namespace Refit.CommandLine

def registry (plugins : List PluginEntry) (options : Options) (rules : List IgnoreRule) : Registry :=
  { options := options, rules := rules, render := Output.rendererOf Template.standard, plugins := plugins }

def offered (registry : Registry) : WorldAction (List Adapter) :=
  match registry.adapters with
  | .ok adapters => pure adapters
  | .error fault => throw (.registry fault)

def complain (text : String) : WorldAction Unit := WorldAction.route (·.print text)

def fail (out complaint : String) : WorldAction Ending := do
  complain complaint
  pure { code := 1, out := out }

def report {α : Type} (work : Report α) : WorldAction α := do
  let (outcome, world) := (← get).report work
  set world
  match outcome with
  | .ok value => pure value
  | .error fault => throw fault

def detect (plugins : List PluginEntry) (path : String) : WorldAction Ending := do
  let registry := registry plugins (OptionsOf.plain false "") []
  let adapters ← offered registry
  match ← report (Stage.select (← get).disk (Path.ofString path) adapters) with
  | some adapter => pure { code := 0, out := adapter.name ++ ": " ++ adapter.description ++ " project\n" }
  | none =>
    fail ""
      ("No adapter recognises " ++ path ++ " (known: " ++ String.intercalate ", " registry.names ++ ")\n")

def progressLine (progress : Progress) : String :=
  "[" ++ toString progress.current ++ "/" ++ toString progress.total ++ "] " ++ progress.stage ++ ": "
    ++ progress.message ++ "\n"

def summaryLine (outcome : Outcome) (dryRun : Bool) : String :=
  let changes := outcome.summary.changes
  "Migrated " ++ toString outcome.summary.migratedFiles ++ " files"
    ++ (if dryRun then " (dry-run)" else "") ++ ": "
    ++ toString changes.components ++ " components, " ++ toString changes.pages ++ " pages, "
    ++ toString changes.styles ++ " styles, " ++ toString changes.tests ++ " tests, "
    ++ toString changes.configurations ++ " configuration files\n"

def itemLine (word kind file message : String) : String :=
  word ++ " [" ++ kind ++ "] " ++ (if file.isEmpty then "" else file ++ ": ") ++ message ++ "\n"

def warningLines (outcome : Outcome) : String :=
  String.join (outcome.warnings.map (fun notice =>
    itemLine "warning" notice.kind notice.file notice.message))

def errorLines (outcome : Outcome) : String :=
  String.join (outcome.errors.map (fun problem =>
    itemLine "error" problem.kind problem.file problem.message))

def settings (request : MigrateRequest) (disk : Disk) : Except Fault (Config × Options) := do
  let config ← Config.load disk (Path.ofString request.path)
  let options ← OptionsOf.ofConfig disk config request.overrides
  pure (config, options.map Json.Value.isTrue)

/-- The name of the adapter that is asked for; an empty name asks for none. -/
def adapterName (request : MigrateRequest) (config : Config) : Option String :=
  match request.adapter.filter (· ≠ "") with
  | some name => some name
  | none => config.adapter.filter (· ≠ "")

def runMigration (request : MigrateRequest) (migration : Migration) : WorldAction Ending := do
  let (outcome, world) :=
    migration.migrate (Path.ofString request.path).toString (some (fun _ => .ok ())) [] (← get)
  set world
  match outcome with
  | .error fault => throw fault
  | .ok (outcome, told) =>
    let out := String.join (told.map progressLine)
      ++ summaryLine outcome migration.options.dryRun ++ warningLines outcome
    complain (errorLines outcome)
    if outcome.success then pure { code := 0, out := out }
    else
      let final := "Migration finished with errors. Run with --verbose for more details.\n"
      match outcome.rollbackData with
      | some data =>
        if request.rollbackOnFailure && !data.backupPath.isEmpty then
          let restored := "Rolled back " ++ migration.options.outputPath ++ " from " ++ data.backupPath ++ "\n"
          tryCatch
            (do
              migration.rollBack outcome
              fail (out ++ restored) final)
            (fun fault =>
              match fault with
              | .noBackup => fail out ("Rollback failed: " ++ fault.message ++ "\n")
              | .backupMissing _ => fail out ("Rollback failed: " ++ fault.message ++ "\n")
              | _ => throw fault)
        else fail out final
      | none => fail out final

/-- Goes on with the adapter that is asked for, or else with the first one that recognises the project. -/
def migrateAmong (request : MigrateRequest) (config : Config) (options : Options) (ruled : Registry)
    (adapters candidates : List Adapter) : WorldAction Ending := do
  match adapterName request config with
  | some name =>
    match ruled.find name with
    | .error fault => fail "" (fault.message ++ "\n")
    | .ok adapter => runMigration request ⟨options, some adapter, candidates⟩
  | none =>
    let selected ← report (Stage.select (← get).disk (Path.ofString request.path) adapters)
    runMigration request ⟨options, selected, candidates⟩

/-- A migration as it is asked for. Whether a plugin fails does not depend on the rules, so none fails later. -/
def migrate (plugins : List PluginEntry) (request : MigrateRequest) : WorldAction Ending := do
  match settings request (← get).disk with
  | .error (.config fault) => fail "" (fault.message ++ "\n")
  | .error fault => throw fault
  | .ok (config, options) =>
    let ruled := registry plugins options (IgnoreRule.ofPatterns config.excludePaths)
    let adapters ← offered ruled
    let candidates ← offered (registry plugins options [])
    migrateAmong request config options ruled adapters candidates

def Request.run (plugins : List PluginEntry) (request : Request) : WorldAction Ending := do
  WorldAction.configureLog request.verbose (request.logFile.map Path.ofString)
  match request.task with
  | .detect path => detect plugins path
  | .migrate request => migrate plugins request

/-- A call of the program with arguments, where some plugins are installed. Its ending has all that was written to
    the console. -/
def call (plugins : List PluginEntry) (texts : List String) : WorldAction Ending := do
  match Request.read texts with
  | .error ending => pure ending
  | .ok request => do
      let ending ← request.run plugins
      pure { ending with err := String.join (← get).log.streams }

def Task.project : Task → Path
  | .detect path => Path.ofString path
  | .migrate request => Path.ofString request.path

/-- The places that the arguments name. Those that only the settings name are known once the project is there. -/
def Request.named (request : Request) : List Path :=
  request.task.project :: (request.logFile.map Path.ofString).toList

/-- Where a migration writes to. Settings with a fault lead nowhere. -/
def Task.output? (disk : Disk) : Task → Option Path
  | .detect _ => none
  | .migrate request =>
    match settings request disk with
    | .ok (_, options) => some (Path.ofString options.outputPath)
    | .error _ => none

def wayTo (place : List String) : List (List String) :=
  (List.range (place.length + 1)).map place.take

def stops (disk : Disk) (path : Path) : List (List String) :=
  let names := disk.absoluteNames path
  ((wayTo names).map (Disk.flatten [])).eraseDups

end Refit.CommandLine
