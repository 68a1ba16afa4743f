import Refit.Run.Rollback
import Refit.Run.Stages

namespace Refit

structure Progress where
  stage : String
  current : Nat
  total : Nat
  message : String
  deriving DecidableEq

/-- Someone who is told about each stage and may fail. -/
abbrev Observer := Progress → Except Fault Unit

structure NamedStage where
  name : String
  message : String
  run : Stage Unit

structure Migration where
  options : Options
  adapter : Option Adapter
  candidates : List Adapter

namespace Migration

def stages : List NamedStage :=
  [⟨"validation", "Validating project compatibility", Stage.validate⟩,
   ⟨"analysis", "Analyzing project structure", Stage.analyze⟩,
   ⟨"backup", "Creating backup", do let _ ← Stage.backup⟩,
   ⟨"setup", "Preparing output directory", Stage.setup⟩,
   ⟨"migration", "Migrating components, pages and styles", Stage.migrate⟩,
   ⟨"finalization", "Writing project files and documentation", Stage.finalize⟩]

/-- Tells an observer about a stage. What was told is kept, also when the observer fails. -/
def tell (observer : Option Observer) (progress : Progress) (told : List Progress) :
    Except Fault Unit × List Progress :=
  match observer with
  | none => (.ok (), told)
  | some observe => (observe progress, told ++ [progress])

def runStages (observer : Option Observer) (total : Nat) :
    Nat → List NamedStage → Session → List Progress → Except Fault Unit × Session × List Progress
  | _, [], session, told => (.ok (), session, told)
  | number, stage :: rest, session, told =>
    match tell observer ⟨stage.name, number, total, stage.message⟩ told with
    | (.error fault, told) => (.error fault, session, told)
    | (.ok (), told) =>
      let step : Stage Unit := do
        Stage.note .debug Stage.part
          ("Stage " ++ toString number ++ "/" ++ toString total ++ ": " ++ stage.name)
        stage.run
      match step.run.run session with
      | (.error fault, session) => (.error fault, session, told)
      | (.ok (), session) => runStages observer total (number + 1) rest session told

def abort (fault : Fault) (session : Session) : Session :=
  { session with
    world := session.world.note ⟨.error, Stage.part, "Migration aborted: " ++ fault.message⟩
    outcome :=
      { session.outcome with
        aborted := true
        errors := session.outcome.errors ++ [⟨"", "parse", fault⟩] } }

def conclude (started : Moment) (session : Session) : Session :=
  let (ended, world) := session.world.readClock
  let counted :=
    { session.outcome with
      rollbackData :=
        if session.rollback.backupPath.isEmpty then session.outcome.rollbackData else some session.rollback
    }.counted
  { session with
    world := world
    outcome :=
      { counted with
        summary := { counted.summary with duration := Moment.millisecondsBetween started ended }
        success := counted.errors.isEmpty } }

def verdict (outcome : Outcome) : String :=
  "Migration " ++ (if outcome.success then "succeeded" else "finished with errors") ++ ": "
    ++ toString outcome.summary.migratedFiles ++ " files migrated, "
    ++ toString outcome.summary.errors ++ " errors, " ++ toString outcome.summary.warnings ++ " warnings"

def session (migration : Migration) (source : String) (texts : List ExtractedText) (world : World) :
    Except Fault Session := do
  let sourcePath ← world.disk.resolveUser (Path.ofString source)
  let outputPath ← world.disk.resolveUser (Path.ofString migration.options.outputPath)
  pure
    { source := sourcePath
      output := outputPath
      options := migration.options
      adapter := migration.adapter
      candidates := migration.candidates
      texts := texts
      world := world }

def greeting (session : Session) : String :=
  "Starting migration of " ++ session.source.toString ++ " into " ++ session.output.toString
    ++ (if session.options.dryRun then " (dry-run)" else "")

def runSession (observer : Option Observer) (started : Moment) (session : Session) :
    Session × List Progress :=
  let begun := { session with world := session.world.note ⟨.info, Stage.part, greeting session⟩ }
  let (ended, session, told) := runStages observer stages.length 1 stages begun []
  let settled :=
    match ended with
    | .ok () => session
    | .error fault => abort fault session
  let concluded := conclude started settled
  ({ concluded with world := concluded.world.note ⟨.info, Stage.part, verdict concluded.outcome⟩ }, told)

/-- Migrates a project. It fails only if a path cannot be resolved. -/
def migrate (migration : Migration) (source : String) (observer : Option Observer)
    (texts : List ExtractedText) (world : World) : Except Fault (Outcome × List Progress) × World :=
  let (started, world) := world.readClock
  match migration.session source texts world with
  | .error fault => (.error fault, world)
  | .ok session =>
    let (session, told) := runSession observer started session
    (.ok (session.outcome, told), session.world)

def rollBack (migration : Migration) (outcome : Outcome) : WorldAction Unit :=
  Rollback.rollBack outcome.rollbackData migration.options.outputPath

end Migration
end Refit
