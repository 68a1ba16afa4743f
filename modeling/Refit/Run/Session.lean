import Refit.Adapter.Basic
import Refit.Run.Outcome
import Refit.Run.World

namespace Refit

structure Session where
  source : Path
  output : Path
  options : Options
  adapter : Option Adapter
  candidates : List Adapter
  texts : List ExtractedText
  outcome : Outcome := {}
  rollback : RollbackData := {}
  names : Output.Names := Output.Names.empty
  world : World

/-- A step of a run. What was done before a failure stays done. -/
abbrev Stage := ExceptT Fault (StateM Session)

namespace Stage

def part : String := "orchestrator"

def lift {α : Type} (step : World → Except Fault α × World) : Stage α := do
  let session ← get
  let (outcome, world) := step session.world
  set { session with world := world }
  match outcome with
  | .ok value => pure value
  | .error fault => throw fault

def note (level : Log.Level) (part message : String) : Stage Unit :=
  modify (fun session => { session with world := session.world.note ⟨level, part, message⟩ })

def report {α : Type} (work : Report α) : Stage α := lift (fun world => world.report work)

def perform (operation : FileOperation) (path : Path) (action : DiskAction Unit) : Stage Unit :=
  lift (World.perform operation path action)

def now : Stage Moment := lift (fun world => let (moment, world) := world.readClock; (.ok moment, world))

def disk : Stage Disk := do pure (← get).world.disk

def options : Stage Options := do pure (← get).options

def change (f : Outcome → Outcome) : Stage Unit :=
  modify (fun session => { session with outcome := f session.outcome })

def adapter : Stage Adapter := do
  match (← get).adapter with
  | some adapter => pure adapter
  | none => throw .noAdapter

def analysis : Stage Analysis := do
  match (← get).outcome.analysis with
  | some analysis => pure analysis
  | none => throw .notAnalyzed

def recordCreate (path : Path) : Stage Unit :=
  modify (fun session =>
    { session with
      rollback :=
        { session.rollback with
          operations := session.rollback.operations ++ [⟨.create, path.toString⟩] } })

/-- Writes a file and records that it was created. A dry run does not write. -/
def write (path : Path) (content : String) : Stage Unit := do
  if (← options).dryRun then pure ()
  else
    perform .writeText path (DiskAction.writeFile path (Text.Utf8.encode content))
    recordCreate path

/-- Copies a file and records that it was created. A dry run does not copy. -/
def copy (source destination : Path) : Stage Unit := do
  if (← options).dryRun then pure ()
  else
    perform .copyFile destination (DiskAction.copyFile source destination)
    recordCreate destination

def capitalized (word : String) : String := String.ofList (Naming.capitalize word.toList)

def problem (file kind : String) (fault : Fault) : Stage Unit := do
  note .error part
    (capitalized kind ++ " failed for " ++ (if file.isEmpty then "project" else file) ++ ": " ++ fault.message)
  change (fun outcome => { outcome with errors := outcome.errors ++ [⟨file, kind, fault⟩] })

def unitProblem (file kind : String) (fault : Fault) : Stage Unit := do
  problem file kind fault
  change (fun outcome => { outcome with unitFailures := outcome.unitFailures + 1 })

def warn (notice : Notice) : Stage Unit := do
  note .warning part notice.message
  change (fun outcome => { outcome with warnings := outcome.warnings ++ [notice] })

def migrated (path : Path) : Stage Unit :=
  change (fun outcome => { outcome with migratedFiles := outcome.migratedFiles ++ [path.toString] })

def claim (path : Path) (sourceFile : String) : Stage Path := do
  let session ← get
  let (claimed, names) := session.names.claim path
  set { session with names := names }
  match claimed with
  | none => throw (.nameless path.toString)
  | some (target, false) => pure target
  | some (target, true) => do
      warn
        { file := sourceFile
          kind := "compatibility"
          message := "Output name " ++ path.name ++ " is already taken; writing " ++ target.name ++ " instead"
          suggestion := some "Rename one of the source units to keep output names unique." }
      pure target

/-- Does a step; a failure is handed over and yields nothing. -/
def attempt {α : Type} (step : Stage α) (onFault : Fault → Stage Unit) : Stage (Option α) :=
  tryCatch (do pure (some (← step))) (fun fault => do onFault fault; pure none)

/-- Does a step; a failure of files is handed over and yields `false`, any other ends the stage. -/
def attemptFiles (step : Stage Unit) (onFault : Fault → Stage Unit) : Stage Bool :=
  tryCatch (do step; pure true)
    (fun fault => if fault.isFileFault then do onFault fault; pure false else throw fault)

end Stage
end Refit
