import Refit.Fault
import Refit.Time.Moment

namespace Refit

inductive FileOperation where
  | ensureDirectory
  | writeText
  | copyFile
  | copyTree
  | removeFile
  deriving DecidableEq

/-- What an operation came to: whether it succeeded, and the disk that it left. -/
structure Performed where
  operation : FileOperation
  path : Path
  succeeded : Bool
  disk : Disk

structure World where
  disk : Disk
  clock : Clock
  /-- Whether an operation fails for lack of space. -/
  refuses : FileOperation → Path → Bool
  /-- Whether whatever comes after given operations fails. -/
  falters : List (FileOperation × Path) → Bool := fun _ => false
  /-- What it then fails with, if not for lack of space. -/
  cause : List (FileOperation × Path) → Option Fault := fun _ => none
  /-- What looking into a directory fails with. -/
  blind : Option Fault := none
  calls : List (FileOperation × Path)
  history : List Performed := []
  log : Log.Router
  stamp : String

namespace World

/-- Adds text to a file; a file that cannot be written stays as it is. -/
def appendText (disk : Disk) (path : Path) (text : String) : Disk :=
  match disk.readBytes path with
  | .ok content =>
    ((DiskAction.writeBytes path (content ++ Text.Utf8.encode text)).run.run disk).2
  | .error _ => disk

def note (world : World) (record : Log.Record) : World :=
  { world with
    log := world.log.emit record
    disk := (world.log.filesFor record).foldl
      (fun disk path => appendText disk path (Log.fileLine world.stamp record)) world.disk }

def noteAll (world : World) (records : List Log.Record) : World := records.foldl note world

def record (world : World) (operation : FileOperation) (path : Path) (succeeded : Bool) (disk : Disk) : World :=
  { world with
    disk := disk
    calls := world.calls ++ [(operation, path)]
    history := world.history ++ [⟨operation, path, succeeded, disk⟩] }

def failure (world : World) (operation : FileOperation) (path : Path) : Fault :=
  if world.refuses operation path then .file (.diskFull path.name)
  else (world.cause world.calls).getD (.file (.diskFull path.name))

def perform (operation : FileOperation) (path : Path) (action : DiskAction Unit) (world : World) :
    Except Fault Unit × World :=
  if world.refuses operation path || world.falters world.calls then
    (.error (world.failure operation path), world.record operation path false world.disk)
  else
    match action.run.run world.disk with
    | (.ok (), disk) => (.ok (), world.record operation path true disk)
    | (.error fault, disk) => (.error (.file fault), world.record operation path false disk)

def readClock (world : World) : Moment × World :=
  (world.clock.now, { world with clock := world.clock.advance })

def report {α : Type} (world : World) (work : Report α) : Except Fault α × World :=
  let (outcome, records) := work.run.run []
  (outcome, world.noteAll records)

end World
end Refit
