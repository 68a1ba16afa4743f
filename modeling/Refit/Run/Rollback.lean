import Refit.Run.Outcome
import Refit.Run.World

namespace Refit

/-- A step in a world. What was done before a failure stays done. -/
abbrev WorldAction := ExceptT Fault (StateM World)

namespace Rollback

def part : String := "rollback"

def note (message : String) : WorldAction Unit := modify (·.note ⟨.info, part, message⟩)

def perform (operation : FileOperation) (path : Path) (action : DiskAction Unit) : WorldAction Unit := do
  let (outcome, world) := World.perform operation path action (← get)
  set world
  match outcome with
  | .ok () => pure ()
  | .error fault => throw fault

/-- Removes a created file and counts it. What is not there, or is a directory, is passed over. -/
def removeCreated (count : Nat) (created : String) : WorldAction Nat := do
  let path := Path.ofString created
  if (← get).disk.isFile path then
    perform .removeFile path (DiskAction.removeFile path)
    pure (count + 1)
  else pure count

/-- Undoes a run. Without a backup nothing is done. -/
def rollBack (data : Option RollbackData) (outputPath : String) : WorldAction Unit := do
  match data with
  | none => throw .noBackup
  | some data =>
    if data.backupPath.isEmpty then throw .noBackup
    let backup := Path.ofString data.backupPath
    if !(← get).disk.isDirectory backup then throw (.backupMissing backup.toString)
    let output := Path.ofString outputPath
    let removed ← data.createdPaths.reverse.foldlM removeCreated 0
    note ("Removed " ++ toString removed ++ " created files under " ++ output.toString)
    perform .copyTree output (DiskAction.copyTree backup output)
    note ("Restored " ++ output.toString ++ " from backup " ++ backup.toString)

end Rollback
end Refit
