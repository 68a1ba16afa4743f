import Refit.Run.Rollback

namespace Refit.WorldAction

def onDisk (action : DiskAction Unit) : WorldAction Unit := do
  let world ← get
  let (outcome, disk) := action.run.run world.disk
  set { world with disk := disk }
  match outcome with
  | .ok () => pure ()
  | .error fault => throw (.file fault)

def touch (path : Path) : WorldAction Unit := do
  if (← get).disk.isFile path then pure () else onDisk (DiskAction.writeBytes path [])

def route (change : Log.Router → Log.Router) : WorldAction Unit :=
  modify (fun world => { world with log := change world.log })

/-- Puts a console, and possibly a log file, in place. The console is there before the file. -/
def configureLog (verbose : Bool) (file : Option Path) : WorldAction Unit := do
  route (·.withConsole verbose file.isSome)
  match file with
  | none => pure ()
  | some path =>
    let whole := (← get).disk.resolve path
    onDisk (DiskAction.makeDirectories path.parent)
    touch whole
    route (·.withFile whole)

end Refit.WorldAction
