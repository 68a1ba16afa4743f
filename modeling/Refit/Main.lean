import Refit.CommandLine.Run
import Std.Time.DateTime.Timestamp

namespace Refit.Main

def placeText (place : List String) : String := "/" ++ String.intercalate "/" place

partial def readEntry (place : List String) : IO (Option Entry) := do
  try
    let path ← IO.FS.realPath (placeText place)
    let about ← path.metadata
    if about.type matches .dir then
      let mut entries := []
      for found in ← path.readDir do
        if let some entry ← readEntry (place ++ [found.fileName]) then
          entries := Entry.putIn found.fileName entry entries
      return some (.directory entries)
    else
      let content ← IO.FS.readBinFile path
      return some (.file content.toList)
  catch _ => return none

def hasDirectory (place : List String) : IO Bool := do
  try
    let path ← IO.FS.realPath (placeText place)
    return (← path.metadata).type matches .dir
  catch _ => return false

/-- Adds what is on the way to a place, if the disk does not know it. Of a directory, what is in it
    is left out. -/
def addStop (disk : Disk) (stop : List String) : IO Disk := do
  if (disk.root.get? stop).isSome then return disk
  let entry ← if ← hasDirectory stop then pure (some (.directory [])) else readEntry stop
  match entry with
  | some entry => return { disk with root := disk.root.put stop entry }
  | none => return disk

def addStops (disk : Disk) (path : Path) : IO Disk :=
  (CommandLine.stops disk path).foldlM addStop disk

def addPath (disk : Disk) (path : Path) : IO Disk := do
  let disk ← addStops disk path
  let place := Disk.flatten [] (disk.absoluteNames path)
  match ← readEntry place with
  | some entry => return { disk with root := disk.root.put place entry }
  | none => return disk

def readDisk (request : CommandLine.Request) : IO Disk := do
  let home := ((← IO.getEnv "HOME").getD "/")
  let current := Path.ofString (← IO.currentDir).toString
  let bare : Disk :=
    { root := .directory [], workingDirectory := current.names, homes := [("", home)] }
  let disk ← request.named.foldlM addPath (← addStops bare (Path.ofString "."))
  match request.task.output? disk with
  | some output => addPath disk output
  | none => return disk

def make : Change → IO Unit
  | .makeDirectory place => IO.FS.createDirAll (placeText place)
  | .writeFile place content => IO.FS.writeBinFile (placeText place) ⟨content.toArray⟩
  | .remove place => do
      if ← hasDirectory place then IO.FS.removeDirAll (placeText place)
      else IO.FS.removeFile (placeText place)

def now : IO Moment := do
  let ticks := (← Std.Time.Timestamp.now).toNanosecondsSinceUnixEpoch.toInt / 1000
  return (Moment.ofCivil ⟨1970, 1, 1⟩ 0 0).later ticks

def finish (ending : CommandLine.Ending) : IO UInt32 := do
  IO.print ending.out
  IO.eprint ending.err
  return ending.code.toUInt32

def run (texts : List String) : IO UInt32 := do
  match CommandLine.Request.read texts with
  | .error ending => finish ending
  | .ok request =>
    let disk ← readDisk request
    let start ← now
    let world : World :=
      { disk := disk, clock := ⟨start, 0⟩, refuses := fun _ _ => false, calls := []
        log := Log.Router.initial, stamp := start.stamp }
    let (outcome, after) := (CommandLine.call [] texts).run.run world
    (after.disk.root.changes [] (some disk.root)).forM make
    match outcome with
    | .ok ending => finish ending
    | .error fault =>
      finish { code := 1, err := String.join after.log.streams ++ fault.message ++ "\n" }

end Refit.Main

def main (texts : List String) : IO UInt32 := Refit.Main.run texts
