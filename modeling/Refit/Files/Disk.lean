import Refit.Files.Entry
import Refit.Files.Path
import Refit.Text.Utf8

namespace Refit

inductive Refusal where
  | missing
  | present
  | notDirectory
  | isDirectory
  deriving DecidableEq

def Refusal.text : Refusal → String
  | missing => "[Errno 2] No such file or directory"
  | present => "[Errno 17] File exists"
  | notDirectory => "[Errno 20] Not a directory"
  | isDirectory => "[Errno 21] Is a directory"

/-- Something that went wrong while a tree was copied. A file that would be copied onto itself is
    reported by the letters of a message. -/
inductive CopyProblem where
  | failed (source destination message : String)
  | letter (c : Char)
  deriving DecidableEq

def CopyProblem.text : CopyProblem → String
  | failed source destination message =>
    "(" ++ String.intercalate ", " ([source, destination, message].map Text.Quoted.encode) ++ ")"
  | letter c => Text.Quoted.encode (String.singleton c)

inductive FileFault where
  | refused (refusal : Refusal) (path : String)
  | sameFile (source destination : String)
  | incompleteCopy (problems : List CopyProblem)
  | diskFull (name : String)
  deriving DecidableEq

def FileFault.message : FileFault → String
  | refused refusal path => refusal.text ++ ": " ++ Text.Quoted.encode path
  | sameFile source destination =>
    "PosixPath(" ++ Text.Quoted.encode source ++ ") and PosixPath(" ++ Text.Quoted.encode destination
      ++ ") are the same file"
  | incompleteCopy problems => "[" ++ String.intercalate ", " (problems.map CopyProblem.text) ++ "]"
  | diskFull name => "disk full while writing " ++ name

/-- A file tree, the directory that relative paths start from, and the home directories of users.
    The user without a name is the one who runs the program. -/
structure Disk where
  root : Entry
  workingDirectory : List String
  homes : List (String × String)

namespace Disk

def absoluteNames (disk : Disk) (path : Path) : List String :=
  if path.isAbsolute then path.names else disk.workingDirectory ++ path.names

/-- Follows names from a place. A double dot leads to the directory above; every name but the last
    has to lead to a directory. -/
def locateFrom (root : Entry) : List String → List String → Except Refusal (List String)
  | place, [] => .ok place
  | place, name :: rest =>
    match root.get? place with
    | none => .error .missing
    | some (.file _) => .error .notDirectory
    | some (.directory _) =>
      if name = ".." then locateFrom root place.dropLast rest
      else locateFrom root (place ++ [name]) rest

def locate (disk : Disk) (path : Path) : Except Refusal (List String) :=
  locateFrom disk.root [] (disk.absoluteNames path)

def entry (disk : Disk) (path : Path) : Except Refusal Entry := do
  let place ← disk.locate path
  match disk.root.get? place with
  | some entry => .ok entry
  | none => .error .missing

def entry? (disk : Disk) (path : Path) : Option Entry := (disk.entry path).toOption

def exists? (disk : Disk) (path : Path) : Bool := (disk.entry? path).isSome

def isDirectory (disk : Disk) (path : Path) : Bool := (disk.entry? path).any Entry.isDirectory

def isFile (disk : Disk) (path : Path) : Bool := (disk.entry? path).any (!·.isDirectory)

def flatten (place : List String) : List String → List String
  | [] => place
  | name :: rest => if name = ".." then flatten place.dropLast rest else flatten (place ++ [name]) rest

def resolve (disk : Disk) (path : Path) : Path := ⟨.slash, flatten [] (disk.absoluteNames path)⟩

def expandUser (disk : Disk) (path : Path) : Option Path :=
  match path.root, path.names with
  | .relative, name :: rest =>
    match name.toList with
    | '~' :: user =>
      (disk.homes.find? (fun home => home.1 = String.ofList user)).map
        (fun home => (Path.ofString home.2).below rest)
    | _ => some path
  | _, _ => some path

def readBytes (disk : Disk) (path : Path) : Except FileFault (List UInt8) :=
  match disk.entry path with
  | .ok (.file content) => .ok content
  | .ok (.directory _) => .error (.refused .isDirectory path.toString)
  | .error refusal => .error (.refused refusal path.toString)

end Disk

def normalizeLines : List Char → List Char
  | [] => []
  | '\r' :: '\n' :: rest => '\n' :: normalizeLines rest
  | '\r' :: rest => '\n' :: normalizeLines rest
  | c :: rest => c :: normalizeLines rest

abbrev DiskAction := ExceptT FileFault (StateM Disk)

namespace DiskAction

def refuse {α : Type} (refusal : Refusal) (path : Path) : DiskAction α :=
  throw (.refused refusal path.toString)

def putEntry (place : List String) (entry : Entry) : DiskAction Unit :=
  modify (fun disk => { disk with root := disk.root.put place entry })

def makeOne (path : Path) : DiskAction Unit := do
  let disk ← get
  match disk.locate path with
  | .error refusal => refuse refusal path
  | .ok place =>
    match disk.root.get? place with
    | some _ => refuse .present path
    | none => putEntry place (.directory [])

def unlessDirectory (path : Path) (step : DiskAction Unit) : DiskAction Unit := do
  try step
  catch fault =>
    if (← get).isDirectory path then pure () else throw fault

/-- Makes a directory and those above it. The names are given from the last to the first. -/
def makeAll (root : PathRoot) : List String → DiskAction Unit
  | [] => unlessDirectory ⟨root, []⟩ (makeOne ⟨root, []⟩)
  | name :: above => do
      let path : Path := ⟨root, (name :: above).reverse⟩
      try makeOne path
      catch fault =>
        match fault with
        | .refused .missing _ =>
          makeAll root above
          unlessDirectory path (makeOne path)
        | _ => if (← get).isDirectory path then pure () else throw fault

def makeDirectories (path : Path) : DiskAction Unit := makeAll path.root path.names.reverse

def writeBytes (path : Path) (content : List UInt8) : DiskAction Unit := do
  let disk ← get
  match disk.locate path with
  | .error refusal => refuse refusal path
  | .ok place =>
    match disk.root.get? place with
    | some (.directory _) => refuse .isDirectory path
    | _ => putEntry place (.file content)

def writeFile (path : Path) (content : List UInt8) : DiskAction Unit := do
  makeDirectories path.parent
  writeBytes path content

/-- Where a file lands that is copied to a path: a directory takes it in under its own name. -/
def landing (disk : Disk) (source destination : Path) : Path :=
  if disk.isDirectory destination then destination.child source.name else destination

def isSame (disk : Disk) (source destination : Path) : Bool :=
  match disk.locate source, disk.locate destination with
  | .ok left, .ok right => left = right && (disk.root.get? left).isSome
  | _, _ => false

def copyFile (source destination : Path) : DiskAction Unit := do
  makeDirectories destination.parent
  let disk ← get
  let target := landing disk source destination
  if isSame disk source target then throw (.sameFile source.toString target.toString)
  match disk.readBytes source with
  | .error fault => throw fault
  | .ok content => writeBytes target content

def removeFile (path : Path) : DiskAction Unit := do
  let disk ← get
  match disk.locate path with
  | .error refusal => refuse refusal path
  | .ok place =>
    match disk.root.get? place with
    | none => refuse .missing path
    | some (.directory _) => refuse .isDirectory path
    | some (.file _) => set { disk with root := disk.root.erase place }

/-- Makes a directory for a copy, and the missing ones above it, from the top down. The names are
    given from the last to the first. -/
def makeForCopy (root : PathRoot) : List String → DiskAction Unit
  | [] => pure ()
  | name :: above => do
      let path : Path := ⟨root, (name :: above).reverse⟩
      if !above.isEmpty && !(← get).exists? path.parent then makeForCopy root above
      unlessDirectory path (makeOne path)

def sameFileLetters (name : String) (destination : Path) : List CopyProblem :=
  ("<DirEntry " ++ Text.Quoted.encode name ++ "> and " ++ Text.Quoted.encode destination.toString
    ++ " are the same file").toList.map .letter

def copyMember (source destination : Path) (content : List UInt8) : DiskAction (List CopyProblem) := do
  let disk ← get
  let target := landing disk source destination
  if isSame disk source target then pure (sameFileLetters source.name target)
  else
    try
      writeBytes target content
      pure []
    catch fault => pure [.failed source.toString destination.toString fault.message]

mutual

def copyEntries (source destination : Path) : List (String × Entry) → DiskAction (List CopyProblem)
  | [] => pure []
  | (name, entry) :: rest => do
      let problems ← copyEntry (source.child name) (destination.child name) entry
      let others ← copyEntries source destination rest
      pure (problems ++ others)

def copyEntry (source destination : Path) : Entry → DiskAction (List CopyProblem)
  | .file content => copyMember source destination content
  | .directory entries => do
      let made ← tryCatch ((makeForCopy destination.root destination.names.reverse).map (fun _ => []))
        (fun fault => pure [.failed source.toString destination.toString fault.message])
      if made.isEmpty then copyEntries source destination entries else pure made

end

/-- Copies a directory onto another one. Files that are already there are replaced. -/
def copyTree (source destination : Path) : DiskAction Unit := do
  match (← get).entry source with
  | .error refusal => refuse refusal source
  | .ok (.file _) => refuse .notDirectory source
  | .ok (.directory entries) =>
    makeForCopy destination.root destination.names.reverse
    let problems ← copyEntries source destination entries
    if problems.isEmpty then pure () else throw (.incompleteCopy problems)

end DiskAction

end Refit
