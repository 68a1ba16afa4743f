import Refit.Files.Disk
import Refit.Text.Pattern

namespace Refit

structure IgnoreRule where
  pattern : String
  directoryOnly : Bool
  anchored : Bool
  hasSlash : Bool
  deriving DecidableEq

namespace IgnoreRule

/-- Whether a rule matches a path, given relative to the project. A pattern with a slash is held
    against the whole path, any other against each of its names. -/
def excludes (rule : IgnoreRule) (path : String) (isDirectory : Bool) : Bool :=
  if rule.pattern.isEmpty then false
  else if rule.directoryOnly && !isDirectory then false
  else if rule.anchored || rule.hasSlash then
    Text.Glob.matchesText rule.pattern path
      || (rule.directoryOnly && Text.startsWith path (rule.pattern ++ "/"))
  else (Text.split '/' path).any (Text.Glob.matchesText rule.pattern)

def ofPattern (line : String) : Option IgnoreRule :=
  let text := Text.trim line
  if text.isEmpty then none
  else
    let directoryOnly := Text.endsWith text "/"
    let path := Text.dropSuffix "/" text
    let anchored := Text.startsWith path "/"
    let pattern := if anchored then Text.drop 1 path else path
    some ⟨pattern, directoryOnly, anchored, pattern.toList.contains '/'⟩

def ofPatterns (lines : List String) : List IgnoreRule := lines.filterMap ofPattern

end IgnoreRule

def ignores (rules : List IgnoreRule) (path : String) (isDirectory : Bool) : Bool :=
  rules.any (fun rule => rule.excludes path isDirectory)

/-- What a walk yields: files with one of the extensions (any file if there is none), unless a rule
    matches their path. -/
structure Walk where
  extensions : List String
  rules : List IgnoreRule

namespace Walk

def excludedDirectories : List String :=
  [".git", ".hg", ".svn", ".cache", ".next", ".turbo", "node_modules", "dist", "build", "coverage"]

def relativeText (names : List String) : String := String.intercalate "/" names

def admitsFile (walk : Walk) (names : List String) (name : String) : Bool :=
  (walk.extensions.isEmpty || walk.extensions.any (Text.endsWith name ·))
    && !ignores walk.rules (relativeText (names ++ [name])) false

def entersDirectory (walk : Walk) (names : List String) (name : String) : Bool :=
  !excludedDirectories.contains name && !Text.startsWith name "."
    && !ignores walk.rules (relativeText (names ++ [name])) true

def ownFiles (walk : Walk) (names : List String) (entries : List (String × Entry)) : List (List String) :=
  (entries.filter (fun entry => !entry.2.isDirectory && walk.admitsFile names entry.1)).map
    (fun entry => names ++ [entry.1])

mutual

def below (walk : Walk) (names : List String) : Entry → List (List String)
  | .file _ => []
  | .directory entries => walk.ownFiles names entries ++ walk.belowAll names entries

def belowAll (walk : Walk) (names : List String) : List (String × Entry) → List (List String)
  | [] => []
  | (name, entry) :: rest =>
    (if walk.entersDirectory names name then walk.below (names ++ [name]) entry else [])
      ++ walk.belowAll names rest

end

/-- The files below a directory. The rules see paths relative to the base. -/
def files (walk : Walk) (disk : Disk) (directory base : Path) : Except OutsideFault (List Path) :=
  match disk.entry? directory with
  | some (.directory entries) =>
    match directory.relativeTo? base with
    | some names => .ok ((walk.below names (.directory entries)).map base.below)
    | none => .error ⟨directory, base⟩
  | _ => .ok []

end Walk
end Refit
