import Refit.Files.Disk
import Refit.Log.Router
import Refit.Source.Basic
import Refit.Source.Edit
import Refit.Template.Render
import Refit.Yaml.Fault

namespace Refit

inductive ConfigFault where
  | unreadable (fault : Yaml.Fault)
  | notMapping
  /-- A setting with a value that is none of the choices; the value is given as it is shown. -/
  | noChoice (name : String) (choices : List String) (shown : String)
  | unknownOptions (names : List String)
  | noOutput
  deriving DecidableEq

namespace ConfigFault

def fileName : String := ".uimigrate.yml"

def message : ConfigFault → String
  | unreadable fault => "Failed to parse " ++ fileName ++ ": " ++ fault.message
  | notMapping => fileName ++ " must contain a mapping at the root"
  | noChoice name choices shown =>
    name ++ " must be one of " ++ String.intercalate ", " choices ++ " (got " ++ shown ++ ")"
  | unknownOptions names => "Unknown migration options: " ++ String.intercalate ", " names
  | noOutput => "An output path is required (set output_path or pass --output)"

end ConfigFault

inductive RegistryFault where
  | notLoaded (name message : String)
  | notAdapter
  | unknown (name : String)
  deriving DecidableEq

def RegistryFault.message : RegistryFault → String
  | notLoaded name message => "Failed to load adapter entry point '" ++ name ++ "': " ++ message
  | notAdapter => "Adapter entry point must be a SourceAdapter subclass or factory"
  | unknown name => "Unknown adapter requested: " ++ name

inductive Fault where
  | source (fault : SourceFault)
  | edit (fault : EditFault)
  | undecodable (fault : Text.Utf8.Fault)
  | file (fault : FileFault)
  | outside (fault : OutsideFault)
  | template (fault : TemplateFault)
  | config (fault : ConfigFault)
  | configValue (fault : Yaml.ValueFault)
  | longInteger (digits : Nat)
  /-- A value of a type that cannot be a path. -/
  | notPath (type : String)
  /-- A layout that names no directory where one is needed. -/
  | noCandidate
  | noHome
  | nullInPath
  | nameless (path : String)
  | registry (fault : RegistryFault)
  | unrecognised (project : String)
  | foreignProject (project description : String)
  | outputNotEmpty (output : String)
  | notAnalyzed
  | noAdapter
  | noBackup
  | backupMissing (path : String)
  | supplied (message : String)

namespace Fault

def message : Fault → String
  | source fault => fault.message
  | edit fault => fault.message
  | undecodable fault => fault.message
  | file fault => fault.message
  | outside fault => fault.message
  | template fault => fault.message
  | config fault => fault.message
  | configValue fault => fault.message
  | longInteger digits => Decimal.overlongText digits
  | notPath type => "expected str, bytes or os.PathLike object, not " ++ type
  | noCandidate => "tuple index out of range"
  | noHome => "Could not determine home directory."
  | nullInPath => "embedded null byte"
  | nameless path => "PosixPath(" ++ Text.Quoted.encode path ++ ") has an empty name"
  | registry fault => fault.message
  | unrecognised project => "No adapter can migrate the project at " ++ project
  | foreignProject project description => project ++ " is not a " ++ description ++ " project"
  | outputNotEmpty output =>
    "Output directory " ++ output
      ++ " is not empty; migrating into existing content is not supported"
  | notAnalyzed => "Project has not been analyzed yet"
  | noAdapter => ""
  | noBackup => "No backup was recorded for this migration run"
  | backupMissing path => "Backup directory does not exist: " ++ path
  | supplied message => message

def isFileFault : Fault → Bool
  | file _ => true
  | _ => false

end Fault

namespace Disk

def readFile (disk : Disk) (path : Path) : Except Fault (List UInt8) :=
  (disk.readBytes path).mapError .file

def readText (disk : Disk) (path : Path) : Except Fault String := do
  let bytes ← disk.readFile path
  let text ← (Text.Utf8.decode bytes).mapError .undecodable
  pure (String.ofList (normalizeLines text.toList))

/-- The text of a file without what cannot be decoded. -/
def readLossy (disk : Disk) (path : Path) : Except Fault String := do
  let bytes ← disk.readFile path
  pure (String.ofList (normalizeLines (Text.Utf8.decodeLossy bytes).toList))

/-- The absolute path that a user means: with home directories for tildes and without double dots. -/
def resolveUser (disk : Disk) (path : Path) : Except Fault Path :=
  match disk.expandUser path with
  | none => .error .noHome
  | some expanded =>
    if expanded.names.any (·.toList.contains '\x00') then .error .nullInPath
    else .ok (disk.resolve expanded)

end Disk

abbrev Report := ExceptT Fault (StateM (List Log.Record))

namespace Report

def note (level : Log.Level) (part message : String) : Report Unit :=
  modify (· ++ [⟨level, part, message⟩])

def ofExcept {α : Type} : Except Fault α → Report α
  | .ok value => pure value
  | .error fault => throw fault

end Report
end Refit
