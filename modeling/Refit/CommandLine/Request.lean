import Refit.CommandLine.Arguments
import Refit.Json.Value
import Refit.Log.Router
import Refit.Run.Options

namespace Refit.CommandLine

def lineWidth : Nat := 78

def farthestColumn : Nat := 24

def blanks (count : Nat) : String := String.ofList (List.replicate count ' ')

/-- Puts words on lines as long as they fit; `column` is where the line is that was begun. -/
def fill (width : Nat) (indent : Nat) : Nat → List String → List String → List (List String)
  | _, line, [] => if line.isEmpty then [] else [line]
  | column, line, word :: rest =>
    if width < column + 1 + word.length && !line.isEmpty then
      line :: fill width indent (indent + word.length) [word] rest
    else fill width indent (column + 1 + word.length) (line ++ [word]) rest

def wrap (width : Nat) (text : String) : List String :=
  let words := (Text.split ' ' text).filter (· ≠ "")
  match words with
  | [] => []
  | first :: rest => (fill width 0 first.length [first] rest).map (String.intercalate " ")

def Setting.usage (setting : Setting) : String :=
  let name := setting.names.headD ""
  match setting.placeholder with
  | some placeholder => "[" ++ name ++ " " ++ placeholder ++ "]"
  | none => "[" ++ name ++ "]"

def Positional.usage : Positional → List String
  | .optional name _ => ["[" ++ name ++ "]"]
  | .command _ choices => [braced (choices.map (·.1)), "..."]

def usageWord : String := "usage: "

/-- How a command is called. The argument starts a line of its own if one line is not enough. -/
def Command.usage (command : Command) : String :=
  let options := command.settings.map Setting.usage
  let arguments := command.positional.usage
  let whole := String.intercalate " " (command.program :: options ++ arguments)
  if usageWord.length + whole.length ≤ lineWidth then usageWord ++ whole ++ "\n"
  else
    let indent := usageWord.length + command.program.length + 1
    let first := fill lineWidth indent (indent - 1) [command.program] options
    let second := fill lineWidth indent (indent - 1) [] arguments
    let lines := (first ++ second).map (String.intercalate " ")
    usageWord ++ String.intercalate ("\n" ++ blanks indent) lines ++ "\n"

structure Entry where
  indent : Nat
  title : String
  about : String

def Setting.entry (setting : Setting) : Entry :=
  let named (name : String) : String :=
    match setting.placeholder with
    | some placeholder => name ++ " " ++ placeholder
    | none => name
  ⟨2, String.intercalate ", " (setting.names.map named), setting.about⟩

def Positional.entries : Positional → List Entry
  | .optional name about => [⟨2, name, about⟩]
  | .command _ choices =>
    ⟨2, braced (choices.map (·.1)), ""⟩ :: choices.map (fun choice => ⟨4, choice.1, choice.2⟩)

/-- An entry with its explanation from a column on. A title that is too long has a line of its own. -/
def Entry.text (column : Nat) (entry : Entry) : String :=
  let lines := wrap (lineWidth - column) entry.about
  let head := blanks entry.indent ++ entry.title
  if lines.isEmpty then head ++ "\n"
  else
    let start :=
      if head.length + 2 ≤ column then head ++ blanks (column - head.length) else head ++ "\n" ++ blanks column
    start ++ String.intercalate ("\n" ++ blanks column) lines ++ "\n"

def listing (title : String) (column : Nat) (entries : List Entry) : String :=
  "\n" ++ title ++ ":\n" ++ String.join (entries.map (Entry.text column))

def Command.help (command : Command) : String :=
  let arguments := command.positional.entries
  let options := command.settings.map Setting.entry
  let longest := ((arguments ++ options).map (fun entry => entry.title.length + 2)).foldl max 0
  let column := min (longest + 2) farthestColumn
  command.usage
    ++ (match command.about with
      | some about => "\n" ++ String.join ((wrap lineWidth about).map (· ++ "\n"))
      | none => "")
    ++ listing "positional arguments" column arguments
    ++ listing "options" column options

def helpSetting : Setting := ⟨["-h", "--help"], .help, "show this help message and exit"⟩

def verboseSetting : Setting := ⟨["-v", "--verbose"], .flag, "Increase log verbosity for troubleshooting."⟩

def pathArgument : Positional :=
  .optional "path" "Path to the source project (defaults to current directory)."

def valueSetting (names : List String) (placeholder about : String) : Setting :=
  ⟨names, .value placeholder [], about⟩

def choiceSetting (name : String) (choices : List String) (about : String) : Setting :=
  ⟨[name], .value "" choices, about⟩

def flagSetting (name about : String) : Setting := ⟨[name], .flag, about⟩

def mainCommand : Command :=
  { program := Log.programName
    about := some "Migrate generated React projects onto @xala-technologies/ui-system."
    settings :=
      [helpSetting, verboseSetting,
       valueSetting ["--log-file"] "LOG_FILE" "Also write a DEBUG-level log of the run to this file."]
    positional :=
      .command "command"
        [("migrate", "Migrate a source project into a new output directory."),
         ("detect", "Report which adapter recognises a project.")] }

def migrateCommand : Command :=
  { program := Log.programName ++ " migrate"
    about := none
    settings :=
      [helpSetting, verboseSetting,
       valueSetting ["-o", "--output"] "OUTPUT" "Directory to write the migrated project into.",
       valueSetting ["--adapter"] "ADAPTER" "Force a source adapter instead of auto-detection.",
       choiceSetting "--platform" Platform.choices "Target platform.",
       choiceSetting "--styling" TargetStyling.choices "Target styling approach.",
       flagSetting "--preserve-structure" "Mirror component sub-directories in the output.",
       flagSetting "--backup" "Copy the source project next to the output before migrating.",
       flagSetting "--migrate-tests" "Carry component tests into the output.",
       flagSetting "--migrate-stories" "Carry component stories into the output.",
       flagSetting "--typescript" "Emit TypeScript even for JavaScript sources.",
       flagSetting "--localization" "Add i18n hooks and locale files.",
       flagSetting "--compliance" "Add compliance documentation.",
       flagSetting "--dry-run" "Run every transform without writing files.",
       flagSetting "--rollback-on-failure"
         "Restore the output from the backup when the run reports errors (requires --backup)."]
    positional := pathArgument }

def detectCommand : Command :=
  { program := Log.programName ++ " detect"
    about := none
    settings := [helpSetting, verboseSetting]
    positional := pathArgument }

structure MigrateRequest where
  path : String
  adapter : Option String
  /-- The options that are given on the command line; an empty value is one that is not given. -/
  overrides : List (String × Json.Value)
  rollbackOnFailure : Bool

inductive Task where
  | detect (path : String)
  | migrate (request : MigrateRequest)

structure Request where
  verbose : Bool
  logFile : Option String
  task : Task

namespace Arguments

def value? (arguments : Arguments) (name : String) : Option String :=
  (arguments.options.reverse.lookup name).getD none

def flag (arguments : Arguments) (name : String) : Bool := (arguments.options.lookup name).isSome

/-- The argument that is a path; without one it is the current directory. -/
def path (arguments : Arguments) : String := (arguments.positional.getD []).headD "."

def valueOverride (arguments : Arguments) (option name : String) : String × Json.Value :=
  (option, ((arguments.value? name).map Json.Value.string).getD .null)

def flagOverride (arguments : Arguments) (option name : String) : String × Json.Value :=
  (option, if arguments.flag name then .bool true else .null)

def migrateRequest (arguments : Arguments) : MigrateRequest :=
  { path := arguments.path
    adapter := arguments.value? "--adapter"
    overrides :=
      [arguments.valueOverride "output_path" "--output",
       arguments.valueOverride "target_platform" "--platform",
       arguments.valueOverride "target_styling" "--styling",
       arguments.flagOverride "preserve_structure" "--preserve-structure",
       arguments.flagOverride "create_backup" "--backup",
       arguments.flagOverride "migrate_tests" "--migrate-tests",
       arguments.flagOverride "migrate_stories" "--migrate-stories",
       arguments.flagOverride "convert_to_typescript" "--typescript",
       arguments.flagOverride "add_localization" "--localization",
       arguments.flagOverride "add_compliance" "--compliance",
       arguments.flagOverride "dry_run" "--dry-run"]
    rollbackOnFailure := arguments.flag "--rollback-on-failure" }

end Arguments

structure Ending where
  code : Nat
  out : String := ""
  err : String := ""
  deriving DecidableEq

def Command.ending (command : Command) : Stop → Ending
  | .help => { code := 0, out := command.help }
  | .fault message => { code := 2, err := command.usage ++ command.program ++ ": error: " ++ message ++ "\n" }

def Command.arguments (command : Command) (texts : List String) : Except Ending Arguments :=
  (command.read texts).mapError command.ending

def Request.read (texts : List String) : Except Ending Request := do
  let main ← mainCommand.arguments texts
  let chosen := main.positional.getD []
  let isDetect := chosen.head? = some "detect"
  let arguments ← (if isDetect then detectCommand else migrateCommand).arguments (chosen.drop 1)
  let extras := main.extras ++ arguments.extras
  if !extras.isEmpty then
    throw (mainCommand.ending (.fault ("unrecognized arguments: " ++ String.intercalate " " extras)))
  pure
    { verbose := main.flag "--verbose" || arguments.flag "--verbose"
      logFile := (main.value? "--log-file").filter (· ≠ "")
      task := if isDetect then .detect arguments.path else .migrate arguments.migrateRequest }

end Refit.CommandLine
