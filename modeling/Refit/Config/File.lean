import Refit.Fault
import Refit.Run.Options
import Refit.Yaml.Value

namespace Refit

structure Config where
  root : Path
  adapter : Option String := none
  outputPath : Option String := none
  excludePaths : List String := []
  options : List (String × Json.Value) := []

namespace Config

def flagNames : List String :=
  ["preserve_structure", "create_backup", "migrate_tests", "migrate_stories", "convert_to_typescript",
   "add_localization", "add_compliance", "dry_run"]

def choose (name : String) (choices : List String) (value : Json.Value) : Except Fault String :=
  let text := Text.lower (Text.trim (Json.plain value))
  if choices.contains text then .ok text
  else .error (.config (.noChoice name choices (Json.shown value)))

def text? : Yaml.Value → Except Fault (Option String)
  | .string value => .ok (some value)
  | .bool value => .ok (some (Json.plain (.bool value)))
  | .float value => .ok (some (Json.plain (.float value)))
  | .int value =>
    if Nat.pow 10 Decimal.longestInteger ≤ value.natAbs then .error (.configValue .hugeInteger)
    else .ok (some (toString value))
  | _ => .ok none

def flag? : Yaml.Value → Option Bool
  | .bool value => some value
  | .string value =>
    let word := Text.lower (Text.trim value)
    if ["true", "yes", "1"].contains word then some true
    else if ["false", "no", "0"].contains word then some false
    else none
  | _ => none

def texts : Yaml.Value → Except Fault (List String)
  | .string value => .ok [value]
  | .list items => do pure ((← items.mapM text?).filterMap id)
  | .bytes bytes => .ok (bytes.map (fun byte => toString byte.toNat))
  | _ => .ok []

def entries : Yaml.Value → List (String × Yaml.Value)
  | .table entries => entries
  | _ => []

def entry (entries : List (String × Yaml.Value)) (name : String) : Yaml.Value :=
  (Json.lookup entries name).getD .null

def isVoid : Yaml.Value → Bool
  | .null => true
  | .bool value => !value
  | .int value => value = 0
  | .float value => value == 0.0
  | .string value => value.isEmpty
  | .bytes bytes => bytes.isEmpty
  | .list items => items.isEmpty
  | .table entries => entries.isEmpty
  | .other isEmpty => isEmpty

def choice (options : List (String × Yaml.Value)) (name : String) (choices : List String) :
    Except Fault (List (String × Json.Value)) := do
  match ← text? (entry options name) with
  | none => pure []
  | some text => pure [(name, .string (← choose name choices (.string text)))]

/-- The settings in the value of a file. A relative output path starts at the directory of the
    file. -/
def ofValue (root : Path) (value : Yaml.Value) : Except Fault Config := do
  let settings ←
    match value with
    | .table entries => pure entries
    | other => if isVoid other then pure [] else throw (.config .notMapping)
  let given := entries (entry settings "options")
  let flags := flagNames.filterMap (fun name =>
    (flag? (entry given name)).map (fun flag => (name, Json.Value.bool flag)))
  let platform ← choice given "target_platform" Platform.choices
  let styling ← choice given "target_styling" TargetStyling.choices
  let output ← text? (entry settings "output_path")
  pure
    { root := root
      adapter := ← text? (entry settings "adapter")
      outputPath := output.map (fun text =>
        if (Path.ofString text).isAbsolute then text else (root.join (Path.ofString text)).toString)
      excludePaths := ← texts (entry settings "exclude_paths")
      options := flags ++ platform ++ styling }

def depth : Nat := 3

def parse (text : String) : Except Fault Yaml.Value :=
  if (Text.trim text).isEmpty then .ok .null
  else
    match Yaml.Document.load text.toList with
    | .ok document => .ok (document.value depth)
    | .error (.value fault) => .error (.configValue fault)
    | .error fault => .error (.config (.unreadable fault))

def locate (disk : Disk) (path : Path) : Except Fault Path :=
  match disk.expandUser path with
  | none => .error .noHome
  | some expanded =>
    let file :=
      if disk.isDirectory expanded then expanded.child ConfigFault.fileName
      else if expanded.name ≠ ConfigFault.fileName then expanded.parent.child ConfigFault.fileName
      else expanded
    if file.names.any (·.toList.contains '\x00') then .error .nullInPath else .ok (disk.resolve file)

def load (disk : Disk) (path : Path) : Except Fault Config := do
  let file ← locate disk path
  if disk.exists? file then ofValue file.parent (← parse (← disk.readText file))
  else pure { root := file.parent }

end Config

namespace OptionsOf

def names : List String := ["output_path", "target_platform", "target_styling"] ++ Config.flagNames

def settings (options : List (String × Json.Value)) (outputPath : Json.Value)
    (overrides : List (String × Json.Value)) : List (String × Json.Value) :=
  let configured := if outputPath.isTrue then Json.insert options "output_path" outputPath else options
  overrides.foldl
    (fun settings override =>
      match override.2 with
      | .null => settings
      | value => Json.insert settings override.1 value)
    configured

def sorted (names : List String) : List String := names.mergeSort (fun left right => left ≤ right)

def outputPath? : Json.Value → Except Fault String
  | .string text => .ok text
  | value => .error (.notPath (Json.typeName value))

def ofSettings (disk : Disk) (settings : List (String × Json.Value)) :
    Except Fault (OptionsOf Json.Value) := do
  let unknown := (settings.map (·.1)).filter (fun name => !names.contains name)
  if !unknown.isEmpty then throw (.config (.unknownOptions (sorted unknown)))
  let setting (name : String) (fallback : Json.Value) : Json.Value :=
    (Json.lookup settings name).getD fallback
  let output := setting "output_path" .null
  if !output.isTrue then throw (.config .noOutput)
  let platform ←
    Config.choose "target_platform" Platform.choices (setting "target_platform" (.string "react"))
  let styling ←
    Config.choose "target_styling" TargetStyling.choices (setting "target_styling" (.string "tailwind"))
  let path ← disk.resolveUser (Path.ofString (← outputPath? output))
  let flag (name : String) : Json.Value := setting name (.bool false)
  pure
    { outputPath := path.toString
      preserveStructure := flag "preserve_structure"
      createBackup := flag "create_backup"
      migrateTests := flag "migrate_tests"
      migrateStories := flag "migrate_stories"
      convertToTypescript := flag "convert_to_typescript"
      addLocalization := flag "add_localization"
      addCompliance := flag "add_compliance"
      platform := Platform.ofName platform
      styling := TargetStyling.ofName styling
      dryRun := flag "dry_run" }

def ofConfig (disk : Disk) (config : Config) (overrides : List (String × Json.Value)) :
    Except Fault (OptionsOf Json.Value) :=
  ofSettings disk
    (settings config.options ((config.outputPath.map Json.Value.string).getD .null) overrides)

end OptionsOf
end Refit
