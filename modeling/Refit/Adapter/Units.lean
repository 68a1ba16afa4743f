import Refit.Adapter.Detect
import Refit.Output.Artifacts

namespace Refit

namespace Styles

def tokenBlock : List Char :=
  (":root \x7b\n  /* Norwegian design tokens */\n  --color-norway-blue: #003d82;\n"
    ++ "  --color-norway-red: #ba0c2f;\n  --color-norway-white: #ffffff;\n").toList

def afterRoot? (text : List Char) : Option (List Char) :=
  if ":root".toList.isPrefixOf text then
    match (text.drop 5).dropWhile Text.isBlank with
    | '\x7b' :: rest => some rest
    | _ => none
  else none

def injectInto : List Char → List Char
  | [] => []
  | c :: rest =>
    match afterRoot? (c :: rest) with
    | some body => tokenBlock ++ body
    | none => c :: injectInto rest

def injectTokens (css : String) : String := String.ofList (injectInto css.toList)

end Styles

structure CarriedStyle where
  source : String
  name : String
  content : String

/-- A framework together with all that its units depend on. -/
structure Workshop where
  dialect : Dialect
  options : Options
  rules : List IgnoreRule
  render : Output.Renderer

namespace Workshop

def convertUnit (shop : Workshop) (disk : Disk) (analysis : Analysis) (relative : String) :
    Except Fault Conversion.Converted := do
  let text ← disk.readText ((Path.ofString analysis.root).join (Path.ofString relative))
  let source ← (Source.parse relative text).mapError .source
  (Conversion.convert shop.dialect.rules shop.options.platform.name source).mapError .edit

def templateModules : List String := ["react", "react-i18next", Conversion.targetLibrary]

def isStyleImport (decl : ImportDecl) : Bool :=
  Text.startsWith decl.moduleName "." && FileKind.styleExtensions.any (Text.endsWith decl.moduleName ·)

def keptImports (decls : List ImportDecl) : List String :=
  (decls.filter (fun decl => !templateModules.contains decl.moduleName && !isStyleImport decl)).map (·.text)

def parameter (prop : ComponentProp) : String :=
  match prop.defaultValue with
  | some value => prop.name ++ " = " ++ value
  | none => prop.name

def parameters (props : List ComponentProp) (localized : Bool) : List String :=
  props.map parameter ++ ["className"] ++ (if localized then ["ariaLabel"] else [])

def targetNames (converted : Conversion.Converted) (required : List String) : List String :=
  Conversion.sortedDistinct (converted.plan.targetNames ++ converted.elements ++ required)

def propValue (prop : ComponentProp) : Json.Value :=
  .object
    [("name", .string prop.name), ("type", .string prop.type), ("required", .bool prop.required),
     ("default_value", prop.defaultValue.elim .null .string)]

def utilityClasses (options : Options) : String :=
  if options.styling = .tailwind then " p-4 rounded-lg" else ""

def hookContext (shop : Workshop) (component : Component) (analysis : Analysis)
    (converted : Conversion.Converted) : Template.Context :=
  [("name", .string (Naming.identifier component.name)),
   ("typed", .bool (Output.isTyped analysis shop.options)),
   ("imports", Output.strings (converted.plan.runtimeImports ++ keptImports converted.plan.passedThrough)),
   ("hooks", Output.strings converted.hooks),
   ("complexity", .int component.complexity),
   ("source_label", .string shop.dialect.description)]

def componentContext (shop : Workshop) (component : Component) (analysis : Analysis)
    (converted : Conversion.Converted) : Template.Context :=
  let localized := shop.options.addLocalization
  shop.hookContext component analysis converted ++
    [("props", .array (component.props.map propValue)),
     ("parameters", Output.strings (parameters component.props localized)),
     ("localization", .bool localized),
     ("target_names", Output.strings (targetNames converted ["Container"])),
     ("class_names", Output.strings
       ["'" ++ Naming.kebab component.name ++ utilityClasses shop.options ++ "'", "className"]),
     ("translation_key", .string (Naming.camel component.name)),
     ("kind", .string component.kind.text),
     ("elements", Output.strings converted.elements)]

def component (shop : Workshop) (disk : Disk) (component : Component) (analysis : Analysis) :
    Report String := do
  Report.note .debug shop.dialect.part ("Transforming component " ++ component.name)
  Report.ofExcept do
    let converted ← shop.convertUnit disk analysis component.path
    if component.kind = .hook then
      shop.render "hook.js.j2" (shop.hookContext component analysis converted)
    else shop.render "component.jsx.j2" (shop.componentContext component analysis converted)

def nonEmptyOr (text fallback : String) : String := if text.isEmpty then fallback else text

def heading (page : Page) (localized : Bool) : String :=
  if localized then
    "\x7bt('pages." ++ nonEmptyOr (Naming.camel page.name) "index" ++ ".title')\x7d"
  else Output.pageBase page.name

def pageContext (shop : Workshop) (page : Page) (analysis : Analysis)
    (converted : Conversion.Converted) : Template.Context :=
  let options := shop.options
  [("identifier", .string (Output.pageIdentifier page.name)),
   ("name", .string page.name),
   ("route", .string page.route),
   ("slug", .string (nonEmptyOr (Naming.kebab page.name) "index")),
   ("typed", .bool (Output.isTyped analysis options)),
   ("platform", .string options.platform.name),
   ("head_tag", .string (if options.platform = .nextjs then "Head" else "Helmet")),
   ("has_auth", .bool page.hasAuth),
   ("has_layout", .bool page.hasLayout),
   ("data_fetching", page.dataFetching.elim .null .string),
   ("localization", .bool options.addLocalization),
   ("title", .string (nonEmptyOr (page.about.title.getD "") (Output.pageBase page.name ++ " | App"))),
   ("description", page.about.description.elim .null .string),
   ("heading", .string (heading page options.addLocalization)),
   ("components", Output.strings page.components),
   ("target_names", Output.strings (targetNames converted ["Container", "Typography"])),
   ("source_label", .string shop.dialect.description)]

def page (shop : Workshop) (disk : Disk) (page : Page) (analysis : Analysis) : Report String := do
  Report.note .debug shop.dialect.part ("Transforming page " ++ page.name)
  Report.ofExcept do
    let converted ← shop.convertUnit disk analysis page.path
    shop.render "page.jsx.j2" (shop.pageContext page analysis converted)

def companion (shop : Workshop) (disk : Disk) (relative : String) (analysis : Analysis) :
    Except Fault String := do
  let converted ← shop.convertUnit disk analysis relative
  pure converted.text

def generatedStyles (shop : Workshop) (analysis : Analysis) : Except Fault (List (String × String)) :=
  let extended : Template.Context := [("extended", .bool shop.dialect.extendedTokens)]
  let typed := Output.isTyped analysis shop.options
  match shop.options.styling with
  | .tailwind => do
      let globals ← shop.render "styles/globals.css.j2" extended
      let tokens ← shop.render "styles/tokens.css.j2" extended
      pure [("globals.css", globals), ("tokens.css", tokens)]
  | .styledComponents => do
      let extension := Output.scriptExtension typed
      let theme ← shop.render "styles/theme.js.j2" [("typed", .bool typed)]
      let globalStyle ← shop.render "styles/global-styles.js.j2" []
      pure [("theme" ++ extension, theme), ("GlobalStyle" ++ extension, globalStyle)]
  | .cssModules => do
      let tokens ← shop.render "styles/tokens.css.j2" extended
      let base ← shop.render "styles/base.module.css.j2" []
      pure [("tokens.css", tokens), ("base.module.css", base)]
  | .other _ => pure []

def extraStyles (shop : Workshop) : Except Fault (List (String × String)) :=
  if shop.dialect.extendedTokens && shop.options.styling = .tailwind then do
    let text ← shop.render "styles/components.css.j2" [("extended", .bool true)]
    pure [("components.css", text)]
  else pure []

def styles (shop : Workshop) (analysis : Analysis) : Except Fault (List (String × String)) := do
  let generated ← shop.generatedStyles analysis
  let extra ← shop.extraStyles
  pure (extra.foldl (fun files file => Json.insert files file.1 file.2) generated)

/-- A style file of the source, with the design tokens. A name that a generated file has is changed. -/
def carriedStyle (disk : Disk) (analysis : Analysis) (generated : List String) (relative : String) :
    Except Fault CarriedStyle := do
  let own := (Path.ofString relative).name
  let name := if generated.contains own then "legacy-" ++ own else own
  let content ← disk.readText ((Path.ofString analysis.root).join (Path.ofString relative))
  pure ⟨relative, name, Styles.injectTokens content⟩

def carriedStyles (shop : Workshop) (disk : Disk) (styling : StyleUse) (analysis : Analysis)
    (generated : List (String × String)) : Except Fault (List CarriedStyle) :=
  if shop.dialect.carriesStyles then
    styling.files.mapM (carriedStyle disk analysis (generated.map (·.1)))
  else pure []

def excludedPackages (dialect : Dialect) (analysis : Analysis) : List String :=
  (analysis.allDependencies.map (·.1)).filter (fun name =>
    dialect.rules.classify name ≠ .unrelated || dialect.profile.dependencies.contains name)

def manifest (shop : Workshop) (analysis : Analysis) : Json.Value :=
  Output.manifest analysis shop.options
    ("Migrated from " ++ shop.dialect.description ++ " to " ++ Conversion.targetLibrary)
    (excludedPackages shop.dialect analysis)

def configuration (shop : Workshop) (analysis : Analysis) : Except Fault (List (String × String)) :=
  Output.configuration shop.render analysis shop.options

end Workshop
end Refit
